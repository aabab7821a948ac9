import LogOrder.Log.Arranged
import LogOrder.Proofs.Policy.TotalOrder

/-!
# Arranging any entries

Entries need not come from one log: a line number may stand twice, an entry may be there again with
another text, the numbers of groups may be made up, and so may the stamps, of whatever kind they
are. Policies are consistent on all of them, so arranging is a stable sort of whatever it is given.

* `exists_placed`: the entries in their new order, each with the place it had, tell what was moved;
* `filter_arrange_tied`: entries that compare equal keep their order;
* **`arrange_stable`**: what arranging any entries makes of them.
-/

namespace LogOrder.Log

/-- Places are counted from the first on, so later ones are greater. -/
theorem pairwise_snd_zipIdx {α : Type} (xs : List α) :
    xs.zipIdx.Pairwise fun a b => a.2 < b.2 := by
  have hplaces : (xs.zipIdx.map Prod.snd).Pairwise (· < ·) := by
    rw [List.zipIdx_map_snd]
    exact List.pairwise_lt_range'
  exact List.pairwise_map.mp hplaces

section Stable

variable {τ : Type} [Ord τ]

/-- The policy lets the one entry stand before the other. -/
def mayPrecede (p : Policy) (a b : Entry τ) : Bool := (p.cmp a.key b.key).isLE

variable [Std.TransOrd τ] (p : Policy) (entries : List (Entry τ))

/-- An arrangement moves the entries with their places. Of two that compare equal, the one that had
the earlier place still comes first. -/
theorem exists_placed : ∃ placed : List (Entry τ × Nat),
    placed.Perm entries.zipIdx ∧ placed.map Prod.fst = arrange p entries ∧
      placed.Pairwise fun a b => p.cmp a.1.key b.1.key = .eq → a.2 < b.2 := by
  have hperm := List.mergeSort_perm entries.zipIdx (List.zipIdxLE (mayPrecede p))
  have hsorted : (entries.zipIdx.mergeSort (List.zipIdxLE (mayPrecede p))).Pairwise fun a b =>
      List.zipIdxLE (mayPrecede p) a b = true :=
    List.pairwise_mergeSort (List.zipIdxLE_trans fun _ _ _ => Std.TransCmp.isLE_trans)
      (List.zipIdxLE_total fun a b => p.isLE_total a.key b.key) entries.zipIdx
  -- no place stands twice, also after the move
  have hdistinct := ((pairwise_snd_zipIdx entries).imp Nat.ne_of_lt).perm hperm.symm Ne.symm
  refine ⟨_, hperm, List.mergeSort_zipIdx, (hsorted.and hdistinct).imp ?_⟩
  rintro a b ⟨hle, hne⟩ heq
  have hba : p.cmp b.1.key a.1.key = .eq := Std.OrientedCmp.eq_comm.mp heq
  have hplace : a.2 ≤ b.2 := by
    simpa [List.zipIdxLE, mayPrecede, heq, hba] using hle
  exact Nat.lt_of_le_of_ne hplace hne

/-- The entries that compare equal with a given one are the same list before and after. -/
theorem filter_arrange_tied (e : Entry τ) :
    (arrange p entries).filter (fun a => p.cmp e.key a.key = .eq) =
      entries.filter fun a => p.cmp e.key a.key = .eq := by
  refine p.filter_mergeSort Entry.key ?_ entries
  intro a b ha hb
  have hea : p.cmp e.key a.key = .eq := of_decide_eq_true ha
  have heb : p.cmp e.key b.key = .eq := of_decide_eq_true hb
  have hab : p.cmp a.key b.key = .eq :=
    Std.TransCmp.eq_trans (Std.OrientedCmp.eq_comm.mp hea) heb
  rw [hab]
  rfl

end Stable

/-- **Arranging is a stable sort of any entries.** Whatever lines, stamps, groups and texts they
have, nothing is lost and nothing added; none stands after one that the policy puts later; those
that compare equal keep their order, any two of them and all together; and what is arranged once is
not changed by arranging it again. -/
theorem arrange_stable {τ : Type} [Ord τ] [Std.TransOrd τ] (p : Policy)
    (entries : List (Entry τ)) :
    (arrange p entries).Perm entries ∧
    (arrange p entries).Pairwise (fun a b => p.cmp a.key b.key ≠ .gt) ∧
    (∃ placed : List (Entry τ × Nat), placed.Perm entries.zipIdx ∧
      placed.map Prod.fst = arrange p entries ∧
      placed.Pairwise fun a b => p.cmp a.1.key b.1.key = .eq → a.2 < b.2) ∧
    (∀ e : Entry τ, (arrange p entries).filter (fun a => p.cmp e.key a.key = .eq) =
      entries.filter fun a => p.cmp e.key a.key = .eq) ∧
    arrange p (arrange p entries) = arrange p entries := by
  have hsorted := arrange_pairwise p entries
  refine ⟨arrange_perm p entries, hsorted.imp ?_, exists_placed p entries,
    filter_arrange_tied p entries, List.mergeSort_of_pairwise hsorted⟩
  intro a b hle
  exact Ordering.isLE_iff_ne_gt.mp hle

/-- One line for two entries, in a group that one of them gives as its thread and the other as the
group of those without. -/
theorem arrange_stable_tied :
    let stamp : Stamp :=
      { year := ⟨2024, by decide⟩, month := ⟨1, by decide⟩, day := ⟨1, by decide⟩
        hour := ⟨0, by decide⟩, minute := ⟨0, by decide⟩, second := ⟨0, by decide⟩
        milli := ⟨0, by decide⟩, possible := by decide }
    let marked : Entry :=
      { line := 3, stamp, thread := some 7, unmarked := 0, text := Bytes.ofString "b" }
    let plain : Entry :=
      { line := 3, stamp, thread := none, unmarked := 7, text := Bytes.ofString "c" }
    let first : Entry :=
      { line := 1, stamp, thread := none, unmarked := 7, text := Bytes.ofString "a" }
    (arrange .thread [marked, plain, first]).filter
      (fun a => Policy.cmp .thread marked.key a.key = .eq) = [marked, plain] := by
  intro stamp marked plain first
  obtain ⟨-, -, -, htied, -⟩ := arrange_stable .thread [marked, plain, first]
  rw [htied marked]
  decide

end LogOrder.Log
