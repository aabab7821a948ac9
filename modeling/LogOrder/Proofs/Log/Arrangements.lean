import LogOrder.Log.Arranged
import LogOrder.Proofs.Policy.TotalOrder

/-!
# Arrangements of one log

The entries of a log have different lines, and the line decides last under every policy. So a
policy leaves no choice: there is one arrangement that it allows, in whatever order the entries are
handed over, and two policies that compare some entries alike put these in the same order.

* `eq_of_pairwise_cmp`: there is one arrangement that a policy allows;
* `arrange_line`: entries that come in the order of their lines stay where they are;
* `filter_arrange_congr`: policies that agree on some of the entries;
* `Shuffle` is a way to bring entries out of their order;
* **`arrange_canonical`**: entries in any order are arranged in the same way.
-/

namespace LogOrder.Log

/-- What a scan finds comes in the order of the lines, also if some could not be read. -/
theorem pairwise_line_entries (lines : List Bytes) :
    (Scan.feed {} lines).finish.entries.Pairwise fun a b => a.line < b.line := by
  rw [entries_finish_feed, Layout.entries, List.pairwise_map]
  refine (Layout.pairwise_line 0 lines).imp ?_
  intro a b hlt
  rwa [Block.line_entry, Block.line_entry]

theorem pairwise_line_contents {lines : List Bytes} {c : Contents} (hc : contents lines = .ok c) :
    c.entries.Pairwise fun a b => a.line < b.line := by
  obtain ⟨-, rfl⟩ := contents_eq_ok_iff.mp hc
  exact pairwise_line_entries lines

theorem eq_of_line_eq_contents {lines : List Bytes} {c : Contents} (hc : contents lines = .ok c)
    {a b : Entry} (ha : a ∈ c.entries) (hb : b ∈ c.entries) (h : a.key.line = b.key.line) :
    a = b := by
  obtain ⟨-, rfl⟩ := contents_eq_ok_iff.mp hc
  exact eq_of_line_eq ha hb h

/-- There is one arrangement that a policy allows, when the line tells the entries apart. -/
theorem eq_of_pairwise_cmp {p : Policy} {xs ys : List Entry}
    (hline : ∀ a ∈ xs, ∀ b ∈ ys, a.key.line = b.key.line → a = b)
    (hxs : xs.Pairwise fun a b => (p.cmp a.key b.key).isLE = true)
    (hys : ys.Pairwise fun a b => (p.cmp a.key b.key).isLE = true) (hperm : xs.Perm ys) :
    xs = ys := by
  refine List.Perm.eq_of_pairwise ?_ hxs hys hperm
  intro a b ha hb hab hba
  have heq : p.cmp a.key b.key = .eq := Std.OrientedCmp.isLE_antisymm hab hba
  exact hline a ha b hb ((Policy.cmp_eq_eq_iff p a.key b.key).mp heq).1

/-- Entries that come in the order of their lines stay where they are. -/
theorem arrange_line {entries : List Entry} (h : entries.Pairwise fun a b => a.line < b.line) :
    arrange .line entries = entries := by
  refine List.mergeSort_of_pairwise (h.imp ?_)
  intro a b hlt
  exact Nat.isLE_compare.mpr (Nat.le_of_lt hlt)

/-- Policies that compare some of the entries alike put these in the same order. -/
theorem filter_arrange_congr {lines : List Bytes} {c : Contents} {p q : Policy}
    {keep : Entry → Bool} (hc : contents lines = .ok c)
    (hcmp : ∀ a ∈ c.entries, ∀ b ∈ c.entries, keep a = true → keep b = true →
      p.cmp a.key b.key = q.cmp a.key b.key) :
    (arrange p c.entries).filter keep = (arrange q c.entries).filter keep := by
  have hmem : ∀ (r : Policy) (e : Entry), e ∈ (arrange r c.entries).filter keep →
      e ∈ c.entries ∧ keep e = true := by
    intro r e he
    obtain ⟨he, hkeep⟩ := List.mem_filter.mp he
    exact ⟨mem_arrange.mp he, hkeep⟩
  have hperm := ((arrange_perm p c.entries).trans (arrange_perm q c.entries).symm).filter keep
  have hq := (arrange_pairwise q c.entries).filter keep
  have hp : ((arrange p c.entries).filter keep).Pairwise fun a b =>
      (q.cmp a.key b.key).isLE = true := by
    refine ((arrange_pairwise p c.entries).filter keep).imp_of_mem ?_
    intro a b ha hb hle
    obtain ⟨ha, hkeepa⟩ := hmem p a ha
    obtain ⟨hb, hkeepb⟩ := hmem p b hb
    rwa [hcmp a ha b hb hkeepa hkeepb] at hle
  refine eq_of_pairwise_cmp ?_ hp hq hperm
  intro a ha b hb hline
  exact eq_of_line_eq_contents hc (hmem p a ha).1 (hmem q b hb).1 hline

/-! ## Entries in any order -/

/-- A way to change the order of entries. -/
inductive Shuffle where
  /-- They are arranged by some policy. -/
  | arrange (policy : Policy)
  /-- They are turned around. -/
  | reverse
  /-- Two of them change places. Nothing changes if there is no entry at one of the places. -/
  | swap (i j : Nat)
deriving DecidableEq, Repr

namespace Shuffle

/-- The entries in their new order. -/
def apply : Shuffle → List Entry → List Entry
  | .arrange policy, entries => Log.arrange policy entries
  | .reverse, entries => entries.reverse
  | .swap i j, entries => (entries.toArray.swapIfInBounds i j).toList

/-- The entries after several changes. -/
def run (steps : List Shuffle) (entries : List Entry) : List Entry :=
  steps.foldl (fun entries step => step.apply entries) entries

theorem apply_perm (step : Shuffle) (entries : List Entry) : (step.apply entries).Perm entries := by
  cases step with
  | arrange policy => exact arrange_perm policy entries
  | reverse => exact List.reverse_perm entries
  | swap i j =>
    show (entries.toArray.swapIfInBounds i j).toList.Perm entries.toArray.toList
    unfold Array.swapIfInBounds
    split
    · split
      · exact Array.perm_iff_toList_perm.mp (Array.swap_perm _ _)
      · exact List.Perm.refl _
    · exact List.Perm.refl _

theorem run_perm (steps : List Shuffle) (entries : List Entry) :
    (run steps entries).Perm entries := by
  induction steps generalizing entries with
  | nil => exact List.Perm.refl entries
  | cons step steps ih => exact (ih (step.apply entries)).trans (step.apply_perm entries)

end Shuffle

/-- Entries that the line tells apart are arranged in one way, in whatever order they come. -/
theorem arrange_congr_perm {xs entries : List Entry}
    (hline : ∀ a ∈ entries, ∀ b ∈ entries, a.key.line = b.key.line → a = b)
    (hperm : xs.Perm entries) (p : Policy) : arrange p xs = arrange p entries := by
  refine eq_of_pairwise_cmp ?_ (arrange_pairwise p xs) (arrange_pairwise p entries)
    ((arrange_perm p xs).trans (hperm.trans (arrange_perm p entries).symm))
  intro a ha b hb
  exact hline a (hperm.mem_iff.mp (mem_arrange.mp ha)) b (mem_arrange.mp hb)

/-- **Arranging is canonical.** What a policy makes of the entries of a log, whether or not all its
lines could be read, does not depend on the order in which it gets them: they may have been
arranged by other policies, turned around and exchanged before. The order of the log is found again
as it was. -/
theorem arrange_canonical {lines : List Bytes} {c : Contents}
    (hc : c = (Scan.feed {} lines).finish ∨ contents lines = .ok c) {entries : List Entry}
    (hperm : entries.Perm c.entries) :
    (∀ p, arrange p entries = arrange p c.entries) ∧
    arrange .line entries = c.entries ∧
    ∀ steps : List Shuffle,
      (∀ p, arrange p (Shuffle.run steps entries) = arrange p c.entries) ∧
      arrange .line (Shuffle.run steps entries) = c.entries := by
  have hfound : c.entries = (Scan.feed {} lines).finish.entries := by
    rcases hc with rfl | hc
    · rfl
    · obtain ⟨-, rfl⟩ := contents_eq_ok_iff.mp hc
      rfl
  rw [hfound] at hperm ⊢
  have hline : ∀ a ∈ (Scan.feed {} lines).finish.entries,
      ∀ b ∈ (Scan.feed {} lines).finish.entries, a.key.line = b.key.line → a = b :=
    fun _ ha _ hb => eq_of_line_eq ha hb
  have hall : ∀ xs : List Entry, xs.Perm (Scan.feed {} lines).finish.entries →
      (∀ p, arrange p xs = arrange p (Scan.feed {} lines).finish.entries) ∧
      arrange .line xs = (Scan.feed {} lines).finish.entries := by
    intro xs hxs
    refine ⟨arrange_congr_perm hline hxs, ?_⟩
    rw [arrange_congr_perm hline hxs, arrange_line (pairwise_line_entries lines)]
  obtain ⟨harrange, hback⟩ := hall entries hperm
  exact ⟨harrange, hback, fun steps => hall _ ((Shuffle.run_perm steps entries).trans hperm)⟩

/-- Two entries with one stamp and one that goes back, from the last to the first. -/
theorem arrange_canonical_reversed : ∃ (log : Bytes) (c : Contents),
    contents (Line.cut log) = .ok c ∧ c.entries.map Entry.line = [0, 1, 3] ∧
    c.entries.reverse ≠ c.entries ∧
    arrange .threadChrono c.entries.reverse = arrange .threadChrono c.entries ∧
    arrange .line (Shuffle.run [.arrange .chrono, .swap 0 2, .reverse] c.entries.reverse) =
      c.entries := by
  obtain ⟨c, hc, hlines, hreverse⟩ : ∃ c, contents (Line.cut (Bytes.ofString
      ("[2024-01-01 00:00:00:005] [thread-1] b\n[2024-01-01 00:00:00:001] a\n  at x\n" ++
        "[2024-01-01 00:00:00:005] [thread-1] c"))) = .ok c ∧
      c.entries.map Entry.line = [0, 1, 3] ∧ c.entries.reverse ≠ c.entries :=
    ⟨_, rfl, by decide, by decide⟩
  obtain ⟨hall, -, hsteps⟩ := arrange_canonical (.inr hc) (List.reverse_perm c.entries)
  exact ⟨_, c, hc, hlines, hreverse, hall .threadChrono, (hsteps _).2⟩

end LogOrder.Log
