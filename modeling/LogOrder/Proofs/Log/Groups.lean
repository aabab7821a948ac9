import LogOrder.Proofs.Log.Layout
import Mathlib.Data.List.Induction

/-!
# Groups of blocks

The blocks of one thread are a group, and the blocks that name no thread are one more. A group is
told from the others by the number of its first block.

* `firstIn_inj`: different groups have different first blocks;
* `pairwise_rank`: groups in the order of their first appearance have increasing numbers;
* `flatMap_filter_eq`: what is sorted by group falls into one piece for each group.
-/

namespace LogOrder.Log

/-- The number of the first block of a group: of a thread, or of the blocks that name none. -/
def firstIn (blocks : List Block) (group : Option Bytes) : Option Nat :=
  (blocks.find? fun b => b.name? == group).map Block.line

variable {blocks : List Block} {group : Option Bytes} {b : Block}

theorem firstIn_cons (b : Block) (blocks : List Block) (group : Option Bytes) :
    firstIn (b :: blocks) group =
      if b.name? = group then some b.line else firstIn blocks group := by
  by_cases h : b.name? = group
  · simp [firstIn, h]
  · simp [firstIn, h, beq_false_of_ne h]

theorem firstIn_append (as bs : List Block) (group : Option Bytes) :
    firstIn (as ++ bs) group = (firstIn as group).or (firstIn bs group) := by
  rw [firstIn, List.find?_append, Option.map_or]
  rfl

theorem exists_of_firstIn {first : Nat} (h : firstIn blocks group = some first) :
    ∃ b ∈ blocks, b.name? = group ∧ b.line = first := by
  obtain ⟨b, hb, hline⟩ := Option.map_eq_some_iff.mp h
  exact ⟨b, List.mem_of_find?_eq_some hb, by simpa using List.find?_some hb, hline⟩

theorem exists_firstIn (hb : b ∈ blocks) : ∃ first, firstIn blocks b.name? = some first := by
  induction blocks with
  | nil => exact absurd hb List.not_mem_nil
  | cons a blocks ih =>
    rw [firstIn_cons]
    by_cases h : a.name? = b.name?
    · exact ⟨a.line, if_pos h⟩
    · rw [if_neg h]
      rcases List.mem_cons.mp hb with rfl | hb
      · exact absurd rfl h
      · exact ih hb

theorem isSome_firstIn_iff : (firstIn blocks group).isSome ↔ group ∈ blocks.map Block.name? := by
  rw [List.mem_map, Option.isSome_iff_exists]
  constructor
  · rintro ⟨first, hfirst⟩
    obtain ⟨b, hb, hname, -⟩ := exists_of_firstIn hfirst
    exact ⟨b, hb, hname⟩
  · rintro ⟨b, hb, rfl⟩
    exact exists_firstIn hb

/-- No block of a group comes before the first one. -/
theorem firstIn_le (hs : blocks.Pairwise fun a b => a.line < b.line) (hb : b ∈ blocks) {first : Nat}
    (h : firstIn blocks b.name? = some first) : first ≤ b.line := by
  induction blocks with
  | nil => exact absurd hb List.not_mem_nil
  | cons a blocks ih =>
    obtain ⟨hlater, hrest⟩ := List.pairwise_cons.mp hs
    rw [firstIn_cons] at h
    by_cases hname : a.name? = b.name?
    · rw [if_pos hname] at h
      obtain rfl : a.line = first := Option.some.inj h
      rcases List.mem_cons.mp hb with rfl | hb
      · exact Nat.le_refl _
      · exact Nat.le_of_lt (hlater b hb)
    · rw [if_neg hname] at h
      rcases List.mem_cons.mp hb with rfl | hb
      · exact absurd rfl hname
      · exact ih hrest hb h

/-- Different groups have different first blocks. -/
theorem firstIn_inj (hs : blocks.Pairwise fun a b => a.line < b.line) {g h : Option Bytes}
    {first : Nat} (hg : firstIn blocks g = some first) (hh : firstIn blocks h = some first) :
    g = h := by
  obtain ⟨a, ha, rfl, hline⟩ := exists_of_firstIn hg
  obtain ⟨b, hb, rfl, hline'⟩ := exists_of_firstIn hh
  have hnodup : (blocks.map Block.line).Nodup := by
    rw [List.Nodup, List.pairwise_map]
    exact hs.imp Nat.ne_of_lt
  rw [List.inj_on_of_nodup_map hnodup ha hb (hline.trans hline'.symm)]

/-- Where a group stands among the others. -/
def rank (blocks : List Block) (group : Option Bytes) : Nat := (firstIn blocks group).getD 0

theorem rank_append {as : List Block} (h : group ∈ as.map Block.name?) (bs : List Block) :
    rank (as ++ bs) group = rank as group := by
  obtain ⟨a, ha, rfl⟩ := List.mem_map.mp h
  obtain ⟨first, hfirst⟩ := exists_firstIn ha
  rw [rank, rank, firstIn_append, hfirst, Option.some_or]

theorem firstIn_eq_none (h : group ∉ blocks.map Block.name?) : firstIn blocks group = none := by
  rwa [← Option.not_isSome_iff_eq_none, isSome_firstIn_iff]

/-- A group that appears with the last block has the number of that block. -/
theorem rank_concat (h : b.name? ∉ blocks.map Block.name?) :
    rank (blocks ++ [b]) b.name? = b.line := by
  rw [rank, firstIn_append, firstIn_eq_none h, firstIn_cons, if_pos rfl]
  rfl

theorem rank_lt (h : group ∈ blocks.map Block.name?) {n : Nat} (hn : ∀ b ∈ blocks, b.line < n) :
    rank blocks group < n := by
  obtain ⟨a, ha, rfl⟩ := List.mem_map.mp h
  obtain ⟨first, hfirst⟩ := exists_firstIn ha
  obtain ⟨b, hb, -, rfl⟩ := exists_of_firstIn hfirst
  rw [rank, hfirst]
  exact hn b hb

/-- Groups in the order of their first appearance have increasing numbers. -/
theorem pairwise_rank (hs : blocks.Pairwise fun a b => a.line < b.line) :
    (blocks.map Block.name?).eraseDups.Pairwise fun g h => rank blocks g < rank blocks h := by
  induction blocks using List.reverseRecOn with
  | nil => exact List.Pairwise.nil
  | append_singleton bs b ih =>
    obtain ⟨hbs, -, hlast⟩ := List.pairwise_append.mp hs
    have hold : (bs.map Block.name?).eraseDups.Pairwise fun g h =>
        rank (bs ++ [b]) g < rank (bs ++ [b]) h := by
      refine (ih hbs).imp_of_mem ?_
      intro g h hg hh hlt
      rwa [rank_append (List.mem_eraseDups.mp hg), rank_append (List.mem_eraseDups.mp hh)]
    rw [List.map_append, List.map_singleton, List.eraseDups_append]
    by_cases hb : b.name? ∈ bs.map Block.name?
    · -- the block belongs to a group that has appeared already
      have hnone : [b.name?].removeAll (bs.map Block.name?) = [] := by
        simpa [List.removeAll] using hb
      rw [hnone, List.eraseDups_nil, List.append_nil]
      exact hold
    · have hnew : ([b.name?].removeAll (bs.map Block.name?)).eraseDups = [b.name?] := by
        have hall : [b.name?].removeAll (bs.map Block.name?) = [b.name?] := by
          simpa [List.removeAll] using hb
        rw [hall, List.eraseDups_cons]
        rfl
      rw [hnew, List.pairwise_append]
      refine ⟨hold, List.pairwise_singleton _ _, ?_⟩
      intro g hg h hh
      have hmem := List.mem_eraseDups.mp hg
      rw [List.mem_singleton.mp hh, rank_append hmem, rank_concat hb]
      exact rank_lt hmem fun c hc => hlast c hc b List.mem_cons_self

/-! ## Pieces of a sorted list -/

section Pieces

variable {α γ : Type}

theorem filter_append_filter_not {keep : α → Bool} {xs : List α}
    (h : xs.Pairwise fun a b => keep b = true → keep a = true) :
    xs.filter keep ++ xs.filter (fun a => !keep a) = xs := by
  induction xs with
  | nil => rfl
  | cons a xs ih =>
    obtain ⟨hhead, htail⟩ := List.pairwise_cons.mp h
    by_cases ha : keep a = true
    · rw [List.filter_cons_of_pos ha, List.filter_cons_of_neg (by simp [ha]), List.cons_append,
        ih htail]
    · -- none of the later ones is kept either
      have hnone : ∀ b ∈ xs, ¬keep b = true := fun b hb hk => ha (hhead b hb hk)
      rw [List.filter_cons_of_neg ha, List.filter_eq_nil_iff.mpr hnone, List.nil_append,
        List.filter_eq_self.mpr]
      intro b hb
      rcases List.mem_cons.mp hb with rfl | hb
      · simpa using ha
      · simpa using hnone b hb

/-- What belongs to one group does not belong to another. -/
theorem filter_filter_of_ne [DecidableEq γ] {label : α → γ} {g h : γ} (hne : h ≠ g) (xs : List α) :
    (xs.filter fun a => !decide (label a = g)).filter (fun a => label a = h) =
      xs.filter fun a => label a = h := by
  rw [List.filter_filter]
  refine List.filter_congr ?_
  intro a _
  by_cases hlabel : label a = h
  · simp [hlabel, hne]
  · simp [hlabel]

/-- What is sorted by the rank of its group falls into one piece for each group. -/
theorem flatMap_filter_eq [DecidableEq γ] {label : α → γ} {order : γ → Nat} {groups : List γ}
    {xs : List α} (hgroups : groups.Pairwise fun g h => order g < order h)
    (hxs : xs.Pairwise fun a b => order (label a) ≤ order (label b))
    (hmem : ∀ a ∈ xs, label a ∈ groups) :
    groups.flatMap (fun g => xs.filter fun a => label a = g) = xs := by
  induction groups generalizing xs with
  | nil =>
    cases xs with
    | nil => rfl
    | cons a xs => exact absurd (hmem a List.mem_cons_self) List.not_mem_nil
  | cons g groups ih =>
    obtain ⟨hfirst, hrest⟩ := List.pairwise_cons.mp hgroups
    -- nothing of another group comes before something of the first
    have hpre : xs.Pairwise fun a b =>
        decide (label b = g) = true → decide (label a = g) = true := by
      refine hxs.imp_of_mem ?_
      intro a b ha hb hle hg
      rw [decide_eq_true_eq] at hg ⊢
      rcases List.mem_cons.mp (hmem a ha) with h | h
      · exact h
      · have := hfirst _ h
        rw [hg] at hle
        omega
    have hlater : ∀ a ∈ xs.filter (fun a => !decide (label a = g)), label a ∈ groups := by
      intro a ha
      obtain ⟨hmem', hne⟩ := List.mem_filter.mp ha
      rcases List.mem_cons.mp (hmem a hmem') with h | h
      · simp [h] at hne
      · exact h
    have hsame : ∀ h ∈ groups, ((xs.filter fun a => !decide (label a = g)).filter fun a =>
        label a = h) = xs.filter fun a => label a = h := by
      intro h hh
      have hlt := hfirst h hh
      have hne : h ≠ g := by
        rintro rfl
        exact Nat.lt_irrefl _ hlt
      exact filter_filter_of_ne hne xs
    have hpieces := ih hrest (hxs.filter _) hlater
    rw [List.flatMap_congr hsame] at hpieces
    rw [List.flatMap_cons, hpieces]
    exact filter_append_filter_not hpre

end Pieces

end LogOrder.Log
