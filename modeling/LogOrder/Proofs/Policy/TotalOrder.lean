import LogOrder.Policy
import LogOrder.Proofs.Log.Scanned

/-!
# Policies are total orders

A policy compares two keys of one group and keys of two groups in different ways. Both ways agree
with one chain of comparisons, so the laws of an order hold across them, also for keys that no log
has. What the stamps are makes no difference, as long as they come in an order themselves.

* `Policy.cmp_eq_eq_iff`: which keys a policy does not tell apart;
* `Policy.cmp_congr`: what of two keys a policy compares;
* `Policy.filter_mergeSort`: sorting by a policy is stable;
* **`Policy.cmp_total_order`**: the laws of all policies.
-/

namespace LogOrder

/-- Two stamps that compare equal are the same date and time. -/
instance : Std.LawfulEqOrd Stamp where
  eq_of_compare {a b} h := by
    obtain ⟨⟨year, month, day, hour, minute, second, milli⟩, ha⟩ := a
    obtain ⟨⟨year', month', day', hour', minute', second', milli'⟩, hb⟩ := b
    change compareLex _ (compareLex _ (compareLex _ (compareLex _ (compareLex _
      (compareLex _ _))))) _ _ = .eq at h
    simp only [compareLex_eq_eq, compareOn, Nat.compare_eq_eq, Fin.val_inj] at h
    obtain ⟨rfl, rfl, rfl, rfl, rfl, rfl, rfl⟩ := h
    rfl

namespace Policy

section Laws

variable {τ : Type} [Ord τ]

/-- A policy does not tell two keys apart exactly when they agree in all that it looks at. -/
theorem cmp_eq_eq_iff [Std.LawfulEqOrd τ] (p : Policy) (x y : Key τ) :
    p.cmp x y = .eq ↔ x.line = y.line ∧
    (p = .chrono ∨ p = .threadChrono → x.stamp = y.stamp) ∧
    (p = .thread ∨ p = .threadChrono → x.group = y.group) := by
  cases p
  · simp [cmp_line, compareOn]
  · simp [cmp_chrono, byTime, compareLex_eq_eq, compareOn, and_comm]
  · simp [cmp_thread, compareLex_eq_eq, compareOn, and_comm]
  · simp [cmp_threadChrono, byTime, compareLex_eq_eq, compareOn]
    tauto

/-- Keys compare as two others do, when these compare alike in all that the policy looks at. -/
theorem cmp_congr (p : Policy) {x y x' y' : Key τ}
    (hline : compare x.line y.line = compare x'.line y'.line)
    (hstamp : p = .chrono ∨ p = .threadChrono →
      compare x.stamp y.stamp = compare x'.stamp y'.stamp)
    (hgroup : p = .thread ∨ p = .threadChrono →
      compare x.group y.group = compare x'.group y'.group) : p.cmp x y = p.cmp x' y' := by
  cases p with
  | line => simp only [cmp_line, compareOn, hline]
  | chrono => simp only [cmp_chrono, byTime, compareLex, compareOn, hline, hstamp (.inl rfl)]
  | thread => simp only [cmp_thread, compareLex, compareOn, hline, hgroup (.inl rfl)]
  | threadChrono =>
    simp only [cmp_threadChrono, byTime, compareLex, compareOn, hline, hstamp (.inr rfl),
      hgroup (.inr rfl)]

/-- A policy by thread puts groups in the order of their first lines. -/
theorem group_le_of_isLE {p : Policy} (hp : p = .thread ∨ p = .threadChrono) {x y : Key τ}
    (h : (p.cmp x y).isLE) : x.group ≤ y.group := by
  rcases hp with rfl | rfl
  · rw [cmp_thread] at h
    exact Nat.isLE_compare.mp (Ordering.isLE_left_of_isLE_then h)
  · rw [cmp_threadChrono] at h
    exact Nat.isLE_compare.mp (Ordering.isLE_left_of_isLE_then h)

variable [Std.TransOrd τ]

theorem lt_of_lt_of_isLE {p : Policy} {x y z : Key τ} (hxy : (p.cmp x y).isLE)
    (hyz : (p.cmp y z).isLE) (hlt : p.cmp x y = .lt ∨ p.cmp y z = .lt) : p.cmp x z = .lt := by
  rcases hlt with hlt | hlt
  · exact Std.TransCmp.lt_of_lt_of_isLE hlt hyz
  · exact Std.TransCmp.lt_of_isLE_of_lt hxy hlt

/-- Sorting by a policy keeps the order of what it lets stand in any order. -/
theorem filter_mergeSort (p : Policy) {α : Type} (key : α → Key τ) {keep : α → Bool}
    (hkeep : ∀ a b, keep a = true → keep b = true → (p.cmp (key a) (key b)).isLE = true)
    (xs : List α) :
    (xs.mergeSort fun a b => (p.cmp (key a) (key b)).isLE).filter keep = xs.filter keep := by
  have hsorted : (xs.filter keep).Pairwise fun a b => (p.cmp (key a) (key b)).isLE = true := by
    refine List.pairwise_of_forall_mem_list ?_
    intro a ha b hb
    exact hkeep a b (List.mem_filter.mp ha).2 (List.mem_filter.mp hb).2
  have hsub := (List.sublist_mergeSort (fun _ _ _ => Std.TransCmp.isLE_trans)
    (fun a b => p.isLE_total (key a) (key b)) hsorted List.filter_sublist).filter keep
  simp only [List.filter_filter, Bool.and_self] at hsub
  have hlength := ((List.mergeSort_perm xs fun a b => (p.cmp (key a) (key b)).isLE).filter
    keep).length_eq
  exact (hsub.eq_of_length hlength.symm).symm

end Laws

/-- **Every policy is a total order**, of keys with stamps of any kind that come in one. Comparing
is turned around with the keys, it is transitive, and strictly so when one of the steps is strict;
keys compare equal when they agree in all that the policy looks at. Keys of one log that compare
equal are the same. -/
theorem cmp_total_order (τ : Type) [Ord τ] [Std.TransOrd τ] [Std.LawfulEqOrd τ] (p : Policy) :
    (∀ x y : Key τ, p.cmp y x = (p.cmp x y).swap) ∧
    (∀ x y z : Key τ, (p.cmp x y).isLE → (p.cmp y z).isLE →
      (p.cmp x z).isLE ∧ (p.cmp x y = .lt ∨ p.cmp y z = .lt → p.cmp x z = .lt)) ∧
    (∀ x y : Key τ, p.cmp x y = .eq ↔ x.line = y.line ∧
      (p = .chrono ∨ p = .threadChrono → x.stamp = y.stamp) ∧
      (p = .thread ∨ p = .threadChrono → x.group = y.group)) ∧
    (∀ lines : List Bytes, ∀ a ∈ (Log.Scan.feed {} lines).finish.entries,
      ∀ b ∈ (Log.Scan.feed {} lines).finish.entries,
        p.cmp a.key b.key = .eq → a.key = b.key) ∧
    (∀ (lines : List Bytes) (c : Log.Contents), Log.contents lines = .ok c →
      ∀ a ∈ c.entries, ∀ b ∈ c.entries, p.cmp a.key b.key = .eq → a.key = b.key) := by
  refine ⟨?_, ?_, cmp_eq_eq_iff p, ?_, ?_⟩
  · intro x y
    exact Std.OrientedCmp.eq_swap
  · intro x y z hxy hyz
    exact ⟨Std.TransCmp.isLE_trans hxy hyz, lt_of_lt_of_isLE hxy hyz⟩
  · intro lines a ha b hb h
    rw [Log.eq_of_line_eq ha hb ((cmp_eq_eq_iff p a.key b.key).mp h).1]
  · intro lines c hc a ha b hb h
    obtain ⟨-, rfl⟩ := Log.contents_eq_ok_iff.mp hc
    rw [Log.eq_of_line_eq ha hb ((cmp_eq_eq_iff p a.key b.key).mp h).1]

/-- A step inside a group and then one to another group, against the order of the stamps. -/
theorem cmp_total_order_mixed :
    let early : Stamp :=
      { year := ⟨2024, by decide⟩, month := ⟨1, by decide⟩, day := ⟨1, by decide⟩
        hour := ⟨0, by decide⟩, minute := ⟨0, by decide⟩, second := ⟨0, by decide⟩
        milli := ⟨0, by decide⟩, possible := by decide }
    let late : Stamp := { early with milli := ⟨5, by decide⟩, possible := by decide }
    cmp .threadChrono (.unthreaded 1 early 4) (.unthreaded 1 late 1) = .lt ∧
    cmp .threadChrono (.unthreaded 1 late 1) (.threaded 2 early 2) = .lt ∧
    cmp .threadChrono (.unthreaded 1 early 4) (.threaded 2 early 2) = .lt := by
  intro early late
  have hinside : cmp .threadChrono (.unthreaded 1 early 4) (.unthreaded 1 late 1) = .lt := by decide
  have hacross : cmp .threadChrono (.unthreaded 1 late 1) (.threaded 2 early 2) = .lt := by decide
  obtain ⟨-, htrans, -⟩ := cmp_total_order Stamp .threadChrono
  have hle := htrans _ _ _ (Ordering.isLE_of_eq_lt hinside) (Ordering.isLE_of_eq_lt hacross)
  exact ⟨hinside, hacross, hle.2 (.inl hinside)⟩

end Policy

end LogOrder
