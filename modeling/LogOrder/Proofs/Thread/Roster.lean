import LogOrder.Thread.Roster
import Mathlib.Data.Finset.Card

/-!
# Groups in a roster

A roster keeps one line for each thread and one for the entries without a thread. Here these are all
groups, and an entry of a group does one of two things: the group gets its line, or has one and
keeps it.

* `first?` is the line of a group, `enter` the roster after an entry of it;
* `first?_enter`: an entry settles the line of its own group and of no other;
* `Distinct`: no thread stands twice in a roster, so its size is the number of threads in it.
-/

namespace LogOrder.Thread.Roster

/-- The line kept for a group: for a thread, or for the entries without one. -/
def first? (r : Roster) : Option Bytes → Option Nat
  | some name => r.get? name
  | none => r.unmarked

/-- The roster after an entry of the group on that line. -/
def enter (r : Roster) (group : Option Bytes) (line : Nat) : Roster :=
  match group with
  | some name => (r.enroll name line).2
  | none => (r.enrollUnmarked line).2

theorem unmarked_enroll (r : Roster) (name : Bytes) (line : Nat) :
    (r.enroll name line).2.unmarked = r.unmarked := by
  unfold enroll
  cases r.get? name <;> rfl

/-- An entry settles the line of its own group and no other. -/
theorem first?_enter (r : Roster) (group other : Option Bytes) (line : Nat) :
    (r.enter group line).first? other =
      if other = group then some ((r.first? group).getD line) else r.first? other := by
  cases group with
  | some name =>
    cases other with
    | none => simpa [enter, first?] using unmarked_enroll r name line
    | some other =>
      by_cases h : other = name
      · subst h
        simpa [enter, first?] using get?_enroll r other line
      · simpa [enter, first?, h] using get?_enroll_of_ne r h line
  | none =>
    cases hr : r.unmarked with
    | some first => cases other <;> simp [enter, enrollUnmarked, first?, hr]
    | none => cases other <;> simp [enter, enrollUnmarked, first?, hr, get?]

/-- No name stands twice. -/
def Distinct (r : Roster) : Prop := (r.threads.map Prod.fst).Nodup

variable {r : Roster}

theorem get?_eq_none_iff {name : Bytes} : r.get? name = none ↔ name ∉ r.threads.map Prod.fst := by
  rw [get?, List.lookup_eq_none_iff, List.mem_map, not_exists]
  constructor
  · rintro h p ⟨hp, rfl⟩
    simpa using h p hp
  · intro h p hp
    have hne : p.1 ≠ name := fun heq => h p ⟨hp, heq⟩
    simpa using Ne.symm hne

theorem isSome_get?_iff {name : Bytes} :
    (r.get? name).isSome ↔ name ∈ r.threads.map Prod.fst := by
  rw [Option.isSome_iff_ne_none, Ne, get?_eq_none_iff, not_not]

theorem Distinct.enter (h : r.Distinct) (group : Option Bytes) (line : Nat) :
    (r.enter group line).Distinct := by
  cases group with
  | none =>
    show (r.enrollUnmarked line).2.Distinct
    unfold enrollUnmarked
    cases r.unmarked with
    | none => exact h
    | some first => exact h
  | some name =>
    show (r.enroll name line).2.Distinct
    unfold enroll
    cases hname : r.get? name with
    | none => exact List.nodup_cons.mpr ⟨get?_eq_none_iff.mp hname, h⟩
    | some first => exact h

theorem Distinct.size_eq_card (h : r.Distinct) :
    r.size = (r.threads.map Prod.fst).toFinset.card := by
  rw [List.toFinset_card_of_nodup h, List.length_map]
  rfl

theorem isEmpty_iff_size : r.isEmpty = true ↔ r.size = 0 :=
  List.isEmpty_iff_length_eq_zero

end LogOrder.Thread.Roster
