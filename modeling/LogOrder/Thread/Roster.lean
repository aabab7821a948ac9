import LogOrder.Text.Bytes

/-!
# The roster of threads

While a log is read, the roster keeps for every thread the line of its first entry, and one more
line for the first entry that names no thread. A line once kept is never changed, so it stands
for the thread from then on.

* `get?_enroll`: enrolling answers the kept line, or keeps the given one.
* `get?_enroll_of_ne`: other threads are not touched.
-/

namespace LogOrder.Thread

/-- The first line of every thread seen so far, and of the entries without a thread. -/
structure Roster where
  /-- Thread names with the line of their first entry, latest first; no name stands twice. -/
  threads : List (Bytes × Nat) := []
  /-- The line of the first entry that names no thread. -/
  unmarked : Option Nat := none
deriving DecidableEq, Repr

namespace Roster

/-- The line of the thread's first entry, if there was one. -/
def get? (r : Roster) (name : Bytes) : Option Nat := r.threads.lookup name

/-- The number of threads seen. -/
def size (r : Roster) : Nat := r.threads.length

/-- Whether no thread has been seen. -/
def isEmpty (r : Roster) : Bool := r.threads.isEmpty

/-- The line that stands for the thread: that of its first entry, which is this one if the thread
is new. -/
def enroll (r : Roster) (name : Bytes) (line : Nat) : Nat × Roster :=
  match r.get? name with
  | some first => (first, r)
  | none => (line, { r with threads := (name, line) :: r.threads })

/-- The line that stands for all entries without a thread: that of the first of them. -/
def enrollUnmarked (r : Roster) (line : Nat) : Nat × Roster :=
  match r.unmarked with
  | some first => (first, r)
  | none => (line, { r with unmarked := some line })

theorem get?_enroll (r : Roster) (name : Bytes) (line : Nat) :
    (r.enroll name line).2.get? name = some ((r.get? name).getD line) := by
  unfold enroll
  cases h : r.get? name with
  | none => simp [get?]
  | some first => simpa using h

theorem get?_enroll_of_ne (r : Roster) {name other : Bytes} (h : other ≠ name) (line : Nat) :
    (r.enroll name line).2.get? other = r.get? other := by
  unfold enroll
  cases r.get? name with
  | none => simp [get?, List.lookup_cons, beq_false_of_ne h]
  | some first => rfl

theorem fst_enroll (r : Roster) (name : Bytes) (line : Nat) :
    (r.enroll name line).1 = (r.get? name).getD line := by
  unfold enroll
  cases r.get? name <;> rfl

end Roster

end LogOrder.Thread
