import LogOrder.Entry
import LogOrder.Text.Choice

/-!
# Policies

A policy says in which order entries are written. There are four: as they were found, by time,
thread by thread, and thread by thread with each in order of time. The line number decides last
in each of them.

* `Policy.cmp` compares keys; the instances say that each policy is a consistent order, for stamps
  of any kind that come in one.
* `cmp_thread` and `cmp_threadChrono`: each policy is a chain of comparisons, although keys of one
  group and of two are compared in different ways.
* `Policy.choose?` and `Policy.parse` read a policy, `Policy.name` is what is shown for one.
-/

namespace LogOrder

/-- An order of entries. -/
inductive Policy where
  /-- As they were found. -/
  | line
  /-- By time. -/
  | chrono
  /-- Thread by thread, each as it was found. -/
  | thread
  /-- Thread by thread, each by time. -/
  | threadChrono
deriving DecidableEq, Repr

namespace Policy

section Compare

variable {τ : Type} [Ord τ]

/-- The comparison by time; the line decides between equal times. -/
def byTime : Key τ → Key τ → Ordering := compareLex (compareOn Key.stamp) (compareOn Key.line)

/-- The comparison of keys under a policy. Threads come in the order in which they appeared. Two
keys of one group are compared as if there were no groups. -/
def cmp : Policy → Key τ → Key τ → Ordering
  | .line, x, y => compareOn Key.line x y
  | .chrono, x, y => byTime x y
  | .thread, x, y =>
    if x.group = y.group then compareOn Key.line x y
    else compareLex (compareOn Key.group) (compareOn Key.line) x y
  | .threadChrono, x, y =>
    if x.group = y.group then byTime x y
    else compareLex (compareOn Key.group) byTime x y

omit [Ord τ] in
/-- Keys of one group can as well be compared by group first: that does not decide. -/
theorem ite_group_eq (within : Key τ → Key τ → Ordering) (x y : Key τ) :
    (if x.group = y.group then within x y else compareLex (compareOn Key.group) within x y) =
      compareLex (compareOn Key.group) within x y := by
  split
  · next h => simp [compareLex, compareOn, h]
  · rfl

theorem cmp_line : (cmp .line : Key τ → Key τ → Ordering) = compareOn Key.line := rfl

theorem cmp_chrono : (cmp .chrono : Key τ → Key τ → Ordering) = byTime := rfl

theorem cmp_thread : (cmp .thread : Key τ → Key τ → Ordering) =
    compareLex (compareOn Key.group) (compareOn Key.line) := by
  funext x y
  exact ite_group_eq (compareOn Key.line) x y

theorem cmp_threadChrono : (cmp .threadChrono : Key τ → Key τ → Ordering) =
    compareLex (compareOn Key.group) byTime := by
  funext x y
  exact ite_group_eq byTime x y

variable [Std.TransOrd τ]

instance : Std.TransCmp (byTime : Key τ → Key τ → Ordering) :=
  inferInstanceAs (Std.TransCmp (compareLex (compareOn Key.stamp) (compareOn Key.line)))

instance (p : Policy) : Std.TransCmp (p.cmp : Key τ → Key τ → Ordering) := by
  cases p
  · rw [cmp_line]; infer_instance
  · rw [cmp_chrono]; infer_instance
  · rw [cmp_thread]; infer_instance
  · rw [cmp_threadChrono]; infer_instance

/-- Of two keys, one may stand before the other. -/
theorem isLE_total (p : Policy) (x y : Key τ) :
    ((p.cmp x y).isLE || (p.cmp y x).isLE) = true := by
  have swapped : p.cmp y x = (p.cmp x y).swap := Std.OrientedCmp.eq_swap
  rw [swapped]
  cases p.cmp x y <;> rfl

end Compare

/-- All policies, in the order in which they are listed to users. -/
def all : List Policy := [.line, .chrono, .thread, .threadChrono]

/-- The policy when the user asks for none. -/
def standard : Policy := .chrono

/-- The policy that the two ordering switches ask for together. -/
def ofSwitches : (chrono thread : Bool) → Policy
  | true, true => .threadChrono
  | true, false => .chrono
  | false, true => .thread
  | false, false => .line

/-- The name that is shown for a policy. -/
def name : Policy → String
  | .line => "line"
  | .chrono => "chrono"
  | .thread => "thread"
  | .threadChrono => "thread+chrono"

/-- The words that a policy is chosen by. -/
def choice : Policy → Choice
  | .line => { name := "line" }
  | .chrono => { name := "chrono" }
  | .thread => { name := "thread" }
  | .threadChrono => { name := "thread+chrono", aliases := ["thread-chrono"] }

/-- The policy that a word chooses. -/
def choose? (ignoreCase : Bool) (s : String) : Option Policy := Choice.find? choice all ignoreCase s

/-- The report of a text that names no policy. -/
def invalidName (s : String) : String :=
  s!"invalid order '{s}': expected one of line, chrono, thread, thread+chrono"

/-- Reads a policy from a text, in which the size of letters makes no difference. -/
def parse (s : String) : Except String Policy :=
  match choose? true s with
  | some policy => .ok policy
  | none => .error (invalidName s)

end Policy

end LogOrder
