import LogOrder.Proofs.Thread.Roster

/-!
# Calls on a roster

A roster can be called for any names and lines in any order. It never takes back what it has
answered: the first line that a group is given stands for it from then on, whatever is called in
between and for whichever groups.

* `Call` is a call, `calls` is what a sequence of them answers;
* `firstGiven` is the line that a group was given first, told from the calls alone;
* `fst_call`, `first?_call`: what one call answers and what it leaves;
* **`first_given_stands`**: what any sequence of calls on a new roster answers.
-/

namespace LogOrder.Thread.Roster

/-- A call on a roster. -/
inductive Call where
  /-- Asks for the line of a thread, and gives it this one if it has none. -/
  | enroll (name : Bytes) (line : Nat)
  /-- The same for the entries without a thread. -/
  | enrollUnmarked (line : Nat)
  /-- Asks for the line of a thread. -/
  | get (name : Bytes)
deriving DecidableEq, Repr

/-- The group that a call is about. -/
def Call.group : Call → Option Bytes
  | .enroll name _ | .get name => some name
  | .enrollUnmarked _ => none

/-- The line that a call gives its group. -/
def Call.line? : Call → Option Nat
  | .enroll _ line | .enrollUnmarked line => some line
  | .get _ => none

/-- The thread that a call enrols. -/
def Call.enrolled? : Call → Option Bytes
  | .enroll name _ => some name
  | .enrollUnmarked _ | .get _ => none

/-- What a call answers, and the roster after it. -/
def call (r : Roster) : Call → Option Nat × Roster
  | .enroll name line => (some (r.enroll name line).1, (r.enroll name line).2)
  | .enrollUnmarked line => (some (r.enrollUnmarked line).1, (r.enrollUnmarked line).2)
  | .get name => (r.get? name, r)

/-- What calls answer one after the other, and the roster after them. -/
def calls (r : Roster) : List Call → List (Option Nat) × Roster
  | [] => ([], r)
  | c :: rest =>
    let (answer, r) := r.call c
    let (answers, r) := r.calls rest
    (answer :: answers, r)

/-- The line that a group is given first. -/
def firstGiven (history : List Call) (group : Option Bytes) : Option Nat :=
  history.findSome? fun c => if c.group = group then c.line? else none

/-- What a new roster answers to calls, and what it is after them. -/
structure Remembers (history : List Call) (answers : List (Option Nat)) (r : Roster) : Prop where
  /-- There is an answer to each call. -/
  length_eq : answers.length = history.length
  /-- For a thread it is the line that the thread was given first, which may be just now. -/
  enroll : ∀ {before after : List Call} {name : Bytes} {line : Nat},
    history = before ++ .enroll name line :: after →
      answers[before.length]? = some (some ((firstGiven before (some name)).getD line))
  /-- So it is for the entries without a thread. -/
  enrollUnmarked : ∀ {before after : List Call} {line : Nat},
    history = before ++ .enrollUnmarked line :: after →
      answers[before.length]? = some (some ((firstGiven before none).getD line))
  /-- Who only asks gets no line for a thread that was given none. -/
  get : ∀ {before after : List Call} {name : Bytes}, history = before ++ .get name :: after →
    answers[before.length]? = some (firstGiven before (some name))
  /-- A group is answered as if no other were ever called. -/
  apart : ∀ group, ((history.zip answers).filter fun p => p.1.group = group).map Prod.snd =
    (calls {} (history.filter fun c => c.group = group)).1
  /-- The size is the number of the threads that were enrolled. -/
  size_eq : r.size = (history.filterMap Call.enrolled?).toFinset.card
  /-- Only the roster of size zero is empty. -/
  isEmpty_iff : r.isEmpty = true ↔ r.size = 0

variable {r s : Roster} {c : Call} {history : List Call}

/-! ## One call -/

/-- A call is answered with the line of its group, or else with the line that it gives. -/
theorem fst_call (r : Roster) (c : Call) : (r.call c).1 = (r.first? c.group).or c.line? := by
  cases c with
  | enroll name line =>
    show some (r.enroll name line).1 = (r.get? name).or (some line)
    rw [fst_enroll]
    cases r.get? name <;> rfl
  | enrollUnmarked line =>
    show some (r.enrollUnmarked line).1 = r.unmarked.or (some line)
    unfold Roster.enrollUnmarked
    cases r.unmarked <;> rfl
  | get name => exact Option.or_none.symm

theorem snd_call (r : Roster) (c : Call) :
    (r.call c).2 = match c.line? with
      | some line => r.enter c.group line
      | none => r := by
  cases c <;> rfl

/-- It leaves its group with that line, and all others as they were. -/
theorem first?_call (r : Roster) (c : Call) (group : Option Bytes) :
    (r.call c).2.first? group =
      (r.first? group).or (if c.group = group then c.line? else none) := by
  rw [snd_call]
  cases hline : c.line? with
  | none =>
    rw [ite_self, Option.or_none]
  | some line =>
    dsimp only
    rw [first?_enter]
    by_cases h : c.group = group
    · subst h
      rw [if_pos rfl, if_pos rfl]
      cases r.first? c.group <;> rfl
    · rw [if_neg (Ne.symm h), if_neg h, Option.or_none]

theorem Distinct.call (h : r.Distinct) (c : Call) : (r.call c).2.Distinct := by
  rw [snd_call]
  cases c.line? with
  | none => exact h
  | some line => exact h.enter c.group line

/-! ## Any calls -/

theorem calls_append (r : Roster) (before after : List Call) :
    r.calls (before ++ after) =
      ((r.calls before).1 ++ ((r.calls before).2.calls after).1,
        ((r.calls before).2.calls after).2) := by
  induction before generalizing r with
  | nil => rfl
  | cons c before ih =>
    show ((r.call c).1 :: ((r.call c).2.calls (before ++ after)).1,
      ((r.call c).2.calls (before ++ after)).2) = _
    rw [ih]
    rfl

theorem length_fst_calls (r : Roster) (history : List Call) :
    (r.calls history).1.length = history.length := by
  induction history generalizing r with
  | nil => rfl
  | cons c rest ih => exact congrArg Nat.succ (ih (r.call c).2)

theorem firstGiven_cons (c : Call) (history : List Call) (group : Option Bytes) :
    firstGiven (c :: history) group =
      (if c.group = group then c.line? else none).or (firstGiven history group) := by
  rw [firstGiven, List.findSome?_cons]
  cases (if c.group = group then c.line? else none) <;> rfl

/-- What a roster keeps after calls is what it had kept before them, or else what it was given. -/
theorem first?_calls (r : Roster) (history : List Call) (group : Option Bytes) :
    (r.calls history).2.first? group = (r.first? group).or (firstGiven history group) := by
  induction history generalizing r with
  | nil => exact Option.or_none.symm
  | cons c rest ih =>
    show ((r.call c).2.calls rest).2.first? group = _
    rw [ih, first?_call, firstGiven_cons, Option.or_assoc]

theorem first?_calls_new (history : List Call) (group : Option Bytes) :
    (calls {} history).2.first? group = firstGiven history group := by
  rw [first?_calls]
  cases group <;> rfl

/-- The answer to a call is told by the calls before it. -/
theorem getElem?_calls_new {before after : List Call} (h : history = before ++ c :: after) :
    (calls {} history).1[before.length]? = some ((firstGiven before c.group).or c.line?) := by
  have hanswer : ((calls {} before).2.call c).1 = (firstGiven before c.group).or c.line? := by
    rw [fst_call, first?_calls_new]
  rw [h, calls_append, List.getElem?_append_right (length_fst_calls {} before).le,
    length_fst_calls, Nat.sub_self]
  exact congrArg some hanswer

/-- Rosters that keep the same line for a group answer calls about it alike, also if only one of
them gets calls about others in between. -/
theorem answers_apart {group : Option Bytes} (h : r.first? group = s.first? group) :
    ((history.zip (r.calls history).1).filter fun p => p.1.group = group).map Prod.snd =
      (s.calls (history.filter fun c => c.group = group)).1 := by
  induction history generalizing r s with
  | nil => rfl
  | cons c rest ih =>
    show (((c, (r.call c).1) :: rest.zip ((r.call c).2.calls rest).1).filter _).map _ = _
    by_cases hc : c.group = group
    -- both rosters get the call, and keep the same line after it
    · have hnext : (r.call c).2.first? group = (s.call c).2.first? group := by
        rw [first?_call, first?_call, h]
      have hanswer : (r.call c).1 = (s.call c).1 := by
        rw [fst_call, fst_call, hc, h]
      rw [List.filter_cons_of_pos (by simpa using hc), List.map_cons, ih hnext,
        List.filter_cons_of_pos (by simpa using hc), hanswer]
      rfl
    -- only the first roster gets it, and it is not about the group
    · have hnext : (r.call c).2.first? group = s.first? group := by
        rw [first?_call, if_neg hc, Option.or_none, h]
      rw [List.filter_cons_of_neg (by simpa using hc), ih hnext,
        List.filter_cons_of_neg (by simpa using hc)]

theorem Distinct.calls (h : r.Distinct) (history : List Call) : (r.calls history).2.Distinct := by
  induction history generalizing r with
  | nil => exact h
  | cons c rest ih => exact ih (h.call c)

theorem isSome_firstGiven_iff {name : Bytes} :
    (firstGiven history (some name)).isSome ↔ name ∈ history.filterMap Call.enrolled? := by
  rw [firstGiven, List.findSome?_isSome_iff, List.mem_filterMap]
  refine exists_congr fun c => and_congr_right fun _ => ?_
  cases c with
  | enroll other line => simp [Call.group, Call.line?, Call.enrolled?]
  | enrollUnmarked line => simp [Call.group, Call.enrolled?]
  | get other => simp [Call.line?, Call.enrolled?]

theorem size_calls_new (history : List Call) :
    (calls {} history).2.size = (history.filterMap Call.enrolled?).toFinset.card := by
  have hnew : Distinct {} := List.nodup_nil
  -- no name is kept twice, so there are as many as are in the list
  have hdistinct : (calls {} history).2.Distinct := hnew.calls history
  have hnames : ((calls {} history).2.threads.map Prod.fst).toFinset =
      (history.filterMap Call.enrolled?).toFinset := by
    ext name
    have hkept : (calls {} history).2.get? name = firstGiven history (some name) :=
      first?_calls_new history (some name)
    rw [List.mem_toFinset, List.mem_toFinset, ← isSome_get?_iff, hkept, isSome_firstGiven_iff]
  rw [← hnames]
  exact hdistinct.size_eq_card

/-- **The first line given stands.** Whatever calls are made on a new roster, a group is answered
with the line that it was given first, be it by this call; calls for other groups make no difference
to that; and the roster has as many threads as were enrolled. -/
theorem first_given_stands (history : List Call) :
    Remembers history (calls {} history).1 (calls {} history).2 where
  length_eq := length_fst_calls {} history
  enroll := by
    intro before after name line h
    rw [getElem?_calls_new h]
    show some ((firstGiven before (some name)).or (some line)) = _
    cases firstGiven before (some name) <;> rfl
  enrollUnmarked := by
    intro before after line h
    rw [getElem?_calls_new h]
    show some ((firstGiven before none).or (some line)) = _
    cases firstGiven before none <;> rfl
  get := by
    intro before after name h
    rw [getElem?_calls_new h]
    exact congrArg some Option.or_none
  apart := fun _ => answers_apart rfl
  size_eq := size_calls_new history
  isEmpty_iff := isEmpty_iff_size

example : (calls {} [.get [1], .enroll [1] 9, .enrollUnmarked 7, .enroll [2] 8, .enroll [1] 2,
    .enrollUnmarked 3, .get [1]]).1 = [none, some 9, some 7, some 8, some 9, some 7, some 9] := by
  decide

end LogOrder.Thread.Roster
