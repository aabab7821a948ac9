import LogOrder.Text.Bytes

/-!
# UTF-8

Whether bytes are the UTF-8 form of some text, decided by a machine that reads one byte at a
time. Between characters the machine stands in `start`; bytes are valid when it can read them
all and ends there.

* `run_append`: reading two pieces is reading their concatenation.
* `valid_append`: valid pieces make a valid whole.
* `valid_cut`: a newline always stands between characters, so bytes are valid exactly when what
  is before a newline and what is after it both are.
-/

namespace LogOrder.Utf8

/-- Where the machine stands between two bytes: the continuation bytes still owed, and whether
the next one is held to a narrower range, which keeps out overlong forms, surrogates and code
points past the last. -/
inductive State where
  /-- Between characters. -/
  | start
  /-- One continuation byte owed. -/
  | owes1
  /-- Two owed. -/
  | owes2
  /-- Three owed. -/
  | owes3
  /-- Two owed, the first in `A0`–`BF`: anything lower would be overlong. -/
  | afterE0
  /-- Two owed, the first in `80`–`9F`: anything higher would be a surrogate. -/
  | afterED
  /-- Three owed, the first in `90`–`BF`: anything lower would be overlong. -/
  | afterF0
  /-- Three owed, the first in `80`–`8F`: anything higher would be past the last code point. -/
  | afterF4
deriving DecidableEq, Repr

/-- The state after the first byte of a character. -/
def State.first (b : UInt8) : Option State :=
  if b < 0x80 then some .start
  else if b < 0xc2 then none
  else if b < 0xe0 then some .owes1
  else if b = 0xe0 then some .afterE0
  else if b = 0xed then some .afterED
  else if b < 0xf0 then some .owes2
  else if b = 0xf0 then some .afterF0
  else if b < 0xf4 then some .owes3
  else if b = 0xf4 then some .afterF4
  else none

/-- The state `next`, for a byte between `low` and `high`. -/
def State.within (low high b : UInt8) (next : State) : Option State :=
  if low ≤ b ∧ b ≤ high then some next else none

/-- The state after one more byte, if UTF-8 can go on with it. -/
def State.step : State → UInt8 → Option State
  | .start, b => first b
  | .owes1, b => within 0x80 0xbf b .start
  | .owes2, b => within 0x80 0xbf b .owes1
  | .owes3, b => within 0x80 0xbf b .owes2
  | .afterE0, b => within 0xa0 0xbf b .owes1
  | .afterED, b => within 0x80 0x9f b .owes1
  | .afterF0, b => within 0x90 0xbf b .owes2
  | .afterF4, b => within 0x80 0x8f b .owes2

/-- The state after all the bytes, if the machine can read them. -/
def run (q : State) : Bytes → Option State
  | [] => some q
  | b :: bs => match q.step b with
    | some q' => run q' bs
    | none => none

/-- Whether the bytes are the UTF-8 form of a text. -/
def valid (bs : Bytes) : Bool := run .start bs == some .start

theorem run_append (q : State) (as bs : Bytes) :
    run q (as ++ bs) = (run q as).bind fun q' => run q' bs := by
  induction as generalizing q with
  | nil => rfl
  | cons a as ih =>
    simp only [List.cons_append, run]
    cases q.step a with
    | none => rfl
    | some q' => exact ih q'

@[simp]
theorem valid_nil : valid [] = true := rfl

theorem valid_append {as : Bytes} (h : valid as = true) (bs : Bytes) :
    valid (as ++ bs) = valid bs := by
  simp only [valid, beq_iff_eq] at h
  simp [valid, run_append, h]

/-- ASCII is valid. -/
theorem valid_of_forall_lt {bs : Bytes} (h : ∀ b ∈ bs, b < 0x80) : valid bs = true := by
  induction bs with
  | nil => rfl
  | cons b bs ih =>
    have hfirst : State.step .start b = some .start := if_pos (h b List.mem_cons_self)
    have hrest := ih fun c hc => h c (List.mem_cons_of_mem b hc)
    rw [valid, run, hfirst]
    exact hrest

/-- A newline is read between characters and nowhere else. -/
theorem step_newline (q : State) :
    q.step Bytes.newline = if q = .start then some .start else none := by
  cases q <;> decide

/-- Bytes are valid exactly when what is before a newline and what is after it both are. -/
theorem valid_cut (as bs : Bytes) :
    valid (as ++ Bytes.newline :: bs) = (valid as && valid bs) := by
  simp only [valid, run_append]
  cases h : run .start as with
  | none => simp
  | some q => by_cases hq : q = .start <;> simp [run, step_newline, hq]

end LogOrder.Utf8
