/-!
# The calendar

Months and their lengths in the Gregorian calendar, taken backwards to the year 1 without a break.

* `isLeap_iff`: the rule of the long years, by divisors;
* `monthLength_eq`: the lengths of the twelve months as a formula.
-/

namespace LogOrder.Calendar

/-- Every fourth year is long, save the centuries that 400 does not divide. -/
def isLeap (year : Nat) : Bool :=
  year % 4 == 0 && (year % 100 != 0 || year % 400 == 0)

/-- The number of days in a month, the first month being 1; there are none outside the twelve. -/
def monthLength (year month : Nat) : Nat :=
  match month with
  | 2 => if isLeap year then 29 else 28
  | 4 | 6 | 9 | 11 => 30
  | 1 | 3 | 5 | 7 | 8 | 10 | 12 => 31
  | _ => 0

variable {year month : Nat}

theorem isLeap_iff : isLeap year = true ↔ 4 ∣ year ∧ (100 ∣ year → 400 ∣ year) := by
  simp only [isLeap, Bool.and_eq_true, Bool.or_eq_true, beq_iff_eq, bne_iff_ne]
  omega

/-- Up to July the odd months are the long ones, from August the even ones, and the second month is
apart. -/
theorem monthLength_eq (h : 1 ≤ month ∧ month ≤ 12) : monthLength year month =
    if month = 2 then if 4 ∣ year ∧ (100 ∣ year → 400 ∣ year) then 29 else 28
    else 30 + (month + month / 8) % 2 := by
  simp only [← isLeap_iff]
  unfold monthLength
  split
  case h_13 => grind
  all_goals rfl

theorem monthLength_of_lt (h : month < 1 ∨ 12 < month) : monthLength year month = 0 := by
  unfold monthLength
  split
  case h_13 => rfl
  all_goals omega

theorem monthLength_le (year month : Nat) : monthLength year month ≤ 31 := by
  by_cases h : 1 ≤ month ∧ month ≤ 12
  · rw [monthLength_eq h]
    split
    · split <;> decide
    · omega
  · rw [monthLength_of_lt (by omega)]
    decide

end LogOrder.Calendar
