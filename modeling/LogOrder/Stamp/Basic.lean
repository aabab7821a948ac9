import LogOrder.Stamp.Calendar
import LogOrder.Stamp.Written
import LogOrder.Text.Quoted

/-!
# Stamps

A stamp is a date and a time of day to the millisecond, without a time zone, that the calendar
allows. The proof of that travels with it, so a value of the type is never an impossible date.

* `Written.check` turns digits into a stamp, or names the first field that no date has.
* `Stamp.parse` reads a whole text; `Stamp.toText` writes the same form again.
* Stamps are ordered by time: field by field, the year first.
-/

namespace LogOrder

/-- Digits that name a date and a time of day. -/
structure Stamp.Written.Possible (w : Stamp.Written) : Prop where
  /-- Years start at 1. -/
  year_pos : 1 ≤ w.year.val
  /-- The month is one of twelve. -/
  month_mem : 1 ≤ w.month.val ∧ w.month.val ≤ 12
  /-- The month has the day. -/
  day_mem : 1 ≤ w.day.val ∧ w.day.val ≤ Calendar.monthLength w.year.val w.month.val
  /-- The day has the hour. -/
  hour_le : w.hour.val ≤ 23
  /-- The hour has the minute. -/
  minute_le : w.minute.val ≤ 59
  /-- The minute has the second; there are no leap seconds. -/
  second_le : w.second.val ≤ 59

/-- A possible date and time of day. -/
structure Stamp extends Stamp.Written where
  /-- The calendar has it. -/
  possible : toWritten.Possible
deriving DecidableEq

namespace Stamp

/-- Why digits of the right form are no date: the first field that is out of range. -/
inductive DateFault where
  /-- The year is 0. -/
  | yearZero
  /-- The month is not one of twelve. -/
  | month
  /-- The day is 0. -/
  | day
  /-- The day is past the end of this month. -/
  | dayOfMonth (year : Decimal 4) (month : Decimal 2)
  /-- The hour is past 23. -/
  | hour
  /-- The minute is past 59. -/
  | minute
  /-- The second is past 59. -/
  | second
deriving DecidableEq, Repr

/-- The report of a field that must lie in a fixed range. -/
def outOfRange (field range : String) : String :=
  s!"parameter '{field}' is not in the required range of {range}"

/-- The wording of a fault in a date. -/
def DateFault.message : DateFault → String
  | .yearZero => "year 0 is out of range"
  | .month => outOfRange "month" "1..=12"
  | .day => outOfRange "day" "1..=31"
  | .dayOfMonth y m =>
    let yearMonth := Bytes.toText (Decimal.write 4 y ++ dash :: Decimal.write 2 m)
    let last := Calendar.monthLength y.val m.val
    s!"parameter 'day' for `{yearMonth}` is invalid, must be in range `1..={last}`"
  | .hour => outOfRange "hour" "0..=23"
  | .minute => outOfRange "minute" "0..=59"
  | .second => outOfRange "second" "0..=59"

/-- The stamp that the digits name. The year is looked at first, then the date from the month to
the day, then the time of day from the hour down. -/
def Written.check (w : Written) : Except DateFault Stamp :=
  if hy : w.year.val = 0 then .error .yearZero
  else if hm : ¬(1 ≤ w.month.val ∧ w.month.val ≤ 12) then .error .month
  else if hz : w.day.val = 0 then .error .day
  else if hd : Calendar.monthLength w.year.val w.month.val < w.day.val then
    .error (.dayOfMonth w.year w.month)
  else if hh : 23 < w.hour.val then .error .hour
  else if hi : 59 < w.minute.val then .error .minute
  else if hs : 59 < w.second.val then .error .second
  else .ok {
    toWritten := w
    possible := ⟨by omega, by omega, by omega, by omega, by omega, by omega⟩ }

/-- Digits are accepted as they stand, or not at all. -/
theorem Written.toWritten_of_check {w : Written} {t : Stamp} (h : w.check = .ok t) :
    t.toWritten = w := by
  unfold Written.check at h
  repeat (first | (split at h; cases h) | (cases h; rfl) | split at h)

/-- The digits of a stamp are accepted as that stamp. -/
theorem Written.check_toWritten (t : Stamp) : t.toWritten.check = .ok t := by
  obtain ⟨w, hw⟩ := t
  have := hw.year_pos
  have := hw.month_mem
  have := hw.day_mem
  have := hw.hour_le
  have := hw.minute_le
  have := hw.second_le
  show w.check = _
  unfold Written.check
  rw [dif_neg (by omega), dif_neg (by omega), dif_neg (by omega), dif_neg (by omega),
    dif_neg (by omega), dif_neg (by omega), dif_neg (by omega)]

/-- Why a text is no stamp. -/
inductive ParseFault where
  /-- The text has another form. -/
  | malformed (text : String)
  /-- The form is right, and no such date exists. -/
  | impossible (why : DateFault)
deriving DecidableEq, Repr

/-- The wording of a fault in a text that should be a stamp. -/
def ParseFault.message : ParseFault → String
  | .malformed text => "expected YYYY-MM-DD HH:MM:SS:mmm, got " ++ Text.quoted text
  | .impossible why => why.message

/-- Reads a text that should be a stamp and nothing else: in brackets it has to open a line, with
nothing of it left over. -/
def parse (s : String) : Except ParseFault Stamp :=
  match opening? (Bytes.ofString s!"[{s}]") with
  | some w =>
    if w.toBytes.length = (Bytes.ofString s).length then w.check.mapError .impossible
    else .error (.malformed s)
  | none => .error (.malformed s)

/-- Earlier stamps come first: the fields are compared in turn, from the year down. -/
instance : Ord Stamp where
  compare :=
    compareLex (compareOn fun t => t.year.val) <|
    compareLex (compareOn fun t => t.month.val) <|
    compareLex (compareOn fun t => t.day.val) <|
    compareLex (compareOn fun t => t.hour.val) <|
    compareLex (compareOn fun t => t.minute.val) <|
    compareLex (compareOn fun t => t.second.val)
      (compareOn fun t => t.milli.val)

instance : Std.TransOrd Stamp :=
  inferInstanceAs (Std.TransCmp (compareLex _ (compareLex _ (compareLex _ (compareLex _
    (compareLex _ (compareLex _ _)))))))

end Stamp

end LogOrder
