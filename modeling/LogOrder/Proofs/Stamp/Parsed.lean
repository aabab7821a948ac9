import LogOrder.Proofs.Stamp.AsText
import LogOrder.Proofs.Stamp.Digits
import Mathlib.Data.Set.Function

/-!
# Texts that are stamps

A text is a stamp when it has the form and the calendar has the date. Which texts these are, and
what is reported of any other, is told here by the digits alone.

* `Fields.Real`, `Fields.real_iff_gregorian`: the values of the digits are a date and a time of day;
* `Fields.firstBad?`: the first field that keeps them from it;
* `parse_eq_read?`: a text is read as its bytes are, with nothing left over;
* `parse_of_toBytes`, `parse_eq_malformed_iff`: the date is checked, or the form is wrong;
* **`parse_exact`**: which texts are stamps, what they say, and what is wrong with the others;
* **`parse_toText`**: stamps and the texts that are stamps are in each other's place;
* **`compare_parsed`**: stamps that are read from texts come in the byte order of these texts.
-/

namespace LogOrder.Stamp

open Decimal (value)

namespace Fields

/-- The values of the digits are a date in the Gregorian calendar and a time of day. -/
@[mk_iff]
structure Real (f : Fields) : Prop where
  year : 1 ≤ value f.year
  month : 1 ≤ value f.month ∧ value f.month ≤ 12
  day : 1 ≤ value f.day ∧ value f.day ≤ Calendar.monthLength (value f.year) (value f.month)
  hour : value f.hour ≤ 23
  minute : value f.minute ≤ 59
  second : value f.second ≤ 59

instance (f : Fields) : Decidable f.Real := decidable_of_iff' _ (real_iff f)

/-- The same by the rules of the Gregorian calendar alone, the length of the month written out. -/
theorem real_iff_gregorian (f : Fields) : f.Real ↔
    1 ≤ value f.year ∧ (1 ≤ value f.month ∧ value f.month ≤ 12) ∧
    (1 ≤ value f.day ∧ value f.day ≤
      if value f.month = 2 then
        if 4 ∣ value f.year ∧ (100 ∣ value f.year → 400 ∣ value f.year) then 29 else 28
      else 30 + (value f.month + value f.month / 8) % 2) ∧
    value f.hour ≤ 23 ∧ value f.minute ≤ 59 ∧ value f.second ≤ 59 := by
  rw [real_iff]
  refine and_congr_right fun _ => and_congr_right fun hmonth => ?_
  rw [Calendar.monthLength_eq hmonth]

/-- What is asked of the fields after the year, in this order, and the name of the field each time.
The day comes twice: whether any month has it, and whether this one does. -/
def demands (f : Fields) : List (String × Bool) :=
  [("month", 1 ≤ value f.month && value f.month ≤ 12),
    ("day", 1 ≤ value f.day && value f.day ≤ 31),
    ("day", value f.day ≤ Calendar.monthLength (value f.year) (value f.month)),
    ("hour", value f.hour ≤ 23),
    ("minute", value f.minute ≤ 59),
    ("second", value f.second ≤ 59)]

/-- The name of the first field that does not meet a demand. -/
def firstBad? (f : Fields) : Option String := (f.demands.find? fun d => !d.2).map Prod.fst

end Fields

variable {f : Fields} {w : Written} {bs : Bytes} {s : String} {t : Stamp}

/-! ## What a fault names -/

/-- The report is about the field of that name. -/
def DateFault.Names (why : DateFault) (field : String) : Prop :=
  ∃ rest, why.message = "parameter '" ++ field ++ "'" ++ rest

theorem outOfRange_eq (field range : String) : outOfRange field range =
    "parameter '" ++ field ++ "'" ++ (" is not in the required range of " ++ range) := by
  have hquote : "' is not in the required range of " =
      "'" ++ " is not in the required range of " := by decide
  show "parameter '" ++ field ++ "' is not in the required range of " ++ range = _
  rw [hquote]
  simp only [String.append_assoc]

theorem DateFault.names_dayOfMonth (y : Decimal 4) (m : Decimal 2) :
    (DateFault.dayOfMonth y m).Names "day" := by
  have hquote : "parameter 'day' for `" = "parameter '" ++ "day" ++ "'" ++ " for `" := by decide
  show ∃ rest, "parameter 'day' for `" ++ _ ++ _ ++ _ ++ _ = _
  rw [hquote]
  simp only [String.append_assoc]
  exact ⟨_, rfl⟩

theorem Written.demands_fields (w : Written) : w.fields.demands =
    [("month", 1 ≤ w.month.val && w.month.val ≤ 12), ("day", 1 ≤ w.day.val && w.day.val ≤ 31),
      ("day", w.day.val ≤ Calendar.monthLength w.year.val w.month.val),
      ("hour", w.hour.val ≤ 23), ("minute", w.minute.val ≤ 59), ("second", w.second.val ≤ 59)] := by
  have h := Fields.tells_fields w
  rw [Fields.demands, h.year, h.month, h.day, h.hour, h.minute, h.second]

/-- What is reported of a date with a year names the first field that is wrong. -/
theorem Written.exists_check_eq_error (hyear : w.year.val ≠ 0) (h : ¬w.Possible) :
    ∃ (field : String) (why : DateFault), w.fields.firstBad? = some field ∧ why ≠ .yearZero ∧
      why.Names field ∧ w.check = .error why := by
  have hlength := Calendar.monthLength_le w.year.val w.month.val
  rw [Fields.firstBad?, demands_fields]
  unfold check
  rw [dif_neg hyear]
  split
  case isTrue hmonth =>
    rw [List.find?_cons_of_pos (by simp; omega)]
    exact ⟨_, .month, rfl, by simp, ⟨_, outOfRange_eq _ _⟩, rfl⟩
  rw [List.find?_cons_of_neg (by simp; omega)]
  split
  case isTrue hday =>
    rw [List.find?_cons_of_pos (by simp; omega)]
    exact ⟨_, .day, rfl, by simp, ⟨_, outOfRange_eq _ _⟩, rfl⟩
  split
  case isTrue hpast =>
    refine ⟨"day", .dayOfMonth _ _, ?_, by simp, DateFault.names_dayOfMonth _ _, rfl⟩
    -- a day past the end of the month may be one that no month has
    by_cases hday : w.day.val ≤ 31
    · rw [List.find?_cons_of_neg (by simp; omega), List.find?_cons_of_pos (by simp; omega)]
      rfl
    · rw [List.find?_cons_of_pos (by simp; omega)]
      rfl
  rw [List.find?_cons_of_neg (by simp; omega), List.find?_cons_of_neg (by simp; omega)]
  split
  case isTrue hhour =>
    rw [List.find?_cons_of_pos (by simp; omega)]
    exact ⟨_, .hour, rfl, by simp, ⟨_, outOfRange_eq _ _⟩, rfl⟩
  rw [List.find?_cons_of_neg (by simp; omega)]
  split
  case isTrue hminute =>
    rw [List.find?_cons_of_pos (by simp; omega)]
    exact ⟨_, .minute, rfl, by simp, ⟨_, outOfRange_eq _ _⟩, rfl⟩
  rw [List.find?_cons_of_neg (by simp; omega)]
  split
  case isTrue hsecond =>
    rw [List.find?_cons_of_pos (by simp; omega)]
    exact ⟨_, .second, rfl, by simp, ⟨_, outOfRange_eq _ _⟩, rfl⟩
  exact absurd ⟨by omega, by omega, by omega, by omega, by omega, by omega⟩ h

theorem Written.check_eq_yearZero_iff : w.check = .error .yearZero ↔ w.year.val = 0 := by
  constructor
  · intro h
    by_contra hyear
    by_cases hw : w.Possible
    · rw [show w.check = .ok ⟨w, hw⟩ from check_toWritten ⟨w, hw⟩] at h
      cases h
    · obtain ⟨_, why, -, hwhy, -, hcheck⟩ := exists_check_eq_error hyear hw
      rw [hcheck] at h
      exact hwhy (Except.error.inj h)
  · exact fun hyear => dif_pos hyear

/-! ## Texts and written stamps -/

theorem Fields.Tells.real_iff (h : f.Tells w) : f.Real ↔ w.Possible := by
  constructor
  · rintro ⟨hyear, hmonth, hday, hhour, hminute, hsecond⟩
    rw [← h.year, ← h.month, ← h.day] at hday
    exact ⟨h.year ▸ hyear, h.month ▸ hmonth, hday, h.hour ▸ hhour, h.minute ▸ hminute,
      h.second ▸ hsecond⟩
  · rintro ⟨hyear, hmonth, hday, hhour, hminute, hsecond⟩
    rw [h.year, h.month, h.day] at hday
    exact ⟨h.year ▸ hyear, h.month ▸ hmonth, hday, h.hour ▸ hhour, h.minute ▸ hminute,
      h.second ▸ hsecond⟩

theorem ofString_bracketed (s r : String) : Bytes.ofString ("[" ++ s ++ "]" ++ r) =
    openBracket :: (Bytes.ofString s ++ closeBracket :: Bytes.ofString r) := by
  have hopen : Bytes.ofString "[" = [openBracket] := by decide
  have hclose : Bytes.ofString "]" = [closeBracket] := by decide
  simp [Bytes.ofString_append, hopen, hclose]

/-- In brackets, a text opens a line with nothing left over exactly when it is a written stamp. -/
theorem opening?_bracketed (s : String) : opening? (Bytes.ofString s!"[{s}]") = some w ∧
    w.toBytes.length = (Bytes.ofString s).length ↔ Bytes.ofString s = w.toBytes := by
  have hbytes : Bytes.ofString s!"[{s}]" = openBracket :: (Bytes.ofString s ++ [closeBracket]) := by
    have happend := ofString_bracketed s ""
    rwa [String.append_empty] at happend
  rw [hbytes, opening?_eq_some_iff]
  constructor
  · rintro ⟨⟨rest, hrest⟩, hlength⟩
    exact List.append_inj_left (List.cons.inj hrest).2 hlength.symm
  · intro h
    exact ⟨⟨[], by rw [h]⟩, by rw [h]⟩

theorem parse_of_toBytes (h : Bytes.ofString s = w.toBytes) :
    parse s = w.check.mapError .impossible := by
  obtain ⟨hopening, hlength⟩ := (opening?_bracketed s).mpr h
  rw [parse, hopening]
  exact if_pos hlength

theorem parse_of_ne_toBytes (h : ∀ w : Written, Bytes.ofString s ≠ w.toBytes) :
    parse s = .error (.malformed s) := by
  unfold parse
  split
  · next w hopening =>
    exact if_neg fun hlength => h w ((opening?_bracketed s).mp ⟨hopening, hlength⟩)
  · rfl

/-- So the brackets can be left out: what is read are the bytes of the text, as a whole. -/
theorem parse_eq_read? (s : String) : parse s =
    match Written.read? (Bytes.ofString s) with
    | some (w, []) => w.check.mapError .impossible
    | _ => .error (.malformed s) := by
  split
  · next w hread =>
    have hbytes := Written.eq_toBytes_of_read? hread
    rw [List.append_nil] at hbytes
    exact parse_of_toBytes hbytes
  · next hread =>
    refine parse_of_ne_toBytes fun w hw => hread w ?_
    rw [hw, ← List.append_nil w.toBytes, Written.read?_toBytes]

/-- The text of a stamp is that stamp, the text of a written stamp that is none is at fault for its
date, and any other text is malformed. -/
theorem parse_cases (s : String) :
    (∃ t : Stamp, Bytes.ofString s = t.toWritten.toBytes ∧ parse s = .ok t) ∨
    (∃ (w : Written) (why : DateFault), Bytes.ofString s = w.toBytes ∧ w.check = .error why ∧
      parse s = .error (.impossible why)) ∨
    ((∀ w : Written, Bytes.ofString s ≠ w.toBytes) ∧ parse s = .error (.malformed s)) := by
  by_cases h : ∃ w : Written, Bytes.ofString s = w.toBytes
  · obtain ⟨w, hw⟩ := h
    have hparse := parse_of_toBytes hw
    cases hcheck : w.check with
    | ok t =>
      rw [hcheck] at hparse
      rw [← Written.toWritten_of_check hcheck] at hw
      exact .inl ⟨t, hw, hparse⟩
    | error why =>
      rw [hcheck] at hparse
      exact .inr (.inl ⟨w, why, hw, hcheck, hparse⟩)
  · have hne := not_exists.mp h
    exact .inr (.inr ⟨hne, parse_of_ne_toBytes hne⟩)

theorem parse_eq_ok_iff : parse s = .ok t ↔ Bytes.ofString s = t.toWritten.toBytes := by
  constructor
  · intro h
    obtain ⟨u, hu, hparse⟩ | ⟨_, _, -, -, hparse⟩ | ⟨-, hparse⟩ := parse_cases s
    · cases h.symm.trans hparse
      exact hu
    · cases h.symm.trans hparse
    · cases h.symm.trans hparse
  · intro h
    rw [parse_of_toBytes h, Written.check_toWritten]
    rfl

theorem exists_spells_iff :
    (∃ f : Fields, f.Spells bs) ↔ ∃ w : Written, bs = w.toBytes := by
  constructor
  · rintro ⟨f, hf⟩
    obtain ⟨w, -, hw⟩ := Fields.exists_fields hf
    exact ⟨w, hw.symm⟩
  · rintro ⟨w, rfl⟩
    exact ⟨w.fields, Fields.spells_fields w⟩

theorem parse_eq_malformed_iff :
    parse s = .error (.malformed s) ↔ ¬∃ f : Fields, f.Spells (Bytes.ofString s) := by
  rw [exists_spells_iff, not_exists]
  constructor
  · intro h
    obtain ⟨_, -, hparse⟩ | ⟨_, _, -, -, hparse⟩ | ⟨hne, -⟩ := parse_cases s
    · cases h.symm.trans hparse
    · cases h.symm.trans hparse
    · exact hne
  · exact parse_of_ne_toBytes

theorem parse_eq_yearZero_iff : parse s = .error (.impossible .yearZero) ↔
    ∃ f : Fields, f.Spells (Bytes.ofString s) ∧ value f.year = 0 := by
  constructor
  · intro h
    obtain ⟨_, -, hparse⟩ | ⟨w, _, hw, hcheck, hparse⟩ | ⟨-, hparse⟩ := parse_cases s
    · cases h.symm.trans hparse
    · cases h.symm.trans hparse
      refine ⟨w.fields, hw ▸ Fields.spells_fields w, ?_⟩
      rw [← (Fields.tells_fields w).year]
      exact Written.check_eq_yearZero_iff.mp hcheck
    · cases h.symm.trans hparse
  · rintro ⟨f, hf, hyear⟩
    obtain ⟨w, rfl, hw⟩ := Fields.exists_fields hf
    rw [← (Fields.tells_fields w).year] at hyear
    rw [parse_of_toBytes hw.symm, Written.check_eq_yearZero_iff.mpr hyear]
    rfl

/-! ## Which texts are stamps -/

/-- **A text is a stamp when it spells a date that exists**, and it is never read as another one.
For every text:
* it is a stamp exactly when it is 23 bytes of the form and the values of its digits are a date and
  a time of day;
* the numbers of the stamp are then these values;
* it is malformed exactly when it has another form;
* the fault is the year zero exactly when it has the form and its year is 0, whatever follows;
* in all other cases the fault names the first field that does not meet a demand.

Both demands on the day have its name. A day past the end of its month is reported with the days of
that month, also where no month has so many. -/
theorem parse_exact (s : String) :
    ((∃ t, parse s = .ok t) ↔
      (Bytes.ofString s).length = 23 ∧
        ∃ f : Fields, f.Spells (Bytes.ofString s) ∧ f.Real) ∧
    (∀ (t : Stamp) (f : Fields), parse s = .ok t → f.Spells (Bytes.ofString s) →
      f.Tells t.toWritten) ∧
    (parse s = .error (.malformed s) ↔ ¬∃ f : Fields, f.Spells (Bytes.ofString s)) ∧
    (parse s = .error (.impossible .yearZero) ↔
      ∃ f : Fields, f.Spells (Bytes.ofString s) ∧ value f.year = 0) ∧
    (∀ f : Fields, f.Spells (Bytes.ofString s) → value f.year ≠ 0 → ¬f.Real →
      ∃ (field : String) (why : DateFault), f.firstBad? = some field ∧ why ≠ .yearZero ∧
        why.Names field ∧ parse s = .error (.impossible why)) := by
  refine ⟨⟨?_, ?_⟩, ?_, parse_eq_malformed_iff, parse_eq_yearZero_iff, ?_⟩
  · rintro ⟨t, ht⟩
    have hbytes := parse_eq_ok_iff.mp ht
    refine ⟨by rw [hbytes, Written.length_toBytes], t.toWritten.fields, ?_, ?_⟩
    · rw [hbytes]
      exact Fields.spells_fields t.toWritten
    · exact (Fields.tells_fields t.toWritten).real_iff.mpr t.possible
  · rintro ⟨-, f, hf, hreal⟩
    obtain ⟨w, rfl, hw⟩ := Fields.exists_fields hf
    have hpossible := (Fields.tells_fields w).real_iff.mp hreal
    exact ⟨⟨w, hpossible⟩, parse_eq_ok_iff.mpr hw.symm⟩
  · intro t f ht hf
    obtain ⟨w, rfl, hw⟩ := Fields.exists_fields hf
    have hsame : w = t.toWritten := Written.toBytes_inj (hw.trans (parse_eq_ok_iff.mp ht))
    exact hsame ▸ Fields.tells_fields w
  · intro f hf hyear hreal
    obtain ⟨w, rfl, hw⟩ := Fields.exists_fields hf
    have htells := Fields.tells_fields w
    rw [← htells.year] at hyear
    rw [htells.real_iff] at hreal
    obtain ⟨field, why, hfield, hwhy, hnames, hcheck⟩ :=
      Written.exists_check_eq_error hyear hreal
    refine ⟨field, why, hfield, hwhy, hnames, ?_⟩
    rw [parse_of_toBytes hw.symm, hcheck]
    rfl

/-- The last day of a February that has it, and the next year the same day, which is wrong before
the hour, the minute and the second are. -/
theorem parse_exact_leap_day :
    (∃ (t : Stamp) (f : Fields), parse "2020-02-29 23:59:59:999" = .ok t ∧
      f.Spells (Bytes.ofString "2020-02-29 23:59:59:999") ∧ f.Tells t.toWritten ∧
      value f.milli = 999) ∧
    ∃ (f : Fields) (why : DateFault), f.Spells (Bytes.ofString "2021-02-29 24:60:60:000") ∧
      why.Names "day" ∧ parse "2021-02-29 24:60:60:000" = .error (.impossible why) := by
  constructor
  · let f : Fields := {
      year := Bytes.ofString "2020", month := Bytes.ofString "02", day := Bytes.ofString "29"
      hour := Bytes.ofString "23", minute := Bytes.ofString "59", second := Bytes.ofString "59"
      milli := Bytes.ofString "999" }
    have hf : f.Spells (Bytes.ofString "2020-02-29 23:59:59:999") := by decide
    have hreal : f.Real := by decide
    obtain ⟨haccepts, htells, -⟩ := parse_exact "2020-02-29 23:59:59:999"
    obtain ⟨t, ht⟩ := haccepts.mpr ⟨by decide, f, hf, hreal⟩
    exact ⟨t, f, ht, hf, htells t f ht hf, by decide⟩
  · let f : Fields := {
      year := Bytes.ofString "2021", month := Bytes.ofString "02", day := Bytes.ofString "29"
      hour := Bytes.ofString "24", minute := Bytes.ofString "60", second := Bytes.ofString "60"
      milli := Bytes.ofString "000" }
    have hf : f.Spells (Bytes.ofString "2021-02-29 24:60:60:000") := by decide
    have hreal : ¬f.Real := by decide
    have hfirst : f.firstBad? = some "day" := by decide
    obtain ⟨-, -, -, -, hnames⟩ := parse_exact "2021-02-29 24:60:60:000"
    obtain ⟨field, why, hfield, -, hwhy, hparse⟩ := hnames f hf (by decide) hreal
    obtain rfl : "day" = field := Option.some.inj (hfirst.symm.trans hfield)
    exact ⟨f, why, hf, hwhy, hparse⟩

/-! ## There and back -/

theorem Written.ofString_toText (w : Written) : Bytes.ofString w.toText = w.toBytes := by
  obtain ⟨text, htext⟩ := w.exists_ofString
  rw [toText, ← htext, Bytes.toText_ofString]

/-- **Stamps are written as they are read.** What is read from a text is written as that text, byte
for byte, and what is written for a stamp is read as that stamp. So texts that are stamps differ
when they are read, too. -/
theorem parse_toText :
    (∀ (s : String) (t : Stamp), parse s = .ok t → t.toText = s) ∧
    (∀ t : Stamp, parse t.toText = .ok t) ∧
    Set.InjOn parse {s | ∃ t, parse s = .ok t} := by
  have hback (s : String) (t : Stamp) (h : parse s = .ok t) : t.toText = s := by
    rw [Written.toText, ← parse_eq_ok_iff.mp h, Bytes.toText_ofString]
  refine ⟨hback, fun t => parse_eq_ok_iff.mpr t.toWritten.ofString_toText, ?_⟩
  rintro r ⟨t, hr⟩ s - heq
  exact (hback r t hr).symm.trans (hback s t (heq ▸ hr))

/-- A small year, and a part of a second with zeros before it. -/
theorem parse_toText_small : ∃ t, parse "0009-02-03 00:00:00:010" = .ok t ∧
    t.toText = "0009-02-03 00:00:00:010" := by
  have haccepted : (parse "0009-02-03 00:00:00:010").isOk := by decide
  cases h : parse "0009-02-03 00:00:00:010" with
  | ok t => exact ⟨t, rfl, parse_toText.1 _ t h⟩
  | error e =>
    rw [h] at haccepted
    cases haccepted

/-! ## In order -/

theorem compare_of_parse {r s : String} {t u : Stamp} (hr : parse r = .ok t)
    (hs : parse s = .ok u) :
    compare t u = compare (Bytes.ofString r) (Bytes.ofString s) := by
  rw [parse_eq_ok_iff.mp hr, parse_eq_ok_iff.mp hs, compare_toBytes]

/-- **Stamps come in the order of their texts.** Two stamps that are read from texts compare as the
bytes of the texts do: the earlier one has the text that is less in byte order, in whatever field
they differ first, and texts of the same stamp are the same. -/
theorem compare_parsed {r s : String} {t u : Stamp} (hr : parse r = .ok t) (hs : parse s = .ok u) :
    compare t u = compare (Bytes.ofString r) (Bytes.ofString s) ∧
    (compare t u = .lt ↔ Bytes.ofString r < Bytes.ofString s) ∧
    (compare t u = .eq ↔ r = s) ∧
    (compare t u = .gt ↔ Bytes.ofString s < Bytes.ofString r) := by
  refine ⟨compare_of_parse hr hs, ?_, ?_, ?_⟩
  · rw [compare_of_parse hr hs, compare_eq_lt_iff]
  · rw [compare_of_parse hr hs, Std.compare_eq_iff_eq]
    exact Bytes.ofString_injective.eq_iff
  · rw [Std.OrientedCmp.gt_iff_lt, compare_of_parse hs hr, compare_eq_lt_iff]

/-- The last thousandth of a second comes before the next second, though its last digits are
greater. -/
theorem compare_parsed_next_second : ∃ t u, parse "2020-01-01 10:00:00:999" = .ok t ∧
    parse "2020-01-01 10:00:01:000" = .ok u ∧ compare t u = .lt := by
  obtain ⟨t, ht⟩ : ∃ t, parse "2020-01-01 10:00:00:999" = .ok t := ⟨_, rfl⟩
  obtain ⟨u, hu⟩ : ∃ u, parse "2020-01-01 10:00:01:000" = .ok u := ⟨_, rfl⟩
  obtain ⟨-, hless, -, -⟩ := compare_parsed ht hu
  exact ⟨t, u, ht, hu, hless.mpr (by decide)⟩

end LogOrder.Stamp
