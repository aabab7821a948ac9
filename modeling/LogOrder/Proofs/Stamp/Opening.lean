import LogOrder.Proofs.Stamp.Parsed

/-!
# Lines that open with a stamp

A stamp is met in two places: at the head of a line, in brackets and with anything after it, and as
a text of its own. Both go by the same 23 bytes. What follows the closing bracket does not matter to
a line, and what stands between the brackets is a stamp for the one exactly when it is for the
other.

* `opening?_eq_some_iff_take`: what a line opens with is settled by its first 25 bytes;
* `exists_opening?_bracketed_iff`: a text in brackets opens a line when it is not malformed;
* **`opening_recognised`**: which lines open with a stamp, and what it is when it is read as a text.
-/

namespace LogOrder.Stamp

variable {line other bs : Bytes} {w : Written} {s : String}

/-! ## The head of a line -/

/-- The stamp that a line opens with takes up 25 bytes, brackets included. -/
theorem opening?_eq_some_iff_take :
    opening? line = some w ↔ line.take 25 = openBracket :: (w.toBytes ++ [closeBracket]) := by
  have hlength : (openBracket :: (w.toBytes ++ [closeBracket])).length = 25 := by
    simp [w.length_toBytes]
  rw [opening?_eq_some_iff]
  constructor
  · rintro ⟨rest, rfl⟩
    have hsplit : openBracket :: (w.toBytes ++ closeBracket :: rest) =
        (openBracket :: (w.toBytes ++ [closeBracket])) ++ rest := by simp
    rw [hsplit, List.take_left' hlength]
  · intro h
    refine ⟨line.drop 25, ?_⟩
    calc line = line.take 25 ++ line.drop 25 := (List.take_append_drop 25 line).symm
      _ = openBracket :: (w.toBytes ++ closeBracket :: line.drop 25) := by rw [h]; simp

theorem opening?_congr (h : line.take 25 = other.take 25) : opening? line = opening? other := by
  refine Option.ext fun w => ?_
  rw [opening?_eq_some_iff_take, opening?_eq_some_iff_take, h]

/-- The text of the stamp is what stands between the brackets, and that can be any of the form. -/
theorem exists_opening?_iff :
    (∃ w, opening? line = some w ∧ Bytes.ofString w.toText = bs) ↔
      line.take 25 = openBracket :: (bs ++ [closeBracket]) ∧ ∃ f : Fields, f.Spells bs := by
  simp only [opening?_eq_some_iff_take, Written.ofString_toText, exists_spells_iff]
  constructor
  · rintro ⟨w, hline, rfl⟩
    exact ⟨hline, w, rfl⟩
  · rintro ⟨hline, w, rfl⟩
    exact ⟨w, hline, rfl⟩

/-! ## A text in brackets -/

/-- A text that is not malformed is a written stamp, though perhaps of no date. -/
theorem forall_parse_ne_malformed_iff :
    (∀ text, parse s ≠ .error (.malformed text)) ↔ ∃ w : Written, Bytes.ofString s = w.toBytes := by
  constructor
  · intro hform
    by_contra hnone
    exact hform s (parse_of_ne_toBytes (not_exists.mp hnone))
  · rintro ⟨w, hw⟩ text
    rw [parse_of_toBytes hw]
    cases w.check <;> simp [Except.mapError]

/-- In brackets, a text opens a line as a whole when it is not malformed by itself. Any other may
open it too, but only with a part of itself. -/
theorem exists_opening?_bracketed_iff (s r : String) :
    (∃ w, opening? (Bytes.ofString ("[" ++ s ++ "]" ++ r)) = some w ∧ w.toText = s) ↔
      ∃ w : Written, Bytes.ofString s = w.toBytes := by
  rw [ofString_bracketed]
  constructor
  · rintro ⟨w, -, rfl⟩
    exact ⟨w, w.ofString_toText⟩
  · rintro ⟨w, hw⟩
    refine ⟨w, opening?_eq_some_iff.mpr ⟨Bytes.ofString r, by rw [hw]⟩, ?_⟩
    exact Bytes.ofString_injective (by rw [w.ofString_toText, hw])

/-- The fault of a date is worded alike wherever the date stands. -/
theorem mapError_message_impossible (found : Except DateFault Stamp) :
    (found.mapError ParseFault.impossible).mapError ParseFault.message =
      found.mapError DateFault.message := by
  cases found <;> rfl

/-- **A stamp is recognised by 25 bytes**, and as it would be by itself.
* A line opens with a stamp exactly when its first 25 bytes are an opening bracket, 23 bytes of the
  form and a closing bracket, and then these 23 bytes are the text of the stamp;
* whether it does, and with which, does not depend on any byte after them;
* a text is not malformed exactly when, in brackets and before any other text, it opens a line as a
  whole;
* and then it is read as that stamp is: to the same date, or with the same fault in the same
  words. -/
theorem opening_recognised :
    (∀ line bs : Bytes, (∃ w, opening? line = some w ∧ Bytes.ofString w.toText = bs) ↔
      line.take 25 = openBracket :: (bs ++ [closeBracket]) ∧ ∃ f : Fields, f.Spells bs) ∧
    (∀ line other : Bytes, line.take 25 = other.take 25 → opening? line = opening? other) ∧
    ∀ s r : String,
      ((∀ text, parse s ≠ .error (.malformed text)) ↔
        ∃ w, opening? (Bytes.ofString ("[" ++ s ++ "]" ++ r)) = some w ∧ w.toText = s) ∧
      ∀ w, opening? (Bytes.ofString ("[" ++ s ++ "]" ++ r)) = some w → w.toText = s →
        parse s = w.check.mapError .impossible ∧
        (parse s).mapError ParseFault.message = w.check.mapError DateFault.message := by
  refine ⟨fun _ _ => exists_opening?_iff, fun _ _ => opening?_congr, ?_⟩
  intro s r
  constructor
  · rw [forall_parse_ne_malformed_iff, exists_opening?_bracketed_iff]
  · rintro w - rfl
    have hparse := parse_of_toBytes w.ofString_toText
    rw [hparse, mapError_message_impossible]
    exact ⟨rfl, rfl⟩

/-- A day that its month does not have, before a bracket and a character of two bytes; and a text
that goes on after a stamp and its bracket. -/
theorem opening_recognised_brackets :
    (∃ w, opening? (Bytes.ofString ("[" ++ "2021-02-29 10:00:00:000" ++ "]" ++ "]é\n")) = some w ∧
      w.toText = "2021-02-29 10:00:00:000" ∧ w.check.mapError DateFault.message =
        .error "parameter 'day' for `2021-02` is invalid, must be in range `1..=28`" ∧
      opening? (Bytes.ofString "[2021-02-29 10:00:00:000]\n") = some w) ∧
    ∃ text, parse "2021-02-28 10:00:00:000] x" = .error (.malformed text) := by
  obtain ⟨-, hhead, hbracketed⟩ := opening_recognised
  constructor
  · obtain ⟨why, hwhy⟩ : ∃ why, parse "2021-02-29 10:00:00:000" = .error (.impossible why) :=
      ⟨_, rfl⟩
    obtain ⟨hform, hsame⟩ := hbracketed "2021-02-29 10:00:00:000" "]é\n"
    obtain ⟨w, hw, htext⟩ := hform.mp fun text h => by rw [hwhy] at h; cases h
    obtain ⟨-, hmessage⟩ := hsame w hw htext
    refine ⟨w, hw, htext, ?_, ?_⟩
    · rw [← hmessage]
      decide
    · rw [← hw]
      exact hhead _ _ (by decide)
  · obtain ⟨hform, -⟩ := hbracketed "2021-02-28 10:00:00:000] x" ""
    by_contra hnot
    obtain ⟨w, -, htext⟩ := hform.mp (not_exists.mp hnot)
    -- the text is longer than a stamp
    have hlength := congrArg List.length w.ofString_toText
    rw [htext, w.length_toBytes] at hlength
    exact absurd hlength (by decide)

end LogOrder.Stamp
