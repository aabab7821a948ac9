import LogOrder.Proofs.Text.Lines
import LogOrder.Thread.Marker

/-!
# The marker furthest to the right

`Thread.markers` walks over a line and never looks inside a marker that it has found. Nothing is
missed that way, because a marker holds no second opening bracket, and so the last marker of the
walk is the one that starts furthest to the right among all that stand in the line.

* `marker?_eq_some_iff`: what a marker is;
* `name?_eq_rightmost?`: a line belongs to the thread of its rightmost marker;
* `MarkerAt` says of the bytes alone that a marker stands somewhere in them, and `LastMarker` that
  none starts further to the right;
* `rightmost?_spec`: the rightmost marker is the last of all that stand in the line.
-/

namespace LogOrder

theorem Decimal.isDigit_iff {b : UInt8} :
    Decimal.isDigit b = true ↔ 48 ≤ b.toNat ∧ b.toNat ≤ 57 := by
  unfold Decimal.isDigit Decimal.digit?
  split <;> simp <;> omega

namespace Thread

theorem after?_eq_some_iff {lead s rest : Bytes} :
    after? lead s = some rest ↔ s = lead ++ rest := by
  induction lead generalizing s with
  | nil => simp [after?]
  | cons b lead ih =>
    simp only [after?, Option.bind_eq_some_iff, Bytes.skip?_eq_some_iff]
    constructor
    · rintro ⟨tail, rfl, h⟩
      rw [ih.mp h, List.cons_append]
    · rintro rfl
      exact ⟨lead ++ rest, rfl, ih.mpr rfl⟩

/-- A marker is the stem and some digits between brackets, and its name is what the brackets
hold. -/
theorem marker?_eq_some_iff {s name : Bytes} :
    marker? s = some name ↔ ∃ digits rest, digits ≠ [] ∧ (∀ d ∈ digits, Decimal.isDigit d = true) ∧
      name = stem ++ digits ∧
      s = Stamp.openBracket :: (name ++ Stamp.closeBracket :: rest) := by
  simp only [marker?, Option.bind_eq_bind, Option.bind_eq_some_iff, after?_eq_some_iff,
    Bytes.skip?_eq_some_iff]
  constructor
  · rintro ⟨tail, rfl, rest, hrest, h⟩
    split at h
    · cases h
    · next hne =>
      cases h
      refine ⟨_, rest, hne, ?_, rfl, ?_⟩
      · intro d hd
        exact List.all_eq_true.mp List.all_takeWhile d hd
      · rw [List.append_assoc, ← hrest, List.takeWhile_append_dropWhile]
        rfl
  · rintro ⟨digits, rest, hne, hdigits, rfl, rfl⟩
    have hclose : ¬Decimal.isDigit Stamp.closeBracket = true := by decide
    have htake : (digits ++ Stamp.closeBracket :: rest).takeWhile Decimal.isDigit = digits := by
      rw [List.takeWhile_append_of_pos hdigits, List.takeWhile_cons_of_neg hclose,
        List.append_nil]
    have hdrop : (digits ++ Stamp.closeBracket :: rest).dropWhile Decimal.isDigit =
        Stamp.closeBracket :: rest := by
      rw [List.dropWhile_append_of_pos hdigits, List.dropWhile_cons_of_neg hclose]
    refine ⟨digits ++ Stamp.closeBracket :: rest, ?_, rest, hdrop, ?_⟩
    · rw [List.append_assoc]
      rfl
    · rw [htake, if_neg hne]

/-- The name in the marker that starts furthest to the right, at whatever place. -/
def rightmost? : Bytes → Option Bytes
  | [] => none
  | b :: rest => (rightmost? rest).or (marker? (b :: rest))

theorem marker?_eq_none {b : UInt8} (h : b ≠ Stamp.openBracket) (rest : Bytes) :
    marker? (b :: rest) = none := by
  rw [Option.eq_none_iff_forall_ne_some]
  intro name hname
  obtain ⟨_, _, -, -, -, hs⟩ := marker?_eq_some_iff.mp hname
  exact h (List.cons.inj hs).1

theorem rightmost?_append {as : Bytes} (h : Stamp.openBracket ∉ as) (bs : Bytes) :
    rightmost? (as ++ bs) = rightmost? bs := by
  induction as with
  | nil => rfl
  | cons a as ih =>
    have ha : a ≠ Stamp.openBracket := fun e => h (by simp [e])
    have has : Stamp.openBracket ∉ as := fun m => h (List.mem_cons_of_mem a m)
    rw [List.cons_append, rightmost?, marker?_eq_none ha, ih has, Option.or_none]

theorem marker?_concat_newline (s : Bytes) : marker? (s ++ [Bytes.newline]) = marker? s := by
  refine Option.ext fun name => ?_
  rw [marker?_eq_some_iff, marker?_eq_some_iff]
  constructor
  · rintro ⟨digits, rest, hne, hdigits, hname, hs⟩
    have hsplit : s ++ [Bytes.newline] =
        (Stamp.openBracket :: name) ++ Stamp.closeBracket :: rest := hs
    obtain ⟨init, hinit⟩ := Line.exists_of_concat_newline_eq (by decide) hsplit
    exact ⟨digits, init, hne, hdigits, hname, hinit⟩
  · rintro ⟨digits, rest, hne, hdigits, hname, rfl⟩
    exact ⟨digits, rest ++ [Bytes.newline], hne, hdigits, hname, by simp⟩

/-- A newline at the end is no part of a marker. -/
theorem rightmost?_concat_newline (s : Bytes) :
    rightmost? (s ++ [Bytes.newline]) = rightmost? s := by
  induction s with
  | nil => decide
  | cons b rest ih =>
    rw [List.cons_append, rightmost?, rightmost?, ih, ← List.cons_append, marker?_concat_newline]

theorem rightmost?_close (line : Bytes) : rightmost? (Line.close line) = rightmost? line := by
  unfold Line.close
  split
  · rfl
  · exact rightmost?_concat_newline line

theorem openBracket_not_mem_name {s name : Bytes} (h : marker? s = some name) :
    Stamp.openBracket ∉ name := by
  obtain ⟨digits, rest, -, hdigits, rfl, -⟩ := marker?_eq_some_iff.mp h
  rw [List.mem_append, not_or]
  constructor
  · decide
  · intro hmem
    exact absurd (hdigits _ hmem) (by decide)

/-- What a marker covers after its opening bracket opens no other one. -/
theorem rightmost?_drop_marker {b : UInt8} {rest name : Bytes}
    (h : marker? (b :: rest) = some name) :
    rightmost? (rest.drop (name.length + 1)) = rightmost? rest := by
  obtain ⟨digits, tail, -, -, hname, hs⟩ := marker?_eq_some_iff.mp h
  have hrest : rest = (name ++ [Stamp.closeBracket]) ++ tail := by
    rw [(List.cons.inj hs).2, List.append_assoc]
    rfl
  have hclear : Stamp.openBracket ∉ name ++ [Stamp.closeBracket] := by
    rw [List.mem_append, not_or]
    exact ⟨openBracket_not_mem_name h, by decide⟩
  rw [hrest, rightmost?_append hclear, List.drop_left' (by simp)]

theorem getLast?_markersFrom (covered : Nat) (s : Bytes) :
    (markersFrom covered s).getLast? = rightmost? (s.drop covered) := by
  fun_induction markersFrom covered s with
  | case1 covered => simp [rightmost?]
  | case2 covered b rest ih => rw [ih, List.drop_succ_cons]
  | case3 b rest name hname ih =>
    rw [List.getLast?_cons, ih, rightmost?_drop_marker hname, List.drop_zero, rightmost?, hname]
    cases rightmost? rest <;> rfl
  | case4 b rest hname ih =>
    rw [ih, List.drop_zero, List.drop_zero, rightmost?, hname, Option.or_none]

/-- A line belongs to the thread of its rightmost marker. -/
theorem name?_eq_rightmost? (line : Bytes) : name? line = rightmost? line :=
  getLast?_markersFrom 0 line

/-! ## All markers in a line -/

/-- A marker with these digits stands at that place of the line, whatever else covers it. -/
structure MarkerAt (line : Bytes) (start : Nat) (digits : Bytes) : Prop where
  /-- There is at least one digit, -/
  ne_nil : digits ≠ []
  /-- they are ASCII digits, -/
  toNat_mem : ∀ d ∈ digits, 48 ≤ d.toNat ∧ d.toNat ≤ 57
  /-- and what starts there is `[thread-`, the digits and `]`. -/
  stands : Stamp.openBracket :: (stem ++ digits ++ [Stamp.closeBracket]) <+: line.drop start

/-- The marker that starts furthest to the right in the line has these digits. -/
def LastMarker (line digits : Bytes) : Prop :=
  ∃ start, MarkerAt line start digits ∧ ∀ other ds, MarkerAt line other ds → other ≤ start

variable {line digits ds : Bytes} {start : Nat}

theorem markerAt_iff : MarkerAt line start digits ↔
    marker? (line.drop start) = some (stem ++ digits) := by
  rw [marker?_eq_some_iff]
  constructor
  · rintro ⟨hne, hdigits, rest, hrest⟩
    refine ⟨digits, rest, hne, ?_, rfl, ?_⟩
    · intro d hd
      exact Decimal.isDigit_iff.mpr (hdigits d hd)
    · rw [← hrest]
      simp
  · rintro ⟨ds, rest, hne, hdigits, hname, hrest⟩
    obtain rfl : digits = ds := List.append_cancel_left hname
    refine ⟨hne, ?_, rest, ?_⟩
    · intro d hd
      exact Decimal.isDigit_iff.mp (hdigits d hd)
    · rw [hrest]
      simp

theorem exists_markerAt {name : Bytes} (h : marker? (line.drop start) = some name) :
    ∃ digits, name = stem ++ digits ∧ MarkerAt line start digits := by
  obtain ⟨digits, -, -, -, rfl, -⟩ := marker?_eq_some_iff.mp h
  exact ⟨digits, rfl, markerAt_iff.mpr h⟩

theorem markerAt_succ {b : UInt8} {rest : Bytes} :
    MarkerAt (b :: rest) (start + 1) digits ↔ MarkerAt rest start digits := by
  rw [markerAt_iff, markerAt_iff, List.drop_succ_cons]

/-- In one place there is one marker. -/
theorem MarkerAt.unique (h : MarkerAt line start digits) (h' : MarkerAt line start ds) :
    digits = ds := by
  have hname := (markerAt_iff.mp h).symm.trans (markerAt_iff.mp h')
  exact List.append_cancel_left (Option.some.inj hname)

theorem LastMarker.unique (h : LastMarker line digits) (h' : LastMarker line ds) :
    digits = ds := by
  obtain ⟨start, hmarker, hlast⟩ := h
  obtain ⟨other, hother, hlast'⟩ := h'
  obtain rfl : start = other := Nat.le_antisymm (hlast' _ _ hmarker) (hlast _ _ hother)
  exact hmarker.unique hother

/-- One more byte before the line takes nothing away from its last marker. -/
theorem LastMarker.cons (h : LastMarker line digits) (b : UInt8) :
    LastMarker (b :: line) digits := by
  obtain ⟨start, hmarker, hlast⟩ := h
  refine ⟨start + 1, markerAt_succ.mpr hmarker, ?_⟩
  intro other ds hother
  cases other with
  | zero => exact Nat.zero_le _
  | succ other => exact Nat.succ_le_succ (hlast other ds (markerAt_succ.mp hother))

theorem lastMarker_head {b : UInt8} (h : MarkerAt (b :: line) 0 digits)
    (hno : ∀ start ds, ¬MarkerAt line start ds) : LastMarker (b :: line) digits := by
  refine ⟨0, h, ?_⟩
  intro other ds hother
  cases other with
  | zero => exact Nat.le_refl 0
  | succ other => exact absurd (markerAt_succ.mp hother) (hno other ds)

theorem not_markerAt_cons {b : UInt8} (hhead : marker? (b :: line) = none)
    (hno : ∀ start ds, ¬MarkerAt line start ds) (start : Nat) (ds : Bytes) :
    ¬MarkerAt (b :: line) start ds := by
  intro h
  cases start with
  | zero =>
    have hread := markerAt_iff.mp h
    rw [List.drop_zero, hhead] at hread
    cases hread
  | succ start => exact hno start ds (markerAt_succ.mp h)

/-- No marker stands in the line, or the rightmost one is the last. -/
theorem rightmost?_spec (line : Bytes) :
    (rightmost? line = none ∧ ∀ start digits, ¬MarkerAt line start digits) ∨
    ∃ digits, rightmost? line = some (stem ++ digits) ∧ LastMarker line digits := by
  induction line with
  | nil =>
    left
    refine ⟨rfl, ?_⟩
    rintro start digits ⟨-, -, hstands⟩
    simp at hstands
  | cons b rest ih =>
    rcases ih with ⟨hnone, hno⟩ | ⟨digits, hsome, hlast⟩
    · -- only the place at the head is left for a marker
      cases hhead : marker? (b :: rest) with
      | none =>
        left
        refine ⟨?_, not_markerAt_cons hhead hno⟩
        rw [rightmost?, hnone, hhead]
        rfl
      | some name =>
        right
        obtain ⟨digits, rfl, hmarker⟩ : ∃ digits, name = stem ++ digits ∧
            MarkerAt (b :: rest) 0 digits := exists_markerAt hhead
        refine ⟨digits, ?_, lastMarker_head hmarker hno⟩
        rw [rightmost?, hnone, hhead]
        rfl
    · right
      refine ⟨digits, ?_, hlast.cons b⟩
      rw [rightmost?, hsome]
      rfl

theorem rightmost?_eq_some_iff {name : Bytes} :
    rightmost? line = some name ↔ ∃ digits, name = stem ++ digits ∧ LastMarker line digits := by
  constructor
  · intro h
    rcases rightmost?_spec line with ⟨hnone, -⟩ | ⟨digits, hsome, hlast⟩
    · rw [hnone] at h
      cases h
    · exact ⟨digits, Option.some.inj (h.symm.trans hsome), hlast⟩
  · rintro ⟨digits, rfl, hlast⟩
    rcases rightmost?_spec line with ⟨-, hno⟩ | ⟨ds, hsome, hlast'⟩
    · obtain ⟨start, hmarker, -⟩ := hlast
      exact absurd hmarker (hno start digits)
    · rw [hsome, hlast.unique hlast']

theorem lastMarker_iff : LastMarker line digits ↔ rightmost? line = some (stem ++ digits) := by
  rw [rightmost?_eq_some_iff]
  constructor
  · intro h
    exact ⟨digits, rfl, h⟩
  · rintro ⟨ds, hname, hlast⟩
    rwa [List.append_cancel_left hname]

instance (line digits : Bytes) : Decidable (LastMarker line digits) :=
  decidable_of_iff' _ lastMarker_iff

theorem rightmost?_eq_none_iff :
    rightmost? line = none ↔ ∀ start digits, ¬MarkerAt line start digits := by
  constructor
  · intro h
    rcases rightmost?_spec line with ⟨-, hno⟩ | ⟨digits, hsome, -⟩
    · exact hno
    · rw [h] at hsome
      cases hsome
  · intro hno
    rcases rightmost?_spec line with ⟨hnone, -⟩ | ⟨digits, -, start, hmarker, -⟩
    · exact hnone
    · exact absurd hmarker (hno start digits)

end Thread

end LogOrder
