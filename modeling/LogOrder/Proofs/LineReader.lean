import LogOrder.Proofs.Source

/-!
# Readers of lines

A reader stands in front of a source. It holds what the last call to the source brought, hands it
out line by line, and calls again only when no newline is left in what it holds. So a line may take
any number of calls, and one call may bring any number of lines.

* `Line.of_first?`, `Line.newline_not_mem_of_first?`: where the first line of some bytes ends;
* **`next_spec`**: a reader hands out the lines of its source, and then ends or fails as it does.
-/

namespace LogOrder

namespace Line

/-- The first whole line of the bytes, and what follows it. -/
def first? : Bytes → Option (Bytes × Bytes)
  | [] => none
  | b :: bs =>
    if b = Bytes.newline then some ([b], bs)
    else (first? bs).map fun (line, rest) => (b :: line, rest)

theorem whole_newline : Whole [Bytes.newline] := ⟨[], List.not_mem_nil, rfl⟩

theorem Whole.cons {line : Bytes} (h : Whole line) {b : UInt8} (hb : b ≠ Bytes.newline) :
    Whole (b :: line) := by
  obtain ⟨body, hbody, rfl⟩ := h
  exact ⟨b :: body, by simp [Ne.symm hb, hbody], rfl⟩

theorem of_first? {bs line rest : Bytes} (h : first? bs = some (line, rest)) :
    Whole line ∧ bs = line ++ rest := by
  induction bs generalizing line with
  | nil => cases h
  | cons b bs ih =>
    rw [first?] at h
    by_cases hb : b = Bytes.newline
    · rw [if_pos hb] at h
      cases h
      exact ⟨hb ▸ whole_newline, rfl⟩
    · rw [if_neg hb] at h
      obtain ⟨⟨tail, after⟩, htail, heq⟩ := Option.map_eq_some_iff.mp h
      cases heq
      obtain ⟨hwhole, rfl⟩ := ih htail
      exact ⟨hwhole.cons hb, rfl⟩

theorem newline_not_mem_of_first? {bs : Bytes} (h : first? bs = none) : Bytes.newline ∉ bs := by
  induction bs with
  | nil => exact List.not_mem_nil
  | cons b bs ih =>
    rw [first?] at h
    by_cases hb : b = Bytes.newline
    · rw [if_pos hb] at h
      cases h
    · rw [if_neg hb, Option.map_eq_none_iff] at h
      simp [Ne.symm hb, ih h]

/-- Bytes before a whole line that hold no newline belong to it. -/
theorem Whole.append {as line : Bytes} (has : Bytes.newline ∉ as) (h : Whole line) :
    Whole (as ++ line) := by
  obtain ⟨body, hbody, rfl⟩ := h
  exact ⟨as ++ body, by simp [has, hbody], (List.append_assoc ..).symm⟩

end Line

/-- Reads lines from a source. -/
structure LineReader where
  /-- What the last call brought and is not handed out yet. -/
  buffer : Bytes := []
  /-- What the calls to come will bring. -/
  source : Source

namespace LineReader

/-- Reads on to the end of a line that starts with `got`. -/
def nextFrom (failure : Option IoFault) (got buffer : Bytes) (pieces : List Bytes) :
    Except IoFault (Bytes × LineReader) :=
  match Line.first? buffer with
  | some (line, rest) => .ok (got ++ line, { buffer := rest, source := { pieces, failure } })
  | none =>
    match pieces with
    | piece :: pieces => nextFrom failure (got ++ buffer) piece pieces
    | [] =>
      match failure with
      | some why => .error why
      -- what comes after the last newline is a line too, if it is anything
      | none => .ok (got ++ buffer, { source := { pieces := [], failure } })

/-- A reader that has not called its source yet. -/
def ofSource (source : Source) : LineReader := { source }

/-- Reads the next line. Nothing is handed out when there is no line left. -/
def next (r : LineReader) : Except IoFault (Bytes × LineReader) :=
  nextFrom r.source.failure [] r.buffer r.source.pieces

/-- All that the reader can still hand out, as a source. -/
def remaining (r : LineReader) : Source :=
  { pieces := r.buffer :: r.source.pieces, failure := r.source.failure }

/-- What asking for a line can answer, by what there is to hand out. -/
inductive Next (whole : Source) : Except IoFault (Bytes × LineReader) → Prop
  /-- The first line. -/
  | line {line : Bytes} {r : LineReader} (hne : line ≠ [])
      (hlines : whole.lines = line :: r.remaining.lines)
      (hfailure : r.source.failure = whole.failure) : Next whole (.ok (line, r))
  /-- Nothing, because there is nothing left. -/
  | finished {r : LineReader} (hlines : whole.lines = []) (hfailure : whole.failure = none) :
      Next whole (.ok ([], r))
  /-- The failure of the source, because there is no whole line left. -/
  | failed {why : IoFault} (hlines : whole.lines = []) (hfailure : whole.failure = some why) :
      Next whole (.error why)

end LineReader

namespace Source

/-- A whole line is handed out, whatever follows it and however the source ends. -/
theorem lines_of_whole {s t : Source} {line : Bytes} (h : Line.Whole line)
    (hs : s.pieces.flatten = line ++ t.pieces.flatten) (hfailure : s.failure = t.failure) :
    s.lines = line :: t.lines := by
  rw [lines, lines, hs, hfailure, h.cut_append]
  cases t.failure with
  | none => rfl
  | some why => rw [List.filter_cons_of_pos h.endsLine]

/-- Bytes without a newline are a line only if the source ends. -/
theorem lines_of_not_mem {s : Source} (h : Bytes.newline ∉ s.pieces.flatten)
    (hfailure : s.failure ≠ none) : s.lines = [] := by
  obtain ⟨why, hwhy⟩ := Option.ne_none_iff_exists'.mp hfailure
  rw [lines, hwhy]
  by_cases hne : s.pieces.flatten = []
  · rw [hne]
    rfl
  · show (Line.cut s.pieces.flatten).filter Bytes.endsLine = []
    rw [Line.cut_of_not_mem hne h, List.filter_cons_of_neg (by simp [Line.endsLine_eq_false h])]
    rfl

end Source

namespace LineReader

/-- How many bytes the reader can still hand out. -/
def size (r : LineReader) : Nat := r.buffer.length + r.source.pieces.flatten.length

section Next

variable {failure : Option IoFault} {got buffer : Bytes} {pieces : List Bytes}

theorem nextFrom_spec (hgot : Bytes.newline ∉ got) {whole : Source}
    (hwhole : whole.pieces.flatten = got ++ buffer ++ pieces.flatten)
    (hfailure : whole.failure = failure) :
    Next whole (nextFrom failure got buffer pieces) := by
  fun_induction nextFrom failure got buffer pieces with
  | case1 got buffer pieces line rest hfirst =>
    obtain ⟨hline, rfl⟩ := Line.of_first? hfirst
    have hhead := hline.append hgot
    refine .line hhead.ne_nil (Source.lines_of_whole hhead ?_ hfailure) hfailure.symm
    rw [hwhole]
    simp [remaining]
  | case2 got buffer hfirst piece pieces ih =>
    have hbuffer := Line.newline_not_mem_of_first? hfirst
    exact ih (by simp [hgot, hbuffer]) (by simpa using hwhole)
  | case3 got buffer hfirst why hfails =>
    have hbuffer := Line.newline_not_mem_of_first? hfirst
    rw [hfails] at hfailure
    refine .failed (Source.lines_of_not_mem ?_ (by simp [hfailure])) hfailure
    simp [hwhole, hgot, hbuffer]
  | case4 got buffer hfirst hends =>
    have hbuffer := Line.newline_not_mem_of_first? hfirst
    rw [hends] at hfailure
    have hlines : whole.lines = Line.cut (got ++ buffer) := by
      rw [Source.lines, hfailure, hwhole]
      simp
    by_cases hne : got ++ buffer = []
    · rw [hne] at hlines ⊢
      exact .finished hlines hfailure
    · rw [Line.cut_of_not_mem hne (by simp [hgot, hbuffer])] at hlines
      exact .line hne hlines hfailure.symm

theorem length_of_nextFrom {line : Bytes} {r : LineReader}
    (h : nextFrom failure got buffer pieces = .ok (line, r)) :
    line.length + r.size = got.length + buffer.length + pieces.flatten.length := by
  fun_induction nextFrom failure got buffer pieces with
  | case1 got buffer pieces first rest hfirst =>
    obtain ⟨-, rfl⟩ := Line.of_first? hfirst
    cases h
    simp only [size, List.length_append]
    omega
  | case2 got buffer hfirst piece pieces ih =>
    rw [ih h, List.flatten_cons, List.length_append, List.length_append]
    omega
  | case3 got buffer hfirst why => cases h
  | case4 got buffer hfirst =>
    cases h
    simp [size]

/-- **What a reader hands out.** A reader that is asked for a line answers with the first line of
what its source still has, and then has the others; it answers with nothing when the source has
ended, and with the failure when it has failed. -/
theorem next_spec (r : LineReader) : Next r.remaining r.next :=
  nextFrom_spec List.not_mem_nil rfl rfl

variable {r r' : LineReader} {line : Bytes}

theorem of_next (h : r.next = .ok (line, r')) (hne : line ≠ []) :
    r.remaining.lines = line :: r'.remaining.lines ∧ r'.source.failure = r.source.failure := by
  have hnext := r.next_spec
  rw [h] at hnext
  cases hnext with
  | line _ hlines hfailure => exact ⟨hlines, hfailure⟩
  | finished => exact absurd rfl hne

theorem of_next_nil (h : r.next = .ok ([], r')) :
    r.remaining.lines = [] ∧ r.source.failure = none := by
  have hnext := r.next_spec
  rw [h] at hnext
  cases hnext with
  | line hne => exact absurd rfl hne
  | finished hlines hfailure => exact ⟨hlines, hfailure⟩

theorem of_next_error {why : IoFault} (h : r.next = .error why) :
    r.remaining.lines = [] ∧ r.source.failure = some why := by
  have hnext := r.next_spec
  rw [h] at hnext
  cases hnext with
  | failed hlines hfailure => exact ⟨hlines, hfailure⟩

theorem size_lt_of_next (h : r.next = .ok (line, r')) (hne : line ≠ []) : r'.size < r.size := by
  have hlength := length_of_nextFrom h
  have hpos := List.length_pos_iff.mpr hne
  simp only [List.length_nil] at hlength
  unfold size
  unfold size at hlength
  omega

end Next

end LineReader

end LogOrder
