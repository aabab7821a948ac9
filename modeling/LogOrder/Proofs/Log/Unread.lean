import LogOrder.Proofs.Log.Counted

/-!
# Logs that cannot be read to their end

A source may fail, or hand over a line that is not text. A run finds that out only when it comes
there, and the preamble has been written line by line until then. So such a run is no different
from one that stops at a stamp that is no date: no entry has been written, but the preamble has.

* `CutShort` says where a source cannot be read any further, and why;
* `exists_stops_of_error`: a run fails only with the first fault of its source;
* **`input_fault_after_preamble`**: when a source is reported, and what has been written then;
* `preamble_before_input_fault`: sources that are reported after something has been written.
-/

namespace LogOrder

/-- No line of a source is empty. -/
theorem Source.ne_nil_of_mem_lines {source : Source} {line : Bytes} (h : line ∈ source.lines) :
    line ≠ [] := by
  unfold Source.lines at h
  split at h
  · exact (Line.mem_cut h).1
  · exact (Line.mem_cut (List.mem_of_mem_filter h)).1

namespace Log

/-- The source can be read up to there and no further, for that cause. -/
inductive CutShort (source : Source) (before : List Bytes) : IoFault → Prop
  /-- The next line is not text. -/
  | notText {line : Bytes} {after : List Bytes} (hsound : ∀ l ∈ before, Sound l)
      (hlines : source.lines = before ++ line :: after) (hv : Utf8.valid line = false) :
      CutShort source before .notUtf8
  /-- There is no next line, because the source fails. -/
  | failure {why : IoFault} (hsound : ∀ l ∈ before, Sound l) (hlines : source.lines = before)
      (hfailure : source.failure = some why) : CutShort source before why

section CutShort

variable {names : Names} {policy : Policy} {source : Source} {sink sink' : Sink}
  {before : List Bytes} {fault : Fault} {why : IoFault}

theorem CutShort.stops (h : CutShort source before why) (names : Names) :
    Stops names source before (.input names.input why) := by
  cases h with
  | notText hsound hlines hv => exact .line hsound hlines (.notText hv)
  | failure hsound hlines hfailure => exact .source hsound hlines hfailure rfl

/-- Of the faults that stop a run, these are the ones that are reported of the source. -/
theorem Stops.cutShort {path : String} (h : Stops names source before (.input path why)) :
    path = names.input ∧ CutShort source before why := by
  cases h with
  | line hsound hlines hfault =>
    cases hfault with
    | notText hv => exact ⟨rfl, .notText hsound hlines hv⟩
  | source hsound hlines hfailure hfault =>
    cases hfault
    exact ⟨rfl, .failure hsound hlines hfailure⟩

theorem CutShort.ne_nil (h : CutShort source before why) : ∀ line ∈ before, line ≠ [] := by
  intro line hline
  have hmem : line ∈ source.lines := by
    cases h with
    | notText _ hlines _ => exact hlines ▸ List.mem_append_left _ hline
    | failure _ hlines _ => exact hlines ▸ hline
  exact Source.ne_nil_of_mem_lines hmem

/-- With a sink that takes everything, a run fails only with the first fault of its source. -/
theorem exists_stops_of_error (hsink : sink.Boundless)
    (h : reorder names policy source sink = .error fault sink') :
    ∃ before, Stops names source before fault := by
  have hnot : ¬Readable source := by
    intro hread
    obtain ⟨t, hok, -⟩ :=
      exists_reorder_eq_ok names policy hread.sound_cut hread.holds hsink
    rw [hok] at h
    cases h
  have hfault : (∃ line ∈ source.lines, ¬Sound line) ∨ source.failure ≠ none := by
    by_contra hnone
    push Not at hnone
    exact hnot ⟨hnone.1, hnone.2⟩
  obtain ⟨before, first, hstops⟩ := exists_stops names hfault
  have hanswer := (reorder_eq_of_stops hstops policy hsink).1
  rw [h] at hanswer
  cases hanswer
  exact ⟨before, hstops⟩

/-- The lines before the first that is stamped come to nothing only if there are none. -/
theorem flatten_takeWhile_eq_nil_iff {p : Bytes → Bool} {lines : List Bytes}
    (hne : ∀ line ∈ lines, line ≠ []) :
    (lines.takeWhile p).flatten = [] ↔ ∀ line ∈ lines.head?, p line = false := by
  cases lines with
  | nil => simp
  | cons line rest =>
    have hline := hne line List.mem_cons_self
    cases hp : p line with
    | false => simp [List.takeWhile_cons_of_neg, hp]
    | true => simp [List.takeWhile_cons_of_pos, hp, hline]

/-- **A source is reported after the preamble before its fault.** With a sink that takes everything,
a run fails for its source exactly if that can be read only up to some line, and reports why. What
it has written by then is the unstamped lines before both that place and the first stamped line: no
byte of any entry, and no byte at all exactly if no line comes before that place or the first line
is stamped. It has flushed nothing. -/
theorem input_fault_after_preamble (names : Names) (policy : Policy) (source : Source)
    (hsink : sink.Boundless) :
    ((∃ path sink', reorder names policy source sink = .error (.input path why) sink') ↔
      ∃ before, CutShort source before why) ∧
    ∀ path sink', reorder names policy source sink = .error (.input path why) sink' →
      path = names.input ∧ ∀ before, CutShort source before why →
        sink'.written = sink.written ++
          (before.takeWhile fun line => (Stamp.opening? line).isNone).flatten ∧
        (sink'.written = sink.written ↔
          ∀ first ∈ before.head?, (Stamp.opening? first).isSome) ∧
        sink'.flushes = sink.flushes := by
  constructor
  · constructor
    · rintro ⟨path, sink', hrun⟩
      obtain ⟨before, hstops⟩ := exists_stops_of_error hsink hrun
      exact ⟨before, hstops.cutShort.2⟩
    · rintro ⟨before, hcut⟩
      have hanswer := (reorder_eq_of_stops (hcut.stops names) policy hsink).1
      cases hrun : reorder names policy source sink with
      | ok tally sink' =>
        rw [hrun] at hanswer
        cases hanswer
      | error fault sink' =>
        rw [hrun] at hanswer
        cases hanswer
        exact ⟨_, _, rfl⟩
  · intro path sink' hrun
    obtain ⟨_, hstops⟩ := exists_stops_of_error hsink hrun
    refine ⟨hstops.cutShort.1, ?_⟩
    intro before hcut
    have hwritten := (reorder_eq_of_stops (hcut.stops names) policy hsink).2
    have hflushes : (left (reorder names policy source sink)).flushes = sink.flushes := by
      rw [apply_of_room_eq_none (reorder_eq_throw_of_stops (hcut.stops names) policy) hsink.room_eq]
      exact flushes_puts sink _
    rw [hrun] at hwritten hflushes
    change sink'.written = _ at hwritten
    refine ⟨hwritten, ?_, hflushes⟩
    rw [hwritten, List.append_right_eq_self, flatten_takeWhile_eq_nil_iff hcut.ne_nil]
    simp

end CutShort

/-- A source that fails in the third line of a preamble, and one with a stamped first line and then
a line that is not text. -/
theorem input_fault_after_preamble_torn : ∃ torn stamped : Source,
    torn.failure = some (.other "gone") ∧ ∀ (names : Names) (policy : Policy),
      (∃ sink', reorder names policy torn {} = .error (.input names.input (.other "gone")) sink' ∧
        sink'.written = Bytes.ofString "on\nup\n") ∧
      ∃ sink', reorder names policy stamped {} = .error (.input names.input .notUtf8) sink' ∧
        sink'.written = [] := by
  obtain ⟨torn, before, hfailure, hv, hd, hlines, hpreamble⟩ :
      ∃ (torn : Source) (before : List Bytes), torn.failure = some (.other "gone") ∧
        (∀ l ∈ before, Utf8.valid l = true) ∧ (∀ l ∈ before, Stamp.Dated l) ∧
        torn.lines = before ∧
        (before.takeWhile fun line => (Stamp.opening? line).isNone).flatten =
          Bytes.ofString "on\nup\n" :=
    ⟨{ pieces := [Bytes.ofString "on\nu", Bytes.ofString "p\n[2024-02-"]
       failure := some (.other "gone") },
      [Bytes.ofString "on\n", Bytes.ofString "up\n"], rfl, by decide, by decide, by decide,
      by decide⟩
  obtain ⟨stamped, header, hheader, hdated, hlines', hopening⟩ :
      ∃ (stamped : Source) (header : Bytes), Utf8.valid header = true ∧ Stamp.Dated header ∧
        stamped.lines = [header] ++ [0xff, Bytes.newline] :: [Bytes.ofString "up\n"] ∧
        (Stamp.opening? header).isSome = true :=
    ⟨{ pieces := [Bytes.ofString "[2024-01-01 00:00:00:005] a\n",
        [0xff, Bytes.newline] ++ Bytes.ofString "up\n"] },
      Bytes.ofString "[2024-01-01 00:00:00:005] a\n", by decide, by decide, by decide, by decide⟩
  refine ⟨torn, stamped, hfailure, ?_⟩
  intro names policy
  have hsink : Sink.Boundless {} := ⟨rfl, rfl⟩
  have htorn : CutShort torn before (.other "gone") :=
    .failure (fun l hl => ⟨hv l hl, hd l hl⟩) hlines hfailure
  have hstamped : CutShort stamped [header] .notUtf8 := by
    refine .notText ?_ hlines' (by decide)
    intro l hl
    obtain rfl := List.mem_singleton.mp hl
    exact ⟨hheader, hdated⟩
  constructor
  · obtain ⟨hfails, hwritten⟩ := input_fault_after_preamble names policy torn hsink
    obtain ⟨path, sink', hrun⟩ := hfails.mpr ⟨before, htorn⟩
    obtain ⟨rfl, hall⟩ := hwritten path sink' hrun
    exact ⟨sink', hrun, (hall before htorn).1.trans hpreamble⟩
  · obtain ⟨hfails, hwritten⟩ := input_fault_after_preamble names policy stamped hsink
    obtain ⟨path, sink', hrun⟩ := hfails.mpr ⟨[header], hstamped⟩
    obtain ⟨rfl, hall⟩ := hwritten path sink' hrun
    refine ⟨sink', hrun, (hall [header] hstamped).2.1.mpr ?_⟩
    intro first hfirst
    cases hfirst
    exact hopening

/-- A line that is not text is reported after the line before it has been written. -/
theorem preamble_before_input_fault : ∃ source : Source, source.failure = none ∧
    ∀ (names : Names) (policy : Policy), ∃ sink',
      reorder names policy source {} = .error (.input names.input .notUtf8) sink' ∧
      sink'.written = Bytes.ofString "banner\n" ∧ sink'.written ≠ [] :=
  ⟨{ pieces := [Bytes.ofString "banner\n", [0xff, Bytes.newline]] }, rfl,
    fun _ _ => ⟨_, rfl, by decide, by decide⟩⟩

end Log

end LogOrder
