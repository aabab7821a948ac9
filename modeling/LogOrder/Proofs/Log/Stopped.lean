import LogOrder.Proofs.Log.Run
import LogOrder.Proofs.Source
import LogOrder.Proofs.Stamp.AsText

/-!
# Runs that stop

Three things stop a run before it arranges any entry: a line that is not text, a stamp that is no
date, and a source that fails. What comes first decides, and the run ends as if nothing came after
it: the preamble up to there has been written, and no byte more.

* `Stops` says what the first fault of a source is and which lines come before it;
* `reorder_of_stops`: a run reads those lines and then fails with that fault;
* **`first_fault_decides`**: what such a run reports and what it has written.
-/

namespace LogOrder.Log

/-- What is wrong with a line, if it is the line of that number. -/
inductive LineFault (names : Names) (number : Nat) (line : Bytes) : Fault → Prop
  /-- It is not text. -/
  | notText (hv : Utf8.valid line = false) :
      LineFault names number line (.input names.input .notUtf8)
  /-- It is text, and the stamp that it opens with is no date. -/
  | badStamp {w : Stamp.Written} {why : Stamp.DateFault} {text : String}
      (hv : Utf8.valid line = true) (hw : Stamp.opening? line = some w)
      (hwhy : w.check = .error why) (htext : Stamp.text? line = some (Bytes.ofString text)) :
      LineFault names number line (.stamp number text why.message)

/-- The first fault of a source, and the lines before it. -/
inductive Stops (names : Names) (source : Source) (before : List Bytes) (fault : Fault) : Prop
  /-- The next line has it. -/
  | line {line : Bytes} {after : List Bytes} (hsound : ∀ l ∈ before, Sound l)
      (hlines : source.lines = before ++ line :: after)
      (hfault : LineFault names before.length line fault)
  /-- There is no next line, because the source fails. -/
  | source {why : IoFault} (hsound : ∀ l ∈ before, Sound l) (hlines : source.lines = before)
      (hfailure : source.failure = some why) (hfault : fault = .input names.input why)

section Stopped

variable {names : Names} {source : Source} {before : List Bytes} {fault : Fault} {s : Scan}
  {line : Bytes}

theorem Stops.sound (h : Stops names source before fault) : ∀ l ∈ before, Sound l := by
  cases h with
  | line hsound _ _ => exact hsound
  | source hsound _ _ _ => exact hsound

/-! ## There is a first fault -/

/-- A line that cannot be read has a fault. -/
theorem exists_lineFault (names : Names) (number : Nat) (h : ¬Sound line) :
    ∃ fault, LineFault names number line fault := by
  cases hv : Utf8.valid line with
  | false => exact ⟨_, .notText hv⟩
  | true =>
    have hdated : ¬Stamp.Dated line := fun hd => h ⟨hv, hd⟩
    simp only [Stamp.Dated, not_forall] at hdated
    obtain ⟨w, hw, himpossible⟩ := hdated
    obtain ⟨text, htext⟩ := w.exists_ofString
    cases hwhy : w.check with
    | ok stamp =>
      have hsame := Stamp.Written.toWritten_of_check hwhy
      exact absurd (hsame ▸ stamp.possible) himpossible
    | error why =>
      have hstamp : Stamp.text? line = some (Bytes.ofString text) := by
        rw [Stamp.text?_eq, hw, htext]
        rfl
      exact ⟨_, .badStamp hv hw hwhy hstamp⟩

/-- If a line cannot be read, one of the lines is the first such. -/
theorem exists_first_not_sound {lines : List Bytes} (h : ∃ line ∈ lines, ¬Sound line) :
    ∃ before line after, lines = before ++ line :: after ∧ (∀ l ∈ before, Sound l) ∧
      ¬Sound line := by
  classical
  have hsome : (lines.find? fun line => decide ¬Sound line).isSome := by
    simpa [List.find?_isSome] using h
  obtain ⟨line, hfind⟩ := Option.isSome_iff_exists.mp hsome
  obtain ⟨hbad, before, after, hlines, hbefore⟩ := List.find?_eq_some_iff_append.mp hfind
  exact ⟨before, line, after, hlines, by simpa using hbefore, by simpa using hbad⟩

theorem exists_stops (names : Names)
    (h : (∃ line ∈ source.lines, ¬Sound line) ∨ source.failure ≠ none) :
    ∃ before fault, Stops names source before fault := by
  by_cases hbad : ∃ line ∈ source.lines, ¬Sound line
  · obtain ⟨before, line, after, hlines, hsound, hline⟩ := exists_first_not_sound hbad
    obtain ⟨fault, hfault⟩ := exists_lineFault names before.length hline
    exact ⟨before, fault, .line hsound hlines hfault⟩
  · obtain ⟨why, hfailure⟩ := Option.ne_none_iff_exists'.mp (h.resolve_left hbad)
    have hsound : ∀ line ∈ source.lines, Sound line := by
      intro line hline
      by_contra hnot
      exact hbad ⟨line, hline, hnot⟩
    exact ⟨source.lines, _, .source hsound rfl hfailure rfl⟩

/-! ## It ends the run -/

/-- Lines are read one after the other, so also in two parts. -/
theorem takeLines_append (names : Names) (s : Scan) (xs ys : List Bytes) :
    takeLines names s (xs ++ ys) = (do
      let t ← takeLines names s xs
      takeLines names t ys) := by
  induction xs generalizing s with
  | nil => rfl
  | cons line rest ih =>
    rw [List.cons_append, takeLines, takeLines]
    -- both sides read the first line alike; only one of the preamble does something to the sink
    by_cases hvalid : Utf8.valid line = true
    · rw [if_pos hvalid, if_pos hvalid]
      generalize s.take line = taken
      obtain ⟨answer, next⟩ := taken
      cases answer with
      | error bad => rfl
      | ok placing =>
        cases placing with
        | preamble =>
          dsimp only
          rw [bind_assoc, ih]
        | header => exact ih next
        | continuation => exact ih next
    · rw [if_neg hvalid, if_neg hvalid]
      rfl

theorem takeLines_of_lineFault (h : LineFault names s.lines line fault) (rest : List Bytes) :
    takeLines names s (line :: rest) = throw fault := by
  rw [takeLines]
  cases h with
  | notText hv => rw [if_neg (by rw [hv]; decide)]
  | badStamp hv hw hwhy htext =>
    rename_i w why text
    have hwritten : w.toText = text := by
      rw [Stamp.text?_eq, hw] at htext
      rw [Stamp.Written.toText, Option.some.inj htext, Bytes.toText_ofString]
    rw [if_pos hv, s.take_skip hw hwhy]
    show throw (Fault.stamp s.lines w.toText why.message) = _
    rw [hwritten]

/-- Reading stops at a line with a fault. -/
theorem takeLines_of_fault (h : LineFault names before.length line fault) (after : List Bytes) :
    takeLines names {} (before ++ line :: after) = (do
      let _ ← takeLines names {} before
      throw fault) := by
  funext sink
  rw [takeLines_append]
  -- the number in a report is the count of the lines before, so the first part must have ended well
  cases htake : takeLines names {} before sink with
  | error why sink' => rw [bind_of_error htake, bind_of_error htake]
  | ok t sink' =>
    have hnumber : t.lines = before.length := by
      rw [eq_feed_of_takeLines htake, (reached_feed {} before).lines_eq]
      exact Nat.zero_add _
    rw [bind_of_ok htake, bind_of_ok htake, takeLines_of_lineFault (hnumber ▸ h) after]

/-- A run reads the lines before its first fault, and then fails with it. -/
theorem reorder_of_stops (h : Stops names source before fault) (policy : Policy) :
    reorder names policy source = (do
      let _ ← takeLines names {} before
      throw fault) := by
  cases h with
  | line hsound hlines hfault =>
    simp only [reorder, Source.lines_delivery_eq, hlines, takeLines_of_fault hfault, bind_assoc]
    rfl
  | source hsound hlines hfailure hfault =>
    have hdelivery : source.delivery.failure = some _ := hfailure
    simp only [reorder, hdelivery, Source.lines_delivery_eq, hlines, hfault]
    rfl

/-! ## What it has written -/

theorem flushes_puts (sink : Sink) (pieces : List Bytes) :
    (sink.puts pieces).flushes = sink.flushes := by
  induction pieces generalizing sink with
  | nil => rfl
  | cons piece pieces ih => exact ih (sink.put piece)

end Stopped

/-- **The first fault decides.** If some line cannot be read or the source fails, there is a first
fault: it names a line that is not text, or the number and the stamp of a line whose stamp is no
date, or the failure of the source. Every run reports it, whatever comes after it, and has written
the unstamped lines that stand before both the first stamped line and the fault: nothing of any
entry. Nothing is flushed. -/
theorem first_fault_decides (names : Names) (source : Source) :
    ((∃ line ∈ source.lines, ¬Sound line) ∨ source.failure ≠ none →
      ∃ before fault, Stops names source before fault) ∧
    ∀ before fault, Stops names source before fault →
      (∀ (policy : Policy) (sink : Sink), sink.Boundless →
        ∃ sink', reorder names policy source sink = .error fault sink' ∧
          sink'.written = sink.written ++
            (before.takeWhile fun line => (Stamp.opening? line).isNone).flatten ∧
          sink'.flushes = sink.flushes) ∧
      ∀ (other : Source), Stops names other before fault →
        ∀ p q : Policy, reorder names p other = reorder names q source := by
  refine ⟨exists_stops names, ?_⟩
  intro before fault h
  constructor
  · intro policy sink hsink
    have hpreamble := Layout.preamble_ofLines 0 fun l hl => (h.sound l hl).dated
    have htake := emits_takeLines names {} h.sound sink hsink
    rw [if_pos rfl] at htake
    refine ⟨sink.puts (Layout.ofLines 0 before).preamble, ?_, ?_, flushes_puts sink _⟩
    · rw [reorder_of_stops h policy, bind_of_ok htake]
      rfl
    · rw [hsink.written_puts, hpreamble]
  · intro other hother p q
    rw [reorder_of_stops hother p, reorder_of_stops h q]

/-- A stamp that is no date, cut across two pieces; then a line that is not text, and a failure. -/
theorem first_fault_decides_stamp : ∃ source : Source, source.failure = some (.other "gone") ∧
    source.lines.length = 5 ∧ ∀ (names : Names) (policy : Policy),
      (∃ before fault, Stops names source before fault) ∧
      ∃ why sink',
        reorder names policy source {} = .error (.stamp 3 "2024-02-30 10:00:00:000" why) sink' ∧
        sink'.written = Bytes.ofString "started\n" ∧ sink'.flushes = 0 := by
  obtain ⟨source, before, after, hfailure, hlength, hlines, hv, hd, hcount, hpreamble⟩ :
      ∃ (source : Source) (before after : List Bytes), source.failure = some (.other "gone") ∧
        source.lines.length = 5 ∧
        source.lines = before ++ Bytes.ofString "[2024-02-30 10:00:00:000] b\n" :: after ∧
        (∀ l ∈ before, Utf8.valid l = true) ∧ (∀ l ∈ before, Stamp.Dated l) ∧
        before.length = 3 ∧ (before.takeWhile fun line => (Stamp.opening? line).isNone) =
          [Bytes.ofString "started\n"] :=
    ⟨{ pieces := [Bytes.ofString "started\n[2024-01-01 00:00:00:005] a\n  at z\n[2024-02-",
        Bytes.ofString "30 10:00:00:000] b\n" ++ [0xff, Bytes.newline, 0xff]]
       failure := some (.other "gone") },
      [Bytes.ofString "started\n", Bytes.ofString "[2024-01-01 00:00:00:005] a\n",
        Bytes.ofString "  at z\n"], [[0xff, Bytes.newline]],
      rfl, by decide, by decide, by decide, by decide, by decide, by decide⟩
  refine ⟨source, hfailure, hlength, ?_⟩
  intro names policy
  obtain ⟨hexists, hstops⟩ := first_fault_decides names source
  have hfault : LineFault names before.length (Bytes.ofString "[2024-02-30 10:00:00:000] b\n")
      (.stamp before.length "2024-02-30 10:00:00:000" _) :=
    .badStamp (by decide) rfl rfl (by decide)
  obtain ⟨hrun, -⟩ := hstops before _ (.line (fun l hl => ⟨hv l hl, hd l hl⟩) hlines hfault)
  obtain ⟨sink', hresult, hwritten, hflushes⟩ := hrun policy {} ⟨rfl, rfl⟩
  rw [hcount] at hresult
  rw [hpreamble] at hwritten
  refine ⟨hexists (.inr (by rw [hfailure]; simp)), _, sink', hresult, ?_, hflushes⟩
  rw [hwritten]
  decide

end LogOrder.Log
