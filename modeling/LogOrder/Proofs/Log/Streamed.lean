import LogOrder.Proofs.Log.Cohesion

/-!
# Reading line by line and all at once

A log can be taken apart at once, when all its lines are there, or line by line, while the preamble
is already being written. Both find the same: the same entries, or the same stamp that is no date.

* **`streamed_as_scanned`**: a run does what taking the log apart, arranging and writing do.
-/

namespace LogOrder.Log

/-- **Line by line as all at once.** A run over a log of text stops at the stamp at which taking the
log apart stops, and reports its line, its text and what is wrong with it. If there is none, the run
succeeds: it counts what the log consists of, and writes its preamble and then what writing its
arranged entries writes. -/
theorem streamed_as_scanned (names : Names) (policy : Policy) {log : Bytes} {source : Source}
    {sink : Sink} (hv : Utf8.valid log = true) (hsource : source.Holds log)
    (hsink : sink.Boundless) :
    (∀ bad, contents (Line.cut log) = .error bad → ∃ sink', reorder names policy source sink =
      .error (.stamp bad.line bad.stamp.toText bad.why.message) sink') ∧
    ∀ c, contents (Line.cut log) = .ok c → ∃ text sink',
      (∀ out : Sink, out.Boundless → ∃ out', emit (arrange policy c.entries) out = .ok () out' ∧
        out'.written = out.written ++ text) ∧
      reorder names policy source sink = .ok c.tally sink' ∧
      sink'.written = sink.written ++ (c.preamble.flatten ++ text) := by
  constructor
  · intro bad hbad
    obtain ⟨ps, htake, -⟩ :=
      exists_takeLines_eq names {} ((Utf8.valid_iff_forall_mem_cut log).mp hv)
    rw [contents_eq_error_iff.mp hbad] at htake
    refine ⟨sink.puts ps, ?_⟩
    rw [reorder_of_holds names policy hsource, htake, bind_assoc,
      bind_of_ok ((emits_writeAll ps).onSink names sink hsink)]
    rfl
  · intro c hc
    obtain ⟨hd, rfl⟩ := contents_eq_ok_iff.mp hc
    obtain ⟨sink', hrun, hwritten⟩ :=
      exists_reorder_eq_ok names policy (sound_of_valid hv hd) hsource hsink
    obtain ⟨ps, hemit, hflat⟩ :=
      exists_emit_eq (arrange policy (Scan.feed {} (Line.cut log)).finish.entries)
    refine ⟨ps.flatten, sink', ?_, hrun, ?_⟩
    · intro out hout
      exact ⟨out.puts ps, hemit ▸ emits_writeAll ps out hout, hout.written_puts ps⟩
    · rw [hwritten, hflat, entries_finish_feed]

/-- A log that stops in the middle of an entry, and one with a stamp that is no date under another
entry. -/
theorem streamed_as_scanned_stopped : ∃ (log log' : Bytes) (c : Contents) (bad : BadStamp),
    contents (Line.cut log) = .ok c ∧ c.preamble.length = 1 ∧ c.entries.length = 2 ∧
    contents (Line.cut log') = .error bad ∧ bad.line = 2 ∧ ∀ names : Names,
      (∃ text sink', reorder names .chrono (.ofBytes log) {} = .ok c.tally sink' ∧
        sink'.written = c.preamble.flatten ++ text) ∧
      ∃ sink', reorder names .chrono (.ofBytes log') {} =
        .error (.stamp 2 bad.stamp.toText "parameter 'hour' is not in the required range of 0..=23")
          sink' := by
  obtain ⟨log, log', c, bad, hc, hpreamble, hentries, hbad, hline, hwhy, hv, hv'⟩ :
      ∃ (log log' : Bytes) (c : Contents) (bad : BadStamp),
        contents (Line.cut log) = .ok c ∧ c.preamble.length = 1 ∧ c.entries.length = 2 ∧
        contents (Line.cut log') = .error bad ∧ bad.line = 2 ∧ bad.why = .hour ∧
        Utf8.valid log = true ∧ Utf8.valid log' = true :=
    ⟨Bytes.ofString "started\n[2024-01-01 00:00:00:005] b\n[2024-01-01 00:00:00:001] a\n  at é",
      Bytes.ofString "[2024-01-01 00:00:00:005] b\n  at x\n[2024-01-01 24:00:00:001] a\n",
      _, _, rfl, by decide, by decide, rfl, by decide, by decide, by decide, by decide⟩
  refine ⟨log, log', c, bad, hc, hpreamble, hentries, hbad, hline, ?_⟩
  intro names
  have hsink : Sink.Boundless {} := ⟨rfl, rfl⟩
  obtain ⟨-, hgood⟩ := streamed_as_scanned names .chrono hv (Source.holds_ofBytes log) hsink
  obtain ⟨hstops, -⟩ := streamed_as_scanned names .chrono hv' (Source.holds_ofBytes log') hsink
  obtain ⟨text, sink', -, hrun, hwritten⟩ := hgood c hc
  obtain ⟨sink'', hstop⟩ := hstops bad hbad
  rw [hline, hwhy] at hstop
  exact ⟨⟨text, sink', hrun, hwritten⟩, sink'', hstop⟩

end LogOrder.Log
