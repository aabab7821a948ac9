import Mathlib.Algebra.GroupWithZero.Nat
import LogOrder.Proofs.Log.FirstLines
import LogOrder.Proofs.Log.FullSink
import LogOrder.Proofs.Log.Lossless

/-!
# What a run counts

The four numbers that a run reports come from four places: a counter of all lines, one of the lines
of the preamble, the list of entries and the roster of threads. They can be read off the lines of
the log, and what is written has as many lines as the log.

* `Layout.map_head_blocks`: the heads of the blocks are the stamped lines;
* `exists_writes_of_ok`: what a run writes to a sink that takes it;
* **`summary_exact`**: what is reported of a run that succeeds.
-/

namespace LogOrder.Log

namespace Layout

theorem map_head_blocks (n : Nat) {lines : List Bytes} (hd : ∀ line ∈ lines, Stamp.Dated line) :
    (ofLines n lines).blocks.map Block.head =
      lines.filter fun line => (Stamp.opening? line).isSome := by
  fun_induction ofLines n lines with
  | case1 n => rfl
  | case2 n line rest after h ih =>
    rw [List.filter_cons_of_neg (by simp [h])]
    exact ih fun l hl => hd l (List.mem_cons_of_mem _ hl)
  | case3 n line rest after w h why hw ih =>
    exact absurd (hd line List.mem_cons_self) (not_dated_of_check h hw)
  | case4 n line rest after w h stamp hw block ih =>
    rw [List.filter_cons_of_pos (by simp [h]), List.map_cons,
      ih fun l hl => hd l (List.mem_cons_of_mem _ hl)]

end Layout

/-- The numbers that are reported of a log. -/
structure Counts (log : Bytes) (tally : Tally) : Prop where
  /-- All lines are counted. -/
  lines_eq : tally.lines = Line.count log
  /-- Entries are counted by the lines that open with a stamp, -/
  entries_eq : tally.entries = (Line.cut log).countP fun line => (Stamp.opening? line).isSome
  /-- and threads by the different names in the rightmost markers of these lines. -/
  threads_eq : tally.threads =
    (((Line.cut log).filter fun line => (Stamp.opening? line).isSome).filterMap
      Thread.rightmost?).toFinset.card
  /-- The preamble is what comes before the first of them. -/
  preambleLines_eq : tally.preambleLines =
    ((Line.cut log).takeWhile fun line => (Stamp.opening? line).isNone).length
  /-- Every line is of the preamble or of one entry. -/
  lines_eq_add : ∃ c, contents (Line.cut log) = .ok c ∧
    tally.lines = tally.preambleLines + (c.entries.map Entry.lineCount).sum

section Counted

variable {log : Bytes}

theorem threads_feed (hd : ∀ line ∈ Line.cut log, Stamp.Dated line) :
    (Scan.feed {} (Line.cut log)).roster.size =
      (((Line.cut log).filter fun line => (Stamp.opening? line).isSome).filterMap
        Thread.rightmost?).toFinset.card := by
  have hnames : (Scan.feed {} (Line.cut log)).finish.entries.filterMap
        (fun e => threadAt (Line.cut log) e.line) =
      ((Line.cut log).filter fun line => (Stamp.opening? line).isSome).filterMap
        Thread.rightmost? := by
    rw [entries_finish_feed, Layout.entries, List.filterMap_map, ← Layout.map_head_blocks 0 hd,
      List.filterMap_map]
    refine List.filterMap_congr ?_
    intro b hb
    rw [Function.comp_apply, Block.line_entry, threadAt_line hb]
    rfl
  rw [size_roster, hnames]

theorem sum_lineCount (hd : ∀ line ∈ Line.cut log, Stamp.Dated line) :
    ((Layout.ofLines 0 (Line.cut log)).entries.map Entry.lineCount).sum =
      ((Layout.ofLines 0 (Line.cut log)).blocks.flatMap Block.lines).length := by
  rw [Layout.entries, List.map_map, List.length_flatMap]
  congr 1
  refine List.map_congr_left ?_
  intro b hb
  rw [Function.comp_apply, Entry.lineCount, Block.text_entry, Line.count, Layout.cut_text hd hb]

/-- A log whose lines can all be read is counted as it stands. -/
theorem counts_feed (hd : ∀ line ∈ Line.cut log, Stamp.Dated line) :
    Counts log (Scan.feed {} (Line.cut log)).finish.tally := by
  have hreached := reached_feed {} (Line.cut log)
  have hlines : (Scan.feed {} (Line.cut log)).lines = (Line.cut log).length :=
    hreached.lines_eq.trans (Nat.zero_add _)
  have hpreamble : (Scan.feed {} (Line.cut log)).preambleLines =
      (Layout.ofLines 0 (Line.cut log)).preamble.length :=
    hreached.preambleLines_eq.trans (Nat.zero_add _)
  refine ⟨hlines, ?_, threads_feed hd, ?_, _, contents_eq_ok_iff.mpr ⟨hd, rfl⟩, ?_⟩
  · show (Scan.feed {} (Line.cut log)).finish.entries.length = _
    rw [entries_finish_feed, Layout.entries, List.length_map, List.countP_eq_length_filter,
      ← Layout.map_head_blocks 0 hd, List.length_map]
  · show (Scan.feed {} (Line.cut log)).preambleLines = _
    rw [hpreamble, Layout.preamble_ofLines 0 hd]
  · have hall := congrArg List.length (Layout.lines_ofLines 0 hd)
    rw [List.length_append, ← sum_lineCount hd, ← entries_finish_feed] at hall
    show (Scan.feed {} (Line.cut log)).lines = (Scan.feed {} (Line.cut log)).preambleLines + _
    rw [hlines, hpreamble]
    exact hall.symm

/-- A run succeeds only over a source that can be read. -/
theorem readable_of_ok {names : Names} {policy : Policy} {source : Source} {sink sink' : Sink}
    {tally : Tally} (h : reorder names policy source sink = .ok tally sink') : Readable source := by
  by_contra hnot
  obtain ⟨pieces, fault, hrun⟩ := exists_reorder_eq_throw names policy hnot
  rw [hrun] at h
  obtain ⟨_, _, -, hthrow⟩ := exists_of_bind_eq_ok h
  cases hthrow

/-- A run that succeeds answers what the log counts, and has written what any run over the log
writes, also if its sink would have taken no more. -/
theorem exists_writes_of_ok {names : Names} {policy : Policy} {source : Source} {sink sink' : Sink}
    {tally : Tally} (h : reorder names policy source sink = .ok tally sink') :
    tally = (Scan.feed {} (Line.cut source.pieces.flatten)).finish.tally ∧
      sink'.written = sink.written ++
        ((Layout.ofLines 0 (Line.cut source.pieces.flatten)).preamble.flatten ++
          Line.joined ((arrange policy (Layout.ofLines 0
            (Line.cut source.pieces.flatten)).entries).map Entry.text)) := by
  have hsource := readable_of_ok h
  obtain ⟨ps, hrun, hflat⟩ := exists_reorder_eq names policy hsource.sound_cut hsource.holds
  rw [hrun] at h
  by_cases hfits : (sink.fit ps.flatten).length = ps.flatten.length
  · rw [bind_of_ok (onSink_of_ok names (Sink.writeAll_of_fits hfits))] at h
    change closing names (.ok _) (sink.puts ps) = _ at h
    rw [closing_ok] at h
    cases hflush : (sink.puts ps).unflushable with
    | some why =>
      rw [hflush] at h
      cases h
    | none =>
      rw [hflush] at h
      cases h
      refine ⟨rfl, ?_⟩
      show (sink.puts ps).written = _
      rw [Sink.written_puts, Sink.fit_eq_of_length_eq hfits, hflat]
  · obtain ⟨t, hfull, -⟩ := Sink.exists_writeAll_of_not_fits hfits
    rw [bind_of_error (onSink_of_error names hfull)] at h
    cases h

/-- What is written has as many lines as the log: a newline that is added ends a line that was not
ended. -/
theorem count_output (policy : Policy) {log : Bytes}
    (hd : ∀ line ∈ Line.cut log, Stamp.Dated line) :
    Line.count ((Layout.ofLines 0 (Line.cut log)).preamble.flatten ++
      Line.joined ((arrange policy (Layout.ofLines 0 (Line.cut log)).entries).map Entry.text)) =
      Line.count log := by
  obtain ⟨order, horder, harrange⟩ := exists_order policy (Layout.ofLines 0 (Line.cut log))
  have htexts : (order.map (Block.entry (firstIn (Layout.ofLines 0 (Line.cut log)).blocks))).map
      Entry.text = order.map Block.text := by
    rw [List.map_map]
    exact List.map_congr_left fun b _ => b.text_entry _
  have hlength := (texts_perm hd horder).length_eq
  rw [Line.texts, Line.texts, List.length_map, List.length_map] at hlength
  rw [harrange, htexts]
  exact hlength

/-- **The summary is exact.** What a run reports when it succeeds can be read off the lines of the
log: how many there are, how many of them are stamped, how many threads these name, and how many
stand before them. It has written as many lines. Any other run over the log that succeeds, under any
policy, reports the same, and so it does whenever its sink takes everything. -/
theorem summary_exact {names : Names} {policy : Policy} {source : Source} {log : Bytes}
    {sink sink' : Sink} {tally : Tally} (hlog : source.pieces.flatten = log)
    (h : reorder names policy source sink = .ok tally sink') :
    Counts log tally ∧
    (∃ out, sink'.written = sink.written ++ out ∧ Line.count out = tally.lines) ∧
    ∀ (names : Names) (other : Policy),
      (∀ (source : Source) (start last : Sink) (tally' : Tally), source.pieces.flatten = log →
        reorder names other source start = .ok tally' last → tally' = tally) ∧
      ∀ start : Sink, start.Boundless →
        ∃ last, reorder names other source start = .ok tally last := by
  subst hlog
  have hsource := readable_of_ok h
  have hd : ∀ line ∈ Line.cut source.pieces.flatten, Stamp.Dated line :=
    fun line hline => (hsource.sound_cut line hline).dated
  obtain ⟨rfl, hwritten⟩ := exists_writes_of_ok h
  have hcounts := counts_feed hd
  refine ⟨hcounts, ⟨_, hwritten, ?_⟩, ?_⟩
  · rw [count_output policy hd, hcounts.lines_eq]
  · intro names other
    constructor
    · intro source' start last tally' hsame hrun
      rw [← hsame]
      exact (exists_writes_of_ok hrun).1
    · intro start hstart
      obtain ⟨last, hrun, -⟩ :=
        exists_reorder_eq_ok names other hsource.sound_cut hsource.holds hstart
      exact ⟨last, hrun⟩

/-- A thread that quotes another, markers in the preamble and under an entry, and a last line that
is ended only when it is written. -/
theorem summary_exact_markers : ∃ (log : Bytes) (tally : Tally),
    tally = { lines := 5, entries := 3, threads := 2, preambleLines := 1 } ∧ Counts log tally ∧
    Bytes.endsLine log = false ∧ ∀ names : Names,
      (∃ sink, reorder names .chrono (.ofBytes log) {} = .ok tally sink ∧
        Line.count sink.written = 5) ∧
      ∀ policy : Policy, ∃ sink, reorder names policy (.ofBytes log) {} = .ok tally sink := by
  obtain ⟨log, hv, hd, hend, htally⟩ : ∃ log : Bytes, Utf8.valid log = true ∧
      (∀ line ∈ Line.cut log, Stamp.Dated line) ∧ Bytes.endsLine log = false ∧
      (Scan.feed {} (Line.cut log)).finish.tally =
        { lines := 5, entries := 3, threads := 2, preambleLines := 1 } :=
    ⟨Bytes.ofString ("[thread-8]\n[2024-01-01 00:00:00:005] [thread-2] b\n [thread-9]\n" ++
        "[2024-01-01 00:00:00:003] [thread-2] [thread-1] c\n" ++
        "[2024-01-01 00:00:00:001] [thread-2] a"),
      by decide +kernel, by decide +kernel, by decide +kernel, by decide +kernel⟩
  have hholds := Source.holds_ofBytes log
  have hsink : Sink.Boundless {} := ⟨rfl, rfl⟩
  have hrun : ∀ names : Names, ∃ sink, reorder names .chrono (.ofBytes log) {} =
      .ok { lines := 5, entries := 3, threads := 2, preambleLines := 1 } sink := by
    intro names
    obtain ⟨sink, hresult, -⟩ :=
      exists_reorder_eq_ok names .chrono (sound_of_valid hv hd) hholds hsink
    exact ⟨sink, htally ▸ hresult⟩
  obtain ⟨_, hfirst⟩ := hrun ⟨"log", "out"⟩
  obtain ⟨hcounts, -, -⟩ := summary_exact hholds.flatten_eq hfirst
  refine ⟨log, _, rfl, hcounts, hend, ?_⟩
  intro names
  obtain ⟨sink, hresult⟩ := hrun names
  obtain ⟨-, ⟨out, hwritten, hcount⟩, hothers⟩ := summary_exact hholds.flatten_eq hresult
  refine ⟨⟨sink, hresult, ?_⟩, ?_⟩
  · rw [hwritten]
    exact hcount
  · intro policy
    exact (hothers names policy).2 {} hsink

end Counted

end LogOrder.Log
