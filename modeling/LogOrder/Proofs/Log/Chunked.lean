import LogOrder.Proofs.Log.Run
import LogOrder.Proofs.LineReader

/-!
# Runs that read in chunks

A run asks for one line at a time, and the preamble is on its way before the next line is asked for.
The source knows nothing of lines: it brings at most so many bytes at each call, and it may fail at
any of them. Neither the moments at which it is called nor the number of bytes that each call brings
leave a trace in what the run does.

* `readLines_eq`: lines taken as a reader hands them out, against lines that are all there;
* `reorderFrom_ofSource`: so a run over a reader is the run over its source;
* **`chunking_invisible`**: runs over one log do the same, however many bytes a call brings.
-/

namespace LogOrder.Log

/-- Reads lines as a reader hands them out. A line of the preamble is written before the next one
is asked for. -/
def readLines (names : Names) (s : Scan) (r : LineReader) : EStateM Fault Sink Scan :=
  match _hnext : r.next with
  | .error why => throw (.input names.input why)
  | .ok (line, r') =>
    if _hne : line = [] then pure s
    else if Utf8.valid line then
      match s.take line with
      | (.error bad, _) => throw (.ofBadStamp bad)
      | (.ok (.preamble line), s) => do
        onSink names (Sink.write line)
        readLines names s r'
      | (.ok _, s) => readLines names s r'
    else throw (.input names.input .notUtf8)
termination_by r.size
decreasing_by all_goals exact LineReader.size_lt_of_next ‹_› ‹_›

/-- Reads a log from a reader to its end, arranges it and writes it. -/
def reorderFrom (names : Names) (policy : Policy) (r : LineReader) : EStateM Fault Sink Tally := do
  let s ← readLines names {} r
  onSink names (emit (arrange policy s.finish.entries))
  onSink names Sink.flush
  return s.finish.tally

/-- What reading comes to when all lines are taken. -/
def afterLines (names : Names) (failure : Option IoFault) (s : Scan) : EStateM Fault Sink Scan :=
  match failure with
  | some why => throw (.input names.input why)
  | none => pure s

/-- It makes no difference whether lines are taken as they are handed out, or when all of them are
there. -/
theorem readLines_eq (names : Names) (s : Scan) (r : LineReader) :
    readLines names s r = (do
      let t ← takeLines names s r.remaining.lines
      afterLines names r.source.failure t) := by
  fun_induction readLines names s r with
  | case1 s r why hnext =>
    obtain ⟨hlines, hfailure⟩ := LineReader.of_next_error hnext
    rw [hlines, hfailure]
    rfl
  | case2 s r r' hnext =>
    obtain ⟨hlines, hfailure⟩ := LineReader.of_next_nil hnext
    rw [hlines, hfailure]
    rfl
  | case3 s r line r' hnext hne hv bad t htake =>
    obtain ⟨hlines, -⟩ := LineReader.of_next hnext hne
    rw [hlines, takeLines, if_pos hv, htake]
    rfl
  | case4 s r line r' hnext hne hv back t htake ih =>
    obtain ⟨hlines, hfailure⟩ := LineReader.of_next hnext hne
    rw [hlines, takeLines, if_pos hv, htake, ih, hfailure]
    dsimp only
    rw [bind_assoc]
  | case5 s r line r' hnext hne hv placing t hplacing htake ih =>
    obtain ⟨hlines, hfailure⟩ := LineReader.of_next hnext hne
    rw [hlines, takeLines, if_pos hv, htake, ih, hfailure]
    cases placing with
    | preamble back => exact absurd rfl (hplacing back)
    | header => rfl
    | continuation => rfl
  | case6 s r line r' hnext hne hv =>
    obtain ⟨hlines, -⟩ := LineReader.of_next hnext hne
    rw [hlines, takeLines, if_neg hv]
    rfl

/-- A run that reads as it goes is the run over all that the source delivers. -/
theorem reorderFrom_ofSource (names : Names) (policy : Policy) (source : Source) :
    reorderFrom names policy (.ofSource source) = reorder names policy source := by
  have hlines : (LineReader.ofSource source).remaining.lines = source.delivery.lines :=
    (Source.lines_delivery_eq source).symm
  rw [reorderFrom, readLines_eq, hlines, bind_assoc]
  show (takeLines names {} source.delivery.lines >>= fun t =>
    afterLines names source.delivery.failure t >>= _) = _
  rw [reorder]
  cases source.delivery.failure with
  | none => rfl
  | some why => rfl

/-! ## Sources that bring a log in chunks -/

/-- The source brings the log, at most `size` bytes at each call. If there is a limit, it brings
no more than that many bytes of the log and then fails. -/
structure Chunked (size : Nat) (log : Bytes) (limit : Option Nat) (why : IoFault)
    (source : Source) : Prop where
  /-- A call that brings nothing would be the end. -/
  ne_nil : ∀ piece ∈ source.pieces, piece ≠ []
  length_le : ∀ piece ∈ source.pieces, piece.length ≤ size
  flatten_eq : source.pieces.flatten = match limit with
    | none => log
    | some n => log.take n
  failure_eq : source.failure = limit.map fun _ => why

theorem mem_chunksUpTo {size : Nat} (hsize : 1 ≤ size) {count : Nat} {bs piece : Bytes}
    (h : piece ∈ Source.chunksUpTo size count bs) : piece ≠ [] ∧ piece.length ≤ size := by
  fun_induction Source.chunksUpTo size count bs with
  | case1 bs => exact absurd h List.not_mem_nil
  | case2 count => exact absurd h List.not_mem_nil
  | case3 count bs hne ih =>
    rcases List.mem_cons.mp h with rfl | hlater
    · have hbs := List.length_pos_iff.mpr hne
      refine ⟨?_, List.length_take_le size bs⟩
      rw [← List.length_pos_iff, List.length_take]
      omega
    · exact ih hlater

/-- A source can bring any log in calls of any size. -/
theorem exists_chunked {size : Nat} (hsize : 1 ≤ size) (log : Bytes) (limit : Option Nat)
    (why : IoFault) : ∃ source, Chunked size log limit why source :=
  ⟨{ pieces := Source.chunks size (match limit with
        | none => log
        | some n => log.take n)
     failure := limit.map fun _ => why },
    fun _ h => (mem_chunksUpTo hsize h).1, fun _ h => (mem_chunksUpTo hsize h).2,
    Source.flatten_chunks hsize _, rfl⟩

theorem Chunked.reorder_eq {m n : Nat} {log : Bytes} {limit : Option Nat} {why : IoFault}
    {s t : Source} (hs : Chunked m log limit why s) (ht : Chunked n log limit why t)
    (names : Names) (policy : Policy) : reorder names policy s = reorder names policy t := by
  have hdelivery : s.delivery = t.delivery :=
    Source.delivery_eq_of_flatten_eq (hs.flatten_eq.trans ht.flatten_eq.symm)
      (hs.failure_eq.trans ht.failure_eq.symm)
  rw [reorder, reorder, hdelivery]

/-- **Chunking is invisible.** Sources can bring a log, or its first bytes and then a failure, at
most `m` or at most `n` bytes at each call. A run that reads as it goes does the same over both,
whatever its sink: it answers the same, writes the same pieces and flushes as often. It does what a
run over all the lines at once does. -/
theorem chunking_invisible (names : Names) (policy : Policy) (log : Bytes) (limit : Option Nat)
    (why : IoFault) (sink : Sink) {m n : Nat} (hm : 1 ≤ m) (hn : 1 ≤ n) :
    (∃ s, Chunked m log limit why s) ∧ (∃ t, Chunked n log limit why t) ∧
    ∀ s t, Chunked m log limit why s → Chunked n log limit why t →
      reorder names policy s sink = reorder names policy t sink ∧
      reorderFrom names policy (.ofSource s) sink = reorder names policy s sink ∧
      reorderFrom names policy (.ofSource t) sink = reorder names policy t sink := by
  refine ⟨exists_chunked hm log limit why, exists_chunked hn log limit why, ?_⟩
  intro s t hs ht
  refine ⟨?_, ?_, ?_⟩
  · rw [hs.reorder_eq ht names policy]
  · rw [reorderFrom_ofSource]
  · rw [reorderFrom_ofSource]

/-- A source that fails in the middle of a line: called for one byte at a time, so that a character
comes in two calls, and for four. The sink is full before that. -/
theorem chunking_invisible_character : ∃ (log : Bytes) (s t : Source),
    1 ≤ 1 ∧ 1 ≤ 4 ∧ Chunked 1 log (some 9) (.other "gone") s ∧
    Chunked 4 log (some 9) (.other "gone") t ∧ s.pieces.length = 9 ∧ t.pieces.length = 3 ∧
    ∀ (names : Names) (policy : Policy), ∃ sink sink' : Sink,
      reorder names policy s {} = .error (.input names.input (.other "gone")) sink ∧
      reorderFrom names policy (.ofSource t) {} =
        .error (.input names.input (.other "gone")) sink ∧
      sink.written = Bytes.ofString "début\n" ∧
      reorder names policy s { room := some 2 } =
        .error (.output names.output (.other "full")) sink' ∧
      reorderFrom names policy (.ofSource t) { room := some 2 } =
        .error (.output names.output (.other "full")) sink' ∧
      sink'.written = [0x64, 0xc3] := by
  obtain ⟨log, s, t, hs, ht, hlengths, hlengtht, hrun⟩ : ∃ (log : Bytes) (s t : Source),
      Chunked 1 log (some 9) (.other "gone") s ∧ Chunked 4 log (some 9) (.other "gone") t ∧
      s.pieces.length = 9 ∧ t.pieces.length = 3 ∧
      ∀ (names : Names) (policy : Policy), ∃ sink sink' : Sink,
        reorder names policy s {} = .error (.input names.input (.other "gone")) sink ∧
        sink.written = Bytes.ofString "début\n" ∧
        reorder names policy s { room := some 2 } =
          .error (.output names.output (.other "full")) sink' ∧ sink'.written = [0x64, 0xc3] :=
    ⟨Bytes.ofString "début\n[2024-01-01 00:00:00:005] b\n",
      { pieces := Source.chunks 1 (Bytes.ofString "début\n[2"), failure := some (.other "gone") },
      { pieces := Source.chunks 4 (Bytes.ofString "début\n[2"), failure := some (.other "gone") },
      ⟨by decide, by decide, by decide, rfl⟩, ⟨by decide, by decide, by decide, rfl⟩, by decide,
      by decide, fun names policy => ⟨_, _, rfl, by decide, rfl, by decide⟩⟩
  refine ⟨log, s, t, by decide, by decide, hs, ht, hlengths, hlengtht, ?_⟩
  intro names policy
  obtain ⟨sink, sink', hopen, hwritten, hfull, hcut⟩ := hrun names policy
  have hsame : ∀ start,
      reorder names policy s start = reorderFrom names policy (.ofSource t) start := by
    intro start
    obtain ⟨-, -, hall⟩ := chunking_invisible names policy log (some 9) (.other "gone") start
      (m := 1) (n := 4) (by decide) (by decide)
    obtain ⟨hst, -, ht⟩ := hall s t hs ht
    exact hst.trans ht.symm
  exact ⟨sink, sink', hopen, hsame _ ▸ hopen, hwritten, hfull, hsame _ ▸ hfull, hcut⟩

end LogOrder.Log
