import LogOrder.Log.Reorder
import LogOrder.Proofs.Log.Scanned
import LogOrder.Proofs.Text.Lines

/-!
# What a run writes

What a run does with its sink is to write some pieces, one after the other: which ones does not
depend on the sink. An action *emits* some pieces if it succeeds on every sink that takes
everything, and adds these pieces and nothing else. Emitting composes, so a whole run is put
together from single writes.

* `exists_takeLines_eq`: reading lines of text writes the preamble that scanning them finds, and
  answers as scanning does;
* `exists_emit_eq`: writing entries writes their texts, each on a line of its own;
* `exists_reorder_eq`, `writes_of_sound`: a run over a sound log succeeds, and what it writes.
-/

namespace LogOrder

/-- The source hands over the log, in whatever pieces, and ends. -/
structure Source.Holds (source : Source) (log : Bytes) : Prop where
  /-- The pieces make up the log. -/
  flatten_eq : source.pieces.flatten = log
  /-- Reading does not fail. -/
  failure_eq : source.failure = none

theorem Source.Holds.lines_delivery {source : Source} {log : Bytes} (h : source.Holds log) :
    source.delivery.lines = Line.cut log := by
  rw [Source.lines_delivery_of_ends h.failure_eq, h.flatten_eq]

theorem Source.holds_ofBytes (log : Bytes) : (Source.ofBytes log).Holds log :=
  ⟨List.append_nil log, rfl⟩

namespace Sink

/-- The sink takes everything. -/
structure Boundless (s : Sink) : Prop where
  /-- Writes do not fail. -/
  room_eq : s.room = none
  /-- Flushes do not fail. -/
  unflushable_eq : s.unflushable = none

theorem boundless_empty : Boundless {} := ⟨rfl, rfl⟩

/-- The sink after several writes. -/
def puts (s : Sink) (pieces : List Bytes) : Sink := pieces.foldl Sink.put s

variable {s : Sink}

theorem fit_of_room_eq_none (h : s.room = none) (bs : Bytes) : s.fit bs = bs := by
  rw [fit, h]

theorem Boundless.fit_eq (h : s.Boundless) (bs : Bytes) : s.fit bs = bs :=
  fit_of_room_eq_none h.room_eq bs

theorem fit_nil (s : Sink) : s.fit [] = [] := by
  unfold fit
  cases s.room with
  | none => rfl
  | some room => exact List.take_nil

/-- What a first write leaves of the room is there for a second one. -/
theorem fit_append (s : Sink) (as bs : Bytes) :
    s.fit (as ++ bs) = s.fit as ++ (s.put as).fit bs := by
  unfold fit put
  cases s.room with
  | none => rfl
  | some room => exact List.take_append

theorem Boundless.put (h : s.Boundless) (bs : Bytes) : (s.put bs).Boundless :=
  ⟨by rw [Sink.put, h.room_eq]; rfl, h.unflushable_eq⟩

theorem Boundless.puts (h : s.Boundless) (pieces : List Bytes) : (s.puts pieces).Boundless := by
  induction pieces generalizing s with
  | nil => exact h
  | cons piece pieces ih => exact ih (h.put piece)

/-- The sink after a flush. -/
def flushed (s : Sink) : Sink := { s with flushes := s.flushes + 1 }

theorem puts_append (s : Sink) (ps qs : List Bytes) : s.puts (ps ++ qs) = (s.puts ps).puts qs :=
  List.foldl_append

/-- A sink keeps as much of several writes as it has room for. -/
theorem written_puts (s : Sink) (pieces : List Bytes) :
    (s.puts pieces).written = s.written ++ s.fit pieces.flatten := by
  induction pieces generalizing s with
  | nil => simp [Sink.puts, fit_nil]
  | cons piece pieces ih =>
    show ((s.put piece).puts pieces).written = _
    rw [ih, written_put, List.flatten_cons, fit_append, List.append_assoc]

theorem Boundless.written_puts (h : s.Boundless) (pieces : List Bytes) :
    (s.puts pieces).written = s.written ++ pieces.flatten := by
  rw [Sink.written_puts, h.fit_eq]

/-- Writes the pieces one after the other. -/
def writeAll : List Bytes → EStateM IoFault Sink Unit
  | [] => pure ()
  | piece :: pieces => do
    write piece
    writeAll pieces

theorem writeAll_append (ps qs : List Bytes) : writeAll (ps ++ qs) = (do
    writeAll ps
    writeAll qs) := by
  induction ps with
  | nil => rfl
  | cons piece ps ih => rw [List.cons_append, writeAll, writeAll, bind_assoc, ih]

end Sink

namespace Log

/-- On a sink that takes everything, the action succeeds with that answer and adds the pieces. -/
def Emits {ε α : Type} (act : EStateM ε Sink α) (answer : α) (pieces : List Bytes) : Prop :=
  ∀ s : Sink, s.Boundless → act s = .ok answer (s.puts pieces)

section Emits

variable {ε α β : Type}

theorem emits_pure (a : α) : Emits (pure a : EStateM ε Sink α) a [] := fun _ _ => rfl

/-- After a success, what follows goes on from the sink that it leaves. -/
theorem bind_of_ok {f : EStateM ε Sink α} {g : α → EStateM ε Sink β} {s t : Sink} {a : α}
    (h : f s = .ok a t) : (f >>= g) s = g a t := by
  show EStateM.bind f g s = _
  rw [EStateM.bind, h]

/-- After a failure, nothing that follows is done. -/
theorem bind_of_error {f : EStateM ε Sink α} {g : α → EStateM ε Sink β} {s t : Sink} {e : ε}
    (h : f s = .error e t) : (f >>= g) s = .error e t := by
  show EStateM.bind f g s = _
  rw [EStateM.bind, h]

/-- A sequence of actions succeeds only if each of them does. -/
theorem exists_of_bind_eq_ok {f : EStateM ε Sink α} {g : α → EStateM ε Sink β} {s u : Sink} {b : β}
    (h : (f >>= g) s = .ok b u) : ∃ a t, f s = .ok a t ∧ g a t = .ok b u := by
  change EStateM.bind f g s = _ at h
  rw [EStateM.bind] at h
  split at h
  · next a t hf => exact ⟨a, t, hf, h⟩
  · cases h

theorem Emits.bind {f : EStateM ε Sink α} {g : α → EStateM ε Sink β} {a : α} {b : β}
    {ps qs : List Bytes} (hf : Emits f a ps) (hg : Emits (g a) b qs) :
    Emits (f >>= g) b (ps ++ qs) := by
  intro s hs
  rw [bind_of_ok (hf s hs), hg _ (hs.puts ps), Sink.puts_append]

theorem emits_write (bs : Bytes) : Emits (Sink.write bs) () [bs] := by
  intro s hs
  rw [Sink.write, hs.fit_eq, if_pos rfl]
  rfl

theorem emits_writeAll (pieces : List Bytes) : Emits (Sink.writeAll pieces) () pieces := by
  induction pieces with
  | nil => exact emits_pure ()
  | cons piece pieces ih => exact (emits_write piece).bind ih

theorem onSink_bind (names : Names) (f g : EStateM IoFault Sink Unit) :
    onSink names (f >>= fun _ => g) = (do
      onSink names f
      onSink names g) := by
  funext s
  show EStateM.adaptExcept _ (EStateM.bind f (fun _ => g)) s =
    EStateM.bind (EStateM.adaptExcept _ f) (fun _ => EStateM.adaptExcept _ g) s
  simp only [EStateM.adaptExcept, EStateM.bind]
  cases f s <;> rfl

theorem onSink_of_ok (names : Names) {act : EStateM IoFault Sink Unit} {s t : Sink}
    (h : act s = .ok () t) : onSink names act s = .ok () t := by
  show EStateM.adaptExcept _ act s = _
  rw [EStateM.adaptExcept, h]

theorem onSink_of_error (names : Names) {act : EStateM IoFault Sink Unit} {s t : Sink}
    {why : IoFault} (h : act s = .error why t) :
    onSink names act s = .error (.output names.output why) t := by
  show EStateM.adaptExcept _ act s = _
  rw [EStateM.adaptExcept, h]

theorem Emits.onSink {act : EStateM IoFault Sink Unit} {ps : List Bytes} (h : Emits act () ps)
    (names : Names) : Emits (onSink names act) () ps :=
  fun s hs => onSink_of_ok names (h s hs)

theorem onSink_flush (names : Names) {s : Sink} (hs : s.Boundless) :
    onSink names Sink.flush s = .ok () s.flushed := by
  obtain ⟨room, full, unflushable, pieces, flushes⟩ := s
  have hnone : unflushable = none := hs.unflushable_eq
  subst hnone
  rfl

end Emits

/-- Writing entries writes their texts, each on a line of its own. -/
theorem exists_emit_eq (entries : List Entry) :
    ∃ ps, emit entries = Sink.writeAll ps ∧ ps.flatten = Line.joined (entries.map Entry.text) := by
  fun_induction emit entries with
  | case1 => exact ⟨[], rfl, rfl⟩
  | case2 e => exact ⟨[e.text], (bind_pure _).symm, by simp [Line.joined_singleton]⟩
  | case3 e rest hrest ih =>
    obtain ⟨next, later, rfl⟩ := List.exists_cons_of_ne_nil hrest
    obtain ⟨ps, hps, hflat⟩ := ih
    rw [List.map_cons, List.map_cons, Line.joined_cons_cons, Line.close, hps]
    cases hend : Bytes.endsLine e.text with
    | true => exact ⟨e.text :: ps, rfl, by simp [hflat]⟩
    | false => exact ⟨e.text :: [Bytes.newline] :: ps, rfl, by simp [hflat]⟩

/-- A line that can be read: text, and without a stamp that is no date. -/
structure Sound (line : Bytes) : Prop where
  /-- The line is text. -/
  valid : Utf8.valid line = true
  /-- The stamp that opens it, if there is one, is a possible date. -/
  dated : Stamp.Dated line

/-- How reading lines ends, by what scanning them answers. -/
def ending : Except BadStamp (List Bytes × Scan) → EStateM Fault Sink Scan
  | .ok (_, s) => pure s
  | .error bad => throw (.ofBadStamp bad)

/-- Reading lines of text writes some pieces and ends as scanning the lines does. If scanning them
succeeds, the pieces are the preamble that it finds. -/
theorem exists_takeLines_eq (names : Names) (s : Scan) {lines : List Bytes}
    (hv : ∀ line ∈ lines, Utf8.valid line = true) :
    ∃ ps, takeLines names s lines = (do
        onSink names (Sink.writeAll ps)
        ending (scanFrom s lines)) ∧
      ∀ found, scanFrom s lines = .ok found → ps = found.1 := by
  fun_induction scanFrom s lines with
  | case1 s => exact ⟨[], rfl, by simp⟩
  | case2 s line rest bad t htake =>
    obtain ⟨hline, -⟩ := List.forall_mem_cons.mp hv
    refine ⟨[], ?_, by simp⟩
    rw [takeLines, if_pos hline, htake]
    rfl
  | case3 s line rest back t htake ih =>
    obtain ⟨hline, hlater⟩ := List.forall_mem_cons.mp hv
    obtain ⟨ps, hps, hfound⟩ := ih hlater
    refine ⟨back :: ps, ?_, ?_⟩
    · rw [takeLines, if_pos hline, htake, Sink.writeAll, onSink_bind, bind_assoc]
      dsimp only
      rw [hps]
      cases scanFrom t rest <;> rfl
    · intro found h
      cases hrest : scanFrom t rest with
      | error bad =>
        rw [hrest] at h
        cases h
      | ok later =>
        rw [hrest] at h
        cases h
        rw [hfound later hrest]
  | case4 s line rest placing t hplacing htake ih =>
    obtain ⟨hline, hlater⟩ := List.forall_mem_cons.mp hv
    obtain ⟨ps, hps, hfound⟩ := ih hlater
    refine ⟨ps, ?_, hfound⟩
    rw [takeLines, if_pos hline, htake, ← hps]
    cases placing with
    | preamble back => exact absurd rfl (hplacing back)
    | header => rfl
    | continuation => rfl

/-- Reading a sound log writes its preamble. -/
theorem takeLines_of_sound (names : Names) (s : Scan) {lines : List Bytes}
    (hsound : ∀ line ∈ lines, Sound line) :
    takeLines names s lines = (do
      onSink names (Sink.writeAll
        (if s.entries = [] then (Layout.ofLines s.lines lines).preamble else []))
      pure (s.feed lines)) := by
  obtain ⟨ps, htake, hfound⟩ :=
    exists_takeLines_eq names s fun line hline => (hsound line hline).valid
  have hscan := scanFrom_of_dated s fun line hline => (hsound line hline).dated
  rw [htake, hfound _ hscan, hscan]
  rfl

/-- Reading a sound log emits its preamble. -/
theorem emits_takeLines (names : Names) (s : Scan) {lines : List Bytes}
    (hsound : ∀ line ∈ lines, Sound line) :
    Emits (takeLines names s lines) (s.feed lines)
      (if s.entries = [] then (Layout.ofLines s.lines lines).preamble else []) := by
  rw [takeLines_of_sound names s hsound]
  generalize (if s.entries = [] then (Layout.ofLines s.lines lines).preamble else []) = ps
  have hwrites := ((emits_writeAll ps).onSink names).bind (g := fun _ => pure (s.feed lines))
    (emits_pure (s.feed lines))
  rwa [List.append_nil] at hwrites

/-- Reading goes past a line only if that line can be read. -/
theorem exists_of_takeLines_cons {names : Names} {s t : Scan} {line : Bytes} {rest : List Bytes}
    {sink sink' : Sink} (h : takeLines names s (line :: rest) sink = .ok t sink') :
    Sound line ∧ ∃ next, takeLines names (s.take line).2 rest next = .ok t sink' := by
  rw [takeLines] at h
  by_cases hvalid : Utf8.valid line = true
  · rw [if_pos hvalid] at h
    cases htake : s.take line with
    | mk answer after =>
      rw [htake] at h
      cases answer with
      | error bad => cases h
      | ok placing =>
        refine ⟨⟨hvalid, dated_of_take (congrArg Prod.fst htake)⟩, ?_⟩
        cases placing with
        | preamble =>
          obtain ⟨_, next, -, hrest⟩ := exists_of_bind_eq_ok h
          exact ⟨next, hrest⟩
        | header => exact ⟨sink, h⟩
        | continuation => exact ⟨sink, h⟩
  · rw [if_neg hvalid] at h
    cases h

/-- Reading lines, where it succeeds, finds what the lines hold. -/
theorem eq_feed_of_takeLines {names : Names} {s t : Scan} {lines : List Bytes} {sink sink' : Sink}
    (h : takeLines names s lines sink = .ok t sink') : t = s.feed lines := by
  induction lines generalizing s sink with
  | nil =>
    rw [takeLines] at h
    cases h
    rfl
  | cons line rest ih =>
    obtain ⟨-, next, hrest⟩ := exists_of_takeLines_cons h
    rw [Scan.feed_cons]
    exact ih hrest

theorem sound_of_takeLines {names : Names} {s t : Scan} {lines : List Bytes} {sink sink' : Sink}
    (h : takeLines names s lines sink = .ok t sink') : ∀ line ∈ lines, Sound line := by
  induction lines generalizing s sink with
  | nil => exact fun _ hline => absurd hline List.not_mem_nil
  | cons line rest ih =>
    obtain ⟨hline, next, hrest⟩ := exists_of_takeLines_cons h
    exact List.forall_mem_cons.mpr ⟨hline, ih hrest⟩

/-- What a run counts. -/
def Contents.tally (c : Contents) : Tally :=
  { lines := c.lines
    entries := c.entries.length
    threads := c.roster.size
    preambleLines := c.preambleLines }

/-- What a run does with a source that ends. -/
theorem reorder_of_holds (names : Names) (policy : Policy) {source : Source} {log : Bytes}
    (h : source.Holds log) :
    reorder names policy source = (do
      let s ← takeLines names {} (Line.cut log)
      onSink names (emit (arrange policy s.finish.entries))
      onSink names Sink.flush
      return s.finish.tally) := by
  have hfailure : source.delivery.failure = none := h.failure_eq
  simp only [reorder, h.lines_delivery, hfailure]
  rfl

/-- The policy of a run matters only for how it arranges what a whole log holds. -/
theorem reorder_congr (names : Names) {p q : Policy} {source : Source} {log : Bytes}
    (hlog : source.pieces.flatten = log)
    (h : arrange p (Scan.feed {} (Line.cut log)).finish.entries =
      arrange q (Scan.feed {} (Line.cut log)).finish.entries) :
    reorder names p source = reorder names q source := by
  funext sink
  cases hfailure : source.failure with
  | some why =>
    have hdelivery : source.delivery.failure = some why := hfailure
    simp only [reorder, hdelivery]
    rfl
  | none =>
    rw [reorder_of_holds names p ⟨hlog, hfailure⟩, reorder_of_holds names q ⟨hlog, hfailure⟩]
    cases htake : takeLines names {} (Line.cut log) sink with
    | ok s sink' =>
      rw [bind_of_ok htake, bind_of_ok htake, eq_feed_of_takeLines htake, h]
    | error why sink' => rw [bind_of_error htake, bind_of_error htake]

/-- A run over the log succeeds and writes exactly these bytes, however the log arrives and
whatever the sink holds before. -/
def Writes (policy : Policy) (log out : Bytes) : Prop :=
  ∀ (names : Names) (source : Source) (sink : Sink), source.Holds log → sink.Boundless →
    ∃ tally sink', reorder names policy source sink = .ok tally sink' ∧
      sink'.written = sink.written ++ out

/-- Some run over the log succeeds. -/
def Sorts (policy : Policy) (log : Bytes) : Prop :=
  ∃ (names : Names) (source : Source) (sink : Sink) (tally : Tally) (sink' : Sink),
    source.Holds log ∧ reorder names policy source sink = .ok tally sink'

theorem Sorts.sound {policy : Policy} {log : Bytes} (h : Sorts policy log) :
    ∀ line ∈ Line.cut log, Sound line := by
  obtain ⟨names, source, sink, tally, sink', hsource, hrun⟩ := h
  rw [reorder_of_holds names policy hsource] at hrun
  obtain ⟨_, _, htake, -⟩ := exists_of_bind_eq_ok hrun
  exact sound_of_takeLines htake

/-- A log over which a run succeeds is text with contents. -/
theorem Sorts.exists_contents {policy : Policy} {log : Bytes} (h : Sorts policy log) :
    ∃ c, contents (Line.cut log) = .ok c ∧ Utf8.valid log = true := by
  refine ⟨_, contents_eq_ok_iff.mpr ⟨?_, rfl⟩, (Utf8.valid_iff_forall_mem_cut log).mpr ?_⟩
  · intro line hline
    exact (h.sound line hline).dated
  · intro line hline
    exact (h.sound line hline).valid

/-- Every line of a log can be read when the log is text and its stamps are possible dates. -/
theorem sound_of_valid {log : Bytes} (hv : Utf8.valid log = true)
    (hd : ∀ line ∈ Line.cut log, Stamp.Dated line) : ∀ line ∈ Line.cut log, Sound line :=
  fun line hline => ⟨(Utf8.valid_iff_forall_mem_cut log).mp hv line hline, hd line hline⟩

/-- A run over a sound log is to write some pieces and to flush the sink. The pieces are those of
the preamble and then the entries in the order of the policy. -/
theorem exists_reorder_eq (names : Names) (policy : Policy) {source : Source} {log : Bytes}
    (hsound : ∀ line ∈ Line.cut log, Sound line) (hsource : source.Holds log) :
    ∃ ps, reorder names policy source = (do
        onSink names (Sink.writeAll ps)
        onSink names Sink.flush
        return (Scan.feed {} (Line.cut log)).finish.tally) ∧
      ps.flatten = (Layout.ofLines 0 (Line.cut log)).preamble.flatten ++
        Line.joined ((arrange policy (Layout.ofLines 0 (Line.cut log)).entries).map
          Entry.text) := by
  obtain ⟨ps, hemit, hflat⟩ :=
    exists_emit_eq (arrange policy (Scan.feed {} (Line.cut log)).finish.entries)
  refine ⟨(Layout.ofLines 0 (Line.cut log)).preamble ++ ps, ?_, ?_⟩
  · rw [reorder_of_holds names policy hsource, takeLines_of_sound names {} hsound, bind_assoc,
      pure_bind, hemit, Sink.writeAll_append, onSink_bind, bind_assoc]
    rfl
  · rw [List.flatten_append, hflat, entries_finish_feed]

theorem exists_reorder_eq_ok (names : Names) (policy : Policy) {source : Source} {log : Bytes}
    {sink : Sink} (hsound : ∀ line ∈ Line.cut log, Sound line) (hsource : source.Holds log)
    (hsink : sink.Boundless) :
    ∃ sink', reorder names policy source sink =
        .ok (Scan.feed {} (Line.cut log)).finish.tally sink' ∧
      sink'.written = sink.written ++ ((Layout.ofLines 0 (Line.cut log)).preamble.flatten ++
        Line.joined ((arrange policy (Layout.ofLines 0 (Line.cut log)).entries).map
          Entry.text)) := by
  obtain ⟨ps, hrun, hflat⟩ := exists_reorder_eq names policy hsound hsource
  have hwrite := (emits_writeAll ps).onSink names sink hsink
  refine ⟨(sink.puts ps).flushed, ?_, ?_⟩
  · rw [hrun, bind_of_ok hwrite, bind_of_ok (onSink_flush names (hsink.puts ps))]
    rfl
  · rw [← hflat]
    exact hsink.written_puts ps

/-- A run over a sound log writes its preamble and then its entries in the order of the policy. -/
theorem writes_of_sound (policy : Policy) {log : Bytes}
    (hsound : ∀ line ∈ Line.cut log, Sound line) :
    Writes policy log ((Layout.ofLines 0 (Line.cut log)).preamble.flatten ++
      Line.joined ((arrange policy (Layout.ofLines 0 (Line.cut log)).entries).map Entry.text)) := by
  intro names source sink hsource hsink
  obtain ⟨sink', hrun, hwritten⟩ := exists_reorder_eq_ok names policy hsound hsource hsink
  exact ⟨_, sink', hrun, hwritten⟩

theorem sorts_of_sound (policy : Policy) {log : Bytes}
    (hsound : ∀ line ∈ Line.cut log, Sound line) : Sorts policy log := by
  obtain ⟨tally, sink', hrun, -⟩ := writes_of_sound policy hsound ⟨"log", "out"⟩ (.ofBytes log) {}
    (Source.holds_ofBytes log) ⟨rfl, rfl⟩
  exact ⟨_, _, _, tally, sink', Source.holds_ofBytes log, hrun⟩

end Log

end LogOrder
