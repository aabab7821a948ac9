import LogOrder.Proofs.Log.Stopped

/-!
# Sinks that fill up

What a run writes does not depend on its sink, and neither does how the run ends once everything is
written. So a sink that fills up gets the first bytes of what any other would get, and the run ends
with the failure of the sink, whatever it would have come to otherwise. A sink is flushed at most
once, when nothing is left to be written.

* `Sink.writeAll_of_fits`, `Sink.exists_writeAll_of_not_fits`: several writes, with room for them
  and without;
* `exists_reorder_eq_flush`, `exists_reorder_eq_throw`: a run writes some pieces, and then flushes
  the sink or stops;
* **`full_sink_prefix`**: a run over a sink that fills up.
-/

namespace LogOrder

namespace Sink

variable {s : Sink} {pieces : List Bytes}

/-- The sink, with room for only so many more bytes. -/
def limited (s : Sink) (room : Nat) : Sink := { s with room := some room }

theorem length_fit_le (s : Sink) (bs : Bytes) : (s.fit bs).length ≤ bs.length := by
  unfold fit
  cases s.room with
  | none => exact Nat.le_refl _
  | some room => exact List.length_take_le' room bs

theorem fit_eq_of_length_eq {bs : Bytes} (h : (s.fit bs).length = bs.length) : s.fit bs = bs := by
  unfold fit at h ⊢
  cases hroom : s.room with
  | none => rfl
  | some room =>
    rw [hroom] at h
    exact (List.take_prefix room bs).eq_of_length h

/-- A write that the sink cannot take whole leaves no room. -/
theorem fit_put_eq_nil {as : Bytes} (h : (s.fit as).length ≠ as.length) (bs : Bytes) :
    (s.put as).fit bs = [] := by
  unfold fit at h
  unfold fit put
  cases hroom : s.room with
  | none =>
    rw [hroom] at h
    exact absurd rfl h
  | some room =>
    rw [hroom] at h
    dsimp only at h
    rw [List.length_take] at h
    have hleft : room - as.length = 0 := by omega
    show bs.take (room - as.length) = []
    rw [hleft, List.take_zero]

theorem writeAll_of_fits (h : (s.fit pieces.flatten).length = pieces.flatten.length) :
    writeAll pieces s = .ok () (s.puts pieces) := by
  induction pieces generalizing s with
  | nil => rfl
  | cons piece pieces ih =>
    rw [List.flatten_cons, fit_append, List.length_append, List.length_append] at h
    have hpiece := s.length_fit_le piece
    have hlater := (s.put piece).length_fit_le pieces.flatten
    have hwrite : write piece s = .ok () (s.put piece) := if_pos (by omega)
    rw [writeAll, Log.bind_of_ok hwrite, ih (by omega)]
    rfl

/-- Without room for all pieces, writing fails as the sink does, and what is written fills it. -/
theorem exists_writeAll_of_not_fits
    (h : (s.fit pieces.flatten).length ≠ pieces.flatten.length) :
    ∃ t, writeAll pieces s = .error s.full t ∧
      t.written = s.written ++ s.fit pieces.flatten ∧ t.flushes = s.flushes := by
  induction pieces generalizing s with
  | nil => exact absurd (congrArg List.length (fit_nil s)) h
  | cons piece pieces ih =>
    rw [List.flatten_cons, fit_append] at h ⊢
    rw [List.length_append, List.length_append] at h
    -- either a later piece does not fit, or this one, and then nothing of the later ones does
    by_cases hpiece : (s.fit piece).length = piece.length
    · have hwrite : write piece s = .ok () (s.put piece) := if_pos hpiece
      obtain ⟨t, hlater, hwritten, hflushes⟩ := ih (s := s.put piece) (by omega)
      refine ⟨t, ?_, ?_, hflushes⟩
      · rw [writeAll, Log.bind_of_ok hwrite, hlater]
        rfl
      · rw [hwritten, written_put, List.append_assoc]
    · have hwrite : write piece s = .error s.full (s.put piece) := if_neg hpiece
      refine ⟨s.put piece, ?_, ?_, rfl⟩
      · rw [writeAll, Log.bind_of_error hwrite]
      · rw [written_put, fit_put_eq_nil hpiece, List.append_nil]

theorem unflushable_puts (s : Sink) (pieces : List Bytes) :
    (s.puts pieces).unflushable = s.unflushable := by
  induction pieces generalizing s with
  | nil => rfl
  | cons piece pieces ih => exact ih (s.put piece)

end Sink

namespace Log

/-- What a run answers. -/
def answer {α : Type} : EStateM.Result Fault Sink α → Except Fault α
  | .ok a _ => .ok a
  | .error fault _ => .error fault

/-- The sink that a run leaves. -/
def left {α : Type} : EStateM.Result Fault Sink α → Sink
  | .ok _ sink => sink
  | .error _ sink => sink

/-- The whole source can be read: it does not fail, and neither does any of its lines. -/
structure Readable (source : Source) : Prop where
  sound : ∀ line ∈ source.lines, Sound line
  failure_eq : source.failure = none

theorem Readable.holds {source : Source} (h : Readable source) :
    source.Holds source.pieces.flatten :=
  ⟨rfl, h.failure_eq⟩

theorem Readable.sound_cut {source : Source} (h : Readable source) :
    ∀ line ∈ Line.cut source.pieces.flatten, Sound line := by
  rw [← h.holds.lines_delivery, Source.lines_delivery_eq]
  exact h.sound

/-- What is left of a run when everything is written: to flush the sink, or to report a fault. -/
def closing (names : Names) : Except Fault Tally → EStateM Fault Sink Tally
  | .ok tally => do
    onSink names Sink.flush
    return tally
  | .error fault => throw fault

section FullSink

variable {names : Names} {policy : Policy} {source : Source} {s t : Sink}

/-! ## What a run writes -/

/-- A run over a source that can be read writes some pieces and then flushes the sink. -/
theorem exists_reorder_eq_flush (names : Names) (policy : Policy) (h : Readable source) :
    ∃ pieces tally, reorder names policy source = (do
      onSink names (Sink.writeAll pieces)
      closing names (.ok tally)) := by
  obtain ⟨ps, hrun, -⟩ := exists_reorder_eq names policy h.sound_cut h.holds
  exact ⟨ps, _, hrun⟩

/-- A run that stops writes the preamble up to the fault. -/
theorem reorder_eq_throw_of_stops {before : List Bytes} {fault : Fault}
    (h : Stops names source before fault) (policy : Policy) :
    reorder names policy source = (do
      onSink names (Sink.writeAll (Layout.ofLines 0 before).preamble)
      closing names (.error fault)) := by
  rw [reorder_of_stops h, takeLines_of_sound names {} h.sound, bind_assoc]
  rfl

theorem exists_stops_of_not_readable (names : Names) (h : ¬Readable source) :
    ∃ before fault, Stops names source before fault := by
  refine exists_stops names ?_
  by_contra hnone
  push Not at hnone
  exact h ⟨hnone.1, hnone.2⟩

/-- A run over any other source writes some pieces and then stops. -/
theorem exists_reorder_eq_throw (names : Names) (policy : Policy) (h : ¬Readable source) :
    ∃ pieces fault, reorder names policy source = (do
      onSink names (Sink.writeAll pieces)
      closing names (.error fault)) := by
  obtain ⟨before, fault, hstops⟩ := exists_stops_of_not_readable names h
  exact ⟨_, fault, reorder_eq_throw_of_stops hstops policy⟩

/-! ## On which sink -/

/-- Flushing is the last thing that can fail, and it is counted all the same. -/
theorem closing_ok (names : Names) (tally : Tally) (s : Sink) :
    closing names (.ok tally) s =
      match s.unflushable with
      | none => .ok tally s.flushed
      | some why => .error (.output names.output why) s.flushed := by
  obtain ⟨room, full, unflushable, pieces, flushes⟩ := s
  cases unflushable <;> rfl

theorem written_left_closing (names : Names) (outcome : Except Fault Tally) (s : Sink) :
    (left (closing names outcome s)).written = s.written := by
  cases outcome with
  | error fault => rfl
  | ok tally =>
    rw [closing_ok]
    cases s.unflushable <;> rfl

theorem flushes_left_closing (names : Names) (outcome : Except Fault Tally) (s : Sink) :
    (left (closing names outcome s)).flushes = s.flushes + if outcome.isOk then 1 else 0 := by
  cases outcome with
  | error fault => rfl
  | ok tally =>
    rw [closing_ok]
    cases s.unflushable <;> rfl

/-- How a run ends depends on its sink only by whether that can be flushed. -/
theorem answer_closing (names : Names) (outcome : Except Fault Tally)
    (h : s.unflushable = t.unflushable) :
    answer (closing names outcome s) = answer (closing names outcome t) := by
  cases outcome with
  | error fault => rfl
  | ok tally =>
    rw [closing_ok, closing_ok, h]
    cases t.unflushable <;> rfl

/-- A sink without a limit takes all pieces, and then the run is closed. -/
theorem apply_of_room_eq_none {act : EStateM Fault Sink Tally} {pieces : List Bytes}
    {outcome : Except Fault Tally} (hact : act = (do
      onSink names (Sink.writeAll pieces)
      closing names outcome))
    (hs : s.room = none) : act s = closing names outcome (s.puts pieces) := by
  have hall := congrArg List.length (Sink.fit_of_room_eq_none hs pieces.flatten)
  rw [hact, bind_of_ok (onSink_of_ok names (Sink.writeAll_of_fits hall))]

/-- What becomes of a run (`cut`) when there is only so much room, and the run over the same sink
without a limit (`whole`) writes `out`. -/
structure CutOff (names : Names) (s : Sink) (out : Bytes) (room : Nat)
    (whole cut : EStateM.Result Fault Sink Tally) : Prop where
  /-- The sink gets the first bytes, as many as there is room for. -/
  written_eq : (left cut).written = s.written ++ out.take room
  /-- If this is all of them, there is no difference. -/
  of_le : out.length ≤ room → answer cut = answer whole ∧ (left cut).flushes = (left whole).flushes
  /-- If not, the run ends with the failure of the sink, and nothing is flushed. -/
  of_lt : room < out.length →
    answer cut = .error (.output names.output s.full) ∧ (left cut).flushes = s.flushes

/-- A limit cuts off a run that writes some pieces, whatever it does then. -/
theorem cutOff {act : EStateM Fault Sink Tally} {pieces : List Bytes} {outcome : Except Fault Tally}
    (hact : act = (do
      onSink names (Sink.writeAll pieces)
      closing names outcome))
    (hs : s.room = none) (room : Nat) :
    CutOff names s pieces.flatten room (act s) (act (s.limited room)) := by
  have hfit : (s.limited room).fit pieces.flatten = pieces.flatten.take room := rfl
  have hwhole := apply_of_room_eq_none hact hs
  -- the sink is full after the last byte, or in one of the pieces
  by_cases hle : pieces.flatten.length ≤ room
  · have hcut : act (s.limited room) = closing names outcome ((s.limited room).puts pieces) := by
      have hall : ((s.limited room).fit pieces.flatten).length = pieces.flatten.length := by
        rw [hfit, List.take_of_length_le hle]
      rw [hact, bind_of_ok (onSink_of_ok names (Sink.writeAll_of_fits hall))]
    rw [hcut, hwhole]
    refine ⟨?_, fun _ => ⟨?_, ?_⟩, fun hlt => absurd hle (Nat.not_le.mpr hlt)⟩
    · rw [written_left_closing, Sink.written_puts, hfit]
      rfl
    · refine answer_closing names outcome ?_
      rw [Sink.unflushable_puts, Sink.unflushable_puts]
      rfl
    · rw [flushes_left_closing, flushes_left_closing, flushes_puts, flushes_puts]
      rfl
  · have hnot : ((s.limited room).fit pieces.flatten).length ≠ pieces.flatten.length := by
      rw [hfit, List.length_take]
      omega
    obtain ⟨t, hwrite, hwritten, hflushes⟩ := Sink.exists_writeAll_of_not_fits hnot
    have hcut : act (s.limited room) = .error (.output names.output s.full) t := by
      rw [hact, bind_of_error (onSink_of_error names hwrite)]
      rfl
    rw [hcut]
    exact ⟨hwritten, fun h => absurd h hle, fun _ => ⟨rfl, hflushes⟩⟩

theorem left_of_room_eq_none {act : EStateM Fault Sink Tally} {pieces : List Bytes}
    {outcome : Except Fault Tally} (hact : act = (do
      onSink names (Sink.writeAll pieces)
      closing names outcome))
    (hs : s.room = none) : (left (act s)).written = s.written ++ pieces.flatten ∧
      (left (act s)).flushes = s.flushes + if outcome.isOk then 1 else 0 := by
  rw [apply_of_room_eq_none hact hs, written_left_closing, flushes_left_closing,
    Sink.written_puts, Sink.fit_of_room_eq_none hs, flushes_puts]
  exact ⟨rfl, rfl⟩

/-- What a run that stops answers, and what it leaves in a sink that takes everything. -/
theorem reorder_eq_of_stops {before : List Bytes} {fault : Fault}
    (h : Stops names source before fault) (policy : Policy) (hsink : s.Boundless) :
    answer (reorder names policy source s) = .error fault ∧
      (left (reorder names policy source s)).written = s.written ++
        (before.takeWhile fun line => (Stamp.opening? line).isNone).flatten := by
  rw [apply_of_room_eq_none (reorder_eq_throw_of_stops h policy) hsink.room_eq]
  refine ⟨rfl, ?_⟩
  rw [← Layout.preamble_ofLines 0 fun l hl => (h.sound l hl).dated]
  exact hsink.written_puts _

/-- **A sink that fills up gets the first bytes.** What a run writes to a sink without a limit does
not depend on the sink; in particular it is all there when flushing fails. When there is only so
much room, the sink gets the first of these bytes, and if there are more of them, the run ends with
the failure of the sink, even if it would have stopped with a fault of the log later. A run flushes
the sink once if the source can be read, after the last byte, and never otherwise. -/
theorem full_sink_prefix (names : Names) (policy : Policy) (source : Source) :
    ∃ out : Bytes,
      (Readable source → ∃ pieces tally, pieces.flatten = out ∧
        reorder names policy source = (do
          onSink names (Sink.writeAll pieces)
          onSink names Sink.flush
          return tally)) ∧
      ∀ sink : Sink, sink.room = none →
        (left (reorder names policy source sink)).written = sink.written ++ out ∧
        (Readable source →
          (left (reorder names policy source sink)).flushes = sink.flushes + 1) ∧
        (¬Readable source →
          (left (reorder names policy source sink)).flushes = sink.flushes) ∧
        ∀ room, CutOff names sink out room (reorder names policy source sink)
          (reorder names policy source (sink.limited room)) := by
  by_cases hsource : Readable source
  · obtain ⟨pieces, tally, hrun⟩ := exists_reorder_eq_flush names policy hsource
    refine ⟨pieces.flatten, fun _ => ⟨pieces, tally, rfl, hrun⟩, ?_⟩
    intro sink hsink
    obtain ⟨hwritten, hflushes⟩ := left_of_room_eq_none hrun hsink
    exact ⟨hwritten, fun _ => hflushes, fun h => absurd hsource h, cutOff hrun hsink⟩
  · obtain ⟨pieces, fault, hrun⟩ := exists_reorder_eq_throw names policy hsource
    refine ⟨pieces.flatten, fun h => absurd h hsource, ?_⟩
    intro sink hsink
    obtain ⟨hwritten, hflushes⟩ := left_of_room_eq_none hrun hsink
    exact ⟨hwritten, fun h => absurd h hsource, fun _ => hflushes, cutOff hrun hsink⟩

/-- A source that fails, and a sink that is full in the middle of a character of the preamble. -/
theorem full_sink_prefix_preamble : ∃ source : Source, source.failure = some (.other "gone") ∧
    ∀ (names : Names) (policy : Policy),
      answer (reorder names policy source {}) = .error (.input names.input (.other "gone")) ∧
      answer (reorder names policy source (Sink.limited {} 2)) =
        .error (.output names.output (.other "full")) ∧
      (left (reorder names policy source (Sink.limited {} 2))).written = [0x64, 0xc3] ∧
      answer (reorder names policy source (Sink.limited {} 7)) =
        .error (.input names.input (.other "gone")) := by
  obtain ⟨source, hfailure, hrun⟩ : ∃ source : Source, source.failure = some (.other "gone") ∧
      ∀ (names : Names) (policy : Policy), ∃ sink, reorder names policy source {} =
        .error (.input names.input (.other "gone")) sink ∧
        sink.written = Bytes.ofString "début\n" :=
    ⟨{ pieces := [Bytes.ofString "dé", Bytes.ofString "but\n[2024-01-01 00:00:00:005] b\n"]
       failure := some (.other "gone") }, rfl, fun names policy => ⟨_, rfl, by decide⟩⟩
  refine ⟨source, hfailure, ?_⟩
  intro names policy
  obtain ⟨sink, hanswer, hwhole⟩ := hrun names policy
  obtain ⟨out, -, hsinks⟩ := full_sink_prefix names policy source
  obtain ⟨hwritten, -, -, hcut⟩ := hsinks {} rfl
  obtain rfl : Bytes.ofString "début\n" = out := by
    rw [hanswer] at hwritten
    exact hwhole.symm.trans hwritten
  have hwhole : answer (reorder names policy source {}) =
      .error (.input names.input (.other "gone")) := congrArg answer hanswer
  refine ⟨hwhole, ((hcut 2).of_lt (by decide)).1, ?_, ?_⟩
  · rw [(hcut 2).written_eq]
    decide
  · rw [((hcut 7).of_le (by decide)).1, hwhole]

end FullSink

end Log

end LogOrder
