import LogOrder.Proofs.Log.FullSink

/-!
# Writing any entries

Entries need not be those of one log when they are written: their texts may be empty, may end
anywhere, and may have been put in any order. Each text still starts on a line of its own and is
written as it is, and a newline stands between two texts only where the first does not end with one.

* `Apart` says what the written entries look like;
* `apart_joined`: texts that are joined line by line look like that;
* **`emit_apart`**: what is written of any entries, with and without room for all of it.
-/

namespace LogOrder.Log

/-- The entries are written one after the other in `out`, each on lines of its own. -/
structure Apart (entries : List Entry) (out : Bytes) : Prop where
  /-- Every text stands in it as it is, after what the entries before it take up; so it stands at
  the very beginning or after a newline, and the last one at the very end. -/
  stands : ∀ front e back, entries = front ++ e :: back → ∃ before after,
    out = before ++ e.text ++ after ∧
    before.length =
      (front.map fun a => a.text.length + if Bytes.endsLine a.text then 0 else 1).sum ∧
    (before = [] ∨ Bytes.endsLine before = true) ∧ (back = [] → after = [])
  /-- Nothing stands between them but a newline after each that does not end with one, save the
  last. -/
  out_eq : out =
    (entries.dropLast.flatMap fun e =>
      e.text ++ if Bytes.endsLine e.text then [] else [Bytes.newline]) ++
    entries.getLast?.elim [] Entry.text
  /-- It has the lines of the texts, and one for each empty text that is not the last. -/
  count_eq : Line.count out =
    (entries.dropLast.map fun e => max 1 e.lineCount).sum + entries.getLast?.elim 0 Entry.lineCount

theorem apart_joined (entries : List Entry) :
    Apart entries (Line.joined (entries.map Entry.text)) where
  stands := by
    rintro front e back rfl
    -- before the text stand those of `front`, all closed, since none of them is the last
    obtain ⟨after, hafter, hlast⟩ := Line.exists_joined_cons_eq e.text (back.map Entry.text)
    refine ⟨((front.map Entry.text).map Line.close).flatten, after, ?_, ?_,
      Line.ended_flatten_map_close _, ?_⟩
    · rw [List.map_append, List.map_cons, Line.joined_append_cons, hafter, List.append_assoc]
    · rw [List.length_flatten, List.map_map, List.map_map]
      congr 1
      refine List.map_congr_left ?_
      intro a _
      simp only [Function.comp_apply, Line.close_eq, List.length_append]
      split <;> rfl
    · rintro rfl
      exact hlast rfl
  out_eq := by
    rw [Line.joined, ← List.map_dropLast, List.getLast?_map, List.map_map, List.flatMap_def]
    congr 1
    · congr 1
      exact List.map_congr_left fun e _ => Line.close_eq e.text
    · cases entries.getLast? <;> rfl
  count_eq := by
    rw [Line.count_joined, ← List.map_dropLast, List.getLast?_map, List.map_map]
    congr 1
    cases entries.getLast? <;> rfl

/-! ## On which sink -/

theorem exists_emit_eq_ok {entries : List Entry} {s : Sink} {out : Bytes}
    (h : Line.joined (entries.map Entry.text) = out) (hfits : s.fit out = out) :
    ∃ t, emit entries s = .ok () t ∧ t.written = s.written ++ out := by
  obtain ⟨ps, hemit, hflat⟩ := exists_emit_eq entries
  rw [h] at hflat
  have hlength : (s.fit ps.flatten).length = ps.flatten.length := by rw [hflat, hfits]
  refine ⟨s.puts ps, ?_, ?_⟩
  · rw [hemit, Sink.writeAll_of_fits hlength]
  · rw [Sink.written_puts, hflat, hfits]

/-- **Written entries never run into each other**, whatever texts they have. Each text is written as
it is, in the order of the entries, at the beginning or after a newline, and the last one ends what
is written; a newline is added after every other that does not end with one, and nothing else. So an
entry takes up its own lines, and one if it is empty and not the last. A sink with room for only so
many bytes gets the first of these bytes, and it fails if there are more. -/
theorem emit_apart (entries : List Entry) : ∃ out, Apart entries out ∧
    (∀ s : Sink, s.room = none →
      ∃ t, emit entries s = .ok () t ∧ t.written = s.written ++ out) ∧
    ∀ (s : Sink) (room : Nat), s.room = some room →
      (out.length ≤ room → ∃ t, emit entries s = .ok () t ∧ t.written = s.written ++ out) ∧
      (room < out.length →
        ∃ t, emit entries s = .error s.full t ∧ t.written = s.written ++ out.take room) := by
  refine ⟨_, apart_joined entries, ?_, ?_⟩
  · intro s hs
    exact exists_emit_eq_ok rfl (Sink.fit_of_room_eq_none hs _)
  · intro s room hs
    have hfit (bs : Bytes) : s.fit bs = bs.take room := by rw [Sink.fit, hs]
    constructor
    · intro hle
      exact exists_emit_eq_ok rfl (by rw [hfit, List.take_of_length_le hle])
    · intro hlt
      -- in whatever pieces the texts are written, one of them is the first that does not fit
      obtain ⟨ps, hemit, hflat⟩ := exists_emit_eq entries
      have hnot : (s.fit ps.flatten).length ≠ ps.flatten.length := by
        rw [hfit, hflat, List.length_take]
        omega
      obtain ⟨t, hwrite, hwritten, -⟩ := Sink.exists_writeAll_of_not_fits hnot
      refine ⟨t, ?_, ?_⟩
      · rw [hemit, hwrite]
      · rw [hwritten, hfit, hflat]

/-- Two empty texts, one of them the last; a text without a newline at its end; and a sink that is
full in the middle of it. -/
theorem emit_apart_empty : ∃ entries : List Entry,
    entries.map Entry.text = [[], Bytes.ofString "b\n\nc", Bytes.ofString "a\n", []] ∧
    (∃ t, emit entries {} = .ok () t ∧ t.written = Bytes.ofString "\nb\n\nc\na\n" ∧
      Line.count t.written = 5) ∧
    ∃ t, emit entries (Sink.limited {} 3) = .error (.other "full") t ∧
      t.written = Bytes.ofString "\nb\n" := by
  obtain ⟨stamp, -⟩ : ∃ stamp, Stamp.parse "2024-01-01 00:00:00:000" = .ok stamp := ⟨_, rfl⟩
  let entry (text : Bytes) : Entry := { line := 0, stamp, thread := none, unmarked := 0, text }
  let entries := [entry [], entry (Bytes.ofString "b\n\nc"), entry (Bytes.ofString "a\n"), entry []]
  obtain ⟨out, hapart, hall, hlimited⟩ := emit_apart entries
  have hout : out = Bytes.ofString "\nb\n\nc\na\n" := hapart.out_eq
  obtain ⟨t, hemit, hwritten⟩ := hall {} rfl
  obtain ⟨-, hfull⟩ := hlimited (Sink.limited {} 3) 3 rfl
  obtain ⟨u, hfailed, hfirst⟩ := hfull (by rw [hout]; decide)
  refine ⟨entries, rfl, ⟨t, hemit, ?_, ?_⟩, u, hfailed, ?_⟩
  · rw [hwritten, hout]
    decide
  · rw [hwritten]
    exact hapart.count_eq
  · rw [hfirst, hout]
    decide

end LogOrder.Log
