import LogOrder.Proofs.Log.Cohesion
import LogOrder.Proofs.Stamp.AsText

/-!
# Orders that look at no thread

Two policies leave the threads alone. The order of the log writes the log again, byte for byte. The
order of time can be read off the stamps of what is written: their texts come in byte order.

* **`line_order_writes_log`**: the order of the log changes nothing;
* `stamps_output`: the stamped lines of what is written open the entries, in their new order;
* **`chrono_ascending`**: stamps ascend in the order of time, and equal ones stay as they were.
-/

namespace LogOrder.Log

section PlainOrders

variable {log : Bytes} {c : Contents}

/-! ## The order of the log -/

/-- Preamble and blocks, written as they were found, are the log. -/
theorem joined_blocks (hd : ∀ line ∈ Line.cut log, Stamp.Dated line) :
    (Layout.ofLines 0 (Line.cut log)).preamble.flatten ++
      Line.joined ((Layout.ofLines 0 (Line.cut log)).blocks.map Block.text) = log := by
  have hclosed : ∀ t ∈ ((Layout.ofLines 0 (Line.cut log)).blocks.map Block.text).dropLast,
      Bytes.endsLine t = true := by
    intro t ht
    rw [← List.map_dropLast] at ht
    obtain ⟨b, hb, rfl⟩ := List.mem_map.mp ht
    exact Layout.endsLine_text_of_mem_dropLast hd hb
  have hlines := (Layout.splits_ofLines 0 hd).lines_eq
  calc (Layout.ofLines 0 (Line.cut log)).preamble.flatten ++
        Line.joined ((Layout.ofLines 0 (Line.cut log)).blocks.map Block.text)
      = (Layout.ofLines 0 (Line.cut log)).preamble.flatten ++
          (Layout.ofLines 0 (Line.cut log)).blocks.flatMap Block.text := by
        rw [Line.joined_eq_flatten hclosed, List.flatMap_def]
    _ = ((Layout.ofLines 0 (Line.cut log)).preamble ++
          (Layout.ofLines 0 (Line.cut log)).blocks.flatMap Block.lines).flatten := by
        rw [List.flatten_append, flatten_flatMap_lines]
    _ = log := by rw [hlines, Line.flatten_cut]

/-- **The order of the log changes nothing.** A run in the order of the log, over any text with
possible dates, writes exactly the log: whatever its line endings are, and however it ends. -/
theorem line_order_writes_log (hv : Utf8.valid log = true)
    (hd : ∀ line ∈ Line.cut log, Stamp.Dated line) : Writes .line log log := by
  have hsame : arrange .line (Layout.ofLines 0 (Line.cut log)).entries =
      (Layout.ofLines 0 (Line.cut log)).entries := by
    rw [← entries_finish_feed]
    exact arrange_line (pairwise_line_entries (Line.cut log))
  have hwrites := writes_of_sound .line (sound_of_valid hv hd)
  rw [hsame, map_text_entries, joined_blocks hd] at hwrites
  exact hwrites

/-- Line ends of three kinds, an empty line, and an entry in the middle of which the log stops. -/
theorem line_order_writes_log_mixed : ∃ log : Bytes, (Line.cut log).length = 6 ∧
    Bytes.endsLine log = false ∧ Utf8.valid log = true ∧
    (∀ line ∈ Line.cut log, Stamp.Dated line) ∧ Writes .line log log := by
  have hv : Utf8.valid (Bytes.ofString ("started\r\n\n[2024-01-01 00:00:00:005] b\r\n  at x\ry\n" ++
      "[2024-01-01 00:00:00:001] a\n  at z")) = true := by decide
  have hd : ∀ line ∈ Line.cut (Bytes.ofString ("started\r\n\n[2024-01-01 00:00:00:005] b\r\n" ++
      "  at x\ry\n[2024-01-01 00:00:00:001] a\n  at z")), Stamp.Dated line := by decide
  exact ⟨_, by decide, by decide, hv, hd, line_order_writes_log hv hd⟩

/-! ## The order of time -/

/-- The stamps that the lines of the bytes open with, as they are written there. -/
def stamps (bs : Bytes) : List Bytes := (Line.texts bs).filterMap Stamp.text?

/-- A block has the stamp of its first line and no other. -/
theorem filterMap_text?_lines (hd : ∀ line ∈ Line.cut log, Stamp.Dated line) {b : Block}
    (hb : b ∈ (Layout.ofLines 0 (Line.cut log)).blocks) :
    b.lines.filterMap Stamp.text? = [b.stamp.toWritten.toBytes] := by
  have hsplits := Layout.splits_ofLines 0 hd
  have hbelow : b.below.filterMap Stamp.text? = [] := by
    rw [List.filterMap_eq_nil_iff]
    intro line hline
    rw [Stamp.text?_eq, hsplits.opening?_below b hb line hline]
    rfl
  have hhead : Stamp.text? b.head = some b.stamp.toWritten.toBytes := by
    rw [Stamp.text?_eq, hsplits.opening?_head b hb]
    rfl
  rw [Block.lines, List.filterMap_cons_some hhead, hbelow]

/-- The stamped lines of what is written open the entries, in their new order. -/
theorem stamps_output (policy : Policy) (hc : contents (Line.cut log) = .ok c) :
    stamps (c.output policy) =
      (arrange policy c.entries).map fun e => e.stamp.toWritten.toBytes := by
  obtain ⟨hd, rfl⟩ := contents_eq_ok_iff.mp hc
  obtain ⟨order, horder, harrange⟩ := exists_order policy (Layout.ofLines 0 (Line.cut log))
  have hpreamble : (Layout.ofLines 0 (Line.cut log)).preamble.filterMap Stamp.text? = [] := by
    rw [List.filterMap_eq_nil_iff]
    intro line hline
    rw [Stamp.text?_eq, (Layout.splits_ofLines 0 hd).opening?_preamble line hline]
    rfl
  have hblocks : (order.flatMap Block.lines).filterMap Stamp.text? =
      order.map fun b => b.stamp.toWritten.toBytes := by
    rw [List.filterMap_flatMap, List.map_eq_flatMap]
    exact List.flatMap_congr fun b hb => filterMap_text?_lines hd (horder.mem_iff.mp hb)
  have hchomp : Stamp.text? ∘ Line.chomp = Stamp.text? := funext Stamp.text?_chomp
  rw [Contents.output, entries_finish_feed, harrange, List.map_map, List.map_map]
  simp only [Function.comp_def, Block.text_entry, Block.stamp_entry]
  rw [stamps, texts_rearranged hd horder, List.filterMap_map, hchomp, List.filterMap_append,
    hpreamble, hblocks, List.nil_append]

/-- An entry opens with its stamp. -/
theorem text?_entry (hc : contents (Line.cut log) = .ok c) {e : Entry} (he : e ∈ c.entries) :
    Stamp.text? e.text = some e.stamp.toWritten.toBytes := by
  obtain ⟨hd, rfl⟩ := contents_eq_ok_iff.mp hc
  rw [entries_finish_feed] at he
  obtain ⟨b, hb, rfl⟩ := List.mem_map.mp he
  have hhead := (Layout.splits_ofLines 0 hd).opening?_head b hb
  have htext : Stamp.opening? b.text = some b.stamp.toWritten :=
    Stamp.opening?_append hhead b.below.flatten
  rw [Block.text_entry, Block.stamp_entry, Stamp.text?_eq, htext]
  rfl

/-- Entries of one stamp stay as they were. -/
theorem filter_arrange_chrono (hc : contents (Line.cut log) = .ok c) (text : Option Bytes) :
    ((arrange .chrono c.entries).filter fun e => Stamp.text? e.text = text) =
      c.entries.filter fun e => Stamp.text? e.text = text := by
  have hline : arrange .line c.entries = c.entries := arrange_line (pairwise_line_contents hc)
  rw [filter_arrange_congr (q := .line) hc, hline]
  intro a ha b hb hkeepa hkeepb
  have htext : Stamp.text? a.text = Stamp.text? b.text :=
    (of_decide_eq_true hkeepa).trans (of_decide_eq_true hkeepb).symm
  rw [text?_entry hc ha, text?_entry hc hb] at htext
  have hstamp : a.key.stamp = b.key.stamp := Stamp.toBytes_inj (Option.some.inj htext)
  simp only [Policy.cmp_chrono, Policy.cmp_line, Policy.byTime, compareLex, compareOn, hstamp]
  rw [Std.ReflOrd.compare_self]
  rfl

/-- **The order of time.** What a run in the order of time writes has the stamps of the entries at
the heads of its stamped lines; from line to line, their texts never go back in byte order. Entries
of one stamp are in the order in which the log has them, whatever their threads. -/
theorem chrono_ascending (hc : contents (Line.cut log) = .ok c) :
    (Utf8.valid log = true → Writes .chrono log (c.output .chrono)) ∧
    (arrange .chrono c.entries).Perm c.entries ∧
    (c.entries.Pairwise fun a b => a.line < b.line) ∧
    ((arrange .chrono c.entries).map fun e => Stamp.text? e.text) =
      (stamps (c.output .chrono)).map some ∧
    (stamps (c.output .chrono)).Pairwise (fun s t => (compare s t).isLE) ∧
    ∀ text : Option Bytes, ((arrange .chrono c.entries).filter fun e => Stamp.text? e.text = text) =
      c.entries.filter fun e => Stamp.text? e.text = text := by
  refine ⟨fun hv => writes_output .chrono hv hc, arrange_perm .chrono c.entries,
    pairwise_line_contents hc, ?_, ?_, filter_arrange_chrono hc⟩
  · rw [stamps_output .chrono hc, List.map_map]
    refine List.map_congr_left ?_
    intro e he
    exact text?_entry hc (mem_arrange.mp he)
  · rw [stamps_output .chrono hc, List.pairwise_map]
    refine (arrange_pairwise .chrono c.entries).imp ?_
    intro a b hle
    rw [Stamp.compare_toBytes]
    rw [Policy.cmp_chrono] at hle
    exact Ordering.isLE_left_of_isLE_then hle

/-- Two pairs of entries with one stamp, the later stamp first, across two threads. -/
theorem chrono_ascending_ties : ∃ (log : Bytes) (c : Contents),
    contents (Line.cut log) = .ok c ∧
    c.entries.map (fun e => e.stamp.milli.val) = [5, 1, 5, 1] ∧
    Writes .chrono log (c.output .chrono) ∧
    (stamps (c.output .chrono)).Pairwise (fun s t => (compare s t).isLE) ∧
    ((arrange .chrono c.entries).filter fun e =>
      Stamp.text? e.text = some (Bytes.ofString "2024-01-01 00:00:00:005")).map Entry.line =
        [0, 2] := by
  obtain ⟨c, hc, hmillis, hlines⟩ : ∃ c, contents (Line.cut (Bytes.ofString
      ("[2024-01-01 00:00:00:005] [thread-1] b\n[2024-01-01 00:00:00:001] a\n" ++
        "[2024-01-01 00:00:00:005] c\n[2024-01-01 00:00:00:001] [thread-2] d\n"))) = .ok c ∧
      c.entries.map (fun e => e.stamp.milli.val) = [5, 1, 5, 1] ∧
      (c.entries.filter fun e =>
        Stamp.text? e.text = some (Bytes.ofString "2024-01-01 00:00:00:005")).map Entry.line =
          [0, 2] :=
    ⟨_, rfl, by decide, by decide⟩
  obtain ⟨hwrites, -, -, -, hascending, hties⟩ := chrono_ascending hc
  refine ⟨_, c, hc, hmillis, hwrites (by decide), hascending, ?_⟩
  rw [hties]
  exact hlines

end PlainOrders

end LogOrder.Log
