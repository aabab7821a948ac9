import LogOrder.Proofs.Log.Run

/-!
# Nothing is lost

A run writes the lines of the log, in another order and otherwise as they are. Only the last line
of a log can lack its newline, so at most one newline has to be added, to keep that line apart from
the block that follows it in the new order.

* `endsLine_text_iff`: which block can stop in the middle of a line;
* `exists_order`: a policy arranges whole blocks;
* `cut_rearranged`: the lines of preamble and blocks, written in another order;
* **`reorder_lossless`**: what a run over a log writes.
-/

namespace LogOrder.Log

namespace Layout

variable {log : Bytes} {b : Block}

theorem text_ne_nil (hd : ∀ line ∈ Line.cut log, Stamp.Dated line)
    (hb : b ∈ (ofLines 0 (Line.cut log)).blocks) : b.text ≠ [] := by
  have hsplits := splits_ofLines 0 hd
  have hhead : b.head ∈ Line.cut log := by
    rw [← hsplits.lines_eq]
    exact List.mem_append_right _ (List.mem_flatMap.mpr ⟨b, hb, List.mem_cons_self⟩)
  exact List.append_ne_nil_of_left_ne_nil (Line.mem_cut hhead).1 _

/-- A block stands in the lines with some of them before and some after it. -/
theorem exists_cut_eq (hd : ∀ line ∈ Line.cut log, Stamp.Dated line) {before after : List Block}
    (h : (ofLines 0 (Line.cut log)).blocks = before ++ b :: after) :
    Line.cut log = ((ofLines 0 (Line.cut log)).preamble ++ before.flatMap Block.lines) ++ b.lines ++
      after.flatMap Block.lines := by
  have hlines := (splits_ofLines 0 hd).lines_eq
  rw [h] at hlines
  exact hlines.symm.trans (by simp)

/-- The lines of a block are the lines of its bytes. -/
theorem cut_text (hd : ∀ line ∈ Line.cut log, Stamp.Dated line)
    (hb : b ∈ (ofLines 0 (Line.cut log)).blocks) : Line.cut b.text = b.lines := by
  obtain ⟨before, after, h⟩ := List.append_of_mem hb
  exact Line.cut_flatten_of_cut_eq (exists_cut_eq hd h)

/-- A block that others follow ends its last line. -/
theorem endsLine_text_of_later (hd : ∀ line ∈ Line.cut log, Stamp.Dated line)
    {before after : List Block} {next : Block}
    (h : (ofLines 0 (Line.cut log)).blocks = before ++ b :: next :: after) :
    Bytes.endsLine b.text = true := by
  have hcut := exists_cut_eq hd h
  rw [List.flatMap_cons, Block.lines, Block.lines, List.cons_append] at hcut
  refine Line.endsLine_flatten (List.cons_ne_nil _ _) ?_
  intro line hline
  exact Line.whole_of_cut_eq hcut line (List.mem_append_right _ hline)

/-- All blocks but the last end their last line. -/
theorem endsLine_text_of_mem_dropLast (hd : ∀ line ∈ Line.cut log, Stamp.Dated line)
    (hb : b ∈ (ofLines 0 (Line.cut log)).blocks.dropLast) : Bytes.endsLine b.text = true := by
  obtain ⟨before, later, hinit⟩ := List.append_of_mem hb
  rcases List.eq_nil_or_concat (ofLines 0 (Line.cut log)).blocks with h | ⟨init, last, h⟩
  · rw [h] at hb
    exact absurd hb List.not_mem_nil
  · rw [List.concat_eq_append] at h
    rw [h, List.dropLast_concat] at hinit
    subst hinit
    cases later with
    | nil => exact endsLine_text_of_later hd (h.trans (List.append_assoc ..))
    | cons next later => exact endsLine_text_of_later hd (h.trans (List.append_assoc ..))

/-- The last block stops as the log does. -/
theorem endsLine_text_of_last (hd : ∀ line ∈ Line.cut log, Stamp.Dated line) {before : List Block}
    (h : (ofLines 0 (Line.cut log)).blocks = before ++ [b]) :
    Bytes.endsLine b.text = Bytes.endsLine log := by
  have hb : b ∈ (ofLines 0 (Line.cut log)).blocks := by
    rw [h]
    exact List.mem_append_right _ List.mem_cons_self
  have hflat := congrArg List.flatten (exists_cut_eq hd h)
  rw [Line.flatten_cut, List.flatMap_nil, List.append_nil, List.flatten_append] at hflat
  rw [hflat]
  exact (Line.endsLine_append (text_ne_nil hd hb)).symm

/-- A block stops in the middle of a line exactly when the log does so and the block is where that
happens. -/
theorem endsLine_text_iff (hd : ∀ line ∈ Line.cut log, Stamp.Dated line)
    (hb : b ∈ (ofLines 0 (Line.cut log)).blocks) : Bytes.endsLine b.text = false ↔
      Bytes.endsLine log = false ∧ b.stop = (Line.cut log).length := by
  obtain ⟨before, after, h⟩ := List.append_of_mem hb
  have hstop := stop_add_length 0 hd h
  cases after with
  | nil =>
    rw [List.flatMap_nil, List.length_nil] at hstop
    rw [endsLine_text_of_last hd h]
    constructor
    · intro hopen
      exact ⟨hopen, by omega⟩
    · rintro ⟨hopen, -⟩
      exact hopen
  | cons next later =>
    rw [List.flatMap_cons, Block.lines, List.length_append, List.length_cons] at hstop
    rw [endsLine_text_of_later hd h]
    constructor
    · intro hopen
      cases hopen
    · rintro ⟨-, hend⟩
      omega

theorem nodup_blocks (n : Nat) (lines : List Bytes) : (ofLines n lines).blocks.Nodup :=
  List.Nodup.of_map Block.line (nodup_line n lines)

end Layout

/-- A policy arranges whole blocks. -/
theorem exists_order (policy : Policy) (layout : Layout) : ∃ order : List Block,
    order.Perm layout.blocks ∧
      arrange policy layout.entries = order.map (Block.entry (firstIn layout.blocks)) := by
  refine ⟨layout.blocks.mergeSort fun a b => (policy.cmp
    (a.entry (firstIn layout.blocks)).key (b.entry (firstIn layout.blocks)).key).isLE,
    List.mergeSort_perm _ _, ?_⟩
  exact (List.map_mergeSort (f := Block.entry (firstIn layout.blocks)) fun _ _ _ _ => rfl).symm

/-- The block with a newline at the end of each line. -/
def Block.close (b : Block) : Block :=
  { b with head := Line.close b.head, below := b.below.map Line.close }

theorem Block.lines_close (b : Block) : b.close.lines = b.lines.map Line.close := rfl

/-- What is written after a block: a newline, where the log stops in the middle of its last line
and other blocks follow. -/
def mend (log : Bytes) (order : List Block) (b : Block) : Bytes :=
  if (Bytes.endsLine log = false ∧ b.stop = (Line.cut log).length) ∧ order.getLast? ≠ some b then
    [Bytes.newline]
  else []

section Rearranged

variable {log : Bytes} {order : List Block}

/-- Blocks put on lines of their own are mended where the log stops. -/
theorem joined_text (hd : ∀ line ∈ Line.cut log, Stamp.Dated line)
    (horder : order.Perm (Layout.ofLines 0 (Line.cut log)).blocks) :
    Line.joined (order.map Block.text) = order.flatMap fun b => b.text ++ mend log order b := by
  have hnodup : order.Nodup := horder.nodup_iff.mpr (Layout.nodup_blocks 0 (Line.cut log))
  rw [Line.joined_map hnodup]
  refine List.flatMap_congr ?_
  intro b hb
  simp only [mend, Layout.endsLine_text_iff hd (horder.mem_iff.mp hb)]

/-- At most one block stops in the middle of a line. -/
theorem countP_endsLine_le (hd : ∀ line ∈ Line.cut log, Stamp.Dated line) :
    (Layout.ofLines 0 (Line.cut log)).blocks.countP (fun b => !Bytes.endsLine b.text) ≤ 1 := by
  rcases List.eq_nil_or_concat (Layout.ofLines 0 (Line.cut log)).blocks with h | ⟨init, last, h⟩
  · rw [h]
    exact Nat.zero_le 1
  · rw [List.concat_eq_append] at h
    have hinit : init.countP (fun b => !Bytes.endsLine b.text) = 0 := by
      rw [List.countP_eq_zero]
      intro b hb
      have hlater : b ∈ (Layout.ofLines 0 (Line.cut log)).blocks.dropLast := by
        rwa [h, List.dropLast_concat]
      simp [Layout.endsLine_text_of_mem_dropLast hd hlater]
    rw [h, List.countP_append, hinit, Nat.zero_add]
    exact List.countP_le_length

/-- The lines of blocks written one after the other, all but the last of them closed. -/
theorem cut_joined_text (hd : ∀ line ∈ Line.cut log, Stamp.Dated line)
    (horder : order.Perm (Layout.ofLines 0 (Line.cut log)).blocks) :
    Line.cut (Line.joined (order.map Block.text)) =
      (Line.mapInit Block.close order).flatMap Block.lines := by
  have hcut : ∀ b ∈ order, Line.cut b.text = b.lines :=
    fun b hb => Layout.cut_text hd (horder.mem_iff.mp hb)
  have hclose : ∀ t ∈ order.map Block.text,
      Line.cut (Line.close t) = (Line.cut t).map Line.close := by
    intro t ht
    obtain ⟨b, hb, rfl⟩ := List.mem_map.mp ht
    exact Line.cut_close (Layout.text_ne_nil hd (horder.mem_iff.mp hb))
  rw [Line.cut_joined, List.flatMap_def, List.flatMap_def, Line.map_mapInit hclose, List.map_map,
    Line.map_mapInit fun b _ => b.lines_close]
  congr 2
  exact List.map_congr_left hcut

/-- The lines of what is written are those of the preamble and of the blocks. -/
theorem cut_rearranged (hd : ∀ line ∈ Line.cut log, Stamp.Dated line)
    (horder : order.Perm (Layout.ofLines 0 (Line.cut log)).blocks) :
    Line.cut ((Layout.ofLines 0 (Line.cut log)).preamble.flatten ++
      Line.joined (order.map Block.text)) =
      (Layout.ofLines 0 (Line.cut log)).preamble ++
        (Line.mapInit Block.close order).flatMap Block.lines := by
  cases hfound : (Layout.ofLines 0 (Line.cut log)).blocks with
  | nil =>
    have hlines := (Layout.splits_ofLines 0 hd).lines_eq
    rw [hfound, List.flatMap_nil, List.append_nil] at hlines
    rw [hfound] at horder
    rw [horder.eq_nil, hlines]
    show Line.cut ((Line.cut log).flatten ++ []) = Line.cut log ++ []
    rw [List.append_nil, List.append_nil, Line.flatten_cut]
  | cons first later =>
    -- the preamble stands before a stamped line, so its last line is whole
    have hcut := Layout.exists_cut_eq hd (hfound.trans (List.nil_append _).symm)
    rw [List.flatMap_nil, List.append_nil, Block.lines, List.append_assoc, List.cons_append] at hcut
    rw [Line.cut_flatten_append (Line.whole_of_cut_eq hcut), cut_joined_text hd horder]

/-- The lines of the preamble come first, and then those of the blocks. -/
theorem texts_rearranged (hd : ∀ line ∈ Line.cut log, Stamp.Dated line)
    (horder : order.Perm (Layout.ofLines 0 (Line.cut log)).blocks) :
    Line.texts ((Layout.ofLines 0 (Line.cut log)).preamble.flatten ++
      Line.joined (order.map Block.text)) =
      ((Layout.ofLines 0 (Line.cut log)).preamble ++ order.flatMap Block.lines).map Line.chomp := by
  have hclosed : ∀ b ∈ order, b.close.lines.map Line.chomp = b.lines.map Line.chomp := by
    intro b _
    rw [Block.lines_close, List.map_map]
    exact List.map_congr_left fun line _ => Line.chomp_close line
  rw [Line.texts, cut_rearranged hd horder, List.map_append, List.map_append, List.map_flatMap,
    List.map_flatMap, List.flatMap_def, List.flatMap_def, Line.map_mapInit_of_eq hclosed]

/-- The lines are those of the log, up to their order and to newlines at their ends. -/
theorem texts_perm (hd : ∀ line ∈ Line.cut log, Stamp.Dated line)
    (horder : order.Perm (Layout.ofLines 0 (Line.cut log)).blocks) :
    (Line.texts ((Layout.ofLines 0 (Line.cut log)).preamble.flatten ++
      Line.joined (order.map Block.text))).Perm (Line.texts log) := by
  have hlog : Line.texts log =
      ((Layout.ofLines 0 (Line.cut log)).preamble ++
        (Layout.ofLines 0 (Line.cut log)).blocks.flatMap Block.lines).map Line.chomp := by
    rw [(Layout.splits_ofLines 0 hd).lines_eq]
    rfl
  rw [texts_rearranged hd horder, hlog, List.map_append, List.map_append]
  exact ((horder.flatMap_right Block.lines).map Line.chomp).append_left _

/-- At most one byte is added. -/
theorem length_rearranged (hd : ∀ line ∈ Line.cut log, Stamp.Dated line)
    (horder : order.Perm (Layout.ofLines 0 (Line.cut log)).blocks) {out : Bytes}
    (hout : out = (Layout.ofLines 0 (Line.cut log)).preamble.flatten ++
      Line.joined (order.map Block.text)) :
    out.length = log.length ∨ out.length = log.length + 1 := by
  have hlog := congrArg List.flatten (Layout.splits_ofLines 0 hd).lines_eq
  rw [Line.flatten_cut, List.flatten_append, flatten_flatMap_lines] at hlog
  have hlength := congrArg List.length hlog
  rw [List.length_append] at hlength
  have hsame := (horder.flatMap_right Block.text).length_eq
  have hmended := (List.dropLast_sublist (order.map Block.text)).countP_le
    (p := fun t => !Bytes.endsLine t)
  rw [List.countP_map, Function.comp_def, horder.countP_eq] at hmended
  have hopen := countP_endsLine_le hd
  rw [hout, List.length_append, Line.length_joined, ← List.flatMap_def, hsame]
  omega

end Rearranged

/-- **Reordering loses nothing.** A run over a log of text and possible dates succeeds. It writes
the preamble and then all blocks, each with its own lines and once; a newline is added only after
a block that stops where the log stops in the middle of a line, when other blocks follow it. -/
theorem reorder_lossless (policy : Policy) {log : Bytes} (hv : Utf8.valid log = true)
    (hd : ∀ line ∈ Line.cut log, Stamp.Dated line) :
    (Layout.ofLines 0 (Line.cut log)).Splits (Line.cut log) ∧
    ∃ (order : List Block) (out : Bytes),
      order.Perm (Layout.ofLines 0 (Line.cut log)).blocks ∧
      out = (Layout.ofLines 0 (Line.cut log)).preamble.flatten ++
        order.flatMap (fun b => b.text ++ mend log order b) ∧
      Writes policy log out ∧
      (out.length = log.length ∨ out.length = log.length + 1) ∧
      (Line.texts out).Perm (Line.texts log) := by
  obtain ⟨order, horder, harrange⟩ := exists_order policy (Layout.ofLines 0 (Line.cut log))
  have hout := joined_text hd horder
  have hwrites := writes_of_sound policy (sound_of_valid hv hd)
  rw [harrange, List.map_map, Function.comp_def] at hwrites
  simp only [Block.text_entry] at hwrites
  refine ⟨Layout.splits_ofLines 0 hd, order, _, horder, rfl, ?_, ?_, ?_⟩
  · rw [← hout]
    exact hwrites
  · exact length_rearranged hd horder (by rw [hout])
  · rw [← hout]
    exact texts_perm hd horder

/-- Two blocks that change places, the second of them without a newline at its end. -/
theorem reorder_lossless_mended : ∃ log out : Bytes, Utf8.valid log = true ∧
    (∀ line ∈ Line.cut log, Stamp.Dated line) ∧ Bytes.endsLine log = false ∧
    Writes .chrono log out ∧ (Line.texts out).Perm (Line.texts log) := by
  have hv : Utf8.valid (Bytes.ofString
      "[2024-01-01 00:00:00:005] b\n[2024-01-01 00:00:00:001] a") = true := by decide
  have hd : ∀ line ∈ Line.cut (Bytes.ofString
      "[2024-01-01 00:00:00:005] b\n[2024-01-01 00:00:00:001] a"), Stamp.Dated line := by decide
  obtain ⟨-, -, out, -, -, hwrites, -, hperm⟩ := reorder_lossless .chrono hv hd
  exact ⟨_, out, hv, hd, by decide, hwrites, hperm⟩

end LogOrder.Log
