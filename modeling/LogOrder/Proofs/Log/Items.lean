import LogOrder.Proofs.Log.PlainOrders
import LogOrder.Proofs.Log.Reread
import LogOrder.Proofs.Policy.Rearranged

/-!
# Items of a log

The entries of a log without their numbers. Arranging entries is arranging items, so what is written
can be told from the items alone, wherever these come from: from the log, from the output of
another run, or from two logs one after the other.

* `map_item_arrange`: the items of arranged entries are the arranged items;
* `arrange_eq_self`: entries whose items are in order stay where they are;
* `output_of_ended`: what a run writes, by the items of the log;
* `exists_contents_append`: the items of two logs one after the other.
-/

namespace LogOrder

/-- The entry by itself. -/
def Entry.item (e : Entry) : Item :=
  { name := e.name?, stamp := e.stamp, text := Line.close e.text }

/-- The line decides last. -/
theorem Policy.cmp_eq_then (p : Policy) {x y x' y' : Key} (hline : x'.line = y'.line)
    (hx : x'.stamp = x.stamp) (hy : y'.stamp = y.stamp)
    (hgroup : compare x'.group y'.group = compare x.group y.group) :
    p.cmp x y = (p.cmp x' y').then (compare x.line y.line) := by
  have hlines : compare x'.line y'.line = .eq := Nat.compare_eq_eq.mpr hline
  cases p with
  | line => rw [cmp_line, compareOn, compareOn, hlines, Ordering.eq_then]
  | chrono => simp [cmp_chrono, byTime, compareLex, compareOn, hlines, hx, hy]
  | thread => simp [cmp_thread, compareLex, compareOn, hlines, hgroup]
  | threadChrono =>
    simp [cmp_threadChrono, byTime, compareLex, compareOn, hlines, hx, hy, hgroup,
      Ordering.then_assoc]

namespace Log

variable {log : Bytes} {c d : Contents} {p q : Policy} {a b : Entry}

theorem map_name_items (entries : List Entry) :
    (entries.map Entry.item).map Item.name = entries.map Entry.name? := by
  rw [List.map_map]
  rfl

/-- Groups compare as the places of their threads do. -/
theorem compare_group (hc : contents (Line.cut log) = .ok c) (ha : a ∈ c.entries)
    (hb : b ∈ c.entries) :
    compare ((c.entries.map Entry.name?).eraseDups.idxOf a.name?)
      ((c.entries.map Entry.name?).eraseDups.idxOf b.name?) = compare a.key.group b.key.group := by
  have hname : ∀ e ∈ c.entries, e.name? ∈ (c.entries.map Entry.name?).eraseDups :=
    fun e he => List.mem_eraseDups.mpr (List.mem_map_of_mem he)
  have hnamea := hname a ha
  have hnameb := hname b hb
  obtain ⟨hd, rfl⟩ := contents_eq_ok_iff.mp hc
  rw [entries_finish_feed] at ha hb hnamea hnameb ⊢
  have hranks := pairwise_rank (Layout.pairwise_line 0 (Line.cut log))
  rw [← map_name?_entries hd] at hranks
  rw [group_eq_rank hd ha, group_eq_rank hd hb]
  exact compare_idxOf hranks hnamea hnameb

/-- Entries compare as their items do, and then by their lines. -/
theorem cmp_key (hc : contents (Line.cut log) = .ok c) (p : Policy) (ha : a ∈ c.entries)
    (hb : b ∈ c.entries) :
    p.cmp a.key b.key =
      (p.cmp (a.item.key (c.entries.map Entry.item)) (b.item.key (c.entries.map Entry.item))).then
        (compare a.line b.line) := by
  refine p.cmp_eq_then rfl rfl rfl ?_
  rw [← compare_group hc ha hb, ← map_name_items]
  rfl

/-- The items of arranged entries are the arranged items. -/
theorem map_item_arrange (hc : contents (Line.cut log) = .ok c) (p : Policy) :
    (arrange p c.entries).map Entry.item = p.rearrange (c.entries.map Entry.item) := by
  refine Policy.eq_of_filter_alike_eq (p := p) ?_ ?_
    (Policy.pairwise_rearrange p _) ?_
  · intro x hx
    obtain ⟨e, he, rfl⟩ := List.mem_map.mp hx
    exact List.mem_map_of_mem (mem_arrange.mp he)
  · rw [List.pairwise_map]
    refine (arrange_pairwise p c.entries).imp_of_mem ?_
    intro a b ha hb hle
    rw [cmp_key hc p (mem_arrange.mp ha) (mem_arrange.mp hb)] at hle
    exact Ordering.isLE_left_of_isLE_then hle
  · intro x
    rw [Policy.filter_rearrange, List.filter_map, List.filter_map,
      filter_arrange_congr (q := .line) hc, arrange_line (pairwise_line_contents hc)]
    -- the line decides between entries of which the policy cannot tell the items apart
    intro a ha b hb hkeepa hkeepb
    have hxa : p.Alike x a.item := of_decide_eq_true hkeepa
    have hxb : p.Alike x b.item := of_decide_eq_true hkeepb
    rw [cmp_key hc p ha hb, (hxa.symm.trans hxb).cmp_eq, Ordering.eq_then]
    rfl

/-- Entries whose items are in order stay where they are. -/
theorem arrange_eq_self (hc : contents (Line.cut log) = .ok c)
    (h : (c.entries.map Entry.item).Pairwise fun x y =>
      q.allows (c.entries.map Entry.item) x y = true) : arrange q c.entries = c.entries := by
  refine List.mergeSort_of_pairwise ?_
  rw [List.pairwise_map] at h
  refine (h.and (pairwise_line_contents hc)).imp_of_mem ?_
  intro a b ha hb hab
  rw [cmp_key hc q ha hb]
  exact Ordering.isLE_then_iff_and.mpr
    ⟨hab.1, .inr (Nat.isLE_compare.mpr (Nat.le_of_lt hab.2))⟩

/-! ## What is written -/

/-- Every line of what is written is a line of the log, closed or not. -/
theorem exists_of_mem_cut_output (hc : contents (Line.cut log) = .ok c) {line : Bytes}
    (h : line ∈ Line.cut (c.output p)) :
    ∃ l ∈ Line.cut log, line = l ∨ line = Line.close l := by
  obtain ⟨order, horder, -, hsplits⟩ := exists_splits_output hc p
  obtain ⟨hd, rfl⟩ := contents_eq_ok_iff.mp hc
  have hlog := (Layout.splits_ofLines 0 hd).lines_eq
  have hblock : ∀ b ∈ order, ∀ l ∈ b.lines, l ∈ Line.cut log := by
    intro b hb l hl
    rw [← hlog]
    exact List.mem_append_right _ (List.mem_flatMap.mpr ⟨b, horder.mem_iff.mp hb, hl⟩)
  rw [← hsplits.lines_eq, List.mem_append, List.mem_flatMap] at h
  rcases h with hplain | ⟨b, hb, hline⟩
  · refine ⟨line, ?_, .inl rfl⟩
    rw [← hlog]
    exact List.mem_append_left _ hplain
  · obtain ⟨x, hx, rfl | rfl⟩ := Line.mem_mapInit hb
    · rw [Block.lines_close] at hline
      obtain ⟨l, hl, rfl⟩ := List.mem_map.mp hline
      exact ⟨l, hblock x hx l hl, .inr rfl⟩
    · exact ⟨line, hblock _ hx line hline, .inl rfl⟩

theorem valid_output (hv : Utf8.valid log = true) (hc : contents (Line.cut log) = .ok c)
    (p : Policy) : Utf8.valid (c.output p) = true := by
  rw [Utf8.valid_iff_forall_mem_cut] at hv ⊢
  intro line hline
  obtain ⟨l, hl, rfl | rfl⟩ := exists_of_mem_cut_output hc hline
  · exact hv line hl
  · exact Utf8.valid_close (hv l hl)

theorem ended_output (hend : Line.Ended log) (hc : contents (Line.cut log) = .ok c)
    (p : Policy) : Line.Ended (c.output p) := by
  rw [Line.ended_iff_forall_whole] at hend ⊢
  intro line hline
  obtain ⟨l, hl, rfl | rfl⟩ := exists_of_mem_cut_output hc hline
  · exact hend line hl
  · rw [(hend l hl).close_eq]
    exact hend l hl

theorem endsLine_text (hend : Line.Ended log) (hc : contents (Line.cut log) = .ok c)
    (ha : a ∈ c.entries) : Bytes.endsLine a.text = true := by
  obtain ⟨hd, rfl⟩ := contents_eq_ok_iff.mp hc
  rw [entries_finish_feed] at ha
  obtain ⟨b, hb, rfl⟩ := List.mem_map.mp ha
  rw [Block.text_entry]
  refine Line.endsLine_flatten (List.cons_ne_nil _ _) ?_
  intro line hline
  refine (Line.ended_iff_forall_whole log).mp hend line ?_
  rw [← (Layout.splits_ofLines 0 hd).lines_eq]
  exact List.mem_append_right _ (List.mem_flatMap.mpr ⟨b, hb, hline⟩)

/-- What a run writes, by the items of the log. -/
theorem output_of_ended (hend : Line.Ended log) (hc : contents (Line.cut log) = .ok c)
    (p : Policy) : c.output p =
      c.preamble.flatten ++ ((p.rearrange (c.entries.map Entry.item)).map Item.text).flatten := by
  have htexts : (arrange p c.entries).map Entry.text =
      ((arrange p c.entries).map Entry.item).map Item.text := by
    rw [List.map_map]
    refine List.map_congr_left ?_
    intro e he
    show e.text = Line.close e.text
    rw [Line.close, if_pos (endsLine_text hend hc (mem_arrange.mp he))]
  have hclosed : ∀ t ∈ ((arrange p c.entries).map Entry.text).dropLast,
      Bytes.endsLine t = true := by
    intro t ht
    obtain ⟨e, he, rfl⟩ := List.mem_map.mp (List.mem_of_mem_dropLast ht)
    exact endsLine_text hend hc (mem_arrange.mp he)
  rw [Contents.output, Line.joined_eq_flatten hclosed, htexts, map_item_arrange hc]

theorem map_item_congr {xs ys : List Entry} (hname : xs.map Entry.name? = ys.map Entry.name?)
    (hstamp : xs.map Entry.stamp = ys.map Entry.stamp)
    (htext : (xs.map Entry.text).map Line.close = (ys.map Entry.text).map Line.close) :
    xs.map Entry.item = ys.map Entry.item := by
  have hlength : xs.length = ys.length := by simpa using congrArg List.length hstamp
  refine List.ext_getElem (by simpa using hlength) ?_
  intro i hx hy
  rw [List.length_map] at hx hy
  have hnamei : xs[i].name? = ys[i].name? := by simpa [hx, hy] using congrArg (·[i]?) hname
  have hstampi : xs[i].stamp = ys[i].stamp := by simpa [hx, hy] using congrArg (·[i]?) hstamp
  have htexti : Line.close xs[i].text = Line.close ys[i].text := by
    simpa [hx, hy] using congrArg (·[i]?) htext
  rw [List.getElem_map, List.getElem_map, Entry.item, hnamei, hstampi, htexti]
  rfl

/-- What is read again are the items in their new order. -/
theorem Rereads.map_item_eq (h : Rereads p c d) (hc : contents (Line.cut log) = .ok c) :
    d.entries.map Entry.item = p.rearrange (c.entries.map Entry.item) := by
  rw [← map_item_arrange hc]
  refine map_item_congr h.map_name? h.map_stamp ?_
  rw [h.map_text]
  exact Line.map_mapInit_of_eq fun t _ => Line.close_close t

/-! ## One log after another -/

/-- Lines that start with a block go on where others stop. -/
theorem Layout.Splits.append {layout layout' : Layout} {lines lines' : List Bytes}
    (h : layout.Splits lines) (h' : layout'.Splits lines') (hplain : layout'.preamble = []) :
    Layout.Splits { preamble := layout.preamble, blocks := layout.blocks ++ layout'.blocks }
      (lines ++ lines') := by
  refine ⟨?_, h.opening?_preamble, ?_, ?_⟩
  · have hlines := h'.lines_eq
    rw [hplain, List.nil_append] at hlines
    rw [← h.lines_eq, ← hlines, List.flatMap_append, List.append_assoc]
  · exact List.forall_mem_append.mpr ⟨h.opening?_head, h'.opening?_head⟩
  · exact List.forall_mem_append.mpr ⟨h.opening?_below, h'.opening?_below⟩

/-- A block by itself. -/
def Block.item (b : Block) : Item :=
  { name := b.name?, stamp := b.stamp, text := Line.close b.text }

theorem map_item_of_splits {layout : Layout} (hc : contents (Line.cut log) = .ok c)
    (h : layout.Splits (Line.cut log)) :
    c.entries.map Entry.item = layout.blocks.map Block.item := by
  refine map_entries_of_splits hc h ?_ fun _ _ => rfl
  intro b hb first
  rw [Entry.item, name?_entry h.dated hb, b.stamp_entry, b.text_entry]
  rfl

/-- The items of two logs one after the other, when the second one has no preamble. -/
theorem exists_contents_append {as bs : Bytes} (hend : Line.Ended as)
    (hc : contents (Line.cut as) = .ok c) (hd : contents (Line.cut bs) = .ok d)
    (hplain : d.preamble = []) :
    ∃ e, contents (Line.cut (as ++ bs)) = .ok e ∧ e.preamble = c.preamble ∧
      e.entries.map Entry.item = c.entries.map Entry.item ++ d.entries.map Entry.item := by
  have hfirst := Layout.splits_ofLines 0 (contents_eq_ok_iff.mp hc).1
  have hsecond := Layout.splits_ofLines 0 (contents_eq_ok_iff.mp hd).1
  have hboth := hfirst.append hsecond ((preamble_eq_of_splits hd hsecond).symm.trans hplain)
  rw [← hend.cut_append] at hboth
  obtain ⟨e, he⟩ : ∃ e, contents (Line.cut (as ++ bs)) = .ok e :=
    ⟨_, contents_eq_ok_iff.mpr ⟨hboth.dated, rfl⟩⟩
  refine ⟨e, he, ?_, ?_⟩
  · rw [preamble_eq_of_splits he hboth, preamble_eq_of_splits hc hfirst]
  · rw [map_item_of_splits he hboth, map_item_of_splits hc hfirst, map_item_of_splits hd hsecond,
      List.map_append]

end Log

end LogOrder
