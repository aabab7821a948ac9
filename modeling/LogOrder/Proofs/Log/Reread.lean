import LogOrder.Proofs.Log.Cohesion
import LogOrder.Proofs.Log.FirstLines
import LogOrder.Proofs.Stamp.AsText

/-!
# Reading again what was written

What a run writes can be read again as a log. Its blocks are those of the first log in their new
order: the stamped lines stay where the blocks begin, and a newline that was added to keep two
blocks apart belongs to the first of them.

* `Layout.Splits.ofLines_eq`: lines fall into preamble and blocks in one way only;
* `Layout.splits_rearranged`: what is written falls into the blocks that were put in order;
* **`output_read_again`**: preamble, entries, threads and groups of what is written.
-/

namespace LogOrder.Log

namespace Block

theorem name?_close (b : Block) : b.close.name? = b.name? := Thread.rightmost?_close b.head

/-- The blocks with the numbers that they have one after the other, from the line `n` on. -/
def renumber : (n : Nat) → List Block → List Block
  | _, [] => []
  | n, b :: rest => { b with line := n } :: renumber (n + b.lines.length) rest

/-- What does not look at the numbers of blocks does not see new ones. -/
theorem map_renumber {β : Type} {f : Block → β} (hf : ∀ b n, f { b with line := n } = f b)
    (n : Nat) (blocks : List Block) : (renumber n blocks).map f = blocks.map f := by
  induction blocks generalizing n with
  | nil => rfl
  | cons b rest ih => rw [renumber, List.map_cons, List.map_cons, hf, ih]

end Block

namespace Layout

/-! ## One way to take lines apart -/

theorem ofLines_append_of_plain (n : Nat) {plain : List Bytes}
    (h : ∀ line ∈ plain, Stamp.opening? line = none) (rest : List Bytes) :
    ofLines n (plain ++ rest) =
      { preamble := plain ++ (ofLines (n + plain.length) rest).preamble
        blocks := (ofLines (n + plain.length) rest).blocks } := by
  induction plain generalizing n with
  | nil => rfl
  | cons line plain ih =>
    obtain ⟨hline, hplain⟩ := List.forall_mem_cons.mp h
    have hcount : n + 1 + plain.length = n + (line :: plain).length := by
      rw [List.length_cons]
      omega
    rw [List.cons_append, ofLines, hline, ih (n + 1) hplain, hcount]
    rfl

theorem ofLines_flatMap (n : Nat) {blocks : List Block}
    (hhead : ∀ b ∈ blocks, Stamp.opening? b.head = some b.stamp.toWritten)
    (hbelow : ∀ b ∈ blocks, ∀ line ∈ b.below, Stamp.opening? line = none) :
    ofLines n (blocks.flatMap Block.lines) =
      { preamble := [], blocks := Block.renumber n blocks } := by
  induction blocks generalizing n with
  | nil => rfl
  | cons b rest ih =>
    obtain ⟨hb, hrest⟩ := List.forall_mem_cons.mp hhead
    obtain ⟨hunder, hlater⟩ := List.forall_mem_cons.mp hbelow
    have hcount : n + 1 + b.below.length = n + b.lines.length := by
      rw [Block.lines, List.length_cons]
      omega
    -- the lines under the first one are the preamble of what follows it
    have hafter : ofLines (n + 1) (b.below ++ rest.flatMap Block.lines) =
        { preamble := b.below, blocks := Block.renumber (n + b.lines.length) rest } := by
      rw [ofLines_append_of_plain (n + 1) hunder, hcount, ih _ hrest hlater, List.append_nil]
    rw [List.flatMap_cons, Block.lines, List.cons_append, ofLines, hafter, hb]
    simp only [Stamp.Written.check_toWritten]
    rfl

variable {layout : Layout} {lines : List Bytes}

/-- Lines fall into preamble and blocks in one way only, whatever their numbers. -/
theorem Splits.ofLines_eq (h : layout.Splits lines) (n : Nat) :
    ofLines n lines =
      { preamble := layout.preamble
        blocks := Block.renumber (n + layout.preamble.length) layout.blocks } := by
  rw [← h.lines_eq, ofLines_append_of_plain n h.opening?_preamble,
    ofLines_flatMap _ h.opening?_head h.opening?_below, List.append_nil]

theorem Splits.dated (h : layout.Splits lines) : ∀ line ∈ lines, Stamp.Dated line := by
  intro line hline w hw
  rw [← h.lines_eq, List.mem_append, List.mem_flatMap] at hline
  rcases hline with hplain | ⟨b, hb, hline⟩
  · rw [h.opening?_preamble line hplain] at hw
    cases hw
  · rcases List.mem_cons.mp hline with rfl | hunder
    · rw [h.opening?_head b hb] at hw
      obtain rfl := Option.some.inj hw
      exact b.stamp.possible
    · rw [h.opening?_below b hb line hunder] at hw
      cases hw

/-! ## What is written -/

section Rearranged

variable {log : Bytes} {order : List Block} {b : Block}

theorem text_close (hd : ∀ line ∈ Line.cut log, Stamp.Dated line)
    (hb : b ∈ (ofLines 0 (Line.cut log)).blocks) : b.close.text = Line.close b.text := by
  have hcut := Line.cut_close (text_ne_nil hd hb)
  rw [cut_text hd hb, ← Block.lines_close] at hcut
  rw [Block.text, ← hcut, Line.flatten_cut]

/-- What is written falls into the blocks that were put in order, all closed but the last. -/
theorem splits_rearranged (hd : ∀ line ∈ Line.cut log, Stamp.Dated line)
    (horder : order.Perm (ofLines 0 (Line.cut log)).blocks) :
    Splits { preamble := (ofLines 0 (Line.cut log)).preamble
             blocks := Line.mapInit Block.close order }
      (Line.cut ((ofLines 0 (Line.cut log)).preamble.flatten ++
        Line.joined (order.map Block.text))) := by
  have hsplits := splits_ofLines 0 hd
  refine ⟨(cut_rearranged hd horder).symm, hsplits.opening?_preamble, ?_, ?_⟩
  · intro b hb
    obtain ⟨x, hx, rfl | rfl⟩ := Line.mem_mapInit hb
    · show Stamp.opening? (Line.close x.head) = some x.stamp.toWritten
      rw [Stamp.opening?_close]
      exact hsplits.opening?_head x (horder.mem_iff.mp hx)
    · exact hsplits.opening?_head _ (horder.mem_iff.mp hx)
  · intro b hb line hline
    obtain ⟨x, hx, rfl | rfl⟩ := Line.mem_mapInit hb
    · obtain ⟨under, hunder, rfl⟩ := List.mem_map.mp hline
      rw [Stamp.opening?_close]
      exact hsplits.opening?_below x (horder.mem_iff.mp hx) under hunder
    · exact hsplits.opening?_below _ (horder.mem_iff.mp hx) line hline

end Rearranged

end Layout

/-! ## Contents of what is written -/

section Contents

variable {lines : List Bytes} {log : Bytes} {layout : Layout} {c d : Contents}

theorem preamble_eq_of_splits (hc : contents lines = .ok c) (h : layout.Splits lines) :
    c.preamble = layout.preamble := by
  obtain ⟨-, rfl⟩ := contents_eq_ok_iff.mp hc
  show (Layout.ofLines 0 lines).preamble = _
  rw [h.ofLines_eq 0]

/-- What entries have from their blocks alone does not depend on the numbers of these. -/
theorem map_entries_of_splits {β : Type} {f : Entry → β} {g : Block → β}
    (hc : contents lines = .ok c) (h : layout.Splits lines)
    (hf : ∀ b ∈ (Layout.ofLines 0 lines).blocks, ∀ first, f (b.entry first) = g b)
    (hg : ∀ b n, g { b with line := n } = g b) : c.entries.map f = layout.blocks.map g := by
  obtain ⟨-, rfl⟩ := contents_eq_ok_iff.mp hc
  rw [entries_finish_feed, Layout.entries, List.map_map]
  calc (Layout.ofLines 0 lines).blocks.map (f ∘ Block.entry _)
      = (Layout.ofLines 0 lines).blocks.map g := List.map_congr_left fun b hb => hf b hb _
    _ = layout.blocks.map g := by
      rw [h.ofLines_eq 0]
      exact Block.map_renumber hg _ _

theorem map_name?_of_splits (hc : contents (Line.cut log) = .ok c)
    (h : layout.Splits (Line.cut log)) :
    c.entries.map Entry.name? = layout.blocks.map Block.name? :=
  map_entries_of_splits hc h (fun _ hb first => name?_entry h.dated hb first) fun _ _ => rfl

/-- The roster has the threads that the entries name. -/
theorem isSome_get?_iff (hc : contents (Line.cut log) = .ok c) (name : Bytes) :
    (c.roster.get? name).isSome ↔ some name ∈ c.entries.map Entry.name? := by
  obtain ⟨hd, rfl⟩ := contents_eq_ok_iff.mp hc
  show ((Scan.feed {} (Line.cut log)).roster.get? name).isSome ↔ _
  rw [entries_finish_feed, map_name?_entries hd, get?_roster, isSome_firstIn_iff]

/-- A policy arranges the blocks of the log, and writes them closed but for the last. -/
theorem exists_splits_output (hc : contents (Line.cut log) = .ok c) (policy : Policy) :
    ∃ order : List Block, order.Perm (Layout.ofLines 0 (Line.cut log)).blocks ∧
      arrange policy c.entries =
        order.map (Block.entry (firstIn (Layout.ofLines 0 (Line.cut log)).blocks)) ∧
      Layout.Splits { preamble := c.preamble, blocks := Line.mapInit Block.close order }
        (Line.cut (c.output policy)) := by
  obtain ⟨hd, rfl⟩ := contents_eq_ok_iff.mp hc
  obtain ⟨order, horder, harrange⟩ := exists_order policy (Layout.ofLines 0 (Line.cut log))
  have htexts : (order.map (Block.entry (firstIn (Layout.ofLines 0 (Line.cut log)).blocks))).map
      Entry.text = order.map Block.text := by
    rw [List.map_map]
    exact List.map_congr_left fun b _ => b.text_entry _
  refine ⟨order, horder, ?_, ?_⟩
  · rw [entries_finish_feed, harrange]
  · rw [Contents.output, entries_finish_feed, harrange, htexts]
    exact Layout.splits_rearranged hd horder

/-- What the output of a run holds, when it is read again. -/
structure Rereads (policy : Policy) (c d : Contents) : Prop where
  preamble_eq : d.preamble = c.preamble
  /-- There are the entries of the log, in the order of the policy, -/
  length_eq : d.entries.length = (arrange policy c.entries).length
  /-- with their texts, closed if others follow, -/
  map_text : d.entries.map Entry.text =
    Line.mapInit Line.close ((arrange policy c.entries).map Entry.text)
  /-- where the newlines are those that were written, -/
  output_eq : c.output policy = d.preamble.flatten ++ (d.entries.map Entry.text).flatten
  /-- with their dates, -/
  map_stamp : d.entries.map Entry.stamp = (arrange policy c.entries).map Entry.stamp
  /-- and with their threads. -/
  map_name? : d.entries.map Entry.name? = (arrange policy c.entries).map Entry.name?
  /-- The rosters have the same names. -/
  isSome_get?_iff : ∀ name, (d.roster.get? name).isSome ↔ (c.roster.get? name).isSome
  /-- Two entries are of one group when they were so in the log. -/
  group_eq_iff : ∀ (i j : Nat) (a b x y : Entry),
    d.entries[i]? = some a → d.entries[j]? = some b →
    (arrange policy c.entries)[i]? = some x → (arrange policy c.entries)[j]? = some y →
    (a.key.group = b.key.group ↔ x.key.group = y.key.group)

/-- Entries with the threads of other entries have their groups too. -/
theorem group_eq_iff_of_map_name? {out : Bytes} {entries : List Entry}
    (hc : contents (Line.cut log) = .ok c) (hd : contents (Line.cut out) = .ok d)
    (hentries : ∀ e ∈ entries, e ∈ c.entries)
    (hnames : d.entries.map Entry.name? = entries.map Entry.name?) {i j : Nat} {a b x y : Entry}
    (ha : d.entries[i]? = some a) (hb : d.entries[j]? = some b)
    (hx : entries[i]? = some x) (hy : entries[j]? = some y) :
    a.key.group = b.key.group ↔ x.key.group = y.key.group := by
  have hax : a.name? = x.name? := by simpa [ha, hx] using congrArg (·[i]?) hnames
  have hby : b.name? = y.name? := by simpa [hb, hy] using congrArg (·[j]?) hnames
  rw [group_eq_iff_name? hd (List.mem_of_getElem? ha) (List.mem_of_getElem? hb),
    group_eq_iff_name? hc (hentries x (List.mem_of_getElem? hx))
      (hentries y (List.mem_of_getElem? hy)), hax, hby]

/-- What is written can be read again, and holds the entries in their new order. -/
theorem exists_rereads (hc : contents (Line.cut log) = .ok c) (policy : Policy) :
    ∃ d, contents (Line.cut (c.output policy)) = .ok d ∧ Rereads policy c d := by
  obtain ⟨order, horder, harrange, hsplits⟩ := exists_splits_output hc policy
  obtain ⟨hd, -⟩ := contents_eq_ok_iff.mp hc
  obtain ⟨d, hread⟩ : ∃ d, contents (Line.cut (c.output policy)) = .ok d :=
    ⟨_, contents_eq_ok_iff.mpr ⟨hsplits.dated, rfl⟩⟩
  have hpreamble : d.preamble = c.preamble := preamble_eq_of_splits hread hsplits
  have htext : d.entries.map Entry.text =
      Line.mapInit Line.close ((arrange policy c.entries).map Entry.text) := by
    rw [map_entries_of_splits hread hsplits (fun b _ first => b.text_entry first) fun _ _ => rfl,
      harrange, List.map_map,
      Line.map_mapInit fun b hb => Layout.text_close hd (horder.mem_iff.mp hb)]
    congr 1
    exact List.map_congr_left fun b _ => (b.text_entry _).symm
  have hstamp : d.entries.map Entry.stamp = (arrange policy c.entries).map Entry.stamp := by
    rw [map_entries_of_splits hread hsplits (fun b _ first => b.stamp_entry first) fun _ _ => rfl,
      harrange, List.map_map, Line.map_mapInit_of_eq (f := Block.close) fun _ _ => rfl]
    exact List.map_congr_left fun b _ => (b.stamp_entry _).symm
  have hname : d.entries.map Entry.name? = (arrange policy c.entries).map Entry.name? := by
    rw [map_name?_of_splits hread hsplits, harrange, List.map_map,
      Line.map_mapInit_of_eq fun b _ => b.name?_close]
    exact List.map_congr_left fun b hb => (name?_entry hd (horder.mem_iff.mp hb) _).symm
  refine ⟨d, hread, hpreamble, ?_, htext, ?_, hstamp, hname, ?_, ?_⟩
  · have hlength := congrArg List.length hstamp
    rwa [List.length_map, List.length_map] at hlength
  · rw [hpreamble, htext, ← Line.joined_eq_flatten_mapInit, Contents.output]
  · intro name
    rw [isSome_get?_iff hread, isSome_get?_iff hc, hname]
    exact ((arrange_perm policy c.entries).map Entry.name?).mem_iff
  · intro i j a b x y
    exact group_eq_iff_of_map_name? hc hread (fun e he => mem_arrange.mp he) hname

/-- **The output is a log with the same entries.** What a run writes can be read again. It has the
preamble of the log and its entries in the order of the policy, with their texts, closed where
others follow, and with their dates. It names the threads that the log names, and two of its entries
are of one group exactly when they were so in the log. -/
theorem output_read_again {policy : Policy} (hsorts : Sorts policy log) :
    ∃ c d, contents (Line.cut log) = .ok c ∧ Writes policy log (c.output policy) ∧
      contents (Line.cut (c.output policy)) = .ok d ∧ Rereads policy c d := by
  obtain ⟨c, hc, hv⟩ := hsorts.exists_contents
  obtain ⟨d, hread, h⟩ := exists_rereads hc policy
  exact ⟨c, d, hc, writes_output policy hv hc, hread, h⟩

/-- The log stops in the middle of an entry that is written first. -/
theorem output_read_again_mended : ∃ (log : Bytes) (c d : Contents),
    Bytes.endsLine log = false ∧ Sorts .chrono log ∧
    contents (Line.cut log) = .ok c ∧ contents (Line.cut (c.output .chrono)) = .ok d ∧
    d.entries.length = 2 ∧ Rereads .chrono c d := by
  have hv : Utf8.valid (Bytes.ofString ("started\n[2024-01-01 00:00:00:005] [thread-1] b\r\n" ++
      "  at x\n[2024-01-01 00:00:00:001] a\n  at z")) = true := by decide
  obtain ⟨c, hc, htwo⟩ : ∃ c, contents (Line.cut (Bytes.ofString ("started\n" ++
      "[2024-01-01 00:00:00:005] [thread-1] b\r\n  at x\n[2024-01-01 00:00:00:001] a\n" ++
      "  at z"))) = .ok c ∧ c.entries.length = 2 := ⟨_, rfl, by decide⟩
  have hsorts := sorts_of_sound .chrono (sound_of_valid hv (contents_eq_ok_iff.mp hc).1)
  obtain ⟨c', d, hc', -, hread, h⟩ := output_read_again hsorts
  obtain rfl : c = c' := Except.ok.inj (hc.symm.trans hc')
  have hlength : d.entries.length = 2 := by
    rw [h.length_eq, (arrange_perm .chrono c.entries).length_eq, htwo]
  exact ⟨_, c, d, by decide, hsorts, hc, hread, hlength, h⟩

end Contents

end LogOrder.Log
