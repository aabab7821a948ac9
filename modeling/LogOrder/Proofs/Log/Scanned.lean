import LogOrder.Proofs.Log.Groups
import LogOrder.Proofs.Thread.Roster

/-!
# What reading a log finds

`Scan.take` reads one line at a time and keeps the open entry, a roster of threads and two
counters. What they hold after any lines is what the layout of those lines says: an entry for each
block, with the number of the first block of its group.

* `take_plain`, `take_skip` and `take_block` say all that one line can do;
* `reached_feed` is the same for any number of lines, also with failures among them;
* `contents_eq_ok_iff`: a log can be read exactly when all its stamps are possible dates, and then
  it consists of its layout.
-/

namespace LogOrder

/-- The entry with more lines under it. -/
def Entry.addLines (lines : List Bytes) (e : Entry) : Entry :=
  { e with text := e.text ++ lines.flatten }

namespace Log

/-! ## Entries of blocks -/

/-- The entry of a block, when `first` tells the first block of each group. -/
def Block.entry (first : Option Bytes → Option Nat) (b : Block) : Entry :=
  match b.name? with
  | some name =>
    { line := b.line, stamp := b.stamp, thread := first (some name), unmarked := b.line,
      text := b.text }
  | none =>
    { line := b.line, stamp := b.stamp, thread := none, unmarked := (first none).getD b.line,
      text := b.text }

namespace Block

variable (first : Option Bytes → Option Nat) (b : Block)

@[simp]
theorem line_entry : (b.entry first).line = b.line := by
  unfold entry
  split <;> rfl

@[simp]
theorem stamp_entry : (b.entry first).stamp = b.stamp := by
  unfold entry
  split <;> rfl

@[simp]
theorem text_entry : (b.entry first).text = b.text := by
  unfold entry
  split <;> rfl

theorem group_entry : (b.entry first).key.group = (first b.name?).getD b.line := by
  unfold entry
  split
  · next h => rw [h]; rfl
  · next h => rw [h]; rfl

variable {first b}

/-- Entries have one group in their keys exactly when their blocks name one thread, or both name
none. -/
theorem group_entry_eq_iff {blocks : List Block} (hs : blocks.Pairwise fun a b => a.line < b.line)
    {a : Block} (ha : a ∈ blocks) (hb : b ∈ blocks) :
    (a.entry (firstIn blocks)).key.group = (b.entry (firstIn blocks)).key.group ↔
      a.name? = b.name? := by
  obtain ⟨first, hfirst⟩ := exists_firstIn ha
  obtain ⟨other, hother⟩ := exists_firstIn hb
  rw [group_entry, group_entry, hfirst, hother]
  constructor
  · rintro rfl
    exact firstIn_inj hs hfirst hother
  · intro hname
    rw [hname, hother] at hfirst
    exact (Option.some.inj hfirst).symm

theorem entry_congr {other : Option Bytes → Option Nat} (h : first b.name? = other b.name?) :
    b.entry first = b.entry other := by
  unfold entry
  split
  · next hname => rw [← hname, h]
  · next hname => rw [← hname, h]

end Block

/-! ## One line -/

namespace Scan

variable (s : Scan) {line : Bytes}

theorem take_plain (h : Stamp.opening? line = none) :
    s.take line = (.ok (if s.entries = [] then .preamble line else .continuation),
      { s with
        lines := s.lines + 1
        preambleLines := s.preambleLines + if s.entries = [] then 1 else 0
        entries := s.entries.modifyHead (Entry.addLines [line]) }) := by
  simp only [take, h, takePlain]
  cases hs : s.entries with
  | nil => simp
  | cons latest closed => simp [Entry.addLines, Entry.addLine]

theorem take_skip {w : Stamp.Written} {why : Stamp.DateFault}
    (h : Stamp.opening? line = some w) (hw : w.check = .error why) :
    s.take line = (.error { line := s.lines, stamp := w, why },
      { s with lines := s.lines + 1 }) := by
  simp only [take, h, hw]

theorem take_block {w : Stamp.Written} {stamp : Stamp}
    (h : Stamp.opening? line = some w) (hw : w.check = .ok stamp) :
    s.take line =
      let block : Block := { line := s.lines, stamp, head := line, below := [] }
      let roster := s.roster.enter block.name? s.lines
      (.ok .header,
        { s with
          lines := s.lines + 1
          entries := block.entry roster.first? :: s.entries
          roster }) := by
  simp only [take, h, hw, takeStamped, Thread.name?_eq_rightmost?, Block.name?, Block.entry,
    Block.text, Block.lines]
  cases hname : Thread.rightmost? line with
  | some name =>
    simp only [Thread.Roster.enter, List.flatten_singleton, Thread.Roster.fst_enroll,
      Thread.Roster.first?, Thread.Roster.get?_enroll]
  | none =>
    cases hr : s.roster.unmarked with
    | some first =>
      simp [Thread.Roster.enter, Thread.Roster.enrollUnmarked, Thread.Roster.first?, hr]
    | none => simp [Thread.Roster.enter, Thread.Roster.enrollUnmarked, Thread.Roster.first?, hr]

/-! ## Any number of lines -/

/-- What is known after more lines, whether or not they can all be read. -/
def feed (s : Scan) (lines : List Bytes) : Scan := lines.foldl (fun s line => (s.take line).2) s

theorem feed_cons (line : Bytes) (rest : List Bytes) :
    s.feed (line :: rest) = (s.take line).2.feed rest := rfl

end Scan

/-- The first block of a group, when the roster knows some groups already. -/
def known (r : Thread.Roster) (blocks : List Block) (group : Option Bytes) : Option Nat :=
  (r.first? group).or (firstIn blocks group)

/-- Once the first of the blocks is entered, the roster knows its group. -/
theorem known_cons (r : Thread.Roster) (b : Block) (blocks : List Block) :
    known r (b :: blocks) = known (r.enter b.name? b.line) blocks := by
  funext group
  rw [known, known, Thread.Roster.first?_enter, firstIn_cons]
  by_cases h : group = b.name?
  · subst h
    rw [if_pos rfl, if_pos rfl]
    cases r.first? b.name? <;> rfl
  · rw [if_neg h, if_neg (Ne.symm h)]

/-- What a scan holds after more lines of that layout. -/
structure Reached (s : Scan) (lines : List Bytes) (layout : Layout) (t : Scan) : Prop where
  /-- All lines are counted. -/
  lines_eq : t.lines = s.lines + lines.length
  /-- Unstamped lines are preamble as long as there is no entry. -/
  preambleLines_eq :
    t.preambleLines = s.preambleLines + if s.entries = [] then layout.preamble.length else 0
  /-- The open entry takes the lines before the blocks, and then each block is an entry. -/
  entries_eq : t.entries =
    (layout.blocks.map (Block.entry (known s.roster layout.blocks))).reverse ++
      s.entries.modifyHead (Entry.addLines layout.preamble)
  /-- The roster knows the groups that it knew and those of the blocks. -/
  first?_eq : ∀ group, t.roster.first? group = known s.roster layout.blocks group

theorem addLines_addLines (xs ys : List Bytes) (e : Entry) :
    (e.addLines xs).addLines ys = e.addLines (xs ++ ys) := by
  simp [Entry.addLines]

theorem modifyHead_addLines_nil (entries : List Entry) :
    entries.modifyHead (Entry.addLines []) = entries := by
  cases entries with
  | nil => rfl
  | cons e entries => simp [Entry.addLines]

/-- A block that is entered with its first line alone takes the others later. -/
theorem addLines_entry (first : Option Bytes → Option Nat) (b : Block) (lines : List Bytes) :
    (b.entry first).addLines lines =
      { b with below := b.below ++ lines : Block }.entry first := by
  simp only [Block.entry, Block.name?, Entry.addLines]
  split <;> simp [Block.text, Block.lines]

namespace Reached

variable {s t : Scan} {line : Bytes} {rest : List Bytes} {layout : Layout}

/-- An unstamped line goes before what follows it. -/
theorem of_plain (h : Reached
      { s with
        lines := s.lines + 1
        preambleLines := s.preambleLines + if s.entries = [] then 1 else 0
        entries := s.entries.modifyHead (Entry.addLines [line]) } rest layout t) :
    Reached s (line :: rest) { layout with preamble := line :: layout.preamble } t := by
  obtain ⟨hlines, hpreamble, hentries, hfirst⟩ := h
  dsimp only at hlines hpreamble hentries hfirst
  refine ⟨?_, ?_, ?_, hfirst⟩
  · rw [hlines, List.length_cons]
    omega
  · rw [hpreamble]
    cases s.entries with
    | nil =>
      simp only [List.modifyHead_nil, if_true, List.length_cons]
      omega
    | cons latest closed => simp
  · rw [hentries]
    cases s.entries with
    | nil => rfl
    | cons latest closed =>
      rw [List.modifyHead_cons, List.modifyHead_cons, List.modifyHead_cons, addLines_addLines]
      rfl

/-- A line that cannot be read is counted and no more. -/
theorem of_skip (h : Reached { s with lines := s.lines + 1 } rest layout t) :
    Reached s (line :: rest) layout t := by
  refine ⟨?_, h.preambleLines_eq, h.entries_eq, h.first?_eq⟩
  rw [h.lines_eq, List.length_cons]
  show s.lines + 1 + rest.length = _
  omega

/-- A block starts with its stamped line, and the lines before the next one make it whole. -/
theorem of_block {b : Block} (hb : b.below = []) (hline : b.line = s.lines) (h : Reached
      { s with
        lines := s.lines + 1
        entries := b.entry (s.roster.enter b.name? s.lines).first? :: s.entries
        roster := s.roster.enter b.name? s.lines } rest layout t) :
    Reached s (line :: rest)
      { preamble := [], blocks := { b with below := layout.preamble } :: layout.blocks } t := by
  obtain ⟨hlines, hpreamble, hentries, hfirst⟩ := h
  dsimp only at hlines hpreamble hentries hfirst
  -- the roster that the block leaves is where the others go on
  have hknown : known s.roster ({ b with below := layout.preamble } :: layout.blocks) =
      known (s.roster.enter b.name? s.lines) layout.blocks := by
    rw [known_cons, ← hline]
    rfl
  refine ⟨?_, ?_, ?_, ?_⟩
  · rw [hlines, List.length_cons]
    omega
  · rw [hpreamble]
    simp
  · have hentry : (b.entry (s.roster.enter b.name? s.lines).first?).addLines layout.preamble =
        { b with below := layout.preamble : Block }.entry
          (known (s.roster.enter b.name? s.lines) layout.blocks) := by
      rw [addLines_entry, hb, List.nil_append]
      refine Block.entry_congr ?_
      show (s.roster.enter b.name? s.lines).first? b.name? =
        known (s.roster.enter b.name? s.lines) layout.blocks b.name?
      rw [known, Thread.Roster.first?_enter, if_pos rfl, Option.some_or]
    rw [hentries, hknown, List.modifyHead_cons, hentry, List.map_cons, List.reverse_cons,
      modifyHead_addLines_nil, List.append_assoc]
    rfl
  · intro group
    rw [hfirst, hknown]

end Reached

/-- **What a scan finds.** After any lines, the scan holds what their layout says. -/
theorem reached_feed (s : Scan) (lines : List Bytes) :
    Reached s lines (Layout.ofLines s.lines lines) (s.feed lines) := by
  generalize hn : s.lines = n
  fun_induction Layout.ofLines n lines generalizing s with
  | case1 n =>
    refine ⟨rfl, ?_, (modifyHead_addLines_nil s.entries).symm, ?_⟩
    · simp [Scan.feed]
    · intro group
      simp [Scan.feed, known, firstIn]
  | case2 n line rest after h ih =>
    have hrest := ih (s.take line).2 (by rw [Scan.lines_take, hn])
    rw [Scan.feed_cons]
    rw [s.take_plain h] at hrest ⊢
    exact hrest.of_plain
  | case3 n line rest after w h why hw ih =>
    have hrest := ih (s.take line).2 (by rw [Scan.lines_take, hn])
    rw [Scan.feed_cons]
    rw [s.take_skip h hw] at hrest ⊢
    exact hrest.of_skip
  | case4 n line rest after w h stamp hw block ih =>
    have hrest := ih (s.take line).2 (by rw [Scan.lines_take, hn])
    rw [Scan.feed_cons]
    rw [s.take_block h hw] at hrest ⊢
    subst hn
    exact hrest.of_block rfl rfl

/-! ## A whole log -/

/-- The entries of a log with that layout, as they are found. -/
def Layout.entries (layout : Layout) : List Entry :=
  layout.blocks.map (Block.entry (firstIn layout.blocks))

theorem map_text_entries (layout : Layout) :
    layout.entries.map Entry.text = layout.blocks.map Block.text := by
  rw [Layout.entries, List.map_map]
  exact List.map_congr_left fun b _ => b.text_entry _

theorem entries_finish_feed (lines : List Bytes) :
    (Scan.feed {} lines).finish.entries = (Layout.ofLines 0 lines).entries := by
  have hknown : known {} (Layout.ofLines 0 lines).blocks =
      firstIn (Layout.ofLines 0 lines).blocks := by
    funext group
    cases group <;> rfl
  rw [Scan.finish, (reached_feed {} lines).entries_eq, hknown]
  simp [Layout.entries]

/-- The line alone tells apart the entries of one log, also when some lines could not be read. -/
theorem eq_of_line_eq {lines : List Bytes} {a b : Entry}
    (ha : a ∈ (Scan.feed {} lines).finish.entries) (hb : b ∈ (Scan.feed {} lines).finish.entries)
    (h : a.key.line = b.key.line) : a = b := by
  rw [entries_finish_feed] at ha hb
  obtain ⟨x, hx, rfl⟩ := List.mem_map.mp ha
  obtain ⟨y, hy, rfl⟩ := List.mem_map.mp hb
  have hline : x.line = y.line := by simpa [Entry.key] using h
  rw [Layout.eq_of_line_eq hx hy hline]

/-- A line without a stamp, or with a possible date in it, does not stop a scan. -/
theorem scanFrom_of_dated (s : Scan) {lines : List Bytes}
    (hd : ∀ line ∈ lines, Stamp.Dated line) :
    scanFrom s lines = .ok (if s.entries = [] then (Layout.ofLines s.lines lines).preamble else [],
      s.feed lines) := by
  generalize hn : s.lines = n
  fun_induction Layout.ofLines n lines generalizing s with
  | case1 n =>
    rw [scanFrom, ite_self]
    rfl
  | case2 n line rest after h ih =>
    have hrest := ih (s.take line).2 (fun l hl => hd l (List.mem_cons_of_mem _ hl))
      (by rw [Scan.lines_take, hn])
    rw [scanFrom, Scan.feed_cons]
    rw [s.take_plain h] at hrest ⊢
    cases hs : s.entries with
    | nil =>
      simp only [hs, List.modifyHead_nil, if_true] at hrest ⊢
      rw [hrest]
      rfl
    | cons latest closed =>
      simp only [hs, List.modifyHead_cons, reduceCtorEq, if_false] at hrest ⊢
      rw [hrest]
  | case3 n line rest after w h why hw ih =>
    exact absurd (hd line List.mem_cons_self) (Layout.not_dated_of_check h hw)
  | case4 n line rest after w h stamp hw block ih =>
    have hrest := ih (s.take line).2 (fun l hl => hd l (List.mem_cons_of_mem _ hl))
      (by rw [Scan.lines_take, hn])
    rw [scanFrom, Scan.feed_cons]
    rw [s.take_block h hw] at hrest ⊢
    simp only [reduceCtorEq, if_false] at hrest ⊢
    rw [hrest, ite_self]

theorem dated_of_take {s : Scan} {line : Bytes} {placing : Placing}
    (h : (s.take line).1 = .ok placing) : Stamp.Dated line := by
  intro w hw
  cases hc : w.check with
  | error why =>
    rw [s.take_skip hw hc] at h
    cases h
  | ok stamp =>
    rw [← Stamp.Written.toWritten_of_check hc]
    exact stamp.possible

theorem dated_of_scanFrom {s : Scan} {lines : List Bytes} {found : List Bytes × Scan}
    (h : scanFrom s lines = .ok found) : ∀ line ∈ lines, Stamp.Dated line := by
  fun_induction scanFrom s lines generalizing found with
  | case1 s => simp
  | case2 s line rest bad t htake => cases h
  | case3 s line rest back t htake ih =>
    cases hrest : scanFrom t rest with
    | error bad =>
      rw [hrest] at h
      cases h
    | ok later =>
      exact List.forall_mem_cons.mpr ⟨dated_of_take (congrArg Prod.fst htake), ih hrest⟩
  | case4 s line rest placing t hplacing htake ih =>
    exact List.forall_mem_cons.mpr ⟨dated_of_take (congrArg Prod.fst htake), ih h⟩

/-- A log can be read exactly when every stamp that opens a line is a possible date, and then it
consists of its layout. -/
theorem contents_eq_ok_iff {lines : List Bytes} {c : Contents} :
    contents lines = .ok c ↔ (∀ line ∈ lines, Stamp.Dated line) ∧
      c = { (Scan.feed {} lines).finish with
        preamble := (Layout.ofLines 0 lines).preamble } := by
  constructor
  · intro h
    have hd : ∀ line ∈ lines, Stamp.Dated line := by
      cases hscan : scanFrom {} lines with
      | error bad =>
        rw [contents, hscan] at h
        cases h
      | ok found => exact dated_of_scanFrom hscan
    rw [contents, scanFrom_of_dated {} hd] at h
    cases h
    exact ⟨hd, rfl⟩
  · rintro ⟨hd, rfl⟩
    rw [contents, scanFrom_of_dated {} hd]
    rfl

/-- A log cannot be read exactly when a scan of its lines stops, and then for the same reason. -/
theorem contents_eq_error_iff {lines : List Bytes} {bad : BadStamp} :
    contents lines = .error bad ↔ scanFrom {} lines = .error bad := by
  rw [contents]
  cases scanFrom {} lines with
  | error other =>
    constructor
    · rintro ⟨⟩
      rfl
    · rintro ⟨⟩
      rfl
  | ok found =>
    constructor
    · rintro ⟨⟩
    · rintro ⟨⟩

end Log

end LogOrder
