import LogOrder.Proofs.Log.Arrangements
import Mathlib.Data.List.Find

/-!
# First lines

A scan gives every entry the number of the first line of its group: through the roster for a thread,
and beside it for the entries that name none. All these are numbers of lines of one log, so no two
groups share one, whatever lines came in between and whether or not they could be read.

* `Numbered` says what all the numbers mean that a scan has given out;
* **`numbered_feed`**: it holds after any lines.
-/

namespace LogOrder

namespace Log

theorem Scan.distinct_take {s : Scan} (h : s.roster.Distinct) (line : Bytes) :
    (s.take line).2.roster.Distinct := by
  cases hopening : Stamp.opening? line with
  | none =>
    rw [s.take_plain hopening]
    exact h
  | some w =>
    cases hcheck : w.check with
    | error why =>
      rw [s.take_skip hopening hcheck]
      exact h
    | ok stamp =>
      rw [s.take_block hopening hcheck]
      exact h.enter _ s.lines

theorem Scan.distinct_feed {s : Scan} (h : s.roster.Distinct) (lines : List Bytes) :
    (s.feed lines).roster.Distinct := by
  induction lines generalizing s with
  | nil => exact h
  | cons line rest ih => exact ih (distinct_take h line)

/-- The thread that the line of that number names: that of its rightmost marker. -/
def threadAt (lines : List Bytes) (number : Nat) : Option Bytes :=
  lines[number]?.bind Thread.rightmost?

/-- The line of the first entry of a group: of a thread, or of the entries that name none. -/
def firstLine (lines : List Bytes) (entries : List Entry) (group : Option Bytes) : Option Nat :=
  (entries.find? fun e => threadAt lines e.line == group).map Entry.line

/-- What the numbers mean that a scan of the lines has given to entries and threads. -/
structure Numbered (lines : List Bytes) (c : Contents) : Prop where
  /-- All lines are counted. -/
  lines_eq : c.lines = lines.length
  /-- Entries have increasing numbers, -/
  pairwise_line : c.entries.Pairwise fun a b => a.line < b.line
  /-- none of them past the lines, -/
  line_lt : ∀ e ∈ c.entries, e.line < c.lines
  /-- and each is the number of the stamped line that the entry starts with. -/
  head : ∀ e ∈ c.entries, ∃ head, lines[e.line]? = some head ∧ head <+: e.text ∧
    Stamp.opening? head = some e.stamp.toWritten
  /-- An entry that names a thread has the first line of this thread, as the roster has it. -/
  marked : ∀ e ∈ c.entries, ∀ name, threadAt lines e.line = some name →
    ∃ first, firstLine lines c.entries (some name) = some first ∧ e.thread = some first ∧
      c.roster.get? name = some first
  /-- An entry that names none has the first line of all such entries for its group. -/
  unmarked : ∀ e ∈ c.entries, threadAt lines e.line = none →
    e.thread = none ∧ firstLine lines c.entries none = some e.key.group
  /-- No group starts after one of its entries. -/
  group_le : ∀ e ∈ c.entries, e.key.group ≤ e.line
  /-- Groups are told apart by their first lines. -/
  group_eq_iff : ∀ a ∈ c.entries, ∀ b ∈ c.entries,
    a.key.group = b.key.group ↔ threadAt lines a.line = threadAt lines b.line
  /-- The roster has as many threads as the entries name. -/
  size_eq : c.roster.size = (c.entries.filterMap fun e => threadAt lines e.line).toFinset.card
  /-- It knows no thread that no entry names. -/
  get?_eq_none : ∀ name, (∀ e ∈ c.entries, threadAt lines e.line ≠ some name) →
    c.roster.get? name = none

section Numbered

variable {lines : List Bytes} {e : Entry} {name : Bytes}

theorem threadAt_line {b : Block} (hb : b ∈ (Layout.ofLines 0 lines).blocks) :
    threadAt lines b.line = b.name? := by
  have hhead : lines[b.line]? = some b.head := Layout.getElem?_line 0 lines b hb
  rw [threadAt, hhead]
  rfl

/-- Every entry is that of a block, and its line names the thread of the block. -/
theorem exists_block (he : e ∈ (Scan.feed {} lines).finish.entries) :
    ∃ b ∈ (Layout.ofLines 0 lines).blocks,
      e = b.entry (firstIn (Layout.ofLines 0 lines).blocks) ∧ threadAt lines e.line = b.name? := by
  rw [entries_finish_feed] at he
  obtain ⟨b, hb, rfl⟩ := List.mem_map.mp he
  refine ⟨b, hb, rfl, ?_⟩
  rw [Block.line_entry, threadAt_line hb]

theorem exists_entry {b : Block} (hb : b ∈ (Layout.ofLines 0 lines).blocks) :
    ∃ e ∈ (Scan.feed {} lines).finish.entries, threadAt lines e.line = b.name? := by
  refine ⟨b.entry (firstIn (Layout.ofLines 0 lines).blocks), ?_, ?_⟩
  · rw [entries_finish_feed]
    exact List.mem_map_of_mem hb
  · rw [Block.line_entry, threadAt_line hb]

/-- An entry starts with the stamped line that has its number. -/
theorem exists_head (he : e ∈ (Scan.feed {} lines).finish.entries) :
    ∃ head, lines[e.line]? = some head ∧ head <+: e.text ∧
      Stamp.opening? head = some e.stamp.toWritten := by
  obtain ⟨b, hb, rfl, -⟩ := exists_block he
  rw [Block.line_entry, Block.text_entry, Block.stamp_entry]
  exact ⟨b.head, Layout.getElem?_line 0 lines b hb, ⟨b.below.flatten, rfl⟩,
    Layout.opening?_head 0 lines b hb⟩

/-! ## Groups -/

/-- The first entry of a group is that of its first block. -/
theorem firstLine_entries (lines : List Bytes) (group : Option Bytes) :
    firstLine lines (Scan.feed {} lines).finish.entries group =
      firstIn (Layout.ofLines 0 lines).blocks group := by
  have hsame : ∀ b ∈ (Layout.ofLines 0 lines).blocks,
      ((fun e => threadAt lines e.line == group) ∘
        Block.entry (firstIn (Layout.ofLines 0 lines).blocks)) b = (b.name? == group) := by
    intro b hb
    rw [Function.comp_apply, Block.line_entry, threadAt_line hb]
  have hline : Entry.line ∘ Block.entry (firstIn (Layout.ofLines 0 lines).blocks) = Block.line :=
    funext (Block.line_entry _)
  rw [firstLine, firstIn, entries_finish_feed, Layout.entries, List.find?_map,
    List.find?_congr hsame, Option.map_map, hline]

theorem first?_roster (lines : List Bytes) (group : Option Bytes) :
    (Scan.feed {} lines).roster.first? group =
      firstLine lines (Scan.feed {} lines).finish.entries group := by
  rw [(reached_feed {} lines).first?_eq, firstLine_entries]
  cases group <;> rfl

theorem get?_roster (lines : List Bytes) (name : Bytes) :
    (Scan.feed {} lines).roster.get? name =
      firstIn (Layout.ofLines 0 lines).blocks (some name) :=
  (first?_roster lines (some name)).trans (firstLine_entries lines (some name))

theorem firstLine_eq_group (he : e ∈ (Scan.feed {} lines).finish.entries) :
    firstLine lines (Scan.feed {} lines).finish.entries (threadAt lines e.line) =
      some e.key.group := by
  obtain ⟨b, hb, rfl, hname⟩ := exists_block he
  obtain ⟨first, hfirst⟩ := exists_firstIn hb
  rw [hname, firstLine_entries, Block.group_entry, hfirst]
  rfl

/-- An entry names a thread in its key if its line does. -/
theorem thread_eq (he : e ∈ (Scan.feed {} lines).finish.entries) :
    e.thread = (threadAt lines e.line).map fun _ => e.key.group := by
  obtain ⟨b, hb, rfl, hname⟩ := exists_block he
  obtain ⟨first, hfirst⟩ := exists_firstIn hb
  rw [hname, Block.group_entry, hfirst]
  unfold Block.entry
  cases hthread : b.name? with
  | none => rfl
  | some name =>
    rw [hthread] at hfirst
    exact hfirst

/-- Entries have one group in their keys when their lines name one thread, or both name none. -/
theorem group_eq_iff_threadAt {a b : Entry} (ha : a ∈ (Scan.feed {} lines).finish.entries)
    (hb : b ∈ (Scan.feed {} lines).finish.entries) :
    a.key.group = b.key.group ↔ threadAt lines a.line = threadAt lines b.line := by
  obtain ⟨x, hx, rfl, hnamex⟩ := exists_block ha
  obtain ⟨y, hy, rfl, hnamey⟩ := exists_block hb
  rw [hnamex, hnamey]
  exact Block.group_entry_eq_iff (Layout.pairwise_line 0 lines) hx hy

/-- The roster has the threads that the lines of the entries name. -/
theorem mem_threads_iff : name ∈ (Scan.feed {} lines).roster.threads.map Prod.fst ↔
    ∃ e ∈ (Scan.feed {} lines).finish.entries, threadAt lines e.line = some name := by
  rw [← Thread.Roster.isSome_get?_iff, get?_roster, isSome_firstIn_iff, List.mem_map]
  constructor
  · rintro ⟨b, hb, hname⟩
    obtain ⟨e, he, hthread⟩ := exists_entry hb
    exact ⟨e, he, hthread.trans hname⟩
  · rintro ⟨e, he, hname⟩
    obtain ⟨b, hb, -, hthread⟩ := exists_block he
    exact ⟨b, hb, hthread.symm.trans hname⟩

theorem size_roster (lines : List Bytes) : (Scan.feed {} lines).roster.size =
    ((Scan.feed {} lines).finish.entries.filterMap fun e =>
      threadAt lines e.line).toFinset.card := by
  -- no name stands twice, so the names are as many as the set of them has
  have hdistinct : (Scan.feed {} lines).roster.Distinct :=
    Scan.distinct_feed (s := {}) List.nodup_nil lines
  have hnames : ((Scan.feed {} lines).roster.threads.map Prod.fst).toFinset =
      ((Scan.feed {} lines).finish.entries.filterMap fun e => threadAt lines e.line).toFinset := by
    ext name
    rw [List.mem_toFinset, List.mem_toFinset, mem_threads_iff, List.mem_filterMap]
  rw [← hnames]
  exact hdistinct.size_eq_card

end Numbered

/-- **First lines stand for groups.** After any lines, read or not, entries are numbered by their
stamped lines; each group, of a thread or of the entries without one, goes by the number of its
first entry and by no other group's; and the roster has the threads that entries name, each with its
number. -/
theorem numbered_feed (lines : List Bytes) : Numbered lines (Scan.feed {} lines).finish where
  lines_eq := (reached_feed {} lines).lines_eq.trans (Nat.zero_add _)
  pairwise_line := pairwise_line_entries lines
  line_lt := by
    intro e he
    obtain ⟨b, hb, rfl, -⟩ := exists_block he
    have hbounds := Layout.line_bounds 0 lines b hb
    have hcount := (reached_feed {} lines).lines_eq
    rw [Block.line_entry]
    exact hbounds.2.trans_eq hcount.symm
  head := fun e he => exists_head he
  marked := by
    intro e he name hname
    have hfirst := firstLine_eq_group he
    rw [hname] at hfirst
    refine ⟨e.key.group, hfirst, ?_, ?_⟩
    · rw [thread_eq he, hname]
      rfl
    · exact (first?_roster lines (some name)).trans hfirst
  unmarked := by
    intro e he hname
    have hfirst := firstLine_eq_group he
    rw [hname] at hfirst
    refine ⟨?_, hfirst⟩
    rw [thread_eq he, hname]
    rfl
  group_le := by
    intro e he
    obtain ⟨b, hb, rfl, -⟩ := exists_block he
    obtain ⟨first, hfirst⟩ := exists_firstIn hb
    rw [Block.group_entry, Block.line_entry, hfirst]
    exact firstIn_le (Layout.pairwise_line 0 lines) hb hfirst
  group_eq_iff := fun _ ha _ hb => group_eq_iff_threadAt ha hb
  size_eq := size_roster lines
  get?_eq_none := by
    intro name hno
    refine Thread.Roster.get?_eq_none_iff.mpr ?_
    intro hname
    obtain ⟨e, he, hsome⟩ := mem_threads_iff.mp hname
    exact hno e he hsome

/-- A line that cannot be read before the first entry, and a thread that quotes another. -/
theorem numbered_feed_skipped : ∃ (lines : List Bytes) (c : Contents),
    c = (Scan.feed {} lines).finish ∧ Numbered lines c ∧
    c.entries.map (fun e => (e.line, e.key.group)) = [(2, 2), (3, 3), (4, 2)] ∧
    c.roster.get? (Bytes.ofString "thread-1") = some 2 ∧
    c.roster.get? (Bytes.ofString "thread-9") = none := by
  obtain ⟨lines, c, hc, hgroups, hmarked, hunmarked⟩ : ∃ (lines : List Bytes) (c : Contents),
      c = (Scan.feed {} lines).finish ∧
        c.entries.map (fun e => (e.line, e.key.group)) = [(2, 2), (3, 3), (4, 2)] ∧
        (∃ e ∈ c.entries, threadAt lines e.line = some (Bytes.ofString "thread-1") ∧
          e.thread = some 2) ∧
        ∀ e ∈ c.entries, threadAt lines e.line ≠ some (Bytes.ofString "thread-9") :=
    ⟨[Bytes.ofString "started\n", Bytes.ofString "[2024-13-01 00:00:00:000] [thread-9] x\n",
      Bytes.ofString "[2024-01-01 00:00:00:005] [thread-1] b\n",
      Bytes.ofString "[2024-01-01 00:00:00:001] a\n",
      Bytes.ofString "[2024-01-01 00:00:00:003] [thread-2] after [thread-1] c\n"],
      _, rfl, by decide, by decide, by decide⟩
  have hnumbered : Numbered lines c := hc ▸ numbered_feed lines
  refine ⟨lines, c, hc, hnumbered, hgroups, ?_, hnumbered.get?_eq_none _ hunmarked⟩
  obtain ⟨e, he, hname, hthread⟩ := hmarked
  obtain ⟨first, -, hfirst, hkept⟩ := hnumbered.marked e he _ hname
  rw [hkept, ← hfirst, hthread]

end Log

end LogOrder
