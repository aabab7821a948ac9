import LogOrder.Proofs.Log.FirstLines

/-!
# The thread of an entry

A stamped line may hold any number of markers, one quoted in another and some of them broken. The
one that starts furthest to the right decides which thread the entry belongs to, and the others
leave no trace.

* `Marked` says what one stamped line does to the threads that are known;
* `marked_take`: it holds for every stamped line, whatever has been read before;
* `threadAt_eq_some_iff`: the thread that a line of a log names;
* **`last_marker_names_thread`**: the thread of each entry of a log, and the threads of the log.
-/

namespace LogOrder.Log

open Thread (MarkerAt LastMarker stem)

/-- What becomes of the threads when a stamped line is read after `s`: its entry is `e`, and the
roster is `roster` then. -/
structure Marked (s : Scan) (line : Bytes) (e : Entry) (roster : Thread.Roster) : Prop where
  /-- Without a marker anywhere in the line the entry has no thread. -/
  none_iff : e.thread = none ↔ ∀ start digits, ¬MarkerAt line start digits
  /-- Its thread is that of the last marker: the line that is known for this name already, or else
  the one that is being read. -/
  some_iff : ∀ first, e.thread = some first ↔
    ∃ digits, LastMarker line digits ∧ first = (s.roster.get? (stem ++ digits)).getD s.lines
  /-- This name is known from then on, -/
  get?_last : ∀ digits, LastMarker line digits → roster.get? (stem ++ digits) = e.thread
  /-- and every other is known or unknown as before, also when a marker of the line has it. -/
  get?_other : ∀ name, (∀ digits, LastMarker line digits → name ≠ stem ++ digits) →
    roster.get? name = s.roster.get? name

/-! ## One line -/

theorem get?_enter (r : Thread.Roster) (group : Option Bytes) (name : Bytes) (line : Nat) :
    (r.enter group line).get? name =
      if group = some name then some ((r.get? name).getD line) else r.get? name := by
  have henter : (r.enter group line).get? name =
      if some name = group then some ((r.first? group).getD line) else r.get? name :=
    r.first?_enter group (some name) line
  rw [henter]
  by_cases h : group = some name
  · subst h
    rw [if_pos rfl, if_pos rfl]
    rfl
  · rw [if_neg (Ne.symm h), if_neg h]

theorem Block.thread_entry (first : Option Bytes → Option Nat) (b : Block) :
    (b.entry first).thread = b.name?.bind fun name => first (some name) := by
  unfold Block.entry
  cases b.name? <;> rfl

variable {line : Bytes} {lines : List Bytes}

/-- What a stamped line does to the threads depends on its last marker alone. -/
theorem marked_of_rightmost? {s : Scan} {e : Entry} {roster : Thread.Roster}
    (hthread : e.thread = (Thread.rightmost? line).bind roster.get?)
    (hroster : roster = s.roster.enter (Thread.rightmost? line) s.lines) :
    Marked s line e roster := by
  -- one name is known afterwards for certain, and the entry looks up this one
  have hget (name : Bytes) : roster.get? name =
      if Thread.rightmost? line = some name then some ((s.roster.get? name).getD s.lines)
      else s.roster.get? name := by rw [hroster, get?_enter]
  refine ⟨?_, ?_, ?_, ?_⟩
  · rw [← Thread.rightmost?_eq_none_iff, hthread]
    cases hname : Thread.rightmost? line with
    | none => simp
    | some name => simp [hget, hname]
  · intro first
    rw [hthread, Option.bind_eq_some_iff]
    constructor
    · rintro ⟨name, hname, hfirst⟩
      rw [hget, if_pos hname] at hfirst
      obtain ⟨digits, rfl, hlast⟩ := Thread.rightmost?_eq_some_iff.mp hname
      exact ⟨digits, hlast, (Option.some.inj hfirst).symm⟩
    · rintro ⟨digits, hlast, rfl⟩
      have hname := Thread.lastMarker_iff.mp hlast
      refine ⟨_, hname, ?_⟩
      rw [hget, if_pos hname]
  · intro digits hlast
    rw [hthread, Thread.lastMarker_iff.mp hlast]
    rfl
  · intro name hno
    rw [hget, if_neg]
    intro hname
    obtain ⟨digits, rfl, hlast⟩ := Thread.rightmost?_eq_some_iff.mp hname
    exact hno digits hlast rfl

theorem marked_take (s : Scan) {w : Stamp.Written} {stamp : Stamp}
    (h : Stamp.opening? line = some w) (hw : w.check = .ok stamp) :
    ∃ e roster, s.take line = (.ok .header,
        { s with lines := s.lines + 1, entries := e :: s.entries, roster }) ∧
      Marked s line e roster :=
  ⟨_, _, s.take_block h hw, marked_of_rightmost? (Block.thread_entry _ _) rfl⟩

/-! ## All lines of a log -/

theorem threadAt_eq_some_iff {number : Nat} {name : Bytes} :
    threadAt lines number = some name ↔
      ∃ head digits, lines[number]? = some head ∧ LastMarker head digits ∧
        name = stem ++ digits := by
  rw [threadAt, Option.bind_eq_some_iff]
  constructor
  · rintro ⟨head, hhead, hname⟩
    obtain ⟨digits, rfl, hlast⟩ := Thread.rightmost?_eq_some_iff.mp hname
    exact ⟨head, digits, hhead, hlast, rfl⟩
  · rintro ⟨head, digits, hhead, hlast, rfl⟩
    exact ⟨head, hhead, Thread.lastMarker_iff.mp hlast⟩

/-- Entries are in one thread exactly when the last markers of their lines have the same digits. -/
theorem thread_eq_iff {a b : Entry} (ha : a ∈ (Scan.feed {} lines).finish.entries)
    (hb : b ∈ (Scan.feed {} lines).finish.entries) {x y : Bytes}
    (hx : threadAt lines a.line = some (stem ++ x))
    (hy : threadAt lines b.line = some (stem ++ y)) :
    a.thread = b.thread ↔ x = y := by
  have hgroup := group_eq_iff_threadAt ha hb
  rw [hx, hy] at hgroup
  rw [thread_eq ha, thread_eq hb, hx, hy, Option.map_some, Option.map_some, Option.some.injEq,
    hgroup, Option.some.injEq, List.append_cancel_left_eq]

/-- **The last marker names the thread.** When a line opens with a possible date, the marker in it
that starts furthest to the right names the thread of its entry, wherever it stands and whatever
other markers come before it; the roster takes up or looks up this name and no other, and without
any marker the entry has no thread. In a log, entries that name threads are in the same one exactly
when the digits in their markers are the same text, and the roster has all the threads that the
entries name and no others. -/
theorem last_marker_names_thread :
    (∀ (s : Scan) (line : Bytes) (w : Stamp.Written) (stamp : Stamp),
      Stamp.opening? line = some w → w.check = .ok stamp →
      ∃ e roster, s.take line = (.ok .header,
          { s with lines := s.lines + 1, entries := e :: s.entries, roster }) ∧
        Marked s line e roster) ∧
    ∀ (lines : List Bytes) (c : Contents), c = (Scan.feed {} lines).finish →
      (∀ a ∈ c.entries, ∀ b ∈ c.entries, ∀ (head other x y : Bytes),
        lines[a.line]? = some head → LastMarker head x →
        lines[b.line]? = some other → LastMarker other y → (a.thread = b.thread ↔ x = y)) ∧
      ∀ name, (c.roster.get? name).isSome ↔
        ∃ e ∈ c.entries, ∃ head digits, lines[e.line]? = some head ∧ LastMarker head digits ∧
          name = stem ++ digits := by
  refine ⟨fun s line w stamp h hw => marked_take s h hw, ?_⟩
  rintro lines c rfl
  constructor
  · intro a ha b hb head other x y hhead hx hother hy
    exact thread_eq_iff ha hb (threadAt_eq_some_iff.mpr ⟨head, x, hhead, hx, rfl⟩)
      (threadAt_eq_some_iff.mpr ⟨other, y, hother, hy, rfl⟩)
  · intro name
    show ((Scan.feed {} lines).roster.get? name).isSome ↔ _
    rw [Thread.Roster.isSome_get?_iff, mem_threads_iff]
    simp only [threadAt_eq_some_iff]

/-- A thread whose digits have the value of others, in a line with a marker before the last one, one
that the last cuts short, and one after it that has no digits. -/
theorem last_marker_names_thread_nested : ∃ old line : Bytes,
    (∃ e roster, (Scan.feed {} [old]).take line = (.ok .header,
        { Scan.feed {} [old] with
          lines := 2, entries := e :: (Scan.feed {} [old]).entries, roster }) ∧
      e.thread = some 1 ∧ roster.get? (Bytes.ofString "thread-01") = some 0 ∧
      roster.get? (Bytes.ofString "thread-7") = none) ∧
    ∃ a b, (Scan.feed {} [old, line]).finish.entries = [a, b] ∧ a.thread ≠ b.thread ∧
      ((Scan.feed {} [old, line]).finish.roster.get? (Bytes.ofString "thread-1")).isSome := by
  obtain ⟨old, line, w, stamp, hopening, hcheck, hold, hlast, hlines, hone, hzero, hseven, a, b,
      hentries, ha, hb⟩ : ∃ (old line : Bytes) (w : Stamp.Written) (stamp : Stamp),
        Stamp.opening? line = some w ∧ w.check = .ok stamp ∧
        LastMarker old (Bytes.ofString "01") ∧ LastMarker line (Bytes.ofString "1") ∧
        (Scan.feed {} [old]).lines = 1 ∧
        (Scan.feed {} [old]).roster.get? (stem ++ Bytes.ofString "1") = none ∧
        (Scan.feed {} [old]).roster.get? (Bytes.ofString "thread-01") = some 0 ∧
        (Scan.feed {} [old]).roster.get? (Bytes.ofString "thread-7") = none ∧
        ∃ a b, (Scan.feed {} [old, line]).finish.entries = [a, b] ∧
          [old, line][a.line]? = some old ∧ [old, line][b.line]? = some line :=
    ⟨Bytes.ofString "[2024-01-01 00:00:00:005] [thread-01] a\n",
      Bytes.ofString "[2024-01-01 00:00:00:003] [thread-7] [thread-01[[thread-1] [thread-] b\n",
      _, _, rfl, rfl, by decide, by decide, by decide, by decide, by decide, by decide, _, _, rfl,
      by decide, by decide⟩
  obtain ⟨hline, hlog⟩ := last_marker_names_thread
  obtain ⟨e, roster, htake, hmarked⟩ := hline (Scan.feed {} [old]) line w stamp hopening hcheck
  obtain ⟨hsame, hknown⟩ := hlog [old, line] _ rfl
  -- neither the marker before the last one nor the one that it cuts short is looked at
  have hother : ∀ name, name ≠ Bytes.ofString "thread-1" →
      roster.get? name = (Scan.feed {} [old]).roster.get? name := by
    intro name hname
    refine hmarked.get?_other name ?_
    intro digits h
    rw [h.unique hlast]
    exact hname
  rw [hentries] at hsame hknown
  refine ⟨old, line, ⟨e, roster, ?_, ?_, ?_, ?_⟩, a, b, hentries, ?_, ?_⟩
  · rw [htake, hlines]
  · refine (hmarked.some_iff 1).mpr ⟨_, hlast, ?_⟩
    rw [hone, hlines]
    rfl
  · rw [hother _ (by decide), hzero]
  · rw [hother _ (by decide), hseven]
  · intro hthread
    have hdigits := (hsame a (by simp) b (by simp) _ _ _ _ ha hold hb hlast).mp hthread
    exact absurd hdigits (by decide)
  · exact (hknown _).mpr ⟨b, by simp, line, _, hb, hlast, rfl⟩

end LogOrder.Log
