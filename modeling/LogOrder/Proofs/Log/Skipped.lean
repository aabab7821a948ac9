import LogOrder.Proofs.Log.Scanned
import Mathlib.Data.List.Basic

/-!
# Lines that cannot be read

A line whose stamp is no date is counted and leaves nothing else behind: no entry, no thread and no
line of preamble. So a scan that meets such lines finds what it would find without them, only that
all its line numbers are those of the whole log.

* `renumber`, for all that holds line numbers, gives other numbers to the same lines;
* `Scan.take_renumber`: one line read under other numbers; `Scan.take_of_not_dated`: one line that
  cannot be read;
* `Scan.feed_renumber`: any number of lines, against those of them that can be read;
* **`feed_readable`**: what a scan finds, and what it finds in the lines that it can read.
-/

namespace LogOrder

/-! ## Other numbers for the same lines -/

section Renumber

variable (f : Nat → Nat)

/-- The key with other numbers for the lines. -/
def Key.renumber (k : Key) : Key :=
  { k with thread := k.thread.map f, line := f k.line, group := f k.group }

/-- The entry with other numbers for the lines. -/
def Entry.renumber (e : Entry) : Entry :=
  { e with line := f e.line, thread := e.thread.map f, unmarked := f e.unmarked }

theorem Entry.key_renumber (e : Entry) : (e.renumber f).key = e.key.renumber f := by
  cases h : e.thread <;> simp [Entry.renumber, Entry.key, Key.renumber, h]

namespace Thread.Roster

/-- The roster with other numbers for the lines. -/
def renumber (r : Roster) : Roster :=
  { threads := r.threads.map fun (name, first) => (name, f first), unmarked := r.unmarked.map f }

theorem get?_renumber (r : Roster) (name : Bytes) :
    (r.renumber f).get? name = (r.get? name).map f := by
  rw [get?, get?, renumber]
  induction r.threads with
  | nil => rfl
  | cons thread rest ih =>
    obtain ⟨known, first⟩ := thread
    simp only [List.map_cons, List.lookup_cons]
    cases name == known with
    | true => rfl
    | false => exact ih

theorem enroll_renumber (r : Roster) (name : Bytes) (line : Nat) :
    (r.renumber f).enroll name (f line) =
      (f (r.enroll name line).1, (r.enroll name line).2.renumber f) := by
  unfold enroll
  rw [get?_renumber]
  cases r.get? name <;> rfl

theorem enrollUnmarked_renumber (r : Roster) (line : Nat) :
    (r.renumber f).enrollUnmarked (f line) =
      (f (r.enrollUnmarked line).1, (r.enrollUnmarked line).2.renumber f) := by
  obtain ⟨threads, unmarked⟩ := r
  cases unmarked <;> rfl

end Thread.Roster

end Renumber

namespace Log

/-- The contents with other numbers for the lines. -/
def Contents.renumber (f : Nat → Nat) (c : Contents) : Contents :=
  { c with entries := c.entries.map (Entry.renumber f), roster := c.roster.renumber f }

namespace Scan

/-- The scan with other numbers for the lines so far, when the next one has the number `next`. -/
def renumber (f : Nat → Nat) (next : Nat) (s : Scan) : Scan :=
  { lines := next
    preambleLines := s.preambleLines
    entries := s.entries.map (Entry.renumber f)
    roster := s.roster.renumber f }

variable {f : Nat → Nat} {next : Nat} {s t : Scan} {line : Bytes}

theorem takePlain_renumber (f : Nat → Nat) (next : Nat) (s : Scan) (line : Bytes) :
    (s.renumber f next).takePlain line =
      ((s.takePlain line).1, (s.takePlain line).2.renumber f next) := by
  unfold takePlain
  cases hs : s.entries with
  | nil => simp [renumber, hs]
  | cons latest closed => simp [renumber, hs, Entry.renumber, Entry.addLine]

theorem takeStamped_renumber (f : Nat → Nat) (next : Nat) (s : Scan) (number : Nat) (stamp : Stamp)
    (line : Bytes) : (s.renumber f next).takeStamped (f number) stamp line =
      (s.takeStamped number stamp line).renumber f next := by
  unfold takeStamped
  cases Thread.name? line with
  | some name => simp [renumber, Entry.renumber, Thread.Roster.enroll_renumber]
  | none => simp [renumber, Entry.renumber, Thread.Roster.enrollUnmarked_renumber]

/-- A line that can be read is read alike under other numbers, if the next one is its own. -/
theorem take_renumber (hnext : f s.lines = next) (hd : Stamp.Dated line) :
    (s.renumber f next).take line = ((s.take line).1, (s.take line).2.renumber f (next + 1)) := by
  subst hnext
  cases hopening : Stamp.opening? line with
  | none =>
    have hplain := takePlain_renumber f (f s.lines + 1) { s with lines := s.lines + 1 } line
    simp only [take, hopening]
    exact congrArg (fun r : Placing × Scan => (Except.ok r.1, r.2)) hplain
  | some w =>
    have hcheck := Stamp.Written.check_of_possible (hd w hopening)
    have hstamped := takeStamped_renumber f (f s.lines + 1) { s with lines := s.lines + 1 } s.lines
      { toWritten := w, possible := hd w hopening } line
    simp only [take, hopening, hcheck]
    exact congrArg (Prod.mk (Except.ok Placing.header)) hstamped

/-- A line that cannot be read is reported with its number, and takes one number more. -/
theorem take_of_not_dated (s : Scan) (hd : ¬Stamp.Dated line) :
    ∃ bad : BadStamp, bad.line = s.lines ∧
      s.take line = (.error bad, { s with lines := s.lines + 1 }) := by
  simp only [Stamp.Dated, not_forall] at hd
  obtain ⟨w, hopening, himpossible⟩ := hd
  cases hcheck : w.check with
  | error why => exact ⟨_, rfl, s.take_skip hopening hcheck⟩
  | ok stamp =>
    rw [← Stamp.Written.toWritten_of_check hcheck] at himpossible
    exact absurd stamp.possible himpossible

/-- Whether a line can be read does not depend on the lines before it. -/
theorem isOk_take (s : Scan) (line : Bytes) : (s.take line).1.isOk = decide (Stamp.Dated line) := by
  by_cases hd : Stamp.Dated line
  · rw [decide_eq_true hd]
    cases hopening : Stamp.opening? line with
    | none =>
      rw [s.take_plain hopening]
      rfl
    | some w =>
      rw [s.take_block hopening (Stamp.Written.check_of_possible (hd w hopening))]
      rfl
  · obtain ⟨bad, -, hskip⟩ := s.take_of_not_dated hd
    rw [decide_eq_false hd, hskip]
    rfl

end Scan

/-! ## Any number of lines -/

/-- The lines without an impossible date, with their numbers, of which the first is `n`. -/
def datedFrom (n : Nat) (lines : List Bytes) : List (Bytes × Nat) :=
  (lines.zipIdx n).filter fun p => Stamp.Dated p.1

section Readable

variable {n : Nat} {line : Bytes} {rest lines : List Bytes}

theorem datedFrom_cons_of_dated (h : Stamp.Dated line) :
    datedFrom n (line :: rest) = (line, n) :: datedFrom (n + 1) rest :=
  List.filter_cons_of_pos (decide_eq_true h)

theorem datedFrom_cons_of_not_dated (h : ¬Stamp.Dated line) :
    datedFrom n (line :: rest) = datedFrom (n + 1) rest :=
  List.filter_cons_of_neg fun hd => h (of_decide_eq_true hd)

/-- Lines are read alike under other numbers, if those that can be read have these numbers. -/
theorem Scan.feed_renumber {f : Nat → Nat} {s : Scan}
    (hf : ∀ k p, (datedFrom n lines)[k]? = some p → f (s.lines + k) = p.2) :
    (s.renumber f n).feed lines =
      (s.feed ((datedFrom n lines).map Prod.fst)).renumber f (n + lines.length) := by
  induction lines generalizing s n with
  | nil => rfl
  | cons line rest ih =>
    have hcount : n + (line :: rest).length = n + 1 + rest.length := by
      rw [List.length_cons]
      omega
    rw [feed_cons, hcount]
    by_cases hd : Stamp.Dated line
    · rw [datedFrom_cons_of_dated hd] at hf ⊢
      have hnext : f s.lines = n := hf 0 (line, n) rfl
      rw [take_renumber hnext hd, List.map_cons, feed_cons]
      refine ih ?_
      intro k p hk
      rw [lines_take, Nat.add_right_comm]
      exact hf (k + 1) p hk
    · -- the run over the readable lines stands still
      obtain ⟨bad, -, hskip⟩ := (s.renumber f n).take_of_not_dated hd
      rw [datedFrom_cons_of_not_dated hd] at hf ⊢
      rw [hskip]
      exact ih hf

/-- The lines that can be read where they stand, each with its number. -/
def readable (lines : List Bytes) : List (Bytes × Nat) :=
  lines.zipIdx.filter fun p => ((Scan.feed {} (lines.take p.2)).take p.1).1.isOk

/-- The number that the `k`-th of the lines that can be read has among all lines. -/
def readableNumber (lines : List Bytes) (k : Nat) : Nat := ((readable lines).map Prod.snd).getD k 0

theorem readable_eq (lines : List Bytes) : readable lines = datedFrom 0 lines :=
  List.filter_congr fun _ _ => Scan.isOk_take _ _

/-- Lines that can be read can be read without the others. -/
theorem readable_map_fst (lines : List Bytes) :
    readable ((readable lines).map Prod.fst) = ((readable lines).map Prod.fst).zipIdx := by
  rw [readable_eq, readable_eq, datedFrom, List.filter_eq_self]
  intro p hp
  obtain ⟨q, hq, hline⟩ := List.mem_map.mp (List.fst_mem_of_mem_zipIdx hp)
  rw [← hline]
  exact (List.mem_filter.mp hq).2

theorem Scan.finish_renumber (f : Nat → Nat) (n : Nat) (s : Scan) :
    (s.renumber f n).finish = { s.finish.renumber f with lines := n } := by
  simp [finish, renumber, Contents.renumber]

theorem finish_feed_readable (lines : List Bytes) : (Scan.feed {} lines).finish =
    { (Scan.feed {} ((readable lines).map Prod.fst)).finish.renumber (readableNumber lines) with
      lines := lines.length } := by
  have hnumber : ∀ k p, (datedFrom 0 lines)[k]? = some p →
      readableNumber lines (({} : Scan).lines + k) = p.2 := by
    intro k p hk
    show readableNumber lines (0 + k) = p.2
    simp [readableNumber, readable_eq, hk]
  have hfeed := Scan.feed_renumber hnumber
  rw [← readable_eq, Nat.zero_add] at hfeed
  rw [← Scan.finish_renumber, ← hfeed]
  rfl

/-- **A line that cannot be read leaves its number and no more.** Whatever has been read before it,
such a line is reported with its number and is counted; entries, threads and preamble stay as they
are. The lines that can be read could be read without the others, and after any lines the scan has
found what it finds in these alone, preamble and texts and threads, except that all lines are
counted and that every number of a line, also the one that stands for a group, is the number which
the line has among all of them. -/
theorem feed_readable (lines : List Bytes) :
    (∀ (s t : Scan) (line : Bytes) (bad : BadStamp), s.take line = (.error bad, t) →
      bad.line = s.lines ∧ t = { s with lines := s.lines + 1 }) ∧
    readable ((readable lines).map Prod.fst) = ((readable lines).map Prod.fst).zipIdx ∧
    (Scan.feed {} lines).finish =
      { (Scan.feed {} ((readable lines).map Prod.fst)).finish.renumber (readableNumber lines) with
        lines := lines.length } ∧
    (Scan.feed {} lines).finish.entries.map Entry.key =
      (Scan.feed {} ((readable lines).map Prod.fst)).finish.entries.map fun e =>
        e.key.renumber (readableNumber lines) := by
  refine ⟨?_, readable_map_fst lines, finish_feed_readable lines, ?_⟩
  · intro s t line bad h
    have hd : ¬Stamp.Dated line := by
      intro hd
      have hok := s.isOk_take line
      rw [h, decide_eq_true hd] at hok
      cases hok
    obtain ⟨bad', hline, hskip⟩ := s.take_of_not_dated hd
    obtain ⟨hbad, rfl⟩ := Prod.mk.inj (h.symm.trans hskip)
    obtain rfl := Except.error.inj hbad
    exact ⟨hline, rfl⟩
  · rw [finish_feed_readable, Contents.renumber, List.map_map]
    exact List.map_congr_left fun e _ => e.key_renumber _

/-- Lines that cannot be read before the first entry, and on the first sight of a thread between an
entry and the lines under it. -/
theorem feed_readable_between : ∃ (lines : List Bytes) (bad : BadStamp) (t : Scan),
    (readable lines).map Prod.snd = [1, 2, 4, 5] ∧
    (Scan.feed {} (lines.take 3)).take (lines.getD 3 []) = (.error bad, t) ∧ bad.line = 3 ∧
    t = { Scan.feed {} (lines.take 3) with lines := 4 } ∧
    (Scan.feed {} ((readable lines).map Prod.fst)).finish.entries.map Entry.line = [1, 3] ∧
    (Scan.feed {} lines).finish.entries.map Entry.line = [2, 5] := by
  obtain ⟨lines, bad, t, hreadable, htake, hcount, hlines⟩ : ∃ (lines : List Bytes)
      (bad : BadStamp) (t : Scan), (readable lines).map Prod.snd = [1, 2, 4, 5] ∧
      (Scan.feed {} (lines.take 3)).take (lines.getD 3 []) = (.error bad, t) ∧
      (Scan.feed {} (lines.take 3)).lines = 3 ∧
      (Scan.feed {} ((readable lines).map Prod.fst)).finish.entries.map Entry.line = [1, 3] :=
    ⟨[Bytes.ofString "[2024-13-01 00:00:00:000] [thread-9] x\n", Bytes.ofString "started\n",
      Bytes.ofString "[2024-01-01 00:00:00:005] [thread-1] b\n",
      Bytes.ofString "[2024-02-30 00:00:00:000] [thread-2] y\n", Bytes.ofString "  more\n",
      Bytes.ofString "[2024-01-01 00:00:00:001] [thread-2] a\n"],
      _, _, by decide, rfl, by decide, by decide⟩
  obtain ⟨hskip, -, -, hkeys⟩ := feed_readable lines
  obtain ⟨hline, hnext⟩ := hskip _ _ _ _ htake
  rw [hcount] at hline hnext
  refine ⟨lines, bad, t, hreadable, htake, hline, hnext, hlines, ?_⟩
  calc (Scan.feed {} lines).finish.entries.map Entry.line
      = ((Scan.feed {} lines).finish.entries.map Entry.key).map Key.line := by
        rw [List.map_map]
        rfl
    _ = ((Scan.feed {} ((readable lines).map Prod.fst)).finish.entries.map Entry.line).map
          (readableNumber lines) := by
        rw [hkeys, List.map_map, List.map_map]
        rfl
    _ = [2, 5] := by
        rw [hlines]
        simp [readableNumber, hreadable]

end Readable

end Log

end LogOrder
