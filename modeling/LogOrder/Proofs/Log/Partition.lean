import LogOrder.Proofs.Log.Scanned
import Mathlib.Data.List.TakeWhile

/-!
# A log falls into its pieces

The stamped lines cut a log into the preamble before the first of them and one entry for each. That
can be said of the list of all lines at once, without reading them one by one; and what is reported
of each line, when they are read one by one, is its place among these pieces.

* `Layout.map_line_blocks`, `Layout.exists_drop_line`: blocks start at the stamped lines and go on
  to the next;
* `entries_feed_eq_nil_iff`: there is no entry as long as no line is stamped;
* **`contents_partition`**: what the entries and the preamble of a log are, and what is reported.
-/

namespace LogOrder.Log

namespace Layout

/-- Blocks start at the stamped lines and nowhere else. -/
theorem map_line_blocks (n : Nat) {lines : List Bytes} (hd : ∀ line ∈ lines, Stamp.Dated line) :
    (ofLines n lines).blocks.map Block.line =
      lines.findIdxs (fun line => (Stamp.opening? line).isSome) n := by
  fun_induction ofLines n lines with
  | case1 n => rfl
  | case2 n line rest after h ih =>
    rw [List.findIdxs_cons, if_neg (by rw [h]; exact Bool.false_ne_true)]
    exact ih fun l hl => hd l (List.mem_cons_of_mem _ hl)
  | case3 n line rest after w h why hw ih =>
    exact absurd (hd line List.mem_cons_self) (not_dated_of_check h hw)
  | case4 n line rest after w h stamp hw block ih =>
    rw [List.findIdxs_cons, if_pos (by rw [h]; rfl), List.map_cons,
      ih fun l hl => hd l (List.mem_cons_of_mem _ hl)]

/-- From its number on, a log is the block and what follows the next stamped line. -/
theorem exists_drop_line (n : Nat) {lines : List Bytes} (hd : ∀ line ∈ lines, Stamp.Dated line) :
    ∀ b ∈ (ofLines n lines).blocks, ∃ rest, lines.drop (b.line - n) = b.head :: rest ∧
      b.below = rest.takeWhile fun line => (Stamp.opening? line).isNone := by
  fun_induction ofLines n lines with
  | case1 n => simp
  | case2 n line rest after h ih =>
    intro b hb
    have hbounds := line_bounds (n + 1) rest b hb
    have hsucc : b.line - n = b.line - (n + 1) + 1 := by omega
    rw [hsucc, List.drop_succ_cons]
    exact ih (fun l hl => hd l (List.mem_cons_of_mem _ hl)) b hb
  | case3 n line rest after w h why hw ih =>
    exact absurd (hd line List.mem_cons_self) (not_dated_of_check h hw)
  | case4 n line rest after w h stamp hw block ih =>
    have hrest : ∀ l ∈ rest, Stamp.Dated l := fun l hl => hd l (List.mem_cons_of_mem _ hl)
    intro b hb
    rcases List.mem_cons.mp hb with rfl | hb
    · refine ⟨rest, ?_, preamble_ofLines (n + 1) hrest⟩
      show (line :: rest).drop (n - n) = _
      rw [Nat.sub_self, List.drop_zero]
    · have hbounds := line_bounds (n + 1) rest b hb
      have hsucc : b.line - n = b.line - (n + 1) + 1 := by omega
      rw [hsucc, List.drop_succ_cons]
      exact ih hrest b hb

end Layout

/-- There is no entry as long as no line is stamped. -/
theorem entries_feed_eq_nil_iff {lines : List Bytes} (hd : ∀ line ∈ lines, Stamp.Dated line) :
    (Scan.feed {} lines).entries = [] ↔ ∀ line ∈ lines, (Stamp.opening? line).isNone := by
  have hentries : (Scan.feed {} lines).entries = [] ↔ (Layout.ofLines 0 lines).blocks = [] := by
    rw [← List.reverse_eq_nil_iff]
    show (Scan.feed {} lines).finish.entries = [] ↔ _
    rw [entries_finish_feed, Layout.entries, List.map_eq_nil_iff]
  rw [hentries, ← List.map_eq_nil_iff (f := Block.line), Layout.map_line_blocks 0 hd,
    List.findIdxs_eq_nil_iff]
  simp

theorem length_lt_length_takeWhile_iff {α : Type} {p : α → Bool} {before after : List α} {x : α} :
    before.length < ((before ++ x :: after).takeWhile p).length ↔
      (∀ y ∈ before, p y) ∧ p x := by
  rw [List.takeWhile_append]
  split
  · next hall =>
    have hbefore : ∀ y ∈ before, p y :=
      List.takeWhile_eq_self_iff.mp ((List.takeWhile_prefix p).eq_of_length hall)
    cases hx : p x with
    | false => simp [hx]
    | true => simpa [hx] using hbefore
  · next hsome =>
    constructor
    · intro hlt
      have := (List.takeWhile_prefix p (l := before)).length_le
      omega
    · rintro ⟨hall, -⟩
      exact absurd (congrArg List.length (List.takeWhile_eq_self_iff.mpr hall)) hsome

/-- An element is in the front part of a list when it passes, and all before it do. -/
theorem getElem?_length_takeWhile {α : Type} {p : α → Bool} {before after : List α} {x : α} :
    ((before ++ x :: after).takeWhile p)[before.length]? =
      if (∀ y ∈ before, p y) ∧ p x then some x else none := by
  have hiff : before.length < ((before ++ x :: after).takeWhile p).length ↔ _ :=
    length_lt_length_takeWhile_iff
  split
  · next hall =>
    have hlt := hiff.mpr hall
    rw [List.getElem?_eq_getElem hlt,
      ← List.prefix_iff_getElem?.mp (List.takeWhile_prefix p) before.length hlt]
    simp
  · next hnot => exact List.getElem?_eq_none (Nat.le_of_not_lt fun hlt => hnot (hiff.mp hlt))

/-- What is reported of the line of that number in a log of these contents. -/
def Contents.placing (c : Contents) (number : Nat) : Placing :=
  match c.preamble[number]? with
  | some line => .preamble line
  | none => if number ∈ c.entries.map Entry.line then .header else .continuation

/-- The contents are the pieces into which its stamped lines cut a log. -/
structure Partitions (lines : List Bytes) (c : Contents) : Prop where
  /-- Entries start at the stamped lines and nowhere else, -/
  map_line : c.entries.map Entry.line = lines.findIdxs fun line => (Stamp.opening? line).isSome
  /-- each with the date in its stamp, and with all lines from there to the next stamped one. -/
  entry : ∀ e ∈ c.entries, ∃ head rest w, lines.drop e.line = head :: rest ∧
    Stamp.opening? head = some w ∧ w.check = .ok e.stamp ∧
    e.text = head ++ (rest.takeWhile fun line => (Stamp.opening? line).isNone).flatten
  /-- The preamble is what comes before the first of them. -/
  preamble_eq : c.preamble = lines.takeWhile fun line => (Stamp.opening? line).isNone
  preambleLines_eq : c.preambleLines = c.preamble.length
  lines_eq : c.lines = lines.length
  /-- All pieces together are all lines. -/
  flatten_eq : c.preamble.flatten ++ (c.entries.map Entry.text).flatten = lines.flatten

section Partition

variable {lines : List Bytes} {c : Contents}

theorem partitions (hc : contents lines = .ok c) : Partitions lines c := by
  obtain ⟨hd, rfl⟩ := contents_eq_ok_iff.mp hc
  have hreached := reached_feed {} lines
  refine ⟨?_, ?_, Layout.preamble_ofLines 0 hd, ?_, ?_, ?_⟩
  · rw [entries_finish_feed, Layout.entries, List.map_map, ← Layout.map_line_blocks 0 hd]
    exact List.map_congr_left fun b _ => b.line_entry _
  · intro e he
    rw [entries_finish_feed] at he
    obtain ⟨b, hb, rfl⟩ := List.mem_map.mp he
    obtain ⟨rest, hdrop, hbelow⟩ := Layout.exists_drop_line 0 hd b hb
    refine ⟨b.head, rest, b.stamp.toWritten, ?_, Layout.opening?_head 0 lines b hb, ?_, ?_⟩
    · rw [Block.line_entry]
      exact hdrop
    · rw [Block.stamp_entry]
      exact Stamp.Written.check_toWritten b.stamp
    · rw [Block.text_entry, ← hbelow]
      rfl
  · exact hreached.preambleLines_eq.trans (Nat.zero_add _)
  · exact hreached.lines_eq.trans (Nat.zero_add _)
  · show (Layout.ofLines 0 lines).preamble.flatten ++ _ = _
    rw [entries_finish_feed, map_text_entries, ← List.flatMap_def, ← flatten_flatMap_lines,
      ← List.flatten_append, Layout.lines_ofLines 0 hd]

/-- What is reported of a line is where it stands among the pieces. -/
theorem placing_take (hc : contents lines = .ok c) {before after : List Bytes} {line : Bytes}
    (h : lines = before ++ line :: after) :
    ((Scan.feed {} before).take line).1 = .ok (c.placing before.length) := by
  have hpieces := partitions hc
  obtain ⟨hd, -⟩ := contents_eq_ok_iff.mp hc
  rw [h] at hd
  have hbefore : ∀ l ∈ before, Stamp.Dated l := fun l hl => hd l (List.mem_append_left _ hl)
  have hheader : before.length ∈ c.entries.map Entry.line ↔ (Stamp.opening? line).isSome := by
    rw [hpieces.map_line, h, List.mem_findIdxs_iff_exists_getElem_pos]
    simp
  rw [Contents.placing, hpieces.preamble_eq, h, getElem?_length_takeWhile]
  cases hopening : Stamp.opening? line with
  | none =>
    rw [hopening] at hheader
    rw [Scan.take_plain _ hopening]
    show Except.ok (if (Scan.feed {} before).entries = [] then Placing.preamble line else _) = _
    by_cases hfirst : ∀ l ∈ before, (Stamp.opening? l).isNone
    · rw [if_pos ((entries_feed_eq_nil_iff hbefore).mpr hfirst), if_pos ⟨hfirst, rfl⟩]
    · rw [if_neg fun hnil => hfirst ((entries_feed_eq_nil_iff hbefore).mp hnil),
        if_neg fun hall => hfirst hall.1]
      dsimp only
      rw [if_neg fun hmem => Bool.false_ne_true (hheader.mp hmem)]
  | some w =>
    rw [hopening] at hheader
    have hpossible : w.Possible := hd line (List.mem_append_right _ List.mem_cons_self) w hopening
    rw [Scan.take_block _ hopening (Stamp.Written.check_of_possible hpossible),
      if_neg fun hall => Bool.false_ne_true hall.2]
    dsimp only
    rw [if_pos (hheader.mpr rfl)]

/-- What is handed back is the line, and it is the line of that number in the preamble. -/
theorem of_placing_eq_preamble (hc : contents lines = .ok c) {before after : List Bytes}
    {line text : Bytes} (h : lines = before ++ line :: after)
    (hplace : c.placing before.length = .preamble text) :
    text = line ∧ c.preamble[before.length]? = some line := by
  rw [Contents.placing, (partitions hc).preamble_eq, h, getElem?_length_takeWhile] at hplace
  rw [(partitions hc).preamble_eq, h, getElem?_length_takeWhile]
  split at hplace
  · next back hback =>
    cases hplace
    obtain ⟨hall, hsame⟩ := Option.ite_none_right_eq_some.mp hback
    exact ⟨(Option.some.inj hsame).symm, if_pos hall⟩
  · split at hplace <;> cases hplace

/-- **A log falls into its pieces.** Any lines that can be read, whatever newlines are in them, are
the preamble before the first stamped line and the entries that the stamped lines start: each has
the number and the date of its stamped line, and all lines up to the next one. Read one by one, each
line is reported as what it is among these pieces, and the lines handed back as preamble are those
of the preamble, in order. -/
theorem contents_partition (hc : contents lines = .ok c) :
    Partitions lines c ∧
    ∀ before line after, lines = before ++ line :: after →
      ((Scan.feed {} before).take line).1 = .ok (c.placing before.length) ∧
      ∀ text, c.placing before.length = .preamble text →
        text = line ∧ c.preamble[before.length]? = some line :=
  ⟨partitions hc, fun _ _ _ h => ⟨placing_take hc h, fun _ => of_placing_eq_preamble hc h⟩⟩

/-- Lines with a newline inside, with none at all and with nothing in them. -/
theorem contents_partition_uncut : ∃ (lines : List Bytes) (c : Contents),
    contents lines = .ok c ∧ Partitions lines c ∧
    c.entries.map Entry.line = [1, 4] ∧
    c.entries.map (fun e => (Line.cut e.text).length) = [3, 1] ∧
    ((Scan.feed {} (lines.take 2)).take (lines.getD 2 [])).1 = .ok .continuation := by
  obtain ⟨lines, c, hc, hlines, hcounts, hsplit, hplace⟩ : ∃ (lines : List Bytes) (c : Contents),
      contents lines = .ok c ∧ c.entries.map Entry.line = [1, 4] ∧
      c.entries.map (fun e => (Line.cut e.text).length) = [3, 1] ∧
      lines = lines.take 2 ++ lines.getD 2 [] :: lines.drop 3 ∧
      c.placing (lines.take 2).length = .continuation :=
    ⟨[Bytes.ofString "started", Bytes.ofString "[2024-01-01 00:00:00:005] b\n[thread-1] c\nd",
      Bytes.ofString "e\n", [], Bytes.ofString "[2024-01-01 00:00:00:001] a"],
      _, rfl, by decide, by decide, by decide, by decide⟩
  obtain ⟨hpieces, hreport⟩ := contents_partition hc
  refine ⟨lines, c, hc, hpieces, hlines, hcounts, ?_⟩
  rw [(hreport _ _ _ hsplit).1, hplace]

end Partition

end LogOrder.Log
