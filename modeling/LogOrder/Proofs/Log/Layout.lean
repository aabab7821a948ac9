import LogOrder.Log.Scan
import LogOrder.Proofs.Thread.Rightmost
import Mathlib.Data.List.Nodup

/-!
# The layout of a log

What a log consists of, said of the whole list of its lines: a *preamble* of unstamped lines, and
*blocks*, each a stamped line with the unstamped lines under it. `Scan.take` finds the same pieces
one line after the other; here nothing is kept from line to line.

* `splits_ofLines`: preamble and blocks are all the lines, in order;
* `pairwise_line` and `line_bounds`: blocks have the numbers of their stamped lines;
* `getElem?_line`, `line_eq` and `stop_add_length`: where a block stands among the lines.
-/

namespace LogOrder

instance (w : Stamp.Written) : Decidable w.Possible :=
  decidable_of_iff (1 ≤ w.year.val ∧ (1 ≤ w.month.val ∧ w.month.val ≤ 12) ∧
      (1 ≤ w.day.val ∧ w.day.val ≤ Calendar.monthLength w.year.val w.month.val) ∧
      w.hour.val ≤ 23 ∧ w.minute.val ≤ 59 ∧ w.second.val ≤ 59)
    ⟨fun ⟨hy, hm, hd, hh, hi, hs⟩ => ⟨hy, hm, hd, hh, hi, hs⟩,
      fun ⟨hy, hm, hd, hh, hi, hs⟩ => ⟨hy, hm, hd, hh, hi, hs⟩⟩

/-- The line does not open with a stamp, or the stamp is a possible date. -/
def Stamp.Dated (line : Bytes) : Prop := ∀ w ∈ Stamp.opening? line, w.Possible

instance : DecidablePred Stamp.Dated :=
  fun line => inferInstanceAs (Decidable (∀ w ∈ Stamp.opening? line, w.Possible))

theorem Stamp.Written.check_of_possible {w : Stamp.Written} (h : w.Possible) :
    w.check = .ok { toWritten := w, possible := h } :=
  Stamp.Written.check_toWritten { toWritten := w, possible := h }

namespace Log

/-- A stamped line and the unstamped lines under it. -/
structure Block where
  /-- The number of the stamped line. -/
  line : Nat
  /-- What its stamp says. -/
  stamp : Stamp
  /-- The stamped line. -/
  head : Bytes
  /-- The lines under it. -/
  below : List Bytes
deriving DecidableEq

namespace Block

/-- All lines of the block. -/
def lines (b : Block) : List Bytes := b.head :: b.below

/-- The bytes of the block. -/
def text (b : Block) : Bytes := b.lines.flatten

/-- The number of the line after the block. -/
def stop (b : Block) : Nat := b.line + b.lines.length

/-- The thread of the block: that of the rightmost marker in its stamped line. -/
def name? (b : Block) : Option Bytes := Thread.rightmost? b.head

end Block

theorem flatten_flatMap_lines (blocks : List Block) :
    (blocks.flatMap Block.lines).flatten = blocks.flatMap Block.text := by
  induction blocks with
  | nil => rfl
  | cons b blocks ih =>
    rw [List.flatMap_cons, List.flatten_append, ih]
    rfl

/-- A log taken apart. -/
structure Layout where
  /-- The lines before the first block. -/
  preamble : List Bytes
  /-- The blocks, as they follow each other. -/
  blocks : List Block

namespace Layout

/-- The layout of lines of which the first has the number `n`. Unstamped lines belong to the block
above them, and a line whose stamp is no date belongs to nothing. -/
def ofLines (n : Nat) : List Bytes → Layout
  | [] => { preamble := [], blocks := [] }
  | line :: rest =>
    let after := ofLines (n + 1) rest
    match Stamp.opening? line with
    | none => { after with preamble := line :: after.preamble }
    | some w =>
      match w.check with
      | .error _ => after
      | .ok stamp =>
        let block := { line := n, stamp, head := line, below := after.preamble }
        { preamble := [], blocks := block :: after.blocks }

/-- Numbers are counted from the first line on and end with the last. -/
theorem line_bounds (n : Nat) (lines : List Bytes) :
    ∀ b ∈ (ofLines n lines).blocks, n ≤ b.line ∧ b.line < n + lines.length := by
  fun_induction ofLines n lines with
  | case1 n =>
    intro b hb
    exact absurd hb List.not_mem_nil
  | case2 n line rest after h ih =>
    intro b hb
    have := ih b hb
    rw [List.length_cons]
    omega
  | case3 n line rest after w h why hw ih =>
    intro b hb
    have := ih b hb
    rw [List.length_cons]
    omega
  | case4 n line rest after w h stamp hw block ih =>
    intro b hb
    rw [List.length_cons]
    rcases List.mem_cons.mp hb with rfl | hb
    · show n ≤ n ∧ n < n + (rest.length + 1)
      omega
    · have := ih b hb
      omega

/-- Later blocks have greater numbers. -/
theorem pairwise_line (n : Nat) (lines : List Bytes) :
    (ofLines n lines).blocks.Pairwise fun a b => a.line < b.line := by
  fun_induction ofLines n lines with
  | case1 n => exact List.Pairwise.nil
  | case2 n line rest after h ih => exact ih
  | case3 n line rest after w h why hw ih => exact ih
  | case4 n line rest after w h stamp hw block ih =>
    exact List.Pairwise.cons (fun b hb => (line_bounds (n + 1) rest b hb).1) ih

theorem nodup_line (n : Nat) (lines : List Bytes) :
    ((ofLines n lines).blocks.map Block.line).Nodup := by
  rw [List.Nodup, List.pairwise_map]
  exact (pairwise_line n lines).imp Nat.ne_of_lt

/-- A block is told from the others by its number. -/
theorem eq_of_line_eq {n : Nat} {lines : List Bytes} {a b : Block}
    (ha : a ∈ (ofLines n lines).blocks) (hb : b ∈ (ofLines n lines).blocks)
    (h : a.line = b.line) : a = b :=
  List.inj_on_of_nodup_map (nodup_line n lines) ha hb h

/-- A stamped line whose stamp is checked in vain is not dated. -/
theorem not_dated_of_check {line : Bytes} {w : Stamp.Written} {why : Stamp.DateFault}
    (h : Stamp.opening? line = some w) (hw : w.check = .error why) : ¬Stamp.Dated line := by
  intro hd
  rw [Stamp.Written.check_of_possible (hd w h)] at hw
  cases hw

/-- The layout takes the lines apart in front of each stamped line, and only there. -/
structure Splits (layout : Layout) (lines : List Bytes) : Prop where
  /-- Preamble and blocks are all the lines, in order. -/
  lines_eq : layout.preamble ++ layout.blocks.flatMap Block.lines = lines
  /-- The preamble has no stamped line. -/
  opening?_preamble : ∀ line ∈ layout.preamble, Stamp.opening? line = none
  /-- Each block starts with a stamped line. -/
  opening?_head : ∀ b ∈ layout.blocks, Stamp.opening? b.head = some b.stamp.toWritten
  /-- No block has another one. -/
  opening?_below : ∀ b ∈ layout.blocks, ∀ line ∈ b.below, Stamp.opening? line = none

/-- Without lines to skip, preamble and blocks are all the lines, in order. -/
theorem lines_ofLines (n : Nat) {lines : List Bytes} (hd : ∀ line ∈ lines, Stamp.Dated line) :
    (ofLines n lines).preamble ++ (ofLines n lines).blocks.flatMap Block.lines = lines := by
  fun_induction ofLines n lines with
  | case1 n => rfl
  | case2 n line rest after h ih =>
    rw [List.cons_append, ih fun l hl => hd l (List.mem_cons_of_mem _ hl)]
  | case3 n line rest after w h why hw ih =>
    exact absurd (hd line List.mem_cons_self) (not_dated_of_check h hw)
  | case4 n line rest after w h stamp hw block ih =>
    rw [List.flatMap_cons, List.nil_append, Block.lines, List.cons_append,
      ih fun l hl => hd l (List.mem_cons_of_mem _ hl)]

/-- The preamble is what comes before the first stamped line. -/
theorem preamble_ofLines (n : Nat) {lines : List Bytes}
    (hd : ∀ line ∈ lines, Stamp.Dated line) :
    (ofLines n lines).preamble = lines.takeWhile fun line => (Stamp.opening? line).isNone := by
  fun_induction ofLines n lines with
  | case1 n => rfl
  | case2 n line rest after h ih =>
    rw [List.takeWhile_cons_of_pos (by rw [h]; rfl),
      ← ih fun l hl => hd l (List.mem_cons_of_mem _ hl)]
  | case3 n line rest after w h why hw ih =>
    exact absurd (hd line List.mem_cons_self) (not_dated_of_check h hw)
  | case4 n line rest after w h stamp hw block ih =>
    rw [List.takeWhile_cons_of_neg (by rw [h]; exact Bool.false_ne_true)]

theorem opening?_preamble (n : Nat) (lines : List Bytes) :
    ∀ line ∈ (ofLines n lines).preamble, Stamp.opening? line = none := by
  fun_induction ofLines n lines with
  | case1 n => simp
  | case2 n line rest after h ih => exact List.forall_mem_cons.mpr ⟨h, ih⟩
  | case3 n line rest after w h why hw ih => exact ih
  | case4 n line rest after w h stamp hw block ih => simp

theorem opening?_head (n : Nat) (lines : List Bytes) :
    ∀ b ∈ (ofLines n lines).blocks, Stamp.opening? b.head = some b.stamp.toWritten := by
  fun_induction ofLines n lines with
  | case1 n => simp
  | case2 n line rest after h ih => exact ih
  | case3 n line rest after w h why hw ih => exact ih
  | case4 n line rest after w h stamp hw block ih =>
    refine List.forall_mem_cons.mpr ⟨?_, ih⟩
    rw [h, Stamp.Written.toWritten_of_check hw]

theorem opening?_below (n : Nat) (lines : List Bytes) :
    ∀ b ∈ (ofLines n lines).blocks, ∀ line ∈ b.below, Stamp.opening? line = none := by
  fun_induction ofLines n lines with
  | case1 n => simp
  | case2 n line rest after h ih => exact ih
  | case3 n line rest after w h why hw ih => exact ih
  | case4 n line rest after w h stamp hw block ih =>
    -- what follows the stamped line is the preamble of the rest
    exact List.forall_mem_cons.mpr ⟨opening?_preamble (n + 1) rest, ih⟩

theorem splits_ofLines (n : Nat) {lines : List Bytes} (hd : ∀ line ∈ lines, Stamp.Dated line) :
    (ofLines n lines).Splits lines :=
  ⟨lines_ofLines n hd, opening?_preamble n lines, opening?_head n lines, opening?_below n lines⟩

/-- The number of a block is that of its stamped line. -/
theorem getElem?_line (n : Nat) (lines : List Bytes) :
    ∀ b ∈ (ofLines n lines).blocks, lines[b.line - n]? = some b.head := by
  have hlater : ∀ (n : Nat) (line : Bytes) (rest : List Bytes),
      (∀ b ∈ (ofLines (n + 1) rest).blocks, rest[b.line - (n + 1)]? = some b.head) →
      ∀ b ∈ (ofLines (n + 1) rest).blocks, (line :: rest)[b.line - n]? = some b.head := by
    intro n line rest ih b hb
    have hbounds := line_bounds (n + 1) rest b hb
    have hsucc : b.line - n = (b.line - (n + 1)) + 1 := by omega
    rw [hsucc, List.getElem?_cons_succ]
    exact ih b hb
  fun_induction ofLines n lines with
  | case1 n => simp
  | case2 n line rest after h ih => exact hlater n line rest ih
  | case3 n line rest after w h why hw ih => exact hlater n line rest ih
  | case4 n line rest after w h stamp hw block ih =>
    refine List.forall_mem_cons.mpr ⟨?_, hlater n line rest ih⟩
    show (line :: rest)[n - n]? = some line
    rw [Nat.sub_self, List.getElem?_cons_zero]

/-- As many lines stand before a block as its number says. -/
theorem line_eq (n : Nat) {lines : List Bytes} (hd : ∀ line ∈ lines, Stamp.Dated line)
    {before after : List Block} {b : Block}
    (h : (ofLines n lines).blocks = before ++ b :: after) :
    b.line = n + ((ofLines n lines).preamble.length + (before.flatMap Block.lines).length) := by
  fun_induction ofLines n lines generalizing before with
  | case1 n => cases before <;> cases h
  | case2 n line rest later hline ih =>
    rw [ih (fun l hl => hd l (List.mem_cons_of_mem _ hl)) h]
    show _ = n + ((ofLines (n + 1) rest).preamble.length + 1 + _)
    omega
  | case3 n line rest later w hline why hw ih =>
    exact absurd (hd line List.mem_cons_self) (not_dated_of_check hline hw)
  | case4 n line rest later w hline stamp hw block =>
    rename_i ih
    cases before with
    | nil =>
      obtain ⟨rfl, -⟩ := List.cons.inj h
      rfl
    | cons first before =>
      -- the lines of the first block are its own and those between it and the next
      obtain ⟨rfl, htail⟩ := List.cons.inj h
      rw [ih (fun l hl => hd l (List.mem_cons_of_mem _ hl)) htail, List.flatMap_cons,
        List.length_append]
      show _ = n + (0 + ((ofLines (n + 1) rest).preamble.length + 1 + _))
      omega

/-- What follows a block are the lines of the blocks after it. -/
theorem stop_add_length (n : Nat) {lines : List Bytes} (hd : ∀ line ∈ lines, Stamp.Dated line)
    {before after : List Block} {b : Block}
    (h : (ofLines n lines).blocks = before ++ b :: after) :
    b.stop + (after.flatMap Block.lines).length = n + lines.length := by
  have hlength := congrArg List.length (splits_ofLines n hd).lines_eq
  rw [h, List.flatMap_append, List.flatMap_cons, List.length_append, List.length_append,
    List.length_append] at hlength
  rw [Block.stop, line_eq n hd h]
  omega

end Layout

end Log

end LogOrder
