import LogOrder.Toml.Document
import Mathlib.Algebra.Group.Nat.Defs

/-!
# Texts written with escapes

Any text at all can be written in double quotes, with an escape for each of its characters. What is
read there is the text again.

* `quoted` writes a text in double quotes, in ASCII whatever the text is (`lt_of_mem_quoted`);
* `Reads` says what a repeated reader reads on the way from one place to another;
* `run_basicText` reads the text back, and `run_value` reads it as a value.
-/

namespace LogOrder.Toml

open Reader

/-! ## Writing -/

/-- The hexadecimal digit of a number below sixteen. -/
def hexDigit (d : Nat) : UInt8 := .ofNat (if d < 10 then 48 + d else 87 + d)

/-- The last `k` hexadecimal digits of a number. -/
def hexDigits : (k : Nat) → Nat → Bytes
  | 0, _ => []
  | k + 1, v => hexDigits k (v / 16) ++ [hexDigit (v % 16)]

/-- The escape for a character. -/
def escape (c : Char) : Bytes := 0x5c :: 0x55 :: hexDigits 8 c.toNat

/-- A text in double quotes, with an escape for each character. -/
def quoted (s : String) : Bytes := 0x22 :: (s.toList.flatMap escape ++ [0x22])

/-! ## Reading one thing after the other -/

theorem run_bind_of_eq_some {α β : Type} {r : Reader α} {f : α → Reader β} {c d : Cursor} {a : α}
    (h : r.run c = some (a, d)) : (r >>= f).run c = (f a).run d := by
  rw [StateT.run_bind, h]
  rfl

/-- The reader reads one value after the other on the way from one place to the other. -/
inductive Reads {α : Type} (item : Reader (Option α)) : Cursor → List α → Cursor → Prop
  | nil {c : Cursor} : Reads item c [] c
  | cons {c d e : Cursor} {a : α} {as : List α} (hhead : item.run c = some (some a, d))
      (htail : Reads item d as e) : Reads item c (a :: as) e

section Lists

variable {α : Type} {item : Reader (Option α)} {c d e : Cursor} {as : List α}

/-- A repeated reader goes on up to where it answers nothing. -/
theorem Reads.run_upTo (h : Reads item c as d) (hstop : item.run d = some (none, e)) {count : Nat}
    (hcount : as.length < count) : (upTo item count).run c = some (as, e) := by
  induction h generalizing count with
  | nil =>
    obtain ⟨count, rfl⟩ := Nat.exists_eq_add_of_lt hcount
    rw [upTo, run_bind_of_eq_some hstop]
    rfl
  | cons hhead htail ih =>
    cases count with
    | zero => cases hcount
    | succ count =>
      have hrest := ih hstop (Nat.lt_of_succ_lt_succ hcount)
      rw [upTo, run_bind_of_eq_some hhead, run_bind_of_eq_some hrest]
      rfl

theorem Reads.run_many (h : Reads item c as d) (hstop : item.run d = some (none, e))
    (hlength : as.length ≤ c.rest.length) : (many item).run c = some (as, e) :=
  h.run_upTo hstop (Nat.lt_succ_of_le hlength)

end Lists

/-! ## Reading back -/

section Escapes

variable {offset : Nat} {rest : Bytes} {k v : Nat}

theorem hexDigit?_hexDigit : ∀ d < 16, hexDigit? (hexDigit d) = some d := by decide

theorem length_hexDigits (k v : Nat) : (hexDigits k v).length = k := by
  induction k generalizing v with
  | zero => rfl
  | succ k ih => rw [hexDigits, List.length_append, ih, List.length_singleton]

/-- Digits that are enough for the number give it back. -/
theorem hexNumber?_hexDigits (h : v < 16 ^ k) : hexNumber? (hexDigits k v) = some v := by
  induction k generalizing v with
  | zero =>
    obtain rfl : v = 0 := by simpa using h
    rfl
  | succ k ih =>
    -- the last digit is the remainder, and all before it write the quotient
    have hhigh : v / 16 < 16 ^ k := by omega
    have hlow : v % 16 < 16 := Nat.mod_lt _ (by decide)
    have hdigits := ih hhigh
    rw [hexNumber?] at hdigits ⊢
    rw [hexDigits, List.foldlM_append, hdigits]
    simp [hexDigit?_hexDigit _ hlow, Nat.div_add_mod]

theorem run_bytes (bs : Bytes) : (bytes bs.length).run { offset, rest := bs ++ rest } =
    some (bs, { offset := offset + bs.length, rest }) := by
  rw [bytes, StateT.run_modifyGet, List.take_left, List.drop_left]
  rfl

theorem toNat_lt (c : Char) : c.toNat < 16 ^ 8 := UInt32.toNat_lt c.val

theorem length_escape (c : Char) : (escape c).length = 10 := by
  rw [escape, List.length_cons, List.length_cons, length_hexDigits]

theorem run_codePoint (c : Char) :
    (codePoint 8).run { offset, rest := hexDigits 8 c.toNat ++ rest } =
      some (Bytes.ofString (String.singleton c), { offset := offset + 8, rest }) := by
  have hbytes : (bytes 8).run { offset, rest := hexDigits 8 c.toNat ++ rest } =
      some (hexDigits 8 c.toNat, { offset := offset + 8, rest }) := by
    have h := @run_bytes offset rest (hexDigits 8 c.toNat)
    rwa [length_hexDigits] at h
  have hvalid : c.toNat.isValidChar := c.valid
  rw [codePoint, run_bind_of_eq_some hbytes, if_neg (not_not_intro (length_hexDigits _ _)),
    hexNumber?_hexDigits (toNat_lt c)]
  dsimp only [pure_bind]
  rw [if_pos hvalid, Char.ofNat_toNat]
  rfl

theorem run_quote : (char '"').run { offset, rest := 0x22 :: rest } =
    some ((), { offset := offset + 1, rest }) := rfl

theorem run_escaped (c : Char) :
    escaped.run { offset, rest := 0x55 :: (hexDigits 8 c.toNat ++ rest) } =
      some (Bytes.ofString (String.singleton c), { offset := offset + 9, rest }) := by
  have hbyte : (byte fun _ => true).run { offset, rest := 0x55 :: (hexDigits 8 c.toNat ++ rest) } =
      some (0x55, { offset := offset + 1, rest := hexDigits 8 c.toNat ++ rest }) := rfl
  have hletter : Char.ofNat (0x55 : UInt8).toNat = 'U' := rfl
  rw [escaped, run_bind_of_eq_some hbyte, hletter]
  exact run_codePoint c

theorem run_basicPart?_escape (c : Char) :
    basicPart?.run { offset, rest := escape c ++ rest } =
      some (some (Bytes.ofString (String.singleton c)),
        { offset := offset + (escape c).length, rest }) := by
  have hquote : (sees ['"']).run { offset, rest := escape c ++ rest } =
      some (false, { offset, rest := escape c ++ rest }) := rfl
  have hslash : (sees ['\\']).run { offset, rest := escape c ++ rest } =
      some (true, { offset, rest := escape c ++ rest }) := rfl
  have hnext : (char '\\').run { offset, rest := escape c ++ rest } =
      some ((), { offset := offset + 1, rest := 0x55 :: (hexDigits 8 c.toNat ++ rest) }) := rfl
  rw [basicPart?, run_bind_of_eq_some hquote, if_neg Bool.false_ne_true,
    run_bind_of_eq_some hslash, if_pos rfl, run_bind_of_eq_some hnext,
    run_bind_of_eq_some (run_escaped c), length_escape]
  rfl

theorem run_basicPart?_quote :
    basicPart?.run { offset, rest := 0x22 :: rest } =
      some (none, { offset, rest := 0x22 :: rest }) := rfl

theorem flatten_ofString_singleton (s : String) :
    (s.toList.map fun c => Bytes.ofString (String.singleton c)).flatten = Bytes.ofString s := by
  simp [Bytes.ofString, String.toUTF8, ← String.utf8Encode_toList, List.utf8Encode,
    List.flatMap_def]

theorem reads_escape (cs : List Char) :
    Reads basicPart? { offset, rest := cs.flatMap escape ++ rest }
      (cs.map fun c => Bytes.ofString (String.singleton c))
      { offset := offset + (cs.flatMap escape).length, rest } := by
  induction cs generalizing offset with
  | nil => exact .nil
  | cons c cs ih =>
    rw [List.flatMap_cons, List.append_assoc, List.length_append, ← Nat.add_assoc]
    exact .cons (run_basicPart?_escape c) ih

theorem length_le_length_flatMap_escape (cs : List Char) :
    cs.length ≤ (cs.flatMap escape).length := by
  induction cs with
  | nil => exact Nat.le_refl 0
  | cons c cs ih =>
    rw [List.flatMap_cons, List.length_append, List.length_cons, Nat.add_comm]
    exact Nat.add_le_add (by rw [length_escape]; decide) ih

/-- A text that is written with escapes is read back. -/
theorem run_basicText (s : String) :
    basicText.run { offset, rest := quoted s ++ rest } =
      some (Bytes.ofString s, { offset := offset + (quoted s).length, rest }) := by
  have hparts : (many basicPart?).run
      { offset := offset + 1, rest := s.toList.flatMap escape ++ 0x22 :: rest } =
      some (s.toList.map fun c => Bytes.ofString (String.singleton c),
        { offset := offset + 1 + (s.toList.flatMap escape).length, rest := 0x22 :: rest }) := by
    refine (reads_escape s.toList).run_many run_basicPart?_quote ?_
    rw [List.length_map, List.length_append]
    exact Nat.le_add_right_of_le (length_le_length_flatMap_escape _)
  have hquoted : quoted s ++ rest = 0x22 :: (s.toList.flatMap escape ++ 0x22 :: rest) := by
    rw [quoted, List.cons_append, List.append_assoc]
    rfl
  have hlength : offset + (quoted s).length =
      offset + 1 + (s.toList.flatMap escape).length + 1 := by
    rw [quoted, List.length_cons, List.length_append, List.length_singleton]
    omega
  rw [hquoted, hlength, basicText, run_bind_of_eq_some run_quote, run_bind_of_eq_some hparts,
    run_bind_of_eq_some run_quote, flatten_ofString_singleton]
  rfl

end Escapes

/-! ## ASCII -/

section Ascii

variable {b : UInt8} {k v : Nat}

theorem hexDigit_lt : ∀ d < 16, hexDigit d < 0x80 := by decide

theorem lt_of_mem_hexDigits (h : b ∈ hexDigits k v) : b < 0x80 := by
  induction k generalizing v with
  | zero => cases h
  | succ k ih =>
    rcases List.mem_append.mp h with hhigh | hlow
    · exact ih hhigh
    · obtain rfl := List.mem_singleton.mp hlow
      exact hexDigit_lt _ (Nat.mod_lt _ (by decide))

theorem lt_of_mem_escape {c : Char} (h : b ∈ escape c) : b < 0x80 := by
  rcases List.mem_cons.mp h with rfl | h
  · decide
  · rcases List.mem_cons.mp h with rfl | h
    · decide
    · exact lt_of_mem_hexDigits h

/-- A text that is written with escapes is ASCII. -/
theorem lt_of_mem_quoted {s : String} (h : b ∈ quoted s) : b < 0x80 := by
  rcases List.mem_cons.mp h with rfl | h
  · decide
  · rcases List.mem_append.mp h with h | h
    · obtain ⟨c, -, hc⟩ := List.mem_flatMap.mp h
      exact lt_of_mem_escape hc
    · obtain rfl := List.mem_singleton.mp h
      decide

end Ascii

/-! ## Values -/

section Values

variable {offset : Nat} {rest : Bytes} (s : String)

/-- Two quotes at the most stand in a row. -/
theorem not_isPrefixOf_quoted (hrest : rest.head? ≠ some 0x22) :
    (Bytes.ofAscii ['"', '"', '"']).isPrefixOf (quoted s ++ rest) = false := by
  rw [quoted]
  cases s.toList with
  -- the two quotes of an empty text stand together, so what follows them matters
  | nil =>
    cases rest with
    | nil => rfl
    | cons b rest =>
      have hb : (0x22 == b) = false := beq_false_of_ne fun h => hrest (congrArg some h.symm)
      show (0x22 == b && true) = false
      rw [hb, Bool.false_and]
  | cons c cs => rfl

theorem run_quotedText (hrest : rest.head? ≠ some 0x22) :
    quotedText.run { offset, rest := quoted s ++ rest } =
      some (Bytes.ofString s, { offset := offset + (quoted s).length, rest }) := by
  have hlines : (sees ['"', '"', '"']).run { offset, rest := quoted s ++ rest } =
      some (false, { offset, rest := quoted s ++ rest }) := by
    rw [← not_isPrefixOf_quoted s hrest]
    rfl
  rw [quotedText, run_bind_of_eq_some hlines]
  exact run_basicText s

/-- A text that is written with escapes is a value. -/
theorem run_value (depth : Nat) (hrest : rest.head? ≠ some 0x22) :
    (value depth).run { offset, rest := quoted s ++ rest } =
      some (({ start := offset, stop := offset + (quoted s).length }, .text (Bytes.ofString s)),
        { offset := offset + (quoted s).length, rest }) := by
  have hread : (value depth).run { offset, rest := quoted s ++ rest } =
      (located (do return .text (← quotedText)) : Reader (Span × Value)).run
        { offset, rest := quoted s ++ rest } := by
    cases depth <;> rfl
  have htext : (do return .text (← quotedText) : Reader Value).run
      { offset, rest := quoted s ++ rest } =
        some (.text (Bytes.ofString s), { offset := offset + (quoted s).length, rest }) := by
    rw [run_bind_of_eq_some (run_quotedText s hrest)]
    rfl
  have hplace : place.run { offset, rest := quoted s ++ rest } =
      some ({ offset, rest := quoted s ++ rest }, { offset, rest := quoted s ++ rest }) := rfl
  rw [hread, located, run_bind_of_eq_some hplace, run_bind_of_eq_some htext]
  rfl

end Values

end LogOrder.Toml
