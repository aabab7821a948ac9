/-!
# Bytes

A log is a list of bytes, and so is each of its lines. Working below characters keeps every
rule exact: what is written is what was read, also where it is no text at all.

* `Bytes.ofString` and `Bytes.toString?` go between bytes and text; only whole UTF-8 is text.
* `Bytes.skip?` reads past one expected byte.
-/

namespace LogOrder

/-- Raw bytes, first byte first. -/
abbrev Bytes := List UInt8

namespace Bytes

/-- The UTF-8 form of a text. -/
def ofString (s : String) : Bytes := s.toUTF8.data.toList

/-- The bytes of plain ASCII characters, one byte each. -/
def ofAscii (cs : List Char) : Bytes := cs.map Char.toUInt8

/-- The text that the bytes are the UTF-8 form of, if there is one. -/
def toString? (bs : Bytes) : Option String := String.fromUTF8? ⟨bs.toArray⟩

/-- The text of bytes that are known to be UTF-8; empty for any others. -/
def toText (bs : Bytes) : String := (toString? bs).getD ""

/-- The byte that ends a line. -/
def newline : UInt8 := 0x0a

/-- What follows the byte `b`, for bytes that start with it. -/
def skip? (b : UInt8) : Bytes → Option Bytes
  | [] => none
  | a :: rest => if a = b then some rest else none

theorem skip?_eq_some_iff {b : UInt8} {s rest : Bytes} :
    skip? b s = some rest ↔ s = b :: rest := by
  cases s with
  | nil => simp [skip?]
  | cons a r => by_cases h : a = b <;> simp [skip?, h]

@[simp]
theorem skip?_cons (b : UInt8) (rest : Bytes) : skip? b (b :: rest) = some rest :=
  skip?_eq_some_iff.2 rfl

/-- A text is read back from its UTF-8 form. -/
@[simp]
theorem toString?_ofString (s : String) : toString? (ofString s) = some s := by
  have bytes : (⟨(ofString s).toArray⟩ : ByteArray) = s.toByteArray := rfl
  simp only [toString?, bytes, String.fromUTF8?, dif_pos s.isValidUTF8]
  rfl

@[simp]
theorem toText_ofString (s : String) : toText (ofString s) = s := by simp [toText]

/-- Whether the last byte ends a line. Bytes that hold nothing end none. -/
def endsLine (bs : Bytes) : Bool := bs.getLast? == some newline

end Bytes

end LogOrder
