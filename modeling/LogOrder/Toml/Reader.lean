import LogOrder.Text.Bytes

/-!
# Readers

The grammar is written as readers: functions from a place in the text to a value and the place
after it, or to nothing where the text is not of that form. A place knows its offset, so values
can carry where they stand.

* `Reader.many` repeats a reader; the length of the text bounds the repetitions, so every reader
  ends.
* `Reader.located` adds the span that a reader went over.
-/

namespace LogOrder.Toml

/-- A place in a text. -/
structure Cursor where
  /-- The number of bytes before it. -/
  offset : Nat
  /-- The bytes after it. -/
  rest : Bytes
deriving DecidableEq, Repr

/-- A stretch of a text: from the byte `start` to before the byte `stop`. -/
structure Span where
  /-- The first byte. -/
  start : Nat
  /-- The byte after the last. -/
  stop : Nat
deriving DecidableEq, Repr

/-- The number of bytes of a stretch. -/
def Span.size (s : Span) : Nat := s.stop - s.start

/-- A function from a place to a value and the place after it. -/
abbrev Reader := StateT Cursor Option

namespace Reader

/-- The place where the reader stands. -/
def place : Reader Cursor := get

/-- The byte at the place, which is not read yet. -/
def peek? : Reader (Option UInt8) := return (← get).rest.head?

/-- The bytes after the place, which are not read yet. -/
def ahead : Reader Bytes := return (← get).rest

/-- Reads `n` bytes, or up to the end. -/
def bytes (n : Nat) : Reader Bytes := modifyGet fun c =>
  (c.rest.take n, { offset := c.offset + (c.rest.take n).length, rest := c.rest.drop n })

/-- Reads one byte of a kind. -/
def byte (p : UInt8 → Bool) : Reader UInt8 := do
  match (← get).rest with
  | b :: rest =>
    if p b then
      modify fun c => { offset := c.offset + 1, rest }
      return b
    else failure
  | [] => failure

/-- Reads one given ASCII character. -/
def char (c : Char) : Reader Unit := do
  let _ ← byte (· == c.toUInt8)

/-- Reads all bytes of a kind up to the first that is not. -/
def takeWhile (p : UInt8 → Bool) : Reader Bytes := do
  bytes ((← ahead).takeWhile p).length

/-- Reads these ASCII characters one after the other. -/
def chars (cs : List Char) : Reader Unit := do
  if (Bytes.ofAscii cs).isPrefixOf (← ahead) then
    let _ ← bytes cs.length
  else failure

/-- Whether these ASCII characters come next. -/
def sees (cs : List Char) : Reader Bool := return (Bytes.ofAscii cs).isPrefixOf (← ahead)

/-- Repeats a reader until it answers nothing, at most `count` times. -/
def upTo {α : Type} (item : Reader (Option α)) : (count : Nat) → Reader (List α)
  | 0 => return []
  | count + 1 => do
    match ← item with
    | none => return []
    | some a => return a :: (← upTo item count)

/-- Repeats a reader until it answers nothing. Each repetition reads at least one byte, so there
are no more of them than bytes. -/
def many {α : Type} (item : Reader (Option α)) : Reader (List α) := do
  upTo item ((← ahead).length + 1)

/-- What a reader reads, with the stretch it went over. -/
def located {α : Type} (r : Reader α) : Reader (Span × α) := do
  let start := (← place).offset
  let a ← r
  let stop := (← place).offset
  return ({ start, stop }, a)

end Reader

/-! ## Kinds of bytes -/

/-- The value of a hexadecimal digit. -/
def hexDigit? (b : UInt8) : Option Nat :=
  let n := b.toNat
  if 48 ≤ n && n ≤ 57 then some (n - 48)
  else if 65 ≤ n && n ≤ 70 then some (n - 55)
  else if 97 ≤ n && n ≤ 102 then some (n - 87)
  else none

/-- Whether the byte is a hexadecimal digit. -/
def isHexDigit (b : UInt8) : Bool := (hexDigit? b).isSome

/-- Whether the byte is a space or a tab. -/
def isBlank (b : UInt8) : Bool := b == 0x20 || b == 0x09

/-- Whether the byte may stand in a comment and in any quoted text: everything but controls, of
which the tab alone is allowed. -/
def isShown (b : UInt8) : Bool := b == 0x09 || (0x20 ≤ b && b != 0x7f)

/-! ## Space between tokens -/

namespace Reader

/-- Skips spaces and tabs. -/
def blanks : Reader Unit := do
  let _ ← takeWhile isBlank

/-- Reads one line end: a newline, or a carriage return with a newline. -/
def lineEnd : Reader Unit := chars ['\n'] <|> chars ['\r', '\n']

/-- Skips a comment, if one comes next, up to its line end. -/
def comment : Reader Unit := do
  if ← sees ['#'] then
    let _ ← takeWhile isShown

/-- Whether the whole text has been read. -/
def atEnd : Reader Bool := return (← ahead).isEmpty

/-- Reads the rest of a line that holds nothing more than a comment. -/
def restOfLine : Reader Unit := do
  blanks
  comment
  if ← atEnd then return () else lineEnd

/-- Skips spaces, line ends and comments. A comment has to end with its line. -/
def gap : Reader Unit := do
  blanks
  let _ ← many do
    if ← sees ['#'] then
      restOfLine
      blanks
      return some ()
    else if (← sees ['\n']) || (← sees ['\r', '\n']) then
      lineEnd
      blanks
      return some ()
    else
      return none

end Reader

end LogOrder.Toml
