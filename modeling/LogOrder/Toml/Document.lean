import LogOrder.Toml.Quoted
import LogOrder.Toml.Scalar
import LogOrder.Toml.Value

/-!
# Documents

A document is read as a list of statements, one to a line: headers, which open a table, and
assignments, which give a key of the open table a value. The statements are then carried out in
order. A document is refused as a whole if one of them has the wrong form or breaks the rules of
tables.
-/

namespace LogOrder.Toml

open Reader

/-- How deep arrays and tables in braces may stand inside each other, and how many parts a key may
have. -/
def depthLimit : Nat := 80

/-! ## Keys and values -/

/-- Whether the byte may stand in a key without quotes. -/
def isBareKey (b : UInt8) : Bool :=
  let c := Char.ofNat b.toNat
  b < 0x80 && (c.isAlphanum || c == '_' || c == '-')

/-- Reads one part of a key. -/
def keyPart : Reader Key := do
  let (span, name) ← located do
    if ← sees ['"'] then basicText
    else if ← sees ['\''] then literalText
    else
      let name ← Reader.takeWhile isBareKey
      if name.isEmpty then failure else return name
  return { name, span }

/-- Reads a key of one or more parts with dots between: all parts but the last, and the last. -/
def dottedKey : Reader (List Key × Key) := do
  let first ← keyPart
  let more ← many do
    let here ← place
    blanks
    if ← sees ['.'] then
      char '.'
      blanks
      return some (← keyPart)
    -- no further part: the blanks belong to whatever follows the key
    set here
    return none
  if depthLimit < (first :: more).length then failure
  return ((first :: more).dropLast, more.getLast?.getD first)

/-- Reads a key, an equals sign and a value. `space` skips what may stand around the sign. -/
def assignment (space : Reader Unit) (value : Reader (Span × Value)) :
    Reader (List Key × Key × Span × Value) := do
  let (path, key) ← dottedKey
  space
  char '='
  space
  let (span, v) ← value
  return (path, key, span, v)

/-- Reads items with commas between, after the opening bracket; one more comma may stand at the
end. -/
def separated {α : Type} (item : Reader α) (close : Char) : Reader (List α) := do
  gap
  let items ← many do
    if ← sees [close] then return none
    let a ← item
    gap
    if !(← sees [close]) then
      char ','
      gap
    return some a
  char close
  return items

/-- Reads a value that holds no others. -/
def simpleValue : Reader Value := do
  if (← sees ['"']) || (← sees ['\'']) then return .text (← quotedText)
  return .scalar (← scalar)

/-- Reads a value. Arrays and tables in braces may stand inside each other `depth` deep, and go over
several lines. -/
def value : (depth : Nat) → Reader (Span × Value)
  | 0 => located simpleValue
  | depth + 1 => located do
    if ← sees ['['] then
      char '['
      let items ← separated (value depth) ']'
      return .array false items
    if ← sees ['\x7b'] then
      char '\x7b'
      let items ← separated (assignment gap (value depth)) '\x7d'
      let entries : Option Entries :=
        items.foldlM (fun entries (path, key, span, v) => entries.assign path key span v) []
      match entries with
      | some entries => return .table .braces entries
      | none => failure
    simpleValue

/-! ## Statements -/

/-- One line of a document. -/
inductive Statement where
  /-- A header, with the path of the table that it opens. -/
  | header (ofArray : Bool) (path : List Key) (key : Key) (span : Span)
  /-- A key and its value. -/
  | assign (path : List Key) (key : Key) (span : Span) (value : Value)

/-- Reads a header. -/
def header : Reader Statement := do
  let (span, ofArray, path, key) ← located do
    char '['
    let ofArray ← sees ['[']
    if ofArray then char '['
    blanks
    let (path, key) ← dottedKey
    blanks
    char ']'
    if ofArray then char ']'
    return (ofArray, path, key)
  return .header ofArray path key span

/-- Reads the next statement, if there is one, with the rest of its line. -/
def statement? : Reader (Option Statement) := do
  gap
  if ← atEnd then return none
  let s ←
    if ← sees ['['] then header
    else do
      let (path, key, span, v) ← assignment blanks (value depthLimit)
      pure (.assign path key span v)
  restOfLine
  return some s

/-- Reads all statements of a document, after a byte order mark if there is one. -/
def statements : Reader (List Statement) := do
  if [0xef, 0xbb, 0xbf].isPrefixOf (← ahead) then
    let _ ← bytes 3
  many statement?

/-- A document under construction. -/
structure Draft where
  /-- The keys and values so far. -/
  root : Entries := []
  /-- The path of the open table. -/
  opened : List Key := []

/-- Carries out a statement, if the rules of tables allow it. -/
def Draft.add (d : Draft) : Statement → Option Draft
  | .header false path key span => do
    some { root := ← d.root.openTable path key span, opened := path ++ [key] }
  | .header true path key span => do
    some { root := ← d.root.openItem path key span, opened := path ++ [key] }
  | .assign path key span v => do
    some { d with root := ← d.root.changeOpen d.opened fun es => es.assign path key span v }

/-- The keys and values of a document. -/
def document? (source : Bytes) : Option Entries := do
  let (all, _) ← statements.run { offset := 0, rest := source }
  let draft ← all.foldlM Draft.add {}
  some draft.root

end LogOrder.Toml
