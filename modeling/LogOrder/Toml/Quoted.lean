import LogOrder.Toml.Reader

/-!
# Quoted text

Text stands between quotes in four forms: double quotes allow escapes, single quotes do not, and
three of either let the text go over several lines. The value is the text itself, without quotes
and with escapes replaced.
-/

namespace LogOrder.Toml

open Reader

/-- The number that hexadecimal digits write. -/
def hexNumber? (ds : Bytes) : Option Nat :=
  ds.foldlM (fun n d => (hexDigit? d).map (16 * n + ·)) 0

/-- Reads `n` hexadecimal digits that give the code point of a character. -/
def codePoint (n : Nat) : Reader Bytes := do
  let ds ← bytes n
  if ds.length ≠ n then failure
  match hexNumber? ds with
  | some v =>
    if v.isValidChar then return Bytes.ofString (String.singleton (Char.ofNat v)) else failure
  | none => failure

/-- Reads an escape, after its backslash. -/
def escaped : Reader Bytes := do
  let b ← byte fun _ => true
  match Char.ofNat b.toNat with
  | 'b' => return [0x08]
  | 't' => return [0x09]
  | 'n' => return [0x0a]
  | 'f' => return [0x0c]
  | 'r' => return [0x0d]
  | 'e' => return [0x1b]
  | '"' => return [0x22]
  | '\\' => return [0x5c]
  | 'x' => codePoint 2
  | 'u' => codePoint 4
  | 'U' => codePoint 8
  | _ => failure

/-- Reads a line end inside a text of several lines and keeps it as it is. -/
def keptLineEnd : Reader Bytes := do
  if ← sees ['\r', '\n'] then bytes 2 else
  if ← sees ['\n'] then bytes 1 else failure

/-- Reads the next character between double quotes on one line, up to the closing one. -/
def basicPart? : Reader (Option Bytes) := do
  if ← sees ['"'] then return none
  if ← sees ['\\'] then
    char '\\'
    return some (← escaped)
  return some [← byte isShown]

/-- Reads text in double quotes on one line. -/
def basicText : Reader Bytes := do
  char '"'
  let parts ← many basicPart?
  char '"'
  return parts.flatten

/-- Reads text in single quotes on one line. -/
def literalText : Reader Bytes := do
  char '\''
  let text ← Reader.takeWhile fun b => isShown b && b != 0x27
  char '\''
  return text

/-- Reads the quotes that end a text of several lines: three, and up to two before them that
belong to the text. -/
def closingQuotes (quote : Char) : Reader Bytes := do
  let run := (← ahead).takeWhile (· == quote.toUInt8)
  if run.length < 3 then failure
  let taken ← bytes (min run.length 5)
  return taken.drop 3

/-- Skips the line end right after the opening quotes, which does not belong to the text. -/
def skipFirstLineEnd : Reader Unit := do
  if (← sees ['\n']) || (← sees ['\r', '\n']) then lineEnd

/-- Reads text in three double quotes. A backslash at the end of a line joins it with the next,
and drops all space and line ends between. -/
def basicLines : Reader Bytes := do
  chars ['"', '"', '"']
  skipFirstLineEnd
  let parts ← many do
    if ← sees ['"', '"', '"'] then return none
    if ← sees ['\\'] then
      char '\\'
      -- a backslash before the end of its line is no escape
      let joins := (← ahead).dropWhile isBlank
      if joins.head? == some 0x0a || [0x0d, 0x0a].isPrefixOf joins then
        let _ ← many do
          if ← sees ['\r'] then return some (← keptLineEnd)
          if (← peek?).any fun b => isBlank b || b == 0x0a then return some (← bytes 1)
          return none
        return some []
      return some (← escaped)
    if (← sees ['\n']) || (← sees ['\r', '\n']) then return some (← keptLineEnd)
    return some [← byte isShown]
  let last ← closingQuotes '"'
  return parts.flatten ++ last

/-- Reads text in three single quotes. -/
def literalLines : Reader Bytes := do
  chars ['\'', '\'', '\'']
  skipFirstLineEnd
  let parts ← many do
    if ← sees ['\'', '\'', '\''] then return none
    if (← sees ['\n']) || (← sees ['\r', '\n']) then return some (← keptLineEnd)
    return some [← byte isShown]
  let last ← closingQuotes '\''
  return parts.flatten ++ last

/-- Reads text in quotes of any form. -/
def quotedText : Reader Bytes := do
  if ← sees ['"', '"', '"'] then basicLines
  else if ← sees ['\'', '\'', '\''] then literalLines
  else if ← sees ['"'] then basicText
  else literalText

end LogOrder.Toml
