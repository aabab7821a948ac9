import LogOrder.Stamp.Calendar
import LogOrder.Text.Decimal
import LogOrder.Toml.Reader

/-!
# Plain scalars

Values without quotes: truth values, numbers, dates and times. No setting takes one, so what they
are worth is never asked. Of a number only the outer form is checked, enough to tell that it is
meant as one: whoever asks for its worth would still have to check that it is in digits throughout.

* `isNumber` is the form of numbers, `isMoment` that of dates and times.
* `scalar` reads a value without quotes, up to what can only stand after it.
-/

namespace LogOrder.Toml

/-! ## Numbers -/

/-- Whether the byte is an underscore. -/
def isUnderscore (b : UInt8) : Bool := b == 0x5f

/-- Whether every underscore stands between two digits of a kind; `follows` says that a digit comes
right before the bytes. -/
def isSpacedAfter (digit : UInt8 → Bool) : (follows : Bool) → Bytes → Bool
  | _, [] => true
  | follows, b :: rest =>
    (!isUnderscore b || (follows && rest.head?.any digit)) && isSpacedAfter digit (digit b) rest

/-- Whether every underscore stands between two digits of a kind. -/
def isSpaced (digit : UInt8 → Bool) (bs : Bytes) : Bool := isSpacedAfter digit false bs

/-- The bytes without a sign at their head. -/
def unsigned : Bytes → Bytes
  | b :: rest => if b == 0x2b || b == 0x2d then rest else b :: rest
  | [] => []

/-- Whether the bytes are digits of a kind, with underscores between. -/
def areDigits (digit : UInt8 → Bool) (bs : Bytes) : Bool :=
  bs.all (fun b => digit b || isUnderscore b) && isSpaced digit bs

/-- Whether the bytes are a number in hexadecimal, octal or binary digits. There may be no digit at
all after the mark of its kind. -/
def isBased : Bytes → Bool
  | 0x30 :: 0x78 :: ds => areDigits isHexDigit ds
  | 0x30 :: 0x6f :: ds => areDigits (fun b => 0x30 ≤ b && b ≤ 0x37) ds
  | 0x30 :: 0x62 :: ds => areDigits (fun b => b == 0x30 || b == 0x31) ds
  | _ => false

/-- Reads decimal digits and underscores, with one digit at least. A zero comes first only where it
is the one digit, unless `leadingZeros` allows more. -/
def digits? (leadingZeros : Bool) (bs : Bytes) : Option Bytes :=
  let run := bs.takeWhile fun b => Decimal.isDigit b || isUnderscore b
  let count := run.countP Decimal.isDigit
  if count = 0 ∨ (1 < count ∧ bs.head? = some 0x30 ∧ !leadingZeros) then none
  else some (bs.drop run.length)

/-- Whether the bytes are a number with a point, an exponent or both; a sign has been read. -/
def isFractional (bs : Bytes) : Bool :=
  let read : Option Bytes := do
    let rest ← digits? false bs
    let rest ← if rest.head? = some 0x2e then digits? true (rest.drop 1) else some rest
    if rest.head? = some 0x65 ∨ rest.head? = some 0x45 then digits? true (unsigned (rest.drop 1))
    else some rest
  read == some []

/-- Whether the bytes are a whole number; a sign has been read. From its first underscore on it may
go on with anything but a space. -/
def isWhole (bs : Bytes) : Bool :=
  match bs.dropWhile Decimal.isDigit with
  | [] => bs != [] && (bs.head? != some 0x30 || bs.length == 1)
  | b :: rest => isUnderscore b && bs.head? != some 0x30 && !rest.contains 0x20

/-- Whether the bytes are a number. The underscores of a whole number stand between hexadecimal
digits, those of any other between decimal ones. -/
def isNumber (bs : Bytes) : Bool :=
  let body := unsigned bs
  let marks (b : UInt8) := b == 0x2e || b == 0x65 || b == 0x45
  isBased bs || body == Bytes.ofAscii ['i', 'n', 'f'] || body == Bytes.ofAscii ['n', 'a', 'n'] ||
    if (body.dropWhile Decimal.isDigit).any marks then
      isFractional body && isSpaced Decimal.isDigit body
    else isWhole body && isSpaced isHexDigit body

/-! ## Dates and times -/

/-- Reads a date that the calendar has; here years start at 0. -/
def date? (bs : Bytes) : Option Bytes := do
  let (year, bs) ← Decimal.read? 4 bs
  let bs ← Bytes.skip? 0x2d bs
  let (month, bs) ← Decimal.read? 2 bs
  let bs ← Bytes.skip? 0x2d bs
  let (day, bs) ← Decimal.read? 2 bs
  if 1 ≤ day.val ∧ day.val ≤ Calendar.monthLength year.val month.val then some bs else none

/-- Reads seconds with or without a fraction, if there are any. A minute may have a leap second. -/
def seconds? (bs : Bytes) : Option Bytes :=
  match bs with
  | 0x3a :: bs => do
    let (second, bs) ← Decimal.read? 2 bs
    if 60 < second.val then none
    match bs with
    | 0x2e :: bs =>
      if (bs.head?.any Decimal.isDigit) then some (bs.dropWhile Decimal.isDigit) else none
    | _ => some bs
  | _ => some bs

/-- Reads the hour and minute of a day. -/
def clock? (bs : Bytes) : Option Bytes := do
  let (hour, bs) ← Decimal.read? 2 bs
  let bs ← Bytes.skip? 0x3a bs
  let (minute, bs) ← Decimal.read? 2 bs
  if hour.val ≤ 23 ∧ minute.val ≤ 59 then some bs else none

/-- Reads a time of day. -/
def time? (bs : Bytes) : Option Bytes := (clock? bs).bind seconds?

/-- Whether the bytes are the distance from universal time, or nothing. -/
def isZone : Bytes → Bool
  | [] => true
  | b :: bs =>
    if b == 0x5a || b == 0x7a then bs.isEmpty
    else (b == 0x2b || b == 0x2d) && clock? bs == some []

/-- Whether the bytes are a date, a time of day, or both with or without a zone. -/
def isMoment (bs : Bytes) : Bool :=
  match date? bs with
  | some [] => true
  | some (b :: rest) => (b == 0x54 || b == 0x74 || b == 0x20) && (time? rest).any isZone
  | none => time? bs == some []

/-! ## Scalars -/

/-- Whether the bytes are a value without quotes. -/
def isScalar (bs : Bytes) : Bool :=
  bs == Bytes.ofAscii ['t', 'r', 'u', 'e'] || bs == Bytes.ofAscii ['f', 'a', 'l', 's', 'e'] ||
    isNumber bs || isMoment bs

/-- Whether the byte may stand in a value without quotes, which goes on up to a blank, the end of
the line, a comment or a mark that sets values apart. A quote inside it is a byte like others. -/
def isPlain (b : UInt8) : Bool :=
  !isBlank b && !(Bytes.ofAscii ['\r', '\n', '#', ',', '=', '[', ']', '\x7b', '\x7d']).contains b

/-- Reads a value without quotes. It may hold blanks, as a date and a time of day with a space
between do, but none at its end and none before a quote. -/
def scalar : Reader Bytes := do
  let first ← Reader.takeWhile isPlain
  let more ← Reader.many do
    let next ← Reader.ahead
    let blanks := next.takeWhile isBlank
    let word := (next.drop blanks.length).takeWhile isPlain
    if word.isEmpty || word.head? == some 0x22 || word.head? == some 0x27 then return none
    return some (← Reader.bytes (blanks.length + word.length))
  let written := first ++ more.flatten
  if isScalar written then return written else failure

end LogOrder.Toml
