import LogOrder.Stamp.Written

/-!
# Thread markers

A line names the thread that wrote it with a marker `[thread-N]`, where `N` is one or more ASCII
digits. The marker may stand anywhere, and a line that quotes another may hold several: the last
one counts.

* `marker?` reads one marker at the head of some bytes.
* `markers` finds them all from left to right, each starting after the end of the one before.
* `name?` is the name in the last one.
-/

namespace LogOrder.Thread

/-- What every thread name starts with. -/
def stem : Bytes := Bytes.ofAscii ['t', 'h', 'r', 'e', 'a', 'd', '-']

/-- What follows `lead`, for bytes that start with it. -/
def after? : (lead : Bytes) → Bytes → Option Bytes
  | [], s => some s
  | b :: lead, s => (Bytes.skip? b s).bind (after? lead)

/-- The thread named by a marker at the head of the bytes. The name is kept as it is written, so
names with different leading zeros are different threads. -/
def marker? (s : Bytes) : Option Bytes := do
  let s ← after? (Stamp.openBracket :: stem) s
  let digits := s.takeWhile Decimal.isDigit
  let _ ← Bytes.skip? Stamp.closeBracket (s.dropWhile Decimal.isDigit)
  if digits = [] then none else some (stem ++ digits)

/-- The names in the markers of the bytes, from left to right, when the first `covered` bytes
belong to a marker that was found already. -/
def markersFrom : (covered : Nat) → Bytes → List Bytes
  | _, [] => []
  | covered + 1, _ :: rest => markersFrom covered rest
  | 0, b :: rest =>
    match marker? (b :: rest) with
    | some name => name :: markersFrom (name.length + 1) rest
    | none => markersFrom 0 rest

/-- The names in all markers, from left to right. -/
def markers (line : Bytes) : List Bytes := markersFrom 0 line

/-- The thread that the line belongs to, if it has a marker. -/
def name? (line : Bytes) : Option Bytes := (markers line).getLast?

end LogOrder.Thread
