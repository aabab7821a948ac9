import LogOrder.Entry
import LogOrder.Thread.Marker
import LogOrder.Thread.Roster

/-!
# Reading a log

A log is read line by line. A line that opens with a stamp starts an entry; any other line belongs
to the entry above it. The lines before the first stamped one are the preamble and belong to none.

* `Scan` is what is known between two lines, and `Scan.take` reads one more.
* `contents` reads a whole list of lines, and stops at the first stamp that is no date.
* `lines_take`: every line is counted, also one that cannot be read; that one changes nothing else.
-/

namespace LogOrder.Log

/-- A line that opens with a stamp that is no date. -/
structure BadStamp where
  /-- The number of the line, counted from 0. -/
  line : Nat
  /-- The stamp, without its brackets. -/
  stamp : Stamp.Written
  /-- What is wrong with it. -/
  why : Stamp.DateFault
deriving DecidableEq, Repr

/-- Where a line belongs. -/
inductive Placing where
  /-- Before all entries. The line is handed back, as nothing else keeps it. -/
  | preamble (line : Bytes)
  /-- At the head of an entry. -/
  | header
  /-- Under the entry that was started last. -/
  | continuation
deriving DecidableEq, Repr

/-- What is known between two lines of a log. -/
structure Scan where
  /-- The number of lines so far, which is the number of the next one. -/
  lines : Nat := 0
  /-- The number of lines before the first entry. -/
  preambleLines : Nat := 0
  /-- The entries so far, the latest first: that one is still open. -/
  entries : List Entry := []
  /-- The threads so far. -/
  roster : Thread.Roster := {}
deriving DecidableEq

/-- What a log consists of. -/
structure Contents where
  /-- The lines before the first entry. -/
  preamble : List Bytes
  /-- The entries, as they were found. -/
  entries : List Entry
  /-- The threads. -/
  roster : Thread.Roster
  /-- The number of lines before the first entry. -/
  preambleLines : Nat
  /-- The number of all lines. -/
  lines : Nat
deriving DecidableEq

namespace Scan

/-- A line without a stamp goes under the open entry, or into the preamble if there is none. -/
def takePlain (s : Scan) (line : Bytes) : Placing × Scan :=
  match s.entries with
  | [] => (.preamble line, { s with preambleLines := s.preambleLines + 1 })
  | latest :: closed => (.continuation, { s with entries := latest.addLine line :: closed })

/-- A stamped line starts an entry. The last marker in it names the thread; the roster tells on
which line that thread, or the group without a thread, appeared first. -/
def takeStamped (s : Scan) (number : Nat) (stamp : Stamp) (line : Bytes) : Scan :=
  match Thread.name? line with
  | some name =>
    let (first, roster) := s.roster.enroll name number
    let entry := { line := number, stamp, thread := some first, unmarked := number, text := line }
    { s with entries := entry :: s.entries, roster }
  | none =>
    let (first, roster) := s.roster.enrollUnmarked number
    let entry := { line := number, stamp, thread := none, unmarked := first, text := line }
    { s with entries := entry :: s.entries, roster }

/-- Reads the next line: where it belongs, and what is known after it. The line is counted in any
case; a stamp that is no date changes nothing else. -/
def take (s : Scan) (line : Bytes) : Except BadStamp Placing × Scan :=
  let number := s.lines
  let s := { s with lines := number + 1 }
  match Stamp.opening? line with
  | none =>
    let (placing, s) := s.takePlain line
    (.ok placing, s)
  | some w =>
    match w.check with
    -- the line is counted, but starts no entry and enrols no thread
    | .error why => (.error { line := number, stamp := w, why }, s)
    | .ok stamp => (.ok .header, s.takeStamped number stamp line)

/-- What the lines so far consist of. The preamble is not kept here: whoever reads the lines has
it already. -/
def finish (s : Scan) : Contents :=
  { preamble := []
    entries := s.entries.reverse
    roster := s.roster
    preambleLines := s.preambleLines
    lines := s.lines }

theorem lines_take (s : Scan) (line : Bytes) : (s.take line).2.lines = s.lines + 1 := by
  unfold take
  split
  · unfold takePlain; dsimp only; split <;> rfl
  · split
    · rfl
    · unfold takeStamped; split <;> rfl

end Scan

/-- Reads lines from a given point on. Answers the lines of the preamble among them and what is
known after all, or the first stamp that is no date. -/
def scanFrom (s : Scan) : List Bytes → Except BadStamp (List Bytes × Scan)
  | [] => .ok ([], s)
  | line :: rest =>
    match s.take line with
    | (.error bad, _) => .error bad
    | (.ok (.preamble line), s) => do
      let (preamble, s) ← scanFrom s rest
      .ok (line :: preamble, s)
    | (.ok _, s) => scanFrom s rest

/-- What the lines of a log consist of, unless a stamp among them is no date. -/
def contents (lines : List Bytes) : Except BadStamp Contents := do
  let (preamble, s) ← scanFrom {} lines
  .ok { s.finish with preamble }

end LogOrder.Log
