import LogOrder.Fault
import LogOrder.Log.Arranged
import LogOrder.Source
import LogOrder.Text.Utf8

/-!
# Reordering a log

The whole way from a source to a sink: lines are read, the preamble is written as it comes, and
when all lines are known the entries are arranged and written. Nothing of an entry is written
before the whole log has been read without fault.
-/

namespace LogOrder.Log

/-- What a run went through. -/
structure Tally where
  /-- The number of lines. -/
  lines : Nat
  /-- The number of entries. -/
  entries : Nat
  /-- The number of different threads. -/
  threads : Nat
  /-- The number of lines before the first entry. -/
  preambleLines : Nat
deriving DecidableEq, Repr

/-- How the two ends are called in reports. -/
structure Names where
  /-- The name of the source. -/
  input : String
  /-- The name of the sink. -/
  output : String

/-- Something done with the sink, whose failures are reported under its name. -/
def onSink (names : Names) (act : EStateM IoFault Sink Unit) : EStateM Fault Sink Unit :=
  act.adaptExcept (.output names.output)

/-- Reads lines, writing those of the preamble as they come. Lines are text: one that is not
UTF-8 stops the run when its turn comes, and not before. -/
def takeLines (names : Names) (s : Scan) : List Bytes → EStateM Fault Sink Scan
  | [] => pure s
  | line :: rest =>
    if Utf8.valid line then
      match s.take line with
      | (.error bad, _) => throw (.ofBadStamp bad)
      | (.ok (.preamble line), s) => do
        onSink names (Sink.write line)
        takeLines names s rest
      | (.ok _, s) => takeLines names s rest
    else throw (.input names.input .notUtf8)

/-- Reads a log to its end, arranges it and writes it. -/
def reorder (names : Names) (policy : Policy) (source : Source) : EStateM Fault Sink Tally := do
  let delivery := source.delivery
  let s ← takeLines names {} delivery.lines
  -- a source that fails does so after its last whole line
  if let some why := delivery.failure then
    throw (.input names.input why)
  let found := s.finish
  onSink names (emit (arrange policy found.entries))
  onSink names Sink.flush
  return {
    lines := found.lines
    entries := found.entries.length
    threads := found.roster.size
    preambleLines := found.preambleLines }

end LogOrder.Log
