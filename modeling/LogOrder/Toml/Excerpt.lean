import LogOrder.Toml.Reader

/-!
# Excerpts

The report of a fault shows the line it is on, with marks under the stretch that is meant.
-/

namespace LogOrder.Toml

/-- The number of characters in bytes of UTF-8: every byte counts that does not continue one. -/
def charCount (bs : Bytes) : Nat := (bs.filter fun b => b &&& 0xc0 != 0x80).length

/-- As many spaces. -/
def spaces (n : Nat) : String := String.ofList (List.replicate n ' ')

/-- The report of a fault in a stretch of the source: where it is, the line, marks under the
stretch up to the end of the line, and the reason. -/
def excerpt (source : Bytes) (span : Span) (reason : String) : String :=
  let before := source.take span.start
  let lineNumber := before.count Bytes.newline + 1
  let lead := (before.reverse.takeWhile (· != Bytes.newline)).reverse
  let line := lead ++ (source.drop span.start).takeWhile (· != Bytes.newline)
  let column := charCount lead
  let marks := max 1 (min span.size (line.length - column))
  let margin := spaces ((toString lineNumber).length + 1) ++ "|"
  s!"TOML parse error at line {lineNumber}, column {column + 1}\n" ++
    margin ++ "\n" ++
    s!"{lineNumber} | " ++ Bytes.toText line ++ "\n" ++
    margin ++ spaces (column + 1) ++ String.ofList (List.replicate marks '^') ++ "\n" ++
    reason ++ "\n"

end LogOrder.Toml
