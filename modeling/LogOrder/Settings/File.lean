import LogOrder.Policy
import LogOrder.Toml.Document
import LogOrder.Toml.Excerpt

/-!
# The settings file

A settings file is a TOML document with one optional key, `order`, which names a policy. The name
may be given as text, or as a table with the name as its only key and nothing in it.

* `variants` are the names that a settings file knows.
* `FileSettings.read` reads a file, or says what in it cannot be taken.
* `Unfit.reason` is the wording of each fault, and `FileFault.report` shows the place as well.
-/

namespace LogOrder.Settings

/-- What a settings file can set. -/
structure FileSettings where
  /-- The policy when the command line asks for none. -/
  order : Option Policy := none
deriving DecidableEq, Repr

/-- What is wrong with a value or key of a settings file. -/
inductive Unfit where
  /-- There is no such key. -/
  | unknownField (name : String)
  /-- There is no such policy. -/
  | unknownVariant (name : String)
  /-- The policy is neither text nor a table. -/
  | neitherTextNorTable
  /-- The table names no policy. -/
  | noEntry
  /-- The table names several. -/
  | manyEntries
  /-- The table holds more than the name. -/
  | notEmpty
deriving DecidableEq, Repr

/-- The names of policies in a settings file, and what they stand for. -/
def variants : List (String × Policy) :=
  [("line", .line), ("chrono", .chrono), ("thread", .thread), ("thread+chrono", .threadChrono),
    ("thread-chrono", .threadChrono)]

/-- A name as it is quoted in reports. -/
def ticked (s : String) : String := "`" ++ s ++ "`"

/-- The wording of a fault, without the place. -/
def Unfit.reason : Unfit → String
  | .unknownField name => s!"unknown field {ticked name}, expected `order`"
  | .unknownVariant name =>
    s!"unknown variant {ticked name}, expected one of " ++
      ", ".intercalate (variants.map fun v => ticked v.1)
  | .neitherTextNorTable => "wanted string or table"
  | .noEntry => "wanted exactly 1 element, found 0 elements"
  | .manyEntries => "wanted exactly 1 element, more than 1 element"
  | .notEmpty => "expected empty table"

/-- Why a settings file cannot be taken. -/
inductive FileFault where
  /-- It is no TOML document. -/
  | malformed
  /-- Part of it is not what a setting can be. -/
  | unfit (source : Bytes) (span : Toml.Span) (what : Unfit)
deriving DecidableEq, Repr

/-- The wording of a fault, with the place where it is known. -/
def FileFault.report : FileFault → String
  | .malformed => "TOML parse error"
  | .unfit source span what => Toml.excerpt source span what.reason

/-- The policy of a name in a settings file. -/
def policyOfName (span : Toml.Span) (name : Bytes) : Except (Toml.Span × Unfit) Policy :=
  let name := Bytes.toText name
  match variants.lookup name with
  | some policy => .ok policy
  | none => .error (span, .unknownVariant name)

/-- The policy that a value stands for. -/
def policyOfValue (span : Toml.Span) : Toml.Value → Except (Toml.Span × Unfit) Policy
  | .text name => policyOfName span name
  | .table _ [] => .error (span, .noEntry)
  | .table _ [(key, inner, content)] => do
    let policy ← policyOfName key.span key.name
    match content with
    | .table _ [] | .array _ [] => .ok policy
    | _ => .error (inner, .notEmpty)
  | .table _ _ => .error (span, .manyEntries)
  | .scalar _ | .array _ _ => .error (span, .neitherTextNorTable)

/-- The settings in the entries of a document, which are looked at in the order of their keys. -/
def ofEntries : Toml.Entries → Except (Toml.Span × Unfit) FileSettings
  | [] => .ok {}
  | (key, span, value) :: rest => do
    if key.name = Bytes.ofAscii ['o', 'r', 'd', 'e', 'r'] then
      let policy ← policyOfValue span value
      let others ← ofEntries rest
      .ok { others with order := some policy }
    else .error (key.span, .unknownField (Bytes.toText key.name))

/-- Reads a settings file. A fault of form anywhere comes before any other fault. -/
def FileSettings.read (source : Bytes) : Except FileFault FileSettings :=
  match Toml.document? source with
  | none => .error .malformed
  | some entries =>
    let sorted := entries.mergeSort fun a b => decide (a.1.name ≤ b.1.name)
    (ofEntries sorted).mapError fun (span, what) => .unfit source span what

end LogOrder.Settings
