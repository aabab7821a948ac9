import LogOrder.Toml.Reader

/-!
# Values and tables

A document is a table of keys and values, and values may be tables again. A table remembers how it
came about, because that decides whether later parts of the document may still add to it:

* a table written in braces is complete;
* a table with a header of its own gets no second header, and no dotted key reaches into it;
* a table that only stands on the way to another may still get its header, unless a dotted key
  reaches it first;
* a table made or reached by a dotted key is open to further dotted keys, and to headers of tables
  inside it, but gets no header.
-/

namespace LogOrder.Toml

/-- A key, and where it stands. -/
structure Key where
  /-- The key itself, without quotes. -/
  name : Bytes
  /-- Where it stands, with its quotes. -/
  span : Span
deriving DecidableEq, Repr

/-- How a table came about. -/
inductive Origin where
  /-- Written in braces. -/
  | braces
  /-- Announced by a header of its own; the document itself counts as such. -/
  | header
  /-- On the way to a table with a header. -/
  | path
  /-- On the way of a dotted key, which made it or reached into it. -/
  | dotted
deriving DecidableEq, Repr

/-- Whether a table came about on the way to something else. -/
def Origin.isImplied : Origin → Bool
  | .path | .dotted => true
  | .braces | .header => false

/-- A value. Every value inside another carries its span. -/
inductive Value where
  /-- Text in quotes. -/
  | text (content : Bytes)
  /-- A truth value, number, date or time. -/
  | scalar (written : Bytes)
  /-- An array; `ofTables` if its items are tables with headers. -/
  | array (ofTables : Bool) (items : List (Span × Value))
  /-- A table; no key stands twice. -/
  | table (origin : Origin) (entries : List (Key × Span × Value))

/-- The keys of a table with their values. -/
abbrev Entries := List (Key × Span × Value)

namespace Entries

/-- The entry of that name. -/
def find? (entries : Entries) (name : Bytes) : Option (Key × Span × Value) :=
  List.find? (fun e => e.1.name == name) entries

/-- The entries with another value for a key that is there. -/
def replace (entries : Entries) (name : Bytes) (value : Value) : Entries :=
  entries.map fun e => if e.1.name == name then (e.1, e.2.1, value) else e

/-- The entries without that key. -/
def erase (entries : Entries) (name : Bytes) : Entries := entries.filter fun e => e.1.name != name

/-- The entries with a new key, which must not be there yet. -/
def insertNew (entries : Entries) (key : Key) (span : Span) (value : Value) : Option Entries :=
  match entries.find? key.name with
  | none => some (entries ++ [(key, span, value)])
  | some _ => none

/-- Changes the table at the end of a path, which starts at the table of the given origin and
entries. Tables missing on the way are made. `dotted` says that the path is that of a dotted key:
then every table on the way counts as made by it. -/
def changeAt (dotted : Bool) (change : Origin → Entries → Option Entries) :
    Origin → List Key → Entries → Option Entries
  | origin, [], entries => change origin entries
  | _, key :: path, entries =>
    match entries.find? key.name with
    | none => do
      let origin := if dotted then .dotted else .path
      let inner ← changeAt dotted change origin path []
      some (entries ++ [(key, key.span, .table origin inner)])
    | some (_, _, .table origin inner) =>
      if origin = .braces ∨ (dotted ∧ !origin.isImplied) then none
      else do
        let origin := if dotted then .dotted else origin
        let inner ← changeAt dotted change origin path inner
        some (entries.replace key.name (.table origin inner))
    | some (_, _, .array true items) =>
      match items.getLast? with
      | some (span, .table origin inner) => do
        let inner ← changeAt dotted change origin path inner
        some (entries.replace key.name
          (.array true (items.dropLast ++ [(span, .table origin inner)])))
      | _ => none
    | some _ => none

/-- Gives a key a value; the last part of the key is `key`, the parts before it are `path`. The
table that a dotted key ends in must be one of dotted keys, so it is never the last table of an
array. -/
def assign (entries : Entries) (path : List Key) (key : Key) (span : Span) (value : Value) :
    Option Entries :=
  entries.changeAt true (fun origin inner =>
    if path ≠ [] ∧ origin ≠ .dotted then none else inner.insertNew key span value) .header path

/-- Opens a table with a header. A table that stands there already is taken over if it is only on
the way to others; the header is then where it is written. -/
def openTable (entries : Entries) (path : List Key) (key : Key) (span : Span) : Option Entries :=
  entries.changeAt false (fun _ inner =>
    match inner.find? key.name with
    | none => some (inner ++ [(key, span, .table .header [])])
    | some (_, _, .table .path kept) =>
      some (inner.erase key.name ++ [(key, span, .table .header kept)])
    | some _ => none) .header path

/-- Opens one more table of an array of tables. -/
def openItem (entries : Entries) (path : List Key) (key : Key) (span : Span) : Option Entries :=
  entries.changeAt false (fun _ inner =>
    match inner.find? key.name with
    | none => some (inner ++ [(key, span, .array true [(span, .table .header [])])])
    | some (_, _, .array true items) =>
      some (inner.replace key.name (.array true (items ++ [(span, .table .header [])])))
    | some _ => none) .header path

/-- Changes the table that the latest header opened. -/
def changeOpen (entries : Entries) (header : List Key) (change : Entries → Option Entries) :
    Option Entries :=
  entries.changeAt false (fun _ inner => change inner) .header header

end Entries

end LogOrder.Toml
