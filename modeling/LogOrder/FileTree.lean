import LogOrder.IoFault
import LogOrder.Text.Bytes

/-!
# File trees

The files and directories of a machine, and how the name of a file leads to one of them.

A name is a list of parts with slashes between, which are followed one by one from the root or
from the working directory. Every part but the last has to lead to a directory, and so has the
last if a slash follows it.

* `FileTree.resolve` follows a name.
* `FileTree.create` makes an empty file, or empties the one that is there.
* `find?_put` and `find?_put_of_ne`: writing one file changes that file alone.
-/

namespace LogOrder

/-- The parts of a place in the tree, from the root down. -/
abbrev Path := List String

/-- What stands at a place. -/
inductive Node where
  /-- A file with its bytes. -/
  | file (content : Bytes)
  /-- A directory. -/
  | directory
deriving DecidableEq, Repr

/-- Files and directories by their places. The root is always a directory. -/
structure FileTree where
  /-- What stands where; the first entry for a place counts. -/
  nodes : List (Path × Node) := []
deriving DecidableEq, Repr

namespace FileTree

/-- What stands at a place. -/
def find? (t : FileTree) (path : Path) : Option Node :=
  if path = [] then some .directory else t.nodes.lookup path

/-- The tree with something else at a place. -/
def put (t : FileTree) (path : Path) (node : Node) : FileTree :=
  { nodes := (path, node) :: t.nodes.filter fun n => n.1 != path }

/-! ## Following names -/

/-- Where a name leads. -/
inductive Spot where
  /-- To something that is there. -/
  | present (path : Path) (node : Node)
  /-- To a free place in a directory. -/
  | vacant (path : Path)
  /-- To no directory, although a slash at the end of the name asks for one; with the fault of a
  name that was meant to be read. -/
  | noDirectory (fault : IoFault)
deriving DecidableEq, Repr

/-- The parts of a name, which slashes stand between. -/
def splitParts : List Char → List (List Char)
  | [] => [[]]
  | c :: cs =>
    if c = '/' then [] :: splitParts cs
    else match splitParts cs with
      | [] => [[c]]
      | part :: parts => (c :: part) :: parts

/-- Follows the parts of a name from the directory `here`; `slash` says that the name ends with a
slash. -/
def follow (t : FileTree) (slash : Bool) : (here : Path) → List String → Except IoFault Spot
  | here, [] => .ok (.present here .directory)
  | here, part :: rest =>
    if part = "." then t.follow slash here rest
    else if part = ".." then t.follow slash here.dropLast rest
    else
      -- a slash after the last part counts when the name is used: `create` and `open?` differ
      let fails (fault : IoFault) : Except IoFault Spot :=
        if rest = [] ∧ slash then .ok (.noDirectory fault) else .error fault
      let next := here ++ [part]
      if 255 < part.utf8ByteSize then fails .nameTooLong
      else match t.find? next with
        | some .directory => t.follow slash next rest
        | some (.file content) =>
          if rest = [] ∧ !slash then .ok (.present next (.file content)) else fails .notDirectory
        | none => if rest = [] ∧ !slash then .ok (.vacant next) else fails .notFound

/-- Follows a name from the working directory, or from the root if it starts with a slash. -/
def resolve (t : FileTree) (working : Path) (name : String) : Except IoFault Spot :=
  let cs := name.toList
  if cs = [] then .error .notFound
  else if cs.contains '\x00' then .error (.other "file name contained an unexpected NUL byte")
  else if 4095 < name.utf8ByteSize then .error .nameTooLong
  else
    let start := if cs.head? = some '/' then [] else working
    let parts := (splitParts cs).filter (· != [])
    t.follow (cs.getLast? = some '/') start (parts.map String.ofList)

/-- What a name leads to, for a name of something that is there. -/
def open? (t : FileTree) (working : Path) (name : String) : Except IoFault (Path × Node) := do
  match ← t.resolve working name with
  | .present path node => .ok (path, node)
  | .vacant _ => .error .notFound
  | .noDirectory fault => .error fault

/-- Makes an empty file of that name, or empties the file that is there. No file has a name with a
slash at its end, whatever stands there. -/
def create (t : FileTree) (working : Path) (name : String) : Except IoFault (Path × FileTree) := do
  match ← t.resolve working name with
  | .present path (.file _) | .vacant path => .ok (path, t.put path (.file []))
  | .present _ .directory | .noDirectory _ => .error .isDirectory

/-- Adds bytes at the end of a file. -/
def append (t : FileTree) (path : Path) (bs : Bytes) : FileTree :=
  match t.find? path with
  | some (.file content) => t.put path (.file (content ++ bs))
  | _ => t

theorem find?_put (t : FileTree) {path : Path} (h : path ≠ []) (node : Node) :
    (t.put path node).find? path = some node := by
  simp [find?, put, h]

theorem find?_put_of_ne (t : FileTree) {path other : Path} (h : other ≠ path) (node : Node) :
    (t.put path node).find? other = t.find? other := by
  unfold find? put
  split
  · rfl
  · simp only [List.lookup_cons, beq_false_of_ne h]
    induction t.nodes with
    | nil => rfl
    | cons n ns ih =>
      obtain ⟨place, was⟩ := n
      by_cases hn : place = path
      · subst hn
        simp [List.lookup_cons, beq_false_of_ne h, ih]
      · simp [hn, List.lookup_cons, ih]

end FileTree

end LogOrder
