import LogOrder.CommandLine.Messages
import LogOrder.FileTree
import LogOrder.Source

/-!
# Hosts

The program meets everything outside it through a host: environment, files and standard streams of
the machine it runs on, and the texts of the library that reads its command line. `World` is a host
that is a plain value, so that what a run does can be computed and stated.

Opening a file and reading it are two steps, with the second handed out by the first: a file can
change in between, and does if the program opens it for writing too.
-/

namespace LogOrder

/-- What a program needs from outside. -/
class Host (m : Type → Type) where
  /-- Lets a write that nobody reads end the program without a word, on machines that can do so. -/
  quietHangups : m Unit
  /-- The texts of the library that reads command lines. -/
  texts : m CommandLine.Texts
  /-- The value of an environment variable, if it is set. -/
  environment : String → m (Option String)
  /-- Whether there is a file or directory of that name. -/
  present : String → m Bool
  /-- The bytes of a file. -/
  readFile : String → m (Except IoFault Bytes)
  /-- Opens a file; what comes back reads it. -/
  openFile : String → m (Except IoFault (m Source))
  /-- Reads the standard input. -/
  standardInput : m Source
  /-- Makes an empty file, or empties the one that is there; what comes back writes to it. -/
  createFile : String → m (Except IoFault (Bytes → m (Except IoFault Unit)))
  /-- Writes to the standard output. -/
  standardOutput : Bytes → m (Except IoFault Unit)
  /-- Writes to the standard error stream. -/
  standardError : String → m Unit

/-- A machine as a value. Whatever is written there is read by somebody. -/
structure World where
  /-- The texts of the library that reads command lines. -/
  texts : CommandLine.Texts := .bare
  /-- Files and directories. -/
  tree : FileTree := {}
  /-- The working directory. -/
  working : Path := []
  /-- The environment variables that are set. -/
  environment : List (String × String) := []
  /-- What the standard input holds. -/
  input : Bytes := []
  /-- What was written to the standard output. -/
  output : Bytes := []
  /-- What was written to the standard error stream. -/
  errors : String := ""

namespace World

/-- What reading a place gives. A directory can be opened but not read. -/
def sourceAt (w : World) (path : Path) : Source :=
  match w.tree.find? path with
  | some (.file content) => .ofBytes content
  | some .directory => { pieces := [], failure := some .isDirectory }
  | none => { pieces := [], failure := some .notFound }

/-- The bytes of the file of that name. -/
def readFile (w : World) (name : String) : Except IoFault Bytes := do
  match ← w.tree.open? w.working name with
  | (_, .file content) => .ok content
  | (_, .directory) => .error .isDirectory

instance : Host (StateM World) where
  quietHangups := return ()
  texts := return (← get).texts
  environment name := return (← get).environment.lookup name
  present name := return ((← get).tree.open? (← get).working name).isOk
  readFile name := return (← get).readFile name
  openFile name := do
    match (← get).tree.open? (← get).working name with
    | .ok (path, _) => return .ok (return (← get).sourceAt path)
    | .error why => return .error why
  standardInput := return .ofBytes (← get).input
  createFile name := do
    match (← get).tree.create (← get).working name with
    | .ok (path, tree) =>
      modify fun w => { w with tree }
      return .ok fun bs => do
        modify fun w => { w with tree := w.tree.append path bs }
        return .ok ()
    | .error why => return .error why
  standardOutput bs := do
    modify fun w => { w with output := w.output ++ bs }
    return .ok ()
  standardError text := modify fun w => { w with errors := w.errors ++ text }

end World

end LogOrder
