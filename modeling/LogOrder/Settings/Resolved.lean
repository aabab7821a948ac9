import LogOrder.CommandLine.Arguments
import LogOrder.Fault
import LogOrder.Text.Utf8
import LogOrder.Program.Host

/-!
# Settings

What a run is to do comes from the command line, then from the settings file, then from what is
standard. The settings file is the one that the command line names, which then has to be there; or
else the user's own, which need not be.

* `settingsPath` says which file that is.
* `resolve` reads it and puts everything together.
-/

namespace LogOrder

/-- What a run is to do. -/
structure Settings where
  /-- The policy. -/
  order : Policy := .standard
  /-- The log; a dash stands for the standard input. -/
  input : String := ""
  /-- The file to write; the standard output if there is none. -/
  output : Option String := none
  /-- Whether to report what was done. -/
  verbose : Bool := false
deriving DecidableEq, Repr

namespace Settings

/-- Whether the log comes from the standard input. -/
def readsStandardInput (s : Settings) : Bool := s.input == "-" || s.input.isEmpty

/-- A name inside a directory. -/
def inside (directory name : String) : String :=
  if directory.isEmpty then name
  else if directory.toList.getLast? = some '/' then directory ++ name
  else directory ++ "/" ++ name

/-- The settings file of the user, from the two variables that tell where such files are. A
variable that is set counts even if it is empty. -/
def userPath (configHome home : Option String) : String :=
  match configHome, home with
  | some dir, _ => inside (inside dir "logsort") "config.toml"
  | none, some dir => inside (inside (inside dir ".config") "logsort") "config.toml"
  | none, none => ".config/logsort/config.toml"

/-- The settings file of a run. -/
def settingsPath (args : CommandLine.Arguments) (configHome home : Option String) : String :=
  match args.config with
  | some path => path
  | none => userPath configHome home

/-- The settings in the bytes of a file. -/
def load (path : String) : Except IoFault Bytes → Except Fault FileSettings
  | .error why => .error (.config s!"cannot read config file {path}: {why.message}")
  | .ok source =>
    if Utf8.valid source then (FileSettings.read source).mapError .toml
    else .error (.config s!"cannot read config file {path}: {IoFault.notUtf8.message}")

/-- Puts the command line over the settings of a file. -/
def merge (args : CommandLine.Arguments) (file : FileSettings) : Settings :=
  { order := args.requestedOrder.getD (file.order.getD .standard)
    input := args.logfile.getD "-"
    output := args.output
    verbose := args.verbose }

/-- Finds out what a run is to do. -/
def resolve {m : Type → Type} [Monad m] [Host m] (args : CommandLine.Arguments) :
    m (Except Fault Settings) := do
  let configHome ← Host.environment "XDG_CONFIG_HOME"
  let home ← Host.environment "HOME"
  let path := settingsPath args configHome home
  if ← Host.present path then
    return (load path (← Host.readFile path)).map (merge args)
  else if args.config.isSome then
    return .error (.config s!"config file {path} does not exist")
  else
    return .ok (merge args {})

end Settings

end LogOrder
