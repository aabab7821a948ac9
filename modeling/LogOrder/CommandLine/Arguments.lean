import LogOrder.Policy

/-!
# Arguments

What a command line asks for, once it has been read, and the ways in which one can be refused.
-/

namespace LogOrder.CommandLine

/-- A shell that completions can be printed for. -/
inductive Shell where
  /-- Bash. -/
  | bash
  /-- Elvish. -/
  | elvish
  /-- Fish. -/
  | fish
  /-- PowerShell. -/
  | powershell
  /-- Zsh. -/
  | zsh
deriving DecidableEq, Repr

/-- All shells. -/
def Shell.all : List Shell := [.bash, .elvish, .fish, .powershell, .zsh]

/-- The name of a shell, as users write it. -/
def Shell.name : Shell → String
  | .bash => "bash"
  | .elvish => "elvish"
  | .fish => "fish"
  | .powershell => "powershell"
  | .zsh => "zsh"

/-- The shell that a word chooses. -/
def Shell.choose? (s : String) : Option Shell :=
  Choice.find? (fun shell => { name := shell.name }) Shell.all false s

/-- What a command line asks for. -/
structure Arguments where
  /-- The log to read. -/
  logfile : Option String := none
  /-- Whether to order by time. -/
  chrono : Bool := false
  /-- Whether to keep threads together. -/
  thread : Bool := false
  /-- A policy, by name. -/
  order : Option Policy := none
  /-- The file to write. -/
  output : Option String := none
  /-- The settings file. -/
  config : Option String := none
  /-- Whether to report what was done. -/
  verbose : Bool := false
  /-- The shell to print completions for. -/
  completions : Option Shell := none
deriving DecidableEq, Repr

/-- The policy asked for, if any: by name, or by the switches. -/
def Arguments.requestedOrder (a : Arguments) : Option Policy :=
  match a.order with
  | some policy => some policy
  | none => if a.chrono || a.thread then some (Policy.ofSwitches a.chrono a.thread) else none

/-- Why a command line starts no run. -/
inductive Refusal where
  /-- An argument that has no place. -/
  | unknownArgument (arg : String)
  /-- A value that is missing, or that the option does not take. -/
  | invalidValue (option : String)
  /-- A value for a switch, which takes none. -/
  | tooManyValues (option : String)
  /-- An option given twice, or together with one that excludes it. -/
  | argumentConflict (option : String)
  /-- The log is not named. -/
  | missingRequired
  /-- The user asks for help. -/
  | displayHelp
  /-- The user asks for the version. -/
  | displayVersion
deriving DecidableEq, Repr

/-- The status with which the program ends; help and version are no failures. -/
def Refusal.exitCode : Refusal → Nat
  | .displayHelp | .displayVersion => 0
  | _ => 2

end LogOrder.CommandLine
