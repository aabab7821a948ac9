import LogOrder.IoFault
import LogOrder.Log.Scan
import LogOrder.Settings.File

/-!
# Faults

Everything that can stop a run, by cause, with the wording that is reported and the status with
which the program ends: 1 for the settings, 2 for the log.
-/

namespace LogOrder

/-- Why a run stops. -/
inductive Fault where
  /-- The settings file cannot be found or read. -/
  | config (text : String)
  /-- The settings file does not hold settings. -/
  | toml (fault : Settings.FileFault)
  /-- The log cannot be opened or read. -/
  | input (path : String) (why : IoFault)
  /-- The result cannot be written. -/
  | output (path : String) (why : IoFault)
  /-- A line of the log opens with a stamp that is no date. -/
  | stamp (line : Nat) (text reason : String)
deriving DecidableEq, Repr

namespace Fault

/-- The fault of a line whose stamp is no date. -/
def ofBadStamp (bad : Log.BadStamp) : Fault :=
  .stamp bad.line bad.stamp.toText bad.why.message

/-- Whether nobody reads the result any more. -/
def isHangup : Fault → Bool
  | .output _ .brokenPipe => true
  | _ => false

/-- The wording of a fault. -/
def message : Fault → String
  | .config text => s!"configuration error: {text}"
  | .toml fault => s!"config file error: {fault.report}"
  | .input path why => s!"cannot read {path}: {why.message}"
  | .output path why => s!"cannot write {path}: {why.message}"
  | .stamp line text reason => s!"invalid timestamp on line {line} ({text}): {reason}"

/-- The status with which the program ends. -/
def exitCode : Fault → Nat
  | .config _ | .toml _ => 1
  | .input _ _ | .output _ _ | .stamp _ _ _ => 2

end Fault

end LogOrder
