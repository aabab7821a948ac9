import LogOrder.CommandLine.Reading
import LogOrder.Log.Reorder
import LogOrder.Settings.Resolved

/-!
# Running the program

One run from the command line to the exit status. The log is opened before the result is created,
and read only after, so a log that cannot be opened leaves the result untouched, and a file that is
named as both is empty when it is read. A result that nobody reads any more is not worth a
complaint.
-/

namespace LogOrder.Program

variable {m : Type → Type} [Monad m] [Host m]

/-- How a run ended. -/
inductive Ending where
  /-- The command line started no run. -/
  | refused (why : CommandLine.Refusal)
  /-- Completions were printed. -/
  | completions
  /-- Nobody reads the result any more, which is no failure. -/
  | hungUp
  /-- Something went wrong. -/
  | stopped (why : Fault)
  /-- The log was reordered. -/
  | finished (tally : Log.Tally)
deriving DecidableEq, Repr

/-- The status with which the program ends. -/
def Ending.exitCode : Ending → Nat
  | .refused why => why.exitCode
  | .stopped why => why.exitCode
  | .completions | .hungUp | .finished _ => 0

/-- The names of the two ends of a run. -/
def names (s : Settings) : Log.Names :=
  { input := if s.readsStandardInput then "<stdin>" else s.input
    output := s.output.getD "<stdout>" }

/-- The report of a run that went well. -/
def summary (tally : Log.Tally) (order : Policy) : String :=
  s!"logsort: {tally.lines} lines, {tally.entries} records, {tally.threads} threads, " ++
    s!"{tally.preambleLines} preamble lines, order {order.name}\n"

/-- Opens the log; what comes back reads it. -/
def openInput (s : Settings) : m (Except Fault (m Source)) := do
  if s.readsStandardInput then return .ok Host.standardInput
  else return (← Host.openFile s.input).mapError (.input s.input)

/-- Opens the result; what comes back writes it. -/
def openOutput (s : Settings) : m (Except Fault (Bytes → m (Except IoFault Unit))) := do
  match s.output with
  | none => return .ok Host.standardOutput
  | some path => return (← Host.createFile path).mapError (.output path)

/-- Reorders a log that is open. What was written before a fault is written all the same. -/
def transfer (s : Settings) (read : m Source) (write : Bytes → m (Except IoFault Unit)) :
    m (Except Fault Log.Tally) := do
  let source ← read
  match Log.reorder (names s) s.order source {} with
  | .error fault sink =>
    -- the fault of the log is the one to report, whatever becomes of this write
    let _ ← write sink.written
    return .error fault
  | .ok tally sink =>
    return (← write sink.written).map (fun _ => tally) |>.mapError (.output (names s).output)

/-- Does what the settings say. -/
def process (s : Settings) : m (Except Fault Log.Tally) := do
  match ← openInput s with
  | .error fault => return .error fault
  | .ok read =>
    match ← openOutput s with
    | .error fault => return .error fault
    | .ok write => transfer s read write

/-- Does what the arguments say, short of reporting a fault. -/
def perform (args : CommandLine.Arguments) : m (Except Fault Log.Tally) := do
  match ← Settings.resolve args with
  | .error fault => return .error fault
  | .ok s =>
    let result ← process s
    if let .ok tally := result then
      if s.verbose then Host.standardError (summary tally s.order)
    return result

/-- Says how a run went, and ends it. -/
def conclude : Except Fault Log.Tally → m Ending
  | .error fault => do
    if fault.isHangup then return .hungUp
    else
      Host.standardError s!"logsort: {fault.message}\n"
      return .stopped fault
  | .ok tally => return .finished tally

/-- Runs the program. -/
def run (args : List String) : m Ending := do
  Host.quietHangups
  match CommandLine.read args with
  | .error why =>
    let notice := (← Host.texts).notice why
    if why.exitCode = 0 then
      let _ ← Host.standardOutput (Bytes.ofString notice)
    else Host.standardError notice
    return .refused why
  | .ok args =>
    match args.completions with
    | some shell =>
      let script := (← Host.texts).script shell
      let _ ← Host.standardOutput (Bytes.ofString script)
      return .completions
    | none => conclude (← perform args)

end LogOrder.Program
