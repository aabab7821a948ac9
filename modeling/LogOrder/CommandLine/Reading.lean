import LogOrder.CommandLine.Arguments

/-!
# Reading a command line

Arguments are read from left to right. Switches take effect at once. An option or the name of the
log waits with its value until the next argument comes, and is only then looked at; so of two
faults the one that is noticed first is reported.

* `Switch` and `Slot` are the names that can be given.
* `Progress` is what is known between two arguments, `settle` looks at what waits.
* `read` reads a whole command line.
-/

namespace LogOrder.CommandLine

/-! ## Names -/

/-- An option without a value. -/
inductive Switch where
  /-- Order by time. -/
  | chrono
  /-- Keep threads together. -/
  | thread
  /-- Report what was done. -/
  | verbose
  /-- Show help. -/
  | help
  /-- Show the version. -/
  | version
deriving DecidableEq, Repr

/-- Something with a value. -/
inductive Slot where
  /-- The log, the one argument that is not an option. -/
  | logfile
  /-- A policy by name. -/
  | order
  /-- The file to write. -/
  | output
  /-- The settings file. -/
  | config
  /-- The shell to print completions for. -/
  | completions
deriving DecidableEq, Repr

/-- What an option's name stands for. -/
inductive Named where
  /-- A switch. -/
  | switch (s : Switch)
  /-- An option with a value. -/
  | slot (s : Slot)
deriving DecidableEq, Repr

/-- The option of a long name, given without its dashes. -/
def ofLong? (name : String) : Option Named :=
  match name with
  | "chrono" => some (.switch .chrono)
  | "thread" => some (.switch .thread)
  | "verbose" => some (.switch .verbose)
  | "help" => some (.switch .help)
  | "version" => some (.switch .version)
  | "order" => some (.slot .order)
  | "output" => some (.slot .output)
  | "config" => some (.slot .config)
  | "completions" => some (.slot .completions)
  | _ => none

/-- The option of a short name. -/
def ofShort? (c : Char) : Option Named :=
  match c with
  | 'c' => some (.switch .chrono)
  | 't' => some (.switch .thread)
  | 'v' => some (.switch .verbose)
  | 'h' => some (.switch .help)
  | 'V' => some (.switch .version)
  | 'o' => some (.slot .output)
  | _ => none

/-- The name of a slot in reports. -/
def Slot.name : Slot → String
  | .logfile => "<LOGFILE>"
  | .order => "--order"
  | .output => "--output"
  | .config => "--config"
  | .completions => "--completions"

/-! ## Taking options -/

/-- What is known between two arguments. -/
structure Progress where
  /-- What has taken effect. -/
  taken : Arguments := {}
  /-- What waits, with its value if that has come. -/
  waiting : Option (Slot × Option String) := none
deriving DecidableEq, Repr

/-- Whether a slot has a value that took effect. -/
def Arguments.has (a : Arguments) : Slot → Bool
  | .logfile => a.logfile.isSome
  | .order => a.order.isSome
  | .output => a.output.isSome
  | .config => a.config.isSome
  | .completions => a.completions.isSome

/-- A path may be anything but empty. -/
def path? (value : String) : Option String := if value.isEmpty then none else some value

/-- The arguments with a value in a slot, if the slot takes the value. -/
def Arguments.fill? (a : Arguments) (slot : Slot) (value : String) : Option Arguments :=
  match slot with
  | .logfile => (path? value).map fun p => { a with logfile := some p }
  | .order => (Policy.choose? false value).map fun p => { a with order := some p }
  | .output => (path? value).map fun p => { a with output := some p }
  | .config => (path? value).map fun p => { a with config := some p }
  | .completions => (Shell.choose? value).map fun s => { a with completions := some s }

/-- Gives a slot its value. A slot takes effect once only, and that is noticed before the value is
looked at. -/
def Arguments.take (a : Arguments) (slot : Slot) : Option String → Except Refusal Arguments
  | none => .error (.invalidValue slot.name)
  | some value =>
    if a.has slot then .error (.argumentConflict slot.name)
    else match a.fill? slot value with
      | some a => .ok a
      | none => .error (.invalidValue slot.name)

/-- Looks at what waits, and lets it take effect. -/
def Progress.settle (p : Progress) : Except Refusal Progress :=
  match p.waiting with
  | none => .ok p
  | some (slot, value) => do
    let taken ← p.taken.take slot value
    .ok { taken, waiting := none }

/-- Lets a switch take effect, after what waits. A switch is given once only. -/
def Progress.turnOn (p : Progress) (switch : Switch) : Except Refusal Progress := do
  let p ← p.settle
  let a := p.taken
  match switch with
  | .help => .error .displayHelp
  | .version => .error .displayVersion
  | .chrono =>
    if a.chrono then .error (.argumentConflict "--chrono")
    else .ok { p with taken := { a with chrono := true } }
  | .thread =>
    if a.thread then .error (.argumentConflict "--thread")
    else .ok { p with taken := { a with thread := true } }
  | .verbose =>
    if a.verbose then .error (.argumentConflict "--verbose")
    else .ok { p with taken := { a with verbose := true } }

/-- Starts an option with a value: one that is attached takes effect at once, any other is waited
for. -/
def Progress.start (p : Progress) (slot : Slot) (attached : Option String) :
    Except Refusal Progress := do
  let p ← p.settle
  match attached with
  | some value => do
    let taken ← p.taken.take slot (some value)
    .ok { p with taken }
  | none => .ok { p with waiting := some (slot, none) }

/-- Takes the name of the log. There is only one. -/
def Progress.position (p : Progress) (value : String) : Except Refusal Progress := do
  -- a second name is refused before what waits is looked at
  let given := p.taken.logfile.isSome || p.waiting.any fun (slot, _) => slot = .logfile
  if given then .error (.unknownArgument value)
  else do
    let p ← p.settle
    .ok { p with waiting := some (.logfile, some value) }

/-- Takes an argument that is no option: the value that is waited for, or else the log. -/
def Progress.value (p : Progress) (value : String) : Except Refusal Progress :=
  match p.waiting with
  | some (slot, none) => .ok { p with waiting := some (slot, some value) }
  | _ => p.position value

/-! ## Arguments -/

/-- Takes a long option, given without its dashes: a name, with a value after an equals sign or
without. A name that is not known is refused whatever waits. -/
def Progress.long (p : Progress) (arg : List Char) : Except Refusal Progress :=
  let name := String.ofList (arg.takeWhile (· != '='))
  let attached : Option String := match arg.dropWhile (· != '=') with
    | _ :: value => some (String.ofList value)
    | [] => none
  match ofLong? name, attached with
  | none, _ => .error (.unknownArgument ("--" ++ name))
  | some (.switch _), some _ => .error (.tooManyValues ("--" ++ name))
  | some (.switch s), none => p.turnOn s
  | some (.slot s), _ => p.start s attached

/-- Takes short options that share a dash. The first that has a value takes all the rest for it,
less an equals sign at its head. -/
def Progress.short (p : Progress) : List Char → Except Refusal Progress
  | [] => .ok p
  | c :: rest =>
    match ofShort? c with
    | none => .error (.unknownArgument ("-" ++ String.singleton c))
    | some (.switch s) => do
      let p ← p.turnOn s
      p.short rest
    | some (.slot s) =>
      match rest with
      | [] => p.start s none
      | '=' :: value => p.start s (some (String.ofList value))
      | value => p.start s (some (String.ofList value))

/-- Takes one argument. A single dash is a value like any other. -/
def Progress.argument (p : Progress) (arg : String) : Except Refusal Progress :=
  match arg.toList with
  | '-' :: '-' :: long => p.long long
  | '-' :: c :: rest => p.short (c :: rest)
  | _ => p.value arg

/-- Takes all arguments. After two dashes alone, none is an option or the value of one. -/
def Progress.arguments (p : Progress) : List String → Except Refusal Progress
  | [] => .ok p
  | arg :: rest =>
    if arg = "--" then rest.foldlM Progress.position p
    else do
      let p ← p.argument arg
      p.arguments rest

/-- Checks what only the whole command line can show: a policy by name excludes the switches, and
there must be a log, unless completions are asked for. -/
def Arguments.checked (a : Arguments) : Except Refusal Arguments :=
  if a.order.isSome && (a.chrono || a.thread) then .error (.argumentConflict "--order")
  else if a.logfile.isNone && a.completions.isNone then .error .missingRequired
  else .ok a

/-- Reads a command line, given without the name of the program. -/
def read (args : List String) : Except Refusal Arguments := do
  let p ← Progress.arguments {} args
  let p ← p.settle
  p.taken.checked

end LogOrder.CommandLine
