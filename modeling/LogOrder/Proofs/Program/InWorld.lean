import LogOrder.Program.Run
import LogOrder.Proofs.FileTree
import LogOrder.Proofs.Log.FullSink
import LogOrder.Proofs.Settings.Loaded

/-!
# Runs in a world

A world is a value, so a run in it is a function: how the run ends and what the world is afterwards,
by what stands where. Each step of the program has one equation here for each thing it can do.

* `World.settings?` and `World.place?`: which settings are found, and where the log is;
* `run_process_of_standard`, `run_process_of_created`: what is written, and to which place;
* `runIn_of_refused`, `runIn_of_completions`, `runIn_of_misconfigured`, `runIn_of_settings`: a whole
  run, by what its arguments ask for and how loading its settings ends;
* `runIn_ne_hungUp`: what is written in a world is read, so no run ends for want of a reader.
-/

namespace LogOrder

namespace World

/-- The settings that arguments and settings file make together. -/
def settings? (w : World) (a : CommandLine.Arguments) : Except Fault Settings :=
  ((Settings.resolve a : StateM World (Except Fault Settings)).run w).1

/-- Where the log is, if it can be opened: at no place in the tree when it comes from the standard
input. -/
def place? (w : World) (s : Settings) : Except IoFault (Option Path) :=
  if s.readsStandardInput then .ok none
  else (w.tree.open? w.working s.input).map fun found => some found.1

/-- What reading gives there. -/
def logAt (w : World) : Option Path → Source
  | none => .ofBytes w.input
  | some path => w.sourceAt path

/-- Reads what stands at a place when it is read. -/
def readAt (place : Option Path) : StateM World Source := fun w => (w.logAt place, w)

/-- Writes at the end of a file. -/
def writeAt (path : Path) (bs : Bytes) : StateM World (Except IoFault Unit) :=
  fun w => (.ok (), { w with tree := w.tree.append path bs })

/-- The world with more bytes on the standard output. -/
def print (w : World) (bs : Bytes) : World := { w with output := w.output ++ bs }

/-- The world with more text on the standard error stream. -/
def say (w : World) (text : String) : World := { w with errors := w.errors ++ text }

theorem print_nil (w : World) : w.print [] = w := by
  rw [print, List.append_nil]

theorem say_empty (w : World) : w.say "" = w := by
  rw [say, String.append_empty]

end World

namespace Program

open Log

variable {w : World} {s : Settings} {a : CommandLine.Arguments} {args : List String}

/-- A run of the program in a world. -/
def runIn (args : List String) (w : World) : Ending × World :=
  (run args : StateM World Ending).run w

/-- What follows a step goes on in the world that the step leaves. -/
theorem run_bind_of_run {α β : Type} {x : StateM World α} {f : α → StateM World β} {v : World}
    {answer : α} (h : x.run w = (answer, v)) : (x >>= f).run w = (f answer).run v := by
  rw [StateT.run_bind, h]
  rfl

/-- What settings are found, and that nothing changes meanwhile. -/
theorem run_resolve_eq (a : CommandLine.Arguments) (w : World) :
    (Settings.resolve a : StateM World (Except Fault Settings)).run w =
      (let path := Settings.settingsPath a (w.environment.lookup "XDG_CONFIG_HOME")
          (w.environment.lookup "HOME")
        if (w.tree.open? w.working path).isOk then
          (Settings.load path (w.readFile path)).map (Settings.merge a)
        else if a.config.isSome then .error (.config s!"config file {path} does not exist")
        else .ok (Settings.merge a {}), w) := by
  have hset : ∀ name, (Host.environment name : StateM World _).run w =
      (w.environment.lookup name, w) := fun _ => rfl
  have hpresent : ∀ name, (Host.present name : StateM World _).run w =
      ((w.tree.open? w.working name).isOk, w) := fun _ => rfl
  rw [Settings.resolve, run_bind_of_run (hset _), run_bind_of_run (hset _)]
  dsimp only
  rw [run_bind_of_run (hpresent _)]
  split
  · rfl
  · split <;> rfl

theorem run_resolve (a : CommandLine.Arguments) (w : World) :
    (Settings.resolve a : StateM World (Except Fault Settings)).run w = (w.settings? a, w) := by
  rw [World.settings?, run_resolve_eq]

/-- Settings come from a file, or there is no file, which is a fault or not. -/
theorem settings?_cases (w : World) (a : CommandLine.Arguments) :
    (∃ path, w.settings? a =
      (Settings.load path (w.readFile path)).map (Settings.merge a)) ∨
    (∃ text, w.settings? a = .error (.config text)) ∨
    w.settings? a = .ok (Settings.merge a {}) := by
  rw [World.settings?, run_resolve_eq]
  dsimp only
  split
  · exact .inl ⟨_, rfl⟩
  · split
    · exact .inr (.inl ⟨_, rfl⟩)
    · exact .inr (.inr rfl)

theorem exists_eq_merge (h : w.settings? a = .ok s) : ∃ file, s = Settings.merge a file := by
  rcases settings?_cases w a with ⟨path, hfile⟩ | ⟨text, hmissing⟩ | hnone
  · rw [hfile, Settings.map_eq_ok_iff] at h
    obtain ⟨file, -, rfl⟩ := h
    exact ⟨file, rfl⟩
  · rw [hmissing] at h
    cases h
  · rw [hnone] at h
    exact ⟨{}, (Except.ok.inj h).symm⟩

/-- A settings file has a say in the order alone. -/
theorem of_settings? {name : String} (h : w.settings? a = .ok s) (hname : a.logfile = some name) :
    s.input = name ∧ s.output = a.output ∧ s.verbose = a.verbose := by
  obtain ⟨file, rfl⟩ := exists_eq_merge h
  refine ⟨?_, rfl, rfl⟩
  rw [Settings.merge, hname]
  rfl

theorem exitCode_of_load {path : String} {read : Except IoFault Bytes} {fault : Fault}
    (h : Settings.load path read = .error fault) : fault.exitCode = 1 := by
  cases read with
  | error why =>
    cases h
    rfl
  | ok source =>
    rw [Settings.load] at h
    split at h
    · cases hfile : Settings.FileSettings.read source with
      | error why =>
        rw [hfile] at h
        cases h
        rfl
      | ok file =>
        rw [hfile] at h
        cases h
    · cases h
      rfl

theorem exitCode_of_settings? {fault : Fault} (h : w.settings? a = .error fault) :
    fault.exitCode = 1 := by
  rcases settings?_cases w a with ⟨path, hfile⟩ | ⟨text, hmissing⟩ | hnone
  · rw [hfile, Settings.map_eq_error_iff] at h
    exact exitCode_of_load h
  · rw [hmissing] at h
    cases h
    rfl
  · rw [hnone] at h
    cases h

/-! ## Opening -/

theorem run_openFile_of_error {name : String} {why : IoFault}
    (h : w.tree.open? w.working name = .error why) :
    (Host.openFile name : StateM World _).run w = (.error why, w) := by
  simp only [Host.openFile, StateT.run_bind, StateT.run_get, h, pure_bind]
  rfl

theorem run_openFile_of_ok {name : String} {found : Path × Node}
    (h : w.tree.open? w.working name = .ok found) :
    (Host.openFile name : StateM World _).run w = (.ok (World.readAt (some found.1)), w) := by
  simp only [Host.openFile, StateT.run_bind, StateT.run_get, h, pure_bind]
  rfl

theorem readsStandardInput_iff (hne : s.input ≠ "") :
    s.readsStandardInput = true ↔ s.input = "-" := by
  simp [Settings.readsStandardInput, hne]

theorem place?_eq_ok_none_iff : w.place? s = .ok none ↔ s.readsStandardInput = true := by
  rw [World.place?]
  split
  · next h => simp [h]
  · next h =>
    cases w.tree.open? w.working s.input with
    | error why => simp [Except.map, h]
    | ok found => simp [Except.map, h]

theorem run_openInput_of_error {why : IoFault} (h : w.place? s = .error why) :
    (openInput s : StateM World _).run w = (.error (.input s.input why), w) := by
  unfold World.place? at h
  split at h
  · cases h
  · next hs =>
    rw [openInput, if_neg hs]
    cases hopen : w.tree.open? w.working s.input with
    | ok found =>
      rw [hopen] at h
      cases h
    | error other =>
      rw [hopen] at h
      cases h
      rw [run_bind_of_run (run_openFile_of_error hopen)]
      rfl

theorem run_openInput_of_ok {place : Option Path} (h : w.place? s = .ok place) :
    (openInput s : StateM World _).run w = (.ok (World.readAt place), w) := by
  unfold World.place? at h
  split at h
  · next hs =>
    cases h
    rw [openInput, if_pos hs]
    rfl
  · next hs =>
    rw [openInput, if_neg hs]
    cases hopen : w.tree.open? w.working s.input with
    | error why =>
      rw [hopen] at h
      cases h
    | ok found =>
      rw [hopen] at h
      cases h
      rw [run_bind_of_run (run_openFile_of_ok hopen)]
      rfl

theorem run_createFile_of_error {name : String} {why : IoFault}
    (h : w.tree.create w.working name = .error why) :
    (Host.createFile name : StateM World _).run w = (.error why, w) := by
  simp only [Host.createFile, StateT.run_bind, StateT.run_get, h, pure_bind]
  rfl

theorem run_createFile_of_ok {name : String} {path : Path} {tree : FileTree}
    (h : w.tree.create w.working name = .ok (path, tree)) :
    (Host.createFile name : StateM World _).run w =
      (.ok (World.writeAt path), { w with tree }) := by
  simp only [Host.createFile, StateT.run_bind, StateT.run_get, h, pure_bind]
  rfl

theorem run_openOutput_of_none (h : s.output = none) :
    (openOutput s : StateM World _).run w =
      (.ok Host.standardOutput, w) := by
  rw [openOutput, h]
  rfl

theorem run_openOutput_of_error {name : String} {why : IoFault} (h : s.output = some name)
    (hcreate : w.tree.create w.working name = .error why) :
    (openOutput s : StateM World _).run w = (.error (.output name why), w) := by
  rw [openOutput, h]
  dsimp only
  rw [run_bind_of_run (run_createFile_of_error hcreate)]
  rfl

theorem run_openOutput_of_ok {name : String} {path : Path} {tree : FileTree}
    (h : s.output = some name) (hcreate : w.tree.create w.working name = .ok (path, tree)) :
    (openOutput s : StateM World _).run w =
      (.ok (World.writeAt path), { w with tree }) := by
  rw [openOutput, h]
  dsimp only
  rw [run_bind_of_run (run_createFile_of_ok hcreate)]
  rfl

/-! ## Reordering -/

/-- What is written before a fault is written all the same. -/
theorem run_transfer {read : StateM World Source}
    {write : Bytes → StateM World (Except IoFault Unit)} {source : Source} {after : Bytes → World}
    (hread : read.run w = (source, w)) (hwrite : ∀ bs, (write bs).run w = (.ok (), after bs)) :
    (transfer s read write).run w = (answer (reorder (names s) s.order source {}),
      after (left (reorder (names s) s.order source {})).written) := by
  rw [transfer, run_bind_of_run hread]
  cases hrun : reorder (names s) s.order source {} with
  | ok tally sink =>
    dsimp only
    rw [run_bind_of_run (hwrite _)]
    rfl
  | error fault sink =>
    dsimp only
    rw [run_bind_of_run (hwrite _)]
    rfl

/-- A log that cannot be opened changes nothing. -/
theorem run_process_of_error {why : IoFault} (h : w.place? s = .error why) :
    (process s : StateM World _).run w = (.error (.input s.input why), w) := by
  rw [process, run_bind_of_run (run_openInput_of_error h)]
  rfl

theorem run_process_of_standard {place : Option Path} (h : w.place? s = .ok place)
    (houtput : s.output = none) :
    (process s : StateM World _).run w =
      (answer (reorder (names s) s.order (w.logAt place) {}),
        w.print (left (reorder (names s) s.order (w.logAt place) {})).written) := by
  rw [process, run_bind_of_run (run_openInput_of_ok h)]
  dsimp only
  rw [run_bind_of_run (run_openOutput_of_none houtput)]
  have hread : (World.readAt place).run w = (w.logAt place, w) := rfl
  have hwrite : ∀ bs, (Host.standardOutput bs : StateM World _).run w =
      (.ok (), w.print bs) := fun _ => rfl
  exact run_transfer hread hwrite

theorem run_process_of_not_created {place : Option Path} {name : String} {why : IoFault}
    (h : w.place? s = .ok place) (houtput : s.output = some name)
    (hcreate : w.tree.create w.working name = .error why) :
    (process s : StateM World _).run w = (.error (.output name why), w) := by
  rw [process, run_bind_of_run (run_openInput_of_ok h)]
  dsimp only
  rw [run_bind_of_run (run_openOutput_of_error houtput hcreate)]
  rfl

/-- What is read is what stands there after the result has been created. -/
theorem run_process_of_created {place : Option Path} {name : String} {path : Path}
    {tree : FileTree} (h : w.place? s = .ok place) (houtput : s.output = some name)
    (hcreate : w.tree.create w.working name = .ok (path, tree)) :
    (process s : StateM World _).run w =
      (answer (reorder (names s) s.order (World.logAt { w with tree } place) {}),
        { w with
          tree := tree.append path (left (reorder (names s) s.order
            (World.logAt { w with tree } place) {})).written }) := by
  rw [process, run_bind_of_run (run_openInput_of_ok h)]
  dsimp only
  rw [run_bind_of_run (run_openOutput_of_ok houtput hcreate)]
  have hread : (World.readAt place).run { w with tree } =
      (World.logAt { w with tree } place, { w with tree }) := rfl
  have hwrite : ∀ bs, (World.writeAt path bs).run { w with tree } =
      (.ok (), { w with tree := tree.append path bs }) := fun _ => rfl
  exact run_transfer hread hwrite

/-! ## Nobody hangs up -/

/-- Faults of settings have nothing to do with the result. -/
theorem isHangup_of_settings? {fault : Fault} (h : w.settings? a = .error fault) :
    fault.isHangup = false := by
  have hcode := exitCode_of_settings? h
  cases fault with
  | config | toml => rfl
  | input | output | stamp => cases hcode

theorem isHangup_of_stops {source : Source} {before : List Bytes} {fault : Fault} {ends : Names}
    (h : Stops ends source before fault) : fault.isHangup = false := by
  cases h with
  | line _ _ hfault => cases hfault <;> rfl
  | source _ _ _ hfault =>
    rw [hfault]
    rfl

/-- A sink that takes everything has a reader. -/
theorem isHangup_of_answer_reorder {ends : Names} {policy : Policy} {source : Source}
    {fault : Fault} (h : answer (reorder ends policy source {}) = .error fault) :
    fault.isHangup = false := by
  by_cases hreadable : Readable source
  · obtain ⟨sink, hrun, -⟩ :=
      exists_reorder_eq_ok ends policy hreadable.sound_cut hreadable.holds Sink.boundless_empty
    rw [hrun] at h
    cases h
  · obtain ⟨before, other, hstops⟩ := exists_stops_of_not_readable ends hreadable
    rw [(reorder_eq_of_stops hstops policy Sink.boundless_empty).1] at h
    cases h
    exact isHangup_of_stops hstops

theorem isHangup_of_create {name path : String} {why : IoFault}
    (h : w.tree.create w.working name = .error why) : (Fault.output path why).isHangup = false := by
  cases why with
  | brokenPipe => exact absurd h FileTree.create_ne_brokenPipe
  | notFound | notDirectory | isDirectory | nameTooLong | notUtf8 | other => rfl

/-- Whatever is written in a world is read, so no run is at fault for that. -/
theorem isHangup_of_run_process {fault : Fault} {v : World}
    (h : (process s : StateM World _).run w = (.error fault, v)) : fault.isHangup = false := by
  cases hplace : w.place? s with
  | error why =>
    rw [run_process_of_error hplace] at h
    cases h
    rfl
  | ok place =>
    cases houtput : s.output with
    | none =>
      rw [run_process_of_standard hplace houtput] at h
      exact isHangup_of_answer_reorder (congrArg Prod.fst h)
    | some name =>
      cases hcreate : w.tree.create w.working name with
      | error why =>
        rw [run_process_of_not_created hplace houtput hcreate] at h
        cases h
        exact isHangup_of_create hcreate
      | ok created =>
        rw [run_process_of_created hplace houtput hcreate] at h
        exact isHangup_of_answer_reorder (congrArg Prod.fst h)

/-! ## The whole run -/

/-- What the program says of a run that goes wrong. -/
def complaint (fault : Fault) : String := s!"logsort: {fault.message}\n"

/-- How a run ends, by what has come of it. -/
def concluded (s : Settings) : Except Fault Tally × World → Ending × World
  | (.error fault, w) => (.stopped fault, w.say (complaint fault))
  | (.ok tally, w) => (.finished tally, w.say (if s.verbose then summary tally s.order else ""))

theorem run_quietHangups : (Host.quietHangups : StateM World Unit).run w = ((), w) := rfl

theorem run_conclude_of_error {fault : Fault} (h : fault.isHangup = false) :
    (conclude (.error fault) : StateM World Ending).run w =
      (.stopped fault, w.say (complaint fault)) := by
  rw [conclude, h]
  rfl

theorem runIn_of_refused {why : CommandLine.Refusal} (hread : CommandLine.read args = .error why) :
    runIn args w = (.refused why,
      if why.exitCode = 0 then w.print (Bytes.ofString (w.texts.notice why))
      else w.say (w.texts.notice why)) := by
  rw [runIn, run, run_bind_of_run run_quietHangups, hread]
  dsimp only
  split <;> rfl

theorem runIn_of_completions {shell : CommandLine.Shell} (hread : CommandLine.read args = .ok a)
    (h : a.completions = some shell) :
    runIn args w = (.completions, w.print (Bytes.ofString (w.texts.script shell))) := by
  rw [runIn, run, run_bind_of_run run_quietHangups, hread]
  dsimp only
  rw [h]
  rfl

theorem runIn_of_misconfigured {fault : Fault} (hread : CommandLine.read args = .ok a)
    (hcompletions : a.completions = none) (h : w.settings? a = .error fault) :
    runIn args w = (.stopped fault, w.say (complaint fault)) := by
  rw [runIn, run, run_bind_of_run run_quietHangups, hread]
  dsimp only
  rw [hcompletions]
  dsimp only
  have hperform : (perform a : StateM World _).run w = (.error fault, w) := by
    rw [perform, run_bind_of_run (run_resolve a w), h]
    rfl
  rw [run_bind_of_run hperform]
  exact run_conclude_of_error (isHangup_of_settings? h)

theorem runIn_of_settings (hread : CommandLine.read args = .ok a)
    (hcompletions : a.completions = none) (h : w.settings? a = .ok s) :
    runIn args w = concluded s ((process s : StateM World _).run w) := by
  rw [runIn, run, run_bind_of_run run_quietHangups, hread]
  dsimp only
  rw [hcompletions]
  dsimp only
  cases hprocess : (process s : StateM World (Except Fault Tally)).run w with
  | mk result v =>
    cases result with
    | error fault =>
      have hperform : (perform a : StateM World _).run w = (.error fault, v) := by
        rw [perform, run_bind_of_run (run_resolve a w), h]
        dsimp only
        rw [run_bind_of_run hprocess]
        rfl
      rw [run_bind_of_run hperform]
      exact run_conclude_of_error (isHangup_of_run_process hprocess)
    | ok tally =>
      have hperform : (perform a : StateM World _).run w =
          (.ok tally, v.say (if s.verbose then summary tally s.order else "")) := by
        rw [perform, run_bind_of_run (run_resolve a w), h]
        dsimp only
        rw [run_bind_of_run hprocess]
        dsimp only
        cases s.verbose with
        | true => rfl
        | false =>
          rw [if_neg Bool.false_ne_true, if_neg Bool.false_ne_true, World.say_empty]
          rfl
      rw [run_bind_of_run hperform]
      rfl

theorem runIn_ne_hungUp (args : List String) (w : World) : (runIn args w).1 ≠ .hungUp := by
  cases hread : CommandLine.read args with
  | error why =>
    rw [runIn_of_refused hread]
    exact nofun
  | ok a =>
    cases hcompletions : a.completions with
    | some shell =>
      rw [runIn_of_completions hread hcompletions]
      exact nofun
    | none =>
      cases hsettings : w.settings? a with
      | error fault =>
        rw [runIn_of_misconfigured hread hcompletions hsettings]
        exact nofun
      | ok s =>
        rw [runIn_of_settings hread hcompletions hsettings]
        cases (process s : StateM World (Except Fault Tally)).run w with
        | mk result v => cases result <;> exact nofun

end Program

end LogOrder
