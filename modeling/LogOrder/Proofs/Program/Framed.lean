import LogOrder.Proofs.Program.Delivered

/-!
# What a run leaves alone

A run writes one file at most, the one that its arguments name for the result, and that only when
it has found its settings and opened the log. All other files stay as they are, however it ends.

* `World.resultPlace?` is the place of that file, and `Barred` lists what keeps a run from it;
* `Leaves`, `leaves_runIn`: what the files can be after a run;
* **`files_framed`**: the files that a run does not change.
-/

namespace LogOrder

/-- The place of the file that the arguments name for the result, if one is there or can be made. -/
def World.resultPlace? (w : World) (args : List String) : Option Path := do
  let a ← (CommandLine.read args).toOption
  let name ← a.output
  let (path, _) ← (w.tree.create w.working name).toOption
  some path

namespace Program

open Log

variable {w : World} {s : Settings} {a : CommandLine.Arguments} {args : List String}

/-! ## The files after a run -/

/-- What the files can be after a run that is to write a file of that name: what they were, or that
with one file written. -/
inductive Leaves (w : World) (output : Option String) : FileTree → Prop
  | untouched : Leaves w output w.tree
  | written {name : String} {path : Path} {content : Bytes} (houtput : output = some name)
      (hcreate : w.tree.create w.working name = .ok (path, w.tree.put path (.file []))) :
      Leaves w output (w.tree.put path (.file content))

theorem leaves_process (w : World) (s : Settings) :
    Leaves w s.output ((process s : StateM World _).run w).2.tree := by
  cases hplace : w.place? s with
  | error why =>
    rw [run_process_of_error hplace]
    exact .untouched
  | ok place =>
    cases houtput : s.output with
    | none =>
      rw [run_process_of_standard hplace houtput]
      exact .untouched
    | some name =>
      cases hcreate : w.tree.create w.working name with
      | error why =>
        rw [run_process_of_not_created hplace houtput hcreate]
        exact .untouched
      | ok created =>
        obtain ⟨path, tree⟩ := created
        obtain ⟨hne, rfl⟩ := create_eq_put hcreate
        rw [run_process_of_created hplace houtput hcreate]
        dsimp only
        rw [FileTree.append_put _ hne]
        exact .written rfl hcreate

/-- What a run says at its end is in no file. -/
theorem tree_concluded (s : Settings) (r : Except Fault Tally × World) :
    (concluded s r).2.tree = r.2.tree := by
  obtain ⟨result, v⟩ := r
  cases result <;> rfl

theorem tree_of_refused {why : CommandLine.Refusal} (hread : CommandLine.read args = .error why) :
    (runIn args w).2.tree = w.tree := by
  rw [runIn_of_refused hread]
  dsimp only
  split <;> rfl

theorem tree_of_completions {shell : CommandLine.Shell} (hread : CommandLine.read args = .ok a)
    (h : a.completions = some shell) : (runIn args w).2.tree = w.tree := by
  rw [runIn_of_completions hread h]
  rfl

theorem tree_of_misconfigured {fault : Fault} (hread : CommandLine.read args = .ok a)
    (h : w.settings? a = .error fault) : (runIn args w).2.tree = w.tree := by
  cases hcompletions : a.completions with
  | some shell => exact tree_of_completions hread hcompletions
  | none =>
    rw [runIn_of_misconfigured hread hcompletions h]
    rfl

theorem leaves_runIn (hread : CommandLine.read args = .ok a) :
    Leaves w a.output (runIn args w).2.tree := by
  cases hcompletions : a.completions with
  | some shell =>
    rw [tree_of_completions hread hcompletions]
    exact .untouched
  | none =>
    cases hsettings : w.settings? a with
    | error fault =>
      rw [tree_of_misconfigured hread hsettings]
      exact .untouched
    | ok s =>
      obtain ⟨_, hname, -⟩ := CommandLine.exists_logfile hread hcompletions
      obtain ⟨-, houtput, -⟩ := of_settings? hsettings hname
      rw [runIn_of_settings hread hcompletions hsettings, tree_concluded, ← houtput]
      exact leaves_process w s

/-! ## What keeps a run from writing -/

/-- The run does not get as far as to make a file. -/
inductive Barred (args : List String) (w : World) : Prop
  /-- The arguments are refused. -/
  | refused {why : CommandLine.Refusal} (hread : CommandLine.read args = .error why)
  /-- They ask for completions. -/
  | completions {a : CommandLine.Arguments} {shell : CommandLine.Shell}
      (hread : CommandLine.read args = .ok a) (hcompletions : a.completions = some shell)
  /-- There are no settings. -/
  | misconfigured {a : CommandLine.Arguments} {fault : Fault}
      (hread : CommandLine.read args = .ok a) (hsettings : w.settings? a = .error fault)
  /-- The log cannot be opened. -/
  | closed {a : CommandLine.Arguments} {name : String} {why : IoFault}
      (hread : CommandLine.read args = .ok a) (hlogfile : a.logfile = some name)
      (hname : name ≠ "-") (hopen : w.tree.open? w.working name = .error why)

/-- A log that cannot be opened is noticed before anything is written. -/
theorem runIn_of_closed {name : String} {why : IoFault} (hread : CommandLine.read args = .ok a)
    (hcompletions : a.completions = none) (hsettings : w.settings? a = .ok s)
    (hlogfile : a.logfile = some name) (hname : name ≠ "-")
    (hopen : w.tree.open? w.working name = .error why) :
    runIn args w = (.stopped (.input name why), w.say (complaint (.input name why))) := by
  obtain ⟨_, hsame, hne⟩ := CommandLine.exists_logfile hread hcompletions
  obtain rfl := Option.some.inj (hlogfile.symm.trans hsame)
  obtain ⟨rfl, -⟩ := of_settings? hsettings hlogfile
  have hplace : w.place? s = .error why := by
    rw [place?_of_ne_dash hne hname, hopen]
    rfl
  rw [runIn_of_settings hread hcompletions hsettings, run_process_of_error hplace]
  rfl

theorem Barred.tree_eq (h : Barred args w) : (runIn args w).2.tree = w.tree := by
  cases h with
  | refused hread => exact tree_of_refused hread
  | completions hread hcompletions => exact tree_of_completions hread hcompletions
  | misconfigured hread hsettings => exact tree_of_misconfigured hread hsettings
  | closed hread hlogfile hname hopen =>
    rename_i a _ _
    cases hcompletions : a.completions with
    | some shell => exact tree_of_completions hread hcompletions
    | none =>
      cases hsettings : w.settings? a with
      | error fault => exact tree_of_misconfigured hread hsettings
      | ok s =>
        rw [runIn_of_closed hread hcompletions hsettings hlogfile hname hopen]
        rfl

/-! ## The frame -/

theorem resultPlace?_eq {name : String} {path : Path} {tree : FileTree}
    (hread : CommandLine.read args = .ok a) (houtput : a.output = some name)
    (hcreate : w.tree.create w.working name = .ok (path, tree)) :
    w.resultPlace? args = some path := by
  rw [World.resultPlace?, hread]
  show (a.output >>= fun name => _) = _
  rw [houtput]
  show ((w.tree.create w.working name).toOption >>= fun created => some created.1) = _
  rw [hcreate]
  rfl

/-- **A run changes one file at most.** However a run ends, every place but that of the file which
its arguments name for the result has after the run what it had before: a file with the same bytes,
a directory, or nothing. If the arguments are refused or ask for completions, or there are no
settings, or the log cannot be opened, then that file is left alone too. -/
theorem files_framed (args : List String) (w : World) :
    (∀ path, w.resultPlace? args ≠ some path →
      (runIn args w).2.tree.find? path = w.tree.find? path) ∧
    (Barred args w → (runIn args w).2.tree = w.tree) := by
  refine ⟨?_, Barred.tree_eq⟩
  intro path hother
  cases hread : CommandLine.read args with
  | error why => rw [tree_of_refused hread]
  | ok a =>
    have hleaves := leaves_runIn (w := w) hread
    generalize (runIn args w).2.tree = after at hleaves ⊢
    cases hleaves with
    | untouched => rfl
    | written houtput hcreate =>
      refine w.tree.find?_put_of_ne ?_ _
      rintro rfl
      exact hother (resultPlace?_eq hread houtput hcreate)

/-- With a result in another spelling, only that file may change; without a log, not even that. -/
theorem files_framed_elsewhere : ∃ (w v : World) (log : Bytes),
    w.resultPlace? ["-o", "./out/../b.log", "a.log"] = some ["b.log"] ∧
    (runIn ["-o", "./out/../b.log", "a.log"] w).2.tree.find? ["a.log"] = some (.file log) ∧
    (runIn ["-o", "./out/../b.log", "a.log"] w).2.tree.find? ["c.log"] = none ∧
    v.resultPlace? ["-o", "./out/../b.log", "a.log"] = some ["b.log"] ∧
    (runIn ["-o", "./out/../b.log", "a.log"] v).2.tree = v.tree := by
  obtain ⟨w, v, log, hplace, hlog, hfree, hplace', hnone⟩ : ∃ (w v : World) (log : Bytes),
      w.resultPlace? ["-o", "./out/../b.log", "a.log"] = some ["b.log"] ∧
      w.tree.find? ["a.log"] = some (.file log) ∧ w.tree.find? ["c.log"] = none ∧
      v.resultPlace? ["-o", "./out/../b.log", "a.log"] = some ["b.log"] ∧
      v.tree.open? v.working "a.log" = .error .notFound :=
    ⟨{ tree := { nodes := [(["out"], .directory), (["b.log"], .file [0x62]),
        (["a.log"], .file (Bytes.ofString "on\n[2024-02-30 00:00:00:005] b\n"))] } },
      { tree := { nodes := [(["out"], .directory), (["b.log"], .file [0x62])] } },
      _, rfl, rfl, rfl, rfl, rfl⟩
  have hread : CommandLine.read ["-o", "./out/../b.log", "a.log"] =
      .ok { logfile := some "a.log", output := some "./out/../b.log" } := rfl
  obtain ⟨hkept, -⟩ := files_framed ["-o", "./out/../b.log", "a.log"] w
  obtain ⟨-, hbarred⟩ := files_framed ["-o", "./out/../b.log", "a.log"] v
  refine ⟨w, v, log, hplace, ?_, ?_, hplace', hbarred (.closed hread rfl (by decide) hnone)⟩
  · rw [hkept _ (by rw [hplace]; decide), hlog]
  · rw [hkept _ (by rw [hplace]; decide), hfree]

end Program

end LogOrder
