import LogOrder.Proofs.Program.Framed

/-!
# Logs that are no files

A log is opened before the file for the result is made, so that a bad name for the log costs no
file. A directory is no log either, but it can be opened: that it has no bytes shows when it is
read, and by then the file for the result has been made or emptied.

* `World.Unreadable`: names that no file can be read by;
* **`unreadable_log_status`**: the status of a run for such a name, and the file for its result;
* `emptied_for_directory`: a file that is lost to a directory.
-/

namespace LogOrder

/-- No file can be read by that name: it leads nowhere, or to a directory. -/
inductive World.Unreadable (w : World) (name : String) : Prop
  /-- Nothing is there, or something on the way is no directory, or the name is none. -/
  | closed {why : IoFault} (hopen : w.tree.open? w.working name = .error why)
  /-- A directory is there. -/
  | directory {path : Path} (hopen : w.tree.open? w.working name = .ok (path, .directory))
      (hfind : w.tree.find? path = some .directory)

/-- When everything stands in directories, these are the names by which reading a file fails. -/
theorem World.unreadable_iff {w : World} (ht : w.tree.Closed)
    (hworking : w.tree.find? w.working = some .directory) (name : String) :
    w.Unreadable name ↔ ∃ why, w.readFile name = .error why := by
  constructor
  · rintro (⟨hopen⟩ | ⟨hopen, -⟩)
    · exact ⟨_, by rw [World.readFile, hopen]; rfl⟩
    · exact ⟨.isDirectory, by rw [World.readFile, hopen]; rfl⟩
  · rintro ⟨why, hread⟩
    cases hopen : w.tree.open? w.working name with
    | error fault => exact .closed hopen
    | ok found =>
      obtain ⟨path, node⟩ := found
      cases node with
      | directory => exact .directory hopen (ht.find?_of_open? hworking hopen)
      | file content =>
        rw [World.readFile, hopen] at hread
        cases hread

namespace Program

open Log

variable {w : World} {s : Settings} {a : CommandLine.Arguments} {args : List String}
  {name out : String}

/-- A source without a byte fails at once. -/
theorem reorder_of_no_bytes (names : Names) (policy : Policy) (why : IoFault) :
    reorder names policy { pieces := [], failure := some why } {} =
      .error (.input names.input why) {} := rfl

/-- A directory fails to be read when the file for the result is there, and empty. -/
theorem run_process_of_directory {path target : Path} {tree : FileTree}
    (hplace : w.place? s = .ok (some path)) (hfind : w.tree.find? path = some .directory)
    (houtput : s.output = some out) (hcreate : w.tree.create w.working out = .ok (target, tree)) :
    (process s : StateM World _).run w =
      (.error (.input (names s).input .isDirectory), { w with tree }) := by
  obtain ⟨spot, hspot, hroom, -⟩ := FileTree.create_eq_ok_iff.mp hcreate
  obtain ⟨hne, hfile⟩ := (FileTree.stands_of_resolve hspot).of_room? hroom
  obtain ⟨-, rfl⟩ := create_eq_put hcreate
  -- a directory is not where a file is made, so it is still there
  have hother : path ≠ target := by
    rintro rfl
    exact hfile hfind
  have hsource : World.logAt { w with tree := w.tree.put target (.file []) } (some path) =
      { pieces := [], failure := some .isDirectory } := by
    show World.sourceAt _ path = _
    rw [World.sourceAt, w.tree.find?_put_of_ne hother, hfind]
  rw [run_process_of_created hplace houtput hcreate, hsource, reorder_of_no_bytes,
    FileTree.append_put _ hne]
  rfl

section Unreadable

variable (hread : CommandLine.read args = .ok a) (hcompletions : a.completions = none)
  (hsettings : w.settings? a = .ok s)

include hread hcompletions hsettings

theorem runIn_of_stopped {fault : Fault} {v : World}
    (h : (process s : StateM World _).run w = (.error fault, v)) :
    runIn args w = (.stopped fault, v.say (complaint fault)) := by
  rw [runIn_of_settings hread hcompletions hsettings, h]
  rfl

variable (hlogfile : a.logfile = some name) (hname : name ≠ "-") (houtput : a.output = some out)

include hlogfile hname houtput

/-- A directory as the log: the run stops, with the file for the result made if that can be. -/
theorem exists_runIn_of_directory {path : Path}
    (hopen : w.tree.open? w.working name = .ok (path, .directory))
    (hfind : w.tree.find? path = some .directory) :
    ∃ fault tree, fault.exitCode = 2 ∧
      runIn args w = (.stopped fault, World.say { w with tree } (complaint fault)) ∧
      (∀ why, w.tree.create w.working out = .error why → tree = w.tree) ∧
      ∀ target made, w.tree.create w.working out = .ok (target, made) → tree = made := by
  obtain ⟨_, hsame, hne⟩ := CommandLine.exists_logfile hread hcompletions
  obtain rfl := Option.some.inj (hlogfile.symm.trans hsame)
  obtain ⟨rfl, hgiven, -⟩ := of_settings? hsettings hlogfile
  have hplace : w.place? s = .ok (some path) := by
    rw [place?_of_ne_dash hne hname, hopen]
    rfl
  cases hcreate : w.tree.create w.working out with
  | error why =>
    have hprocess := run_process_of_not_created hplace (hgiven.trans houtput) hcreate
    exact ⟨_, w.tree, rfl, runIn_of_stopped hread hcompletions hsettings hprocess,
      fun _ _ => rfl, nofun⟩
  | ok created =>
    obtain ⟨target, made⟩ := created
    have hprocess := run_process_of_directory hplace hfind (hgiven.trans houtput) hcreate
    refine ⟨_, made, rfl, runIn_of_stopped hread hcompletions hsettings hprocess, nofun, ?_⟩
    intro target' made' h
    cases h
    rfl

/-- **A log that is no file.** If no file can be read by the name of the log, a run ends with status
2. If the name leads nowhere, no file is made or changed. If it leads to a directory, the file for
the result is made, or emptied if it is there; only if it can be neither is no file changed. -/
theorem unreadable_log_status (hlog : w.Unreadable name) :
    exitCode args w = 2 ∧
    (∀ why, w.tree.open? w.working name = .error why → (runIn args w).2.tree = w.tree) ∧
    ∀ path, w.tree.open? w.working name = .ok (path, .directory) →
      (∀ why, w.tree.create w.working out = .error why → (runIn args w).2.tree = w.tree) ∧
      ∀ target tree, w.tree.create w.working out = .ok (target, tree) →
        (runIn args w).2.tree = tree ∧ (runIn args w).2.readFile out = .ok [] := by
  cases hlog with
  | closed hopen =>
    have hrun := runIn_of_closed hread hcompletions hsettings hlogfile hname hopen
    rw [exitCode, hrun, hopen]
    refine ⟨rfl, fun _ _ => rfl, ?_⟩
    intro path h
    cases h
  | directory hopen hfind =>
    obtain ⟨fault, tree, hfault, hrun, hkept, hmade⟩ :=
      exists_runIn_of_directory hread hcompletions hsettings hlogfile hname houtput hopen hfind
    rw [exitCode, hrun, hopen]
    refine ⟨hfault, ?_, ?_⟩
    · intro why h
      cases h
    · intro path _
      refine ⟨hkept, ?_⟩
      intro target made hcreate
      obtain rfl := hmade target made hcreate
      obtain ⟨-, rfl⟩ := create_eq_put hcreate
      exact ⟨rfl, readFile_of_create hcreate []⟩

end Unreadable

/-- A log that is not there, and a directory with the result in it. -/
theorem unreadable_log_status_inside : ∃ (gone directory : World) (a : CommandLine.Arguments),
    CommandLine.read ["-o", "logs/b.log", "logs"] = .ok a ∧
    exitCode ["-o", "logs/b.log", "logs"] gone = 2 ∧
    (runIn ["-o", "logs/b.log", "logs"] gone).2.tree = gone.tree ∧
    exitCode ["-o", "logs/b.log", "logs"] directory = 2 ∧
    directory.tree.find? ["logs", "b.log"] = none ∧
    (runIn ["-o", "logs/b.log", "logs"] directory).2.readFile "logs/b.log" = .ok [] := by
  obtain ⟨gone, directory, target, tree, hsettings, hnone, hsettings', hopen, hfind, hfree,
      hcreate⟩ : ∃ (gone directory : World) (target : Path) (tree : FileTree),
      gone.settings? { logfile := some "logs", output := some "logs/b.log" } =
        .ok { input := "logs", output := some "logs/b.log" } ∧
      gone.tree.open? gone.working "logs" = .error .notFound ∧
      directory.settings? { logfile := some "logs", output := some "logs/b.log" } =
        .ok { input := "logs", output := some "logs/b.log" } ∧
      directory.tree.open? directory.working "logs" = .ok (["logs"], .directory) ∧
      directory.tree.find? ["logs"] = some .directory ∧
      directory.tree.find? ["logs", "b.log"] = none ∧
      directory.tree.create directory.working "logs/b.log" = .ok (target, tree) :=
    ⟨{}, { tree := { nodes := [(["logs"], .directory)] } }, _, _, rfl, rfl, rfl, rfl, rfl, rfl, rfl⟩
  have hread : CommandLine.read ["-o", "logs/b.log", "logs"] =
      .ok { logfile := some "logs", output := some "logs/b.log" } := rfl
  obtain ⟨hcode, hkept, -⟩ := unreadable_log_status hread rfl hsettings rfl (by decide) rfl
    (.closed hnone)
  obtain ⟨hcode', -, hmade⟩ := unreadable_log_status hread rfl hsettings' rfl (by decide) rfl
    (.directory hopen hfind)
  obtain ⟨-, hresult⟩ := (hmade _ hopen).2 target tree hcreate
  exact ⟨gone, directory, _, hread, hcode, hkept _ hnone, hcode', hfree, hresult⟩

/-- With a directory as the log, the file that was to be written is lost although the status is
2. -/
theorem emptied_for_directory : ∃ (w : World) (a : CommandLine.Arguments) (s : Settings),
    CommandLine.read ["-o", "b.log", "logs"] = .ok a ∧ a.completions = none ∧
    a.logfile = some "logs" ∧ a.output = some "b.log" ∧ w.settings? a = .ok s ∧
    w.Unreadable "logs" ∧ w.readFile "b.log" = .ok (Bytes.ofString "keep\n") ∧
    exitCode ["-o", "b.log", "logs"] w = 2 ∧
    (runIn ["-o", "b.log", "logs"] w).2.readFile "b.log" = .ok [] := by
  obtain ⟨w, target, tree, hsettings, hopen, hfind, hold, hcreate⟩ :
      ∃ (w : World) (target : Path) (tree : FileTree),
      w.settings? { logfile := some "logs", output := some "b.log" } =
        .ok { input := "logs", output := some "b.log" } ∧
      w.tree.open? w.working "logs" = .ok (["logs"], .directory) ∧
      w.tree.find? ["logs"] = some .directory ∧
      w.readFile "b.log" = .ok (Bytes.ofString "keep\n") ∧
      w.tree.create w.working "b.log" = .ok (target, tree) :=
    ⟨{ tree := { nodes := [(["b.log"], .file (Bytes.ofString "keep\n")),
        (["logs"], .directory)] } }, _, _, rfl, rfl, rfl, rfl, rfl⟩
  have hread : CommandLine.read ["-o", "b.log", "logs"] =
      .ok { logfile := some "logs", output := some "b.log" } := rfl
  obtain ⟨fault, made, hfault, hrun, -, hmade⟩ :=
    exists_runIn_of_directory hread rfl hsettings rfl (by decide) rfl hopen hfind
  refine ⟨w, _, _, hread, rfl, rfl, rfl, hsettings, .directory hopen hfind, hold, ?_, ?_⟩
  · rw [exitCode, hrun]
    exact hfault
  · rw [hrun]
    obtain rfl := hmade target tree hcreate
    obtain ⟨-, rfl⟩ := create_eq_put hcreate
    exact readFile_of_create hcreate []

end Program

end LogOrder
