import LogOrder.Proofs.FileTree
import LogOrder.Proofs.Program.ExitStatus

/-!
# Results in files

A file for the result is created after the log is opened and before it is read. So what is read is
the log as it was, unless the two names lead to one file: then it is empty by the time it is read.

* `Writes.count_eq`: what is written of a log has as many lines as the log;
* `Created.run_process`, `readFile_of_create`: what a run leaves in the file that it creates;
* **`delivered_unless_one_file`**: what that file holds after a run with status 0;
* `lost_in_one_file`: two spellings of one name.
-/

namespace LogOrder

namespace Log

variable {policy : Policy} {log text : Bytes}

theorem Writes.sound (h : Writes policy log text) : ∀ line ∈ Line.cut log, Sound line := by
  have hholds := Source.holds_ofBytes log
  obtain ⟨tally, sink, hrun, -⟩ := h ⟨"log", "out"⟩ (.ofBytes log) {} hholds ⟨rfl, rfl⟩
  exact Sorts.sound ⟨_, _, _, tally, sink, hholds, hrun⟩

/-- A run that succeeds has written what every run over the log writes. -/
theorem Writes.written_eq (h : Writes policy log text) {names : Names} {tally : Tally}
    {sink : Sink} (hrun : reorder names policy (.ofBytes log) {} = .ok tally sink) :
    sink.written = text := by
  obtain ⟨tally', sink', hrun', hwritten⟩ :=
    h names (.ofBytes log) {} (Source.holds_ofBytes log) ⟨rfl, rfl⟩
  cases hrun.symm.trans hrun'
  exact hwritten

theorem Writes.count_eq (h : Writes policy log text) : Line.count text = Line.count log := by
  have hsound := h.sound
  obtain ⟨sink, hrun, hwritten⟩ := exists_reorder_eq_ok ⟨"log", "out"⟩ policy hsound
    (Source.holds_ofBytes log) Sink.boundless_empty
  have hsame := (h.written_eq hrun).symm.trans hwritten
  rw [hsame]
  exact count_output policy fun line hline => (hsound line hline).dated

/-- Nothing is written of an empty log. -/
theorem Writes.eq_nil (h : Writes policy [] text) : text = [] := by
  have hnone : Line.cut text = [] := List.eq_nil_of_length_eq_zero h.count_eq
  rw [← Line.flatten_cut text, hnone]
  rfl

end Log

namespace Program

open Log

variable {w : World} {s : Settings} {a : CommandLine.Arguments} {args : List String}

/-! ## The file that is created -/

/-- The log is opened at one place and the file for the result created at another or the same; after
that, the log has that content. -/
structure Created (w : World) (s : Settings) (name : String) (path target : Path)
    (content : Bytes) : Prop where
  place_eq : w.place? s = .ok (some path)
  output_eq : s.output = some name
  create_eq : w.tree.create w.working name = .ok (target, w.tree.put target (.file []))
  find?_eq : (w.tree.put target (.file [])).find? path = some (.file content)

section Created

variable {name : String} {path target : Path} {content : Bytes}

theorem create_eq_put {tree : FileTree} (h : w.tree.create w.working name = .ok (target, tree)) :
    target ≠ [] ∧ tree = w.tree.put target (.file []) := by
  obtain ⟨spot, hspot, hroom, htree⟩ := FileTree.create_eq_ok_iff.mp h
  exact ⟨((FileTree.stands_of_resolve hspot).of_room? hroom).1, htree⟩

/-- The name by which a file is made leads to what is written there. -/
theorem readFile_of_create {tree : FileTree}
    (h : w.tree.create w.working name = .ok (target, tree)) (text : Bytes) :
    World.readFile { w with tree := w.tree.put target (.file text) } name = .ok text := by
  obtain ⟨spot, hspot, hroom, -⟩ := FileTree.create_eq_ok_iff.mp h
  unfold World.readFile
  dsimp only
  rw [FileTree.open?_put hspot hroom text]
  rfl

theorem Created.run_process (h : Created w s name path target content) :
    (process s : StateM World _).run w =
      (answer (reorder (names s) s.order (.ofBytes content) {}),
        { w with
          tree := w.tree.put target (.file
            (left (reorder (names s) s.order (.ofBytes content) {})).written) }) := by
  have hlog : World.logAt { w with tree := w.tree.put target (.file []) } (some path) =
      .ofBytes content := by
    show World.sourceAt _ path = _
    rw [World.sourceAt, h.find?_eq]
  rw [run_process_of_created h.place_eq h.output_eq h.create_eq, hlog,
    FileTree.append_put _ (create_eq_put h.create_eq).1]

variable (hread : CommandLine.read args = .ok a) (hcompletions : a.completions = none)
  (hsettings : w.settings? a = .ok s)

include hread hcompletions hsettings

theorem Created.exitCode_of_sound (h : Created w s name path target content)
    (hsound : ∀ line ∈ Line.cut content, Sound line) : exitCode args w = 0 := by
  obtain ⟨sink, hrun, -⟩ := exists_reorder_eq_ok (names s) s.order hsound
    (Source.holds_ofBytes content) Sink.boundless_empty
  rw [exitCode, runIn_of_settings hread hcompletions hsettings, h.run_process, hrun]
  rfl

/-- A run with status 0 leaves in the file what is written of the content. -/
theorem Created.exists_readFile (h : Created w s name path target content)
    (hzero : exitCode args w = 0) :
    ∃ text, Writes s.order content text ∧ (runIn args w).2.readFile name = .ok text := by
  rw [exitCode] at hzero
  rw [runIn_of_settings hread hcompletions hsettings, h.run_process] at hzero ⊢
  cases hrun : reorder (names s) s.order (.ofBytes content) {} with
  | error fault sink =>
    rw [hrun] at hzero
    cases fault <;> cases hzero
  | ok tally sink =>
    have hholds := Source.holds_ofBytes content
    have hwrites := writes_of_sound s.order
      (Sorts.sound ⟨names s, _, _, tally, sink, hholds, hrun⟩)
    refine ⟨_, hwrites, ?_⟩
    rw [← hwrites.written_eq hrun]
    exact readFile_of_create h.create_eq sink.written

end Created

/-! ## Runs with status 0 -/

theorem exists_open?_of_readFile {name : String} {log : Bytes} (h : w.readFile name = .ok log) :
    ∃ path, w.tree.open? w.working name = .ok (path, .file log) := by
  unfold World.readFile at h
  cases hopen : w.tree.open? w.working name with
  | error why =>
    rw [hopen] at h
    cases h
  | ok found =>
    obtain ⟨path, node⟩ := found
    rw [hopen] at h
    cases node with
    | file content =>
      cases h
      exact ⟨path, rfl⟩
    | directory => cases h

theorem exists_settings_of_exitCode (hread : CommandLine.read args = .ok a)
    (hcompletions : a.completions = none) (hzero : exitCode args w = 0) :
    ∃ s, w.settings? a = .ok s := by
  cases hsettings : w.settings? a with
  | ok s => exact ⟨s, rfl⟩
  | error fault =>
    rw [exitCode, runIn_of_misconfigured hread hcompletions hsettings] at hzero
    cases hzero.symm.trans (exitCode_of_settings? hsettings)

theorem exists_create_of_exitCode {place : Option Path} {name : String}
    (hread : CommandLine.read args = .ok a) (hcompletions : a.completions = none)
    (hsettings : w.settings? a = .ok s) (hplace : w.place? s = .ok place)
    (houtput : s.output = some name) (hzero : exitCode args w = 0) :
    ∃ target, w.tree.create w.working name = .ok (target, w.tree.put target (.file [])) := by
  cases hcreate : w.tree.create w.working name with
  | ok created =>
    obtain ⟨target, tree⟩ := created
    obtain ⟨-, rfl⟩ := create_eq_put hcreate
    exact ⟨target, rfl⟩
  | error why =>
    rw [exitCode, runIn_of_settings hread hcompletions hsettings,
      run_process_of_not_created hplace houtput hcreate] at hzero
    cases hzero

/-- **A log is delivered, unless both names lead to one file.** When a run ends with status 0, the
file that it was to write holds what any run writes of the log as it was before, provided that the
two names lead to different places. If they lead to one, the log is gone and the file empty. -/
theorem delivered_unless_one_file {name out : String} {log : Bytes}
    (hread : CommandLine.read args = .ok a) (hcompletions : a.completions = none)
    (hlogfile : a.logfile = some name) (hname : name ≠ "-") (houtput : a.output = some out)
    (hlog : w.readFile name = .ok log) (hzero : exitCode args w = 0) :
    ∃ s path target, w.settings? a = .ok s ∧
      w.tree.open? w.working name = .ok (path, .file log) ∧
      w.tree.create w.working out = .ok (target, w.tree.put target (.file [])) ∧
      (path ≠ target → ∃ text, Writes s.order log text ∧
        (runIn args w).2.readFile out = .ok text) ∧
      (path = target → (runIn args w).2.readFile out = .ok []) := by
  obtain ⟨_, hsame, hne⟩ := CommandLine.exists_logfile hread hcompletions
  obtain rfl := Option.some.inj (hlogfile.symm.trans hsame)
  obtain ⟨s, hsettings⟩ := exists_settings_of_exitCode hread hcompletions hzero
  obtain ⟨hinput, hgiven, -⟩ := of_settings? hsettings hlogfile
  obtain ⟨path, hopen⟩ := exists_open?_of_readFile hlog
  have hplace : w.place? s = .ok (some path) := by
    subst hinput
    have hnot : ¬s.readsStandardInput = true := fun h => hname ((readsStandardInput_iff hne).mp h)
    rw [World.place?, if_neg hnot, hopen]
    rfl
  obtain ⟨target, hcreate⟩ :=
    exists_create_of_exitCode hread hcompletions hsettings hplace (hgiven.trans houtput) hzero
  refine ⟨s, path, target, hsettings, hopen, hcreate, ?_, ?_⟩
  · intro hother
    have hfind := (w.tree.find?_put_of_ne hother (.file [])).trans (FileTree.find?_of_open? hopen)
    have hcreated : Created w s out path target log :=
      ⟨hplace, hgiven.trans houtput, hcreate, hfind⟩
    exact hcreated.exists_readFile hread hcompletions hsettings hzero
  · rintro rfl
    have hcreated : Created w s out path path [] :=
      ⟨hplace, hgiven.trans houtput, hcreate, w.tree.find?_put (create_eq_put hcreate).1 _⟩
    obtain ⟨text, hwrites, hread⟩ :=
      hcreated.exists_readFile hread hcompletions hsettings hzero
    rw [hread, hwrites.eq_nil]

/-- A result that replaces another file. -/
theorem delivered_unless_one_file_apart : ∃ (w : World) (a : CommandLine.Arguments) (log : Bytes),
    CommandLine.read ["a.log", "-o", "b.log"] = .ok a ∧ a.completions = none ∧
    a.logfile = some "a.log" ∧ "a.log" ≠ "-" ∧ a.output = some "b.log" ∧
    w.readFile "a.log" = .ok log ∧ w.readFile "b.log" = .ok [0x62] ∧
    exitCode ["a.log", "-o", "b.log"] w = 0 ∧ Line.count log = 2 ∧
    ∃ text, Writes .chrono log text ∧
      (runIn ["a.log", "-o", "b.log"] w).2.readFile "b.log" = .ok text := by
  obtain ⟨w, log, hsettings, hopen, hlog, hold, hcreated, hv, hd, hcount⟩ :
      ∃ (w : World) (log : Bytes),
        w.settings? { logfile := some "a.log", output := some "b.log" } =
          .ok { input := "a.log", output := some "b.log" } ∧
        w.tree.open? w.working "a.log" = .ok (["a.log"], .file log) ∧
        w.readFile "a.log" = .ok log ∧ w.readFile "b.log" = .ok [0x62] ∧
        Created w { input := "a.log", output := some "b.log" } "b.log" ["a.log"] ["b.log"] log ∧
        Utf8.valid log = true ∧ (∀ line ∈ Line.cut log, Stamp.Dated line) ∧ Line.count log = 2 :=
    ⟨{ tree := { nodes := [(["b.log"], .file [0x62]), (["a.log"], .file (Bytes.ofString
        "[2024-01-01 00:00:00:005] b\n[2024-01-01 00:00:00:003] a\n"))] } },
      _, rfl, rfl, rfl, rfl, ⟨rfl, rfl, rfl, rfl⟩, by decide, by decide, by decide⟩
  have hread : CommandLine.read ["a.log", "-o", "b.log"] =
      .ok { logfile := some "a.log", output := some "b.log" } := rfl
  have hzero := hcreated.exitCode_of_sound hread rfl hsettings (sound_of_valid hv hd)
  obtain ⟨s, path, target, hsame, hpath, htarget, hapart, -⟩ :=
    delivered_unless_one_file hread rfl rfl (by decide) rfl hlog hzero
  obtain rfl := Except.ok.inj (hsettings.symm.trans hsame)
  cases hopen.symm.trans hpath
  cases (congrArg (Except.map Prod.fst) (hcreated.create_eq.symm.trans htarget))
  obtain ⟨text, hwrites, hresult⟩ := hapart (by decide)
  exact ⟨w, _, log, hread, rfl, rfl, by decide, rfl, hlog, hold, hzero, hcount, text, hwrites,
    hresult⟩

/-- With two spellings of one name, the log is lost although the status is 0. -/
theorem lost_in_one_file : ∃ (w : World) (a : CommandLine.Arguments) (log : Bytes),
    CommandLine.read ["-o", "./a.log", "a.log"] = .ok a ∧ a.completions = none ∧
    a.logfile = some "a.log" ∧ a.output = some "./a.log" ∧ w.readFile "a.log" = .ok log ∧
    exitCode ["-o", "./a.log", "a.log"] w = 0 ∧ ∀ s text, w.settings? a = .ok s →
      Writes s.order log text →
      (runIn ["-o", "./a.log", "a.log"] w).2.readFile "./a.log" ≠ .ok text := by
  obtain ⟨w, log, hsettings, hlog, hcreated, hcount⟩ : ∃ (w : World) (log : Bytes),
      w.settings? { logfile := some "a.log", output := some "./a.log" } =
        .ok { input := "a.log", output := some "./a.log" } ∧
      w.readFile "a.log" = .ok log ∧
      Created w { input := "a.log", output := some "./a.log" } "./a.log" ["a.log"] ["a.log"] [] ∧
      Line.count log = 2 :=
    ⟨{ tree := { nodes := [(["a.log"], .file (Bytes.ofString
        "[2024-01-01 00:00:00:005] b\n[2024-01-01 00:00:00:003] a\n"))] } },
      _, rfl, rfl, ⟨rfl, rfl, rfl, rfl⟩, by decide⟩
  have hread : CommandLine.read ["-o", "./a.log", "a.log"] =
      .ok { logfile := some "a.log", output := some "./a.log" } := rfl
  have hzero := hcreated.exitCode_of_sound hread rfl hsettings
    fun _ hline => absurd hline List.not_mem_nil
  refine ⟨w, _, log, hread, rfl, rfl, rfl, hlog, hzero, ?_⟩
  intro s text _ hwrites hresult
  obtain ⟨left, hleft, hempty⟩ := hcreated.exists_readFile hread rfl hsettings hzero
  cases hempty.symm.trans hresult
  have hlines := hwrites.count_eq
  rw [hleft.eq_nil, hcount] at hlines
  cases hlines

end Program

end LogOrder
