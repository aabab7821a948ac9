import LogOrder.Proofs.CommandLine.Accepted
import LogOrder.Proofs.Program.InWorld

/-!
# What an accepted command line guarantees

Once a command line is accepted, no two things in it are at odds: the order comes from a name or
from switches and never from both, and a run that goes on to its settings has a log that is named.
So where the program falls back on something that was not asked for, nothing was asked for.

* `requestedOrder_of_order`, `requestedOrder_of_switches`: the order that is requested;
* `runIn_withInput`: a run whose log is not a dash does not look at the standard input;
* **`accepted_guarantees`**: what holds of every command line that is accepted, and of its runs.
-/

namespace LogOrder

/-! ## The order -/

namespace CommandLine

variable {a : Arguments} {args : List String}

/-- Switches exclude a policy by name. -/
theorem order_eq_none (h : read args = .ok a) (hon : a.chrono = true ∨ a.thread = true) :
    a.order = none := by
  cases horder : a.order with
  | none => rfl
  | some policy =>
    obtain ⟨hchrono, hthread⟩ := order_alone h (by rw [horder]; rfl)
    simp [hchrono, hthread] at hon

theorem requestedOrder_of_order {policy : Policy} (h : a.order = some policy) :
    a.requestedOrder = some policy := by
  rw [Arguments.requestedOrder, h]

theorem requestedOrder_of_switches (h : a.order = none)
    (hon : a.chrono = true ∨ a.thread = true) :
    a.requestedOrder = some (.ofSwitches a.chrono a.thread) := by
  rw [Arguments.requestedOrder, h]
  exact if_pos ((Bool.or_eq_true _ _).mpr hon)

theorem requestedOrder_eq_none_iff :
    a.requestedOrder = none ↔ a.order = none ∧ a.chrono = false ∧ a.thread = false := by
  rw [Arguments.requestedOrder]
  cases a.order with
  | some policy => simp
  | none => cases a.chrono <;> cases a.thread <;> simp

end CommandLine

/-! ## The standard input -/

/-- The world with other bytes on the standard input. -/
def World.withInput (w : World) (bs : Bytes) : World := { w with input := bs }

namespace Program

open CommandLine (read Spells Collected)

variable {w : World} {a : CommandLine.Arguments} {s : Settings} {args : List String} {bs : Bytes}

theorem settings?_withInput : (w.withInput bs).settings? a = w.settings? a := by
  rw [World.settings?, World.settings?, run_resolve_eq, run_resolve_eq]
  rfl

/-- A run whose log is a file does not look at the standard input. -/
theorem run_process_withInput (h : s.readsStandardInput = false) :
    (process s : StateM World _).run (w.withInput bs) =
      (((process s : StateM World _).run w).1,
        ((process s : StateM World _).run w).2.withInput bs) := by
  have hsame : (w.withInput bs).place? s = w.place? s := rfl
  cases hplace : w.place? s with
  | error why =>
    rw [run_process_of_error hplace, run_process_of_error (hsame.trans hplace)]
  | ok place =>
    cases place with
    | none =>
      rw [place?_eq_ok_none_iff.mp hplace] at h
      cases h
    | some path =>
      cases houtput : s.output with
      | none =>
        rw [run_process_of_standard hplace houtput,
          run_process_of_standard (hsame.trans hplace) houtput]
        rfl
      | some name =>
        cases hcreate : w.tree.create w.working name with
        | error why =>
          rw [run_process_of_not_created hplace houtput hcreate,
            run_process_of_not_created (hsame.trans hplace) houtput hcreate]
        | ok created =>
          rw [run_process_of_created hplace houtput hcreate,
            run_process_of_created (hsame.trans hplace) houtput hcreate]
          rfl

theorem concluded_withInput (result : Except Fault Log.Tally) (w : World) :
    concluded s (result, w.withInput bs) =
      ((concluded s (result, w)).1, (concluded s (result, w)).2.withInput bs) := by
  cases result <;> rfl

theorem runIn_withInput (hread : read args = .ok a) (hlog : a.logfile ≠ some "-") :
    runIn args (w.withInput bs) = ((runIn args w).1, (runIn args w).2.withInput bs) := by
  cases hcompletions : a.completions with
  | some shell =>
    rw [runIn_of_completions hread hcompletions, runIn_of_completions hread hcompletions]
    rfl
  | none =>
    cases hsettings : w.settings? a with
    | error fault =>
      rw [runIn_of_misconfigured hread hcompletions hsettings,
        runIn_of_misconfigured hread hcompletions (settings?_withInput.trans hsettings)]
      rfl
    | ok s =>
      obtain ⟨name, hname, hne⟩ := CommandLine.exists_logfile hread hcompletions
      obtain ⟨rfl, -, -⟩ := of_settings? hsettings hname
      have hstandard : s.readsStandardInput = false := by
        rw [Bool.eq_false_iff, Ne, readsStandardInput_iff hne]
        intro hdash
        exact hlog (hname.trans (congrArg some hdash))
      rw [runIn_of_settings hread hcompletions hsettings,
        runIn_of_settings hread hcompletions (settings?_withInput.trans hsettings),
        run_process_withInput hstandard]
      exact concluded_withInput _ _

/-! ## The whole -/

/-- What holds of every command line that is accepted, and of its runs. -/
structure Guarantees (args : List String) (a : CommandLine.Arguments) : Prop where
  /-- The command line spells something, -/
  spells : ∃ given, Spells args given
  /-- and that is in force, all of it and nothing else. -/
  collected : ∀ given, Spells args given → Collected given a
  /-- A policy by name excludes the switches, and is the one requested. -/
  of_order : ∀ policy, a.order = some policy →
    a.chrono = false ∧ a.thread = false ∧ a.requestedOrder = some policy
  /-- Switches exclude a policy by name, and make the one requested. -/
  of_switches : a.chrono = true ∨ a.thread = true →
    a.order = none ∧ a.requestedOrder = some (.ofSwitches a.chrono a.thread)
  /-- None is requested only if nothing asks for one. -/
  of_nothing : a.requestedOrder = none ↔ a.order = none ∧ a.chrono = false ∧ a.thread = false
  /-- So a name that the user gave is never hidden, -/
  shown_name : ∀ given name, Spells args given → .value .order name ∈ given →
    ∃ policy, name ∈ policy.choice.names ∧ a.requestedOrder = some policy
  /-- nor is a switch. -/
  shown_switches : ∀ given, Spells args given →
    .switch .chrono ∈ given ∨ .switch .thread ∈ given →
      a.requestedOrder =
        some (.ofSwitches (decide (.switch .chrono ∈ given)) (decide (.switch .thread ∈ given)))
  /-- No path is empty. -/
  paths : a.Paths
  /-- Only who asks for completions may leave out the log. -/
  logfile : a.logfile = none → a.completions ≠ none
  /-- They get a script and nothing else. -/
  completions : ∀ shell, a.completions = some shell → ∀ w : World,
    ∃ script, script ≠ [] ∧ runIn args w = (.completions, w.print script)
  /-- All others have named the log that their run reads, and it is the standard input if the name
  is a dash. -/
  input : a.completions = none → ∃ name, a.logfile = some name ∧
    ∀ (w : World) (s : Settings), w.settings? a = .ok s →
      s.input = name ∧ (s.readsStandardInput = true ↔ name = "-") ∧
        (w.place? s = .ok none ↔ name = "-")
  /-- Under any other name, what the standard input holds makes no difference. -/
  unread : a.logfile ≠ some "-" → ∀ (w : World) (bs : Bytes),
    runIn args (w.withInput bs) = ((runIn args w).1, (runIn args w).2.withInput bs)

/-- **A command line that is accepted is never at odds with itself.** -/
theorem accepted_guarantees (hread : read args = .ok a) : Guarantees args a where
  spells := by
    obtain ⟨given, hspells, -⟩ := CommandLine.read_eq_ok_iff.mp hread
    exact ⟨given, hspells⟩
  collected := fun given hspells => CommandLine.collected_read hread hspells
  of_order := by
    intro policy horder
    obtain ⟨hchrono, hthread⟩ := CommandLine.order_alone hread (by rw [horder]; rfl)
    exact ⟨hchrono, hthread, CommandLine.requestedOrder_of_order horder⟩
  of_switches := by
    intro hon
    have hnone := CommandLine.order_eq_none hread hon
    exact ⟨hnone, CommandLine.requestedOrder_of_switches hnone hon⟩
  of_nothing := CommandLine.requestedOrder_eq_none_iff
  shown_name := by
    intro given name hspells hmem
    obtain ⟨policy, horder, hname⟩ :=
      (CommandLine.collected_read hread hspells).holds (.value .order name) hmem
    exact ⟨policy, hname, CommandLine.requestedOrder_of_order horder⟩
  shown_switches := by
    intro given hspells hmem
    have hcollected := CommandLine.collected_read hread hspells
    have hchrono : a.chrono = decide (.switch .chrono ∈ given) := hcollected.on_eq .chrono
    have hthread : a.thread = decide (.switch .thread ∈ given) := hcollected.on_eq .thread
    have hon : a.chrono = true ∨ a.thread = true := by
      rw [hchrono, hthread, decide_eq_true_iff, decide_eq_true_iff]
      exact hmem
    rw [← hchrono, ← hthread]
    exact CommandLine.requestedOrder_of_switches (CommandLine.order_eq_none hread hon) hon
  logfile := by
    intro hlog hcompletions
    obtain ⟨name, hname, -⟩ := CommandLine.exists_logfile hread hcompletions
    rw [hlog] at hname
    cases hname
  paths := CommandLine.paths_read hread
  completions := by
    intro shell hcompletions w
    refine ⟨_, ?_, runIn_of_completions hread hcompletions⟩
    intro hempty
    have hnone : Bytes.ofString (w.texts.script shell) = Bytes.ofString "" := hempty
    exact w.texts.script_ne shell (Bytes.ofString_injective hnone)
  input := by
    intro hcompletions
    obtain ⟨name, hname, hne⟩ := CommandLine.exists_logfile hread hcompletions
    refine ⟨name, hname, fun w s hsettings => ?_⟩
    obtain ⟨rfl, -, -⟩ := of_settings? hsettings hname
    have hdash := readsStandardInput_iff hne
    exact ⟨rfl, hdash, place?_eq_ok_none_iff.trans hdash⟩
  unread := fun hlog w bs => runIn_withInput hread hlog

/-- Switches behind one dash, a value in the next argument, and a dash that is the log. -/
theorem accepted_guarantees_dash :
    ∃ a, read ["-tvo", "out.log", "--chrono", "--config=order.toml", "--", "-"] = .ok a ∧
      a.requestedOrder = some .threadChrono ∧ a.logfile = some "-" ∧
      Guarantees ["-tvo", "out.log", "--chrono", "--config=order.toml", "--", "-"] a :=
  ⟨{ logfile := some "-", chrono := true, thread := true, output := some "out.log",
     verbose := true, config := some "order.toml" },
    by decide, rfl, rfl, accepted_guarantees (by decide)⟩

end Program

end LogOrder
