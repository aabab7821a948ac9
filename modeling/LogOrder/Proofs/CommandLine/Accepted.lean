import LogOrder.Proofs.CommandLine.Spelled
import LogOrder.Proofs.Policy.Names
import Mathlib.Data.List.Induction
import Mathlib.Data.List.Nodup

/-!
# Command lines that are accepted

A command line that is accepted asks for what it spells: each switch in it is on, each slot in it
has its value, and there is nothing else. The checks of the whole then say which of these can come
together.

* `Collected` says that arguments are made of what is given;
* `collected_read`: those of a command line that is accepted are;
* `paths_read`: no path is empty;
* `order_alone`, `exists_logfile`: what comes with what.
-/

namespace LogOrder.CommandLine

/-- The name of what is given. -/
def Given.name : Given → Named
  | .switch s => .switch s
  | .value slot _ => .slot slot

/-- Whether a switch is on. -/
def Arguments.on (a : Arguments) : Switch → Bool
  | .chrono => a.chrono
  | .thread => a.thread
  | .verbose => a.verbose
  | .help | .version => false

/-- Whether the switch is on, or the slot has a value. -/
def Arguments.isSet (a : Arguments) : Named → Bool
  | .switch s => a.on s
  | .slot slot => a.has slot

/-- What is given is in force: the switch is on, or the slot has the value in its own terms. -/
def Arguments.Holds (a : Arguments) : Given → Prop
  | .switch s => a.on s = true
  | .value .logfile path => a.logfile = some path ∧ path ≠ ""
  | .value .order name => ∃ p, a.order = some p ∧ name ∈ p.choice.names
  | .value .output path => a.output = some path ∧ path ≠ ""
  | .value .config path => a.config = some path ∧ path ≠ ""
  | .value .completions name => ∃ shell, a.completions = some shell ∧ shell.name = name

/-- The arguments are made of what is given. -/
structure Collected (given : List Given) (a : Arguments) : Prop where
  /-- Nothing is given twice. -/
  nodup : (given.map Given.name).Nodup
  /-- Switches are on and slots have values if they are given, and only then. -/
  isSet_iff : ∀ name, a.isSet name = true ↔ name ∈ given.map Given.name
  /-- All that is given is in force. -/
  holds : ∀ g ∈ given, a.Holds g

variable {a b : Arguments} {args : List String} {given : List Given} {g : Given}

/-! ## One more thing -/

section Step

theorem of_path? {value path : String} (h : path? value = some path) :
    path = value ∧ value ≠ "" := by
  unfold path? at h
  split at h
  · cases h
  · next hne =>
    cases h
    refine ⟨rfl, ?_⟩
    rintro rfl
    exact hne rfl

theorem holds_of_fill? {slot : Slot} {value : String} (h : a.fill? slot value = some b) :
    b.Holds (.value slot value) := by
  cases slot with
  | logfile | output | config =>
    obtain ⟨path, hpath, rfl⟩ := Option.map_eq_some_iff.mp h
    obtain ⟨rfl, hne⟩ := of_path? hpath
    exact ⟨rfl, hne⟩
  | order =>
    obtain ⟨policy, hpolicy, rfl⟩ := Option.map_eq_some_iff.mp h
    exact ⟨policy, rfl, Policy.choose?_false_eq_some_iff.mp hpolicy⟩
  | completions =>
    obtain ⟨shell, hshell, rfl⟩ := Option.map_eq_some_iff.mp h
    have hname := Choice.accepts_false_iff.mp (Choice.accepts_of_find? hshell)
    exact ⟨shell, rfl, (List.mem_singleton.mp hname).symm⟩

/-- Filling a slot touches nothing else. -/
theorem holds_iff_of_fill? {slot : Slot} {value : String} (h : a.fill? slot value = some b)
    (hne : g.name ≠ .slot slot) : b.Holds g ↔ a.Holds g := by
  cases slot with
  | logfile | order | output | config | completions =>
    obtain ⟨_, -, rfl⟩ := Option.map_eq_some_iff.mp h
    rcases g with ⟨_ | _⟩ | ⟨_ | _, _⟩ <;> first | exact Iff.rfl | exact absurd rfl hne

theorem isSet_of_fill? {slot : Slot} {value : String} (h : a.fill? slot value = some b)
    (name : Named) : b.isSet name = (a.isSet name || decide (name = .slot slot)) := by
  cases name with
  | switch s =>
    have hon : b.on s = a.on s := by
      rw [Bool.eq_iff_iff]
      exact holds_iff_of_fill? (g := .switch s) h nofun
    rw [Arguments.isSet, Arguments.isSet, hon]
    simp
  | slot other =>
    rw [Arguments.isSet, Arguments.isSet, Arguments.has_of_fill? h]
    simp

theorem turn?_eq_some {s : Switch} (h : a.turn? s = some b) : a.on s = false ∧ b.on s = true ∧
    (∀ slot, b.has slot = a.has slot) ∧ ∀ g, g.name ≠ .switch s → (b.Holds g ↔ a.Holds g) := by
  cases s with
  | help | version => cases h
  | chrono | thread | verbose =>
    obtain ⟨hoff, hb⟩ := Option.ite_none_left_eq_some.mp h
    cases hb
    refine ⟨eq_false_of_ne_true hoff, rfl, fun slot => by cases slot <;> rfl, fun g hne => ?_⟩
    rcases g with ⟨_ | _⟩ | ⟨_ | _, _⟩ <;> first | exact Iff.rfl | exact absurd rfl hne

/-- What taking one more thing does. -/
structure Takes (a : Arguments) (g : Given) (b : Arguments) : Prop where
  /-- It was not there before, -/
  free : a.isSet g.name = false
  /-- it is there now, as the only new thing, -/
  isSet_eq : ∀ name, b.isSet name = (a.isSet name || decide (name = g.name))
  /-- and in force. -/
  holds : b.Holds g
  /-- All else is left as it was. -/
  holds_iff : ∀ other, other.name ≠ g.name → (b.Holds other ↔ a.Holds other)

theorem takes_of_give? (h : a.give? g = some b) : Takes a g b := by
  cases g with
  | switch s =>
    obtain ⟨hoff, hon, hhas, hholds⟩ := turn?_eq_some h
    refine ⟨hoff, fun name => ?_, hon, hholds⟩
    cases name with
    | switch other =>
      by_cases hs : other = s
      · subst hs
        simp [Arguments.isSet, Given.name, hon]
      · have hsame : b.on other = a.on other := by
          rw [Bool.eq_iff_iff]
          exact hholds (.switch other) (by simpa [Given.name] using hs)
        simp [Arguments.isSet, Given.name, hsame, hs]
    | slot slot => simp [Arguments.isSet, Given.name, hhas]
  | value slot value =>
    obtain ⟨hfree, hfill⟩ := Arguments.give?_value_eq_some_iff.mp h
    exact ⟨hfree, isSet_of_fill? hfill, holds_of_fill? hfill,
      fun other hne => holds_iff_of_fill? hfill hne⟩

end Step

/-! ## All that is given -/

theorem Collected.concat (h : Collected given a) (hgive : a.give? g = some b) :
    Collected (given ++ [g]) b := by
  have htakes := takes_of_give? hgive
  have hnot : g.name ∉ given.map Given.name := by
    rw [← h.isSet_iff, htakes.free]
    exact Bool.false_ne_true
  refine ⟨?_, fun name => ?_, fun other hother => ?_⟩
  · rw [List.map_append, List.nodup_append']
    refine ⟨h.nodup, List.nodup_singleton _, ?_⟩
    intro name hname hlast
    obtain rfl := List.mem_singleton.mp hlast
    exact hnot hname
  · rw [htakes.isSet_eq, Bool.or_eq_true, h.isSet_iff, decide_eq_true_iff, List.map_append,
      List.mem_append, List.map_singleton, List.mem_singleton]
  · rcases List.mem_append.mp hother with hbefore | hlast
    · have hne : other.name ≠ g.name := by
        intro heq
        exact hnot (heq ▸ List.mem_map_of_mem hbefore)
      exact (htakes.holds_iff other hne).mpr (h.holds other hbefore)
    · obtain rfl := List.mem_singleton.mp hlast
      exact htakes.holds

theorem collected_gives? (h : Arguments.gives? {} given = some a) : Collected given a := by
  induction given using List.reverseRecOn generalizing a with
  | nil =>
    cases h
    refine ⟨List.nodup_nil, fun name => ?_, fun g hg => absurd hg List.not_mem_nil⟩
    rcases name with ⟨_ | _⟩ | ⟨_ | _⟩ <;> exact ⟨nofun, nofun⟩
  | append_singleton given g ih =>
    rw [Arguments.gives?_append] at h
    obtain ⟨b, hgiven, hlast⟩ := Option.bind_eq_some_iff.mp h
    obtain ⟨c, hgive, hc⟩ := Option.bind_eq_some_iff.mp hlast
    cases hc
    exact (ih hgiven).concat hgive

/-- A command line that is accepted asks for what it spells. -/
theorem collected_read (h : read args = .ok a) (hspells : Spells args given) :
    Collected given a :=
  collected_gives? (gives?_of_spells h hspells)

theorem Collected.on_iff (h : Collected given a) (s : Switch) :
    a.on s = true ↔ .switch s ∈ given := by
  have hset := h.isSet_iff (.switch s)
  rw [List.mem_map] at hset
  refine hset.trans ⟨?_, fun hs => ⟨_, hs, rfl⟩⟩
  rintro ⟨g, hg, hname⟩
  cases g with
  | switch other =>
    cases hname
    exact hg
  | value slot value => cases hname

theorem Collected.on_eq (h : Collected given a) (s : Switch) :
    a.on s = decide (.switch s ∈ given) := by
  rw [Bool.eq_iff_iff, decide_eq_true_iff]
  exact h.on_iff s

/-- A slot that has a value was given one, and has that one. -/
theorem Collected.exists_value (h : Collected given a) (slot : Slot) (hhas : a.has slot = true) :
    ∃ value, .value slot value ∈ given ∧ a.Holds (.value slot value) := by
  obtain ⟨g, hg, hname⟩ := List.mem_map.mp ((h.isSet_iff (.slot slot)).mp hhas)
  cases g with
  | switch s => cases hname
  | value other value =>
    cases hname
    exact ⟨value, hg, h.holds _ hg⟩

/-- No path is empty. -/
structure Arguments.Paths (a : Arguments) : Prop where
  logfile : a.logfile ≠ some ""
  output : a.output ≠ some ""
  config : a.config ≠ some ""

theorem Collected.paths (h : Collected given a) : a.Paths := by
  refine ⟨fun hlog => ?_, fun houtput => ?_, fun hconfig => ?_⟩
  · obtain ⟨path, -, hpath, hne⟩ := h.exists_value .logfile (by simp [Arguments.has, hlog])
    exact hne (Option.some.inj (hpath.symm.trans hlog))
  · obtain ⟨path, -, hpath, hne⟩ :=
      h.exists_value .output (by simp [Arguments.has, houtput])
    exact hne (Option.some.inj (hpath.symm.trans houtput))
  · obtain ⟨path, -, hpath, hne⟩ :=
      h.exists_value .config (by simp [Arguments.has, hconfig])
    exact hne (Option.some.inj (hpath.symm.trans hconfig))

/-! ## What comes with what -/

theorem checked_of_read (h : read args = .ok a) : a.checked = .ok a := by
  obtain ⟨given, -, -, hchecked⟩ := read_eq_ok_iff.mp h
  exact hchecked

theorem paths_read (h : read args = .ok a) : a.Paths := by
  obtain ⟨given, hspells, -⟩ := read_eq_ok_iff.mp h
  exact (collected_read h hspells).paths

/-- A policy by name excludes the switches. -/
theorem order_alone (h : read args = .ok a) (horder : a.order.isSome) :
    a.chrono = false ∧ a.thread = false := by
  obtain ⟨-, halone, -⟩ := checked_eq_ok_iff.mp (checked_of_read h)
  simpa [horder] using halone

/-- A command line that is accepted names a log, unless it asks for completions. -/
theorem exists_logfile (h : read args = .ok a) (hcompletions : a.completions = none) :
    ∃ name, a.logfile = some name ∧ name ≠ "" := by
  obtain ⟨-, -, hlog⟩ := checked_eq_ok_iff.mp (checked_of_read h)
  rw [hcompletions, Option.isSome_none] at hlog
  obtain ⟨name, hname⟩ := Option.isSome_iff_exists.mp (hlog.resolve_right Bool.false_ne_true)
  refine ⟨name, hname, ?_⟩
  rintro rfl
  exact (paths_read h).logfile hname

end LogOrder.CommandLine
