import LogOrder.Proofs.CommandLine.Accepted
import LogOrder.Proofs.Settings.OrderLine

/-!
# Readers of policy names

Names of policies are read in three places: behind an option of the command line, in a settings
file, and in a text where the size of letters makes no difference. A settings file has a table of
names of its own, apart from the one that the other two go by, and what is shown for a policy stands
in neither. They agree all the same.

* `exists_order`, `read_order_iff`: what the command line takes for a policy;
* **`readers_agree`**: all of them take the same texts for the same policies.
-/

namespace LogOrder

namespace CommandLine

variable {a : Arguments} {args : List String} {given : List Given} {s log : String} {p : Policy}

/-- However the option is written and whatever stands around it, its value is a name and the order
is that policy. -/
theorem exists_order (h : read args = .ok a) (hspells : Spells args given)
    (hmem : .value .order s ∈ given) :
    ∃ policy, a.order = some policy ∧ Policy.choose? false s = some policy := by
  obtain ⟨policy, horder, hname⟩ := (collected_read h hspells).holds _ hmem
  exact ⟨policy, horder, Policy.choose?_false_eq_some_iff.mpr hname⟩

theorem spells_order (s log : String) :
    Spells ["--order=" ++ s, "--", log] [.value .order s, .value .logfile log] := by
  have hname : ofLong? "order" = some (.slot .order) := by decide
  have harg : Spelled ("--order=" ++ s).toList [] (some (.order, some s)) := by
    rw [String.toList_append]
    exact .value hname
  exact .attached harg .dashes

theorem gives?_order (hlog : log ≠ "") :
    Arguments.gives? {} [.value .order s, .value .logfile log] =
      (Policy.choose? false s).map fun p => { logfile := some log, order := some p } := by
  have horder : Arguments.give? {} (.value .order s) =
      (Policy.choose? false s).map fun p => { order := some p } := rfl
  have hpath : path? log = some log := if_neg (by simpa using hlog)
  rw [Arguments.gives?_cons, horder, Option.bind_map, Option.map_eq_bind]
  refine Option.bind_congr fun p _ => ?_
  have hlogfile : Arguments.give? { order := some p } (.value .logfile log) =
      (path? log).map fun path => { logfile := some path, order := some p } := rfl
  rw [Function.comp_apply, Arguments.gives?_cons, hlogfile, hpath]
  rfl

theorem read_order_iff (hlog : log ≠ "") :
    read ["--order=" ++ s, "--", log] = .ok { logfile := some log, order := some p } ↔
      Policy.choose? false s = some p := by
  constructor
  · intro h
    obtain ⟨policy, horder, hname⟩ := exists_order h (spells_order s log) List.mem_cons_self
    exact hname.trans horder.symm
  · intro hname
    refine read_eq_ok_iff.mpr ⟨_, spells_order s log, ?_, rfl⟩
    rw [gives?_order hlog, hname]
    rfl

end CommandLine

namespace Policy

open Choice (SameLetter)
open CommandLine (read Spells)
open Settings (load GivesText)

/-- Every reader of names takes the text for the policy. -/
structure TakenFor (s : String) (p : Policy) : Prop where
  chosen : choose? false s = some p
  option : ∀ log, log ≠ "" →
    read ["--order=" ++ s, "--", log] = .ok { logfile := some log, order := some p }
  file : ∀ path source, GivesText source s → load path (.ok source) = .ok { order := some p }
  parsed : parse s = .ok p

/-- The readers of names agree whether the text stands for the policy. -/
structure Agreed (s : String) (p : Policy) : Prop where
  /-- Letter for letter, a text that chooses the policy is one of the names for that. -/
  chosen : choose? false s = some p ↔ s ∈ p.choice.names
  /-- The same texts are taken behind the option of the command line, -/
  option : ∀ log, log ≠ "" →
    (read ["--order=" ++ s, "--", log] = .ok { logfile := some log, order := some p } ↔
      choose? false s = some p)
  /-- in whatever way that is written, and what names no policy is not accepted there. -/
  given : ∀ args given a, Spells args given → .value .order s ∈ given → read args = .ok a →
    a.order.isSome ∧ (a.order = some p ↔ choose? false s = some p)
  /-- The same texts are taken from a settings file, in whatever way it writes them, -/
  file : ∀ path source, GivesText source s →
    (load path (.ok source) = .ok { order := some p } ↔ choose? false s = some p)
  /-- and there is a file for every text. -/
  exists_file : ∃ source, GivesText source s
  /-- Where size makes no difference, a text is read if it is taken in small letters, -/
  parsed : parse s = .ok p ↔ choose? false s.toLower = some p
  /-- and if none is taken then, the text is reported. -/
  rejected : choose? false s.toLower = none → parse s = .error (invalidName s)
  /-- That is so for the letters of ASCII, -/
  letters : parse s = .ok p ↔ ∃ t ∈ p.choice.names, List.Forall₂ SameLetter s.toList t.toList
  /-- and no other character is taken for one of them. -/
  ascii : parse s = .ok p → ∀ c ∈ s.toList, c.toNat < 128
  /-- The name that is shown for a policy is taken by all. -/
  name : TakenFor p.name p

variable {source : Bytes} {s : String} {p : Policy}

/-- A settings file gives the policy that its text chooses, by a table of its own. -/
theorem load_iff_choose? (h : GivesText source s) (path : String) :
    load path (.ok source) = .ok { order := some p } ↔ choose? false s = some p := by
  rw [h.load_iff, Settings.mem_variants_iff, choose?_false_eq_some_iff]

theorem parse_eq_ok_iff_toLower : parse s = .ok p ↔ choose? false s.toLower = some p := by
  rw [parse_eq_ok_iff, choose?_true_eq]

theorem takenFor_name (p : Policy) : TakenFor p.name p where
  chosen := choose?_name p
  option := fun _ hlog => (CommandLine.read_order_iff hlog).mpr (choose?_name p)
  file := fun path _ hgives => (load_iff_choose? hgives path).mpr (choose?_name p)
  parsed := parse_name p

/-- **All readers of names agree**, on every text and every policy. -/
theorem readers_agree (s : String) (p : Policy) : Agreed s p where
  chosen := choose?_false_eq_some_iff
  option := fun log hlog => CommandLine.read_order_iff hlog
  given := by
    intro args given a hspells hmem hread
    obtain ⟨policy, horder, hname⟩ := CommandLine.exists_order hread hspells hmem
    rw [horder, hname]
    exact ⟨rfl, Iff.rfl⟩
  file := fun path source hgives => load_iff_choose? hgives path
  exists_file := ⟨Settings.orderLine s, Settings.givesText_orderLine s⟩
  parsed := parse_eq_ok_iff_toLower
  rejected := by
    intro hnone
    refine parse_eq_error fun q hq => ?_
    rw [parse_eq_ok_iff_toLower, hnone] at hq
    cases hq
  letters := parse_eq_ok_iff.trans choose?_true_eq_some_iff
  ascii := toNat_lt_of_parse
  name := takenFor_name p

example : parse "Thread-CHRONO" = .ok .threadChrono := by decide

end Policy

end LogOrder
