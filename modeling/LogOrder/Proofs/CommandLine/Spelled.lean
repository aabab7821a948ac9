import LogOrder.CommandLine.Reading

/-!
# What a command line spells

A command line spells a list of switches and values, in the order in which they are given. There are
several ways to spell each: with a long name or a short one, switches alone or behind one dash, a
value in the same argument or in the next. Which of them was taken makes no difference to what is
read.

* `Spells` says what arguments spell, with one constructor for each way to write something;
* `Arguments.give?` takes one thing that is given, and `Arguments.gives?` all of them;
* `finish?_of_spells`: reading arguments takes what they spell;
* `exists_spells`: arguments that spell nothing are refused;
* **`read_eq_ok_iff`**: so a command line is accepted if it spells something that can be taken and
  passes the checks of the whole.
-/

namespace LogOrder.CommandLine

/-! ## Ways to write options -/

/-- One thing that a command line gives. -/
inductive Given where
  /-- A switch. -/
  | switch (s : Switch)
  /-- A value for a slot. -/
  | value (slot : Slot) (value : String)
deriving DecidableEq, Repr

/-- An argument that is no option: it has no dash at its head, or is a dash alone. -/
def IsWord (arg : String) : Prop := ∀ c rest, arg.toList ≠ '-' :: c :: rest

/-- Short names behind one dash: switches, then perhaps the name of a slot, with its value if it
stands there too. An equals sign before the value is no part of it. -/
inductive Cluster : List Char → List Switch → Option (Slot × Option String) → Prop
  | nil : Cluster [] [] none
  | switch {c : Char} {s : Switch} {cs : List Char} {switches : List Switch}
      {last : Option (Slot × Option String)} (hname : ofShort? c = some (.switch s))
      (hrest : Cluster cs switches last) : Cluster (c :: cs) (s :: switches) last
  | slot {c : Char} {slot : Slot} (hname : ofShort? c = some (.slot slot)) :
      Cluster [c] [] (some (slot, none))
  | value {c d : Char} {slot : Slot} {cs : List Char} (hname : ofShort? c = some (.slot slot))
      (hd : d ≠ '=') : Cluster (c :: d :: cs) [] (some (slot, some (String.ofList (d :: cs))))
  | equals {c : Char} {slot : Slot} {cs : List Char} (hname : ofShort? c = some (.slot slot)) :
      Cluster (c :: '=' :: cs) [] (some (slot, some (String.ofList cs)))

/-- One argument that is an option: the switches in it, and the slot at its end, if there is one,
with its value if that stands there too. -/
inductive Spelled : List Char → List Switch → Option (Slot × Option String) → Prop
  | switch {name : String} {s : Switch} (hname : ofLong? name = some (.switch s)) :
      Spelled ('-' :: '-' :: name.toList) [s] none
  | slot {name : String} {slot : Slot} (hname : ofLong? name = some (.slot slot)) :
      Spelled ('-' :: '-' :: name.toList) [] (some (slot, none))
  | value {name value : String} {slot : Slot} (hname : ofLong? name = some (.slot slot)) :
      Spelled ('-' :: '-' :: (name.toList ++ '=' :: value.toList)) [] (some (slot, some value))
  | short {c : Char} {cs : List Char} {switches : List Switch}
      {last : Option (Slot × Option String)} (hcluster : Cluster (c :: cs) switches last) :
      Spelled ('-' :: c :: cs) switches last

/-- What arguments spell, in the order in which it is given. -/
inductive Spells : List String → List Given → Prop
  | nil : Spells [] []
  /-- A word that no option waits for is the log. -/
  | word {arg : String} {rest : List String} {given : List Given} (hword : IsWord arg)
      (hrest : Spells rest given) : Spells (arg :: rest) (.value .logfile arg :: given)
  /-- So is everything after two dashes. -/
  | dashes {rest : List String} : Spells ("--" :: rest) (rest.map (.value .logfile))
  | switches {arg : String} {rest : List String} {switches : List Switch} {given : List Given}
      (harg : Spelled arg.toList switches none) (hrest : Spells rest given) :
      Spells (arg :: rest) (switches.map .switch ++ given)
  | attached {arg value : String} {rest : List String} {switches : List Switch} {slot : Slot}
      {given : List Given} (harg : Spelled arg.toList switches (some (slot, some value)))
      (hrest : Spells rest given) :
      Spells (arg :: rest) (switches.map .switch ++ .value slot value :: given)
  /-- A slot without a value takes the next argument, which must be a word. -/
  | apart {arg value : String} {rest : List String} {switches : List Switch} {slot : Slot}
      {given : List Given} (harg : Spelled arg.toList switches (some (slot, none)))
      (hword : IsWord value) (hrest : Spells rest given) :
      Spells (arg :: value :: rest) (switches.map .switch ++ .value slot value :: given)

/-! ## Taking what is given -/

/-- The arguments with a switch turned on, if it is off and is one of the run. -/
def Arguments.turn? (a : Arguments) : Switch → Option Arguments
  | .chrono => if a.chrono then none else some { a with chrono := true }
  | .thread => if a.thread then none else some { a with thread := true }
  | .verbose => if a.verbose then none else some { a with verbose := true }
  | .help | .version => none

/-- The arguments with one more thing that is given, if it is new and can be taken. -/
def Arguments.give? (a : Arguments) : Given → Option Arguments
  | .switch s => a.turn? s
  | .value slot value => if a.has slot then none else a.fill? slot value

/-- The arguments with everything that is given. -/
def Arguments.gives? (a : Arguments) (given : List Given) : Option Arguments :=
  given.foldlM Arguments.give? a

variable {a b : Arguments} {p q : Progress} {arg : String} {args rest : List String}
  {cs : List Char} {switches : List Switch} {last : Option (Slot × Option String)}
  {slot : Slot} {value : String} {given : List Given}

theorem Arguments.gives?_cons (a : Arguments) (g : Given) (given : List Given) :
    a.gives? (g :: given) = (a.give? g).bind fun b => b.gives? given := rfl

theorem Arguments.gives?_append (a : Arguments) (given more : List Given) :
    a.gives? (given ++ more) = (a.gives? given).bind fun b => b.gives? more :=
  List.foldlM_append

/-- A slot has a value from then on, and no other slot gets one. -/
theorem Arguments.has_of_fill? (h : a.fill? slot value = some b) (other : Slot) :
    b.has other = (a.has other || decide (other = slot)) := by
  cases slot with
  | logfile | order | output | config | completions =>
    obtain ⟨_, -, rfl⟩ := Option.map_eq_some_iff.mp h
    cases other <;> simp [has]

theorem Arguments.give?_value_eq_some_iff :
    a.give? (.value slot value) = some b ↔ a.has slot = false ∧ a.fill? slot value = some b := by
  rw [give?]
  cases a.has slot <;> simp

/-! ## One step

Only whether a step succeeds is looked at here, not why it fails. -/

/-- The arguments when what waits has taken effect. -/
def Progress.settled? (p : Progress) : Option Arguments := p.settle.toOption.map Progress.taken

/-- A value is waited for. -/
def Progress.Owes (p : Progress) : Prop := ∃ slot, p.waiting = some (slot, none)

/-- What is known after an option with a slot at its end. -/
def Arguments.after? (a : Arguments) : Option (Slot × Option String) → Option Progress
  | none => some { taken := a }
  | some (slot, none) => some { taken := a, waiting := some (slot, none) }
  | some (slot, some value) => (a.give? (.value slot value)).map fun b => { taken := b }

theorem toOption_bind {α β : Type} (x : Except Refusal α) (f : α → Except Refusal β) :
    (x >>= f).toOption = x.toOption.bind fun a => (f a).toOption := by
  cases x <;> rfl

theorem toOption_take (a : Arguments) (slot : Slot) (value : String) :
    (a.take slot (some value)).toOption = a.give? (.value slot value) := by
  rw [Arguments.take, Arguments.give?]
  split
  · rfl
  · cases a.fill? slot value <;> rfl

theorem settled?_none (a : Arguments) : Progress.settled? { taken := a } = some a := rfl

theorem settled?_value (a : Arguments) (slot : Slot) (value : String) :
    Progress.settled? { taken := a, waiting := some (slot, some value) } =
      a.give? (.value slot value) := by
  rw [← toOption_take, Progress.settled?, Progress.settle]
  dsimp only
  cases a.take slot (some value) <;> rfl

theorem settled?_of_owes (h : p.Owes) : p.settled? = none := by
  obtain ⟨slot, hslot⟩ := h
  rw [Progress.settled?, Progress.settle, hslot]
  rfl

theorem toOption_settle (p : Progress) :
    p.settle.toOption = p.settled?.map fun a => { taken := a } := by
  obtain ⟨taken, waiting⟩ := p
  rw [Progress.settled?, Progress.settle]
  cases waiting with
  | none => rfl
  | some waits =>
    dsimp only
    cases taken.take waits.1 waits.2 <;> rfl

theorem toOption_turnOn (p : Progress) (s : Switch) :
    (p.turnOn s).toOption =
      p.settled?.bind fun a => (a.turn? s).map fun b => { taken := b } := by
  rw [Progress.turnOn, toOption_bind, toOption_settle, Option.bind_map]
  refine Option.bind_congr fun a _ => ?_
  cases s with
  | help => rfl
  | version => rfl
  | chrono => cases h : a.chrono <;> simp [Arguments.turn?, h, Except.toOption]
  | thread => cases h : a.thread <;> simp [Arguments.turn?, h, Except.toOption]
  | verbose => cases h : a.verbose <;> simp [Arguments.turn?, h, Except.toOption]

theorem toOption_start (p : Progress) (slot : Slot) (attached : Option String) :
    (p.start slot attached).toOption =
      p.settled?.bind fun a => a.after? (some (slot, attached)) := by
  rw [Progress.start, toOption_bind, toOption_settle, Option.bind_map]
  refine Option.bind_congr fun a _ => ?_
  cases attached with
  | none => rfl
  | some value =>
    rw [Function.comp_apply]
    dsimp only
    rw [toOption_bind, toOption_take, Arguments.after?, Option.map_eq_bind]
    rfl

/-! ## One option -/

/-- A switch or slot behind a dash looks at what waits before anything else. -/
theorem toOption_short_cons (p : Progress) (c : Char) (cs : List Char) :
    (p.short (c :: cs)).toOption =
      p.settled?.bind fun a => (Progress.short { taken := a } (c :: cs)).toOption := by
  simp only [Progress.short]
  cases ofShort? c with
  | none => cases p.settled? <;> rfl
  | some named =>
    cases named with
    | switch s =>
      simp only [toOption_bind, toOption_turnOn, settled?_none, Option.bind_assoc]
      rfl
    | slot slot =>
      dsimp only
      split
      all_goals
        simp only [toOption_start, settled?_none]
        rfl

theorem toOption_short (h : Cluster cs switches last) (a : Arguments) :
    (Progress.short { taken := a } cs).toOption =
      (a.gives? (switches.map .switch)).bind fun b => b.after? last := by
  induction h generalizing a with
  | nil => rfl
  | switch hname hrest ih =>
    rw [Progress.short, hname]
    dsimp only
    rw [toOption_bind, toOption_turnOn, settled?_none, Option.bind_some, Option.bind_map,
      List.map_cons, Arguments.gives?_cons, Option.bind_assoc]
    exact Option.bind_congr fun b _ => ih b
  | slot hname =>
    rw [Progress.short, hname]
    exact toOption_start _ _ _
  | value hname hd =>
    rw [Progress.short, hname]
    dsimp only
    split
    · next heq => cases heq
    · next heq => exact absurd (List.cons.inj heq).1 hd
    · exact toOption_start _ _ _
  | equals hname =>
    rw [Progress.short, hname]
    exact toOption_start _ _ _

theorem eq_not_mem_of_ofLong? {name : String} {named : Named} (h : ofLong? name = some named) :
    '=' ∉ name.toList := by
  unfold ofLong? at h
  split at h
  all_goals first | decide | cases h

theorem takeWhile_name {name : List Char} (h : '=' ∉ name) (more : List Char)
    (hmore : ∀ c ∈ more.head?, c = '=') :
    (name ++ more).takeWhile (· != '=') = name ∧ (name ++ more).dropWhile (· != '=') = more := by
  have hall : ∀ c ∈ name, (c != '=') = true := by
    intro c hc
    rw [bne_iff_ne]
    rintro rfl
    exact h hc
  have hhead : more.takeWhile (· != '=') = [] ∧ more.dropWhile (· != '=') = more := by
    cases more with
    | nil => exact ⟨rfl, rfl⟩
    | cons c more =>
      obtain rfl := hmore c rfl
      exact ⟨rfl, rfl⟩
  rw [List.takeWhile_append_of_pos hall, List.dropWhile_append_of_pos hall, hhead.1, hhead.2]
  exact ⟨List.append_nil name, rfl⟩

section Long

variable {name : String}

theorem long_switch {s : Switch} (h : ofLong? name = some (.switch s)) (p : Progress) :
    p.long name.toList = p.turnOn s := by
  obtain ⟨htake, hdrop⟩ := takeWhile_name (eq_not_mem_of_ofLong? h) [] nofun
  rw [List.append_nil] at htake hdrop
  rw [Progress.long, htake, hdrop, String.ofList_toList, h]

theorem long_slot (h : ofLong? name = some (.slot slot)) (p : Progress) :
    p.long name.toList = p.start slot none := by
  obtain ⟨htake, hdrop⟩ := takeWhile_name (eq_not_mem_of_ofLong? h) [] nofun
  rw [List.append_nil] at htake hdrop
  rw [Progress.long, htake, hdrop, String.ofList_toList, h]

theorem long_value (h : ofLong? name = some (.slot slot)) (value : String) (p : Progress) :
    p.long (name.toList ++ '=' :: value.toList) = p.start slot (some value) := by
  obtain ⟨htake, hdrop⟩ :=
    takeWhile_name (eq_not_mem_of_ofLong? h) ('=' :: value.toList) (by simp)
  rw [Progress.long, htake, hdrop, String.ofList_toList, h]
  dsimp only
  rw [String.ofList_toList]

end Long

theorem ne_dash_of_ofShort? {c : Char} {named : Named} (h : ofShort? c = some named) : c ≠ '-' := by
  rintro rfl
  cases h

theorem Cluster.ne_dash {c : Char} (h : Cluster (c :: cs) switches last) : c ≠ '-' := by
  cases h with
  | switch hname hrest => exact ne_dash_of_ofShort? hname
  | slot hname => exact ne_dash_of_ofShort? hname
  | value hname hd => exact ne_dash_of_ofShort? hname
  | equals hname => exact ne_dash_of_ofShort? hname

/-- An option takes effect after what waits: its switches one after the other, then its slot. -/
theorem toOption_argument (h : Spelled arg.toList switches last) (p : Progress) :
    (p.argument arg).toOption =
      p.settled?.bind fun a => (a.gives? (switches.map .switch)).bind fun b => b.after? last := by
  unfold Progress.argument
  generalize arg.toList = chars at h ⊢
  cases h with
  | switch hname =>
    show (p.long _).toOption = _
    rw [long_switch hname, toOption_turnOn]
    refine Option.bind_congr fun a _ => ?_
    rw [List.map_cons, List.map_nil, Arguments.gives?_cons, Option.bind_assoc,
      Option.map_eq_bind]
    rfl
  | slot hname =>
    show (p.long _).toOption = _
    rw [long_slot hname, toOption_start]
    rfl
  | value hname =>
    show (p.long _).toOption = _
    rw [long_value hname, toOption_start]
    rfl
  | short hcluster =>
    have hdash := hcluster.ne_dash
    split
    · next heq => exact absurd (List.cons.inj (List.cons.inj heq).2).1 hdash
    · next heq =>
      cases heq
      rw [toOption_short_cons]
      exact Option.bind_congr fun a _ => toOption_short hcluster a
    · next hne => exact absurd rfl (hne _ _)

theorem Spelled.ne_dashes (h : Spelled arg.toList switches last) : arg ≠ "--" := by
  rintro rfl
  generalize hchars : "--".toList = chars at h
  cases h with
  | switch hname =>
    obtain rfl := String.toList_eq_nil_iff.mp (List.cons.inj (List.cons.inj hchars).2).2.symm
    cases hname
  | slot hname =>
    obtain rfl := String.toList_eq_nil_iff.mp (List.cons.inj (List.cons.inj hchars).2).2.symm
    cases hname
  | value hname =>
    have hnil := (List.cons.inj (List.cons.inj hchars).2).2
    simp at hnil
  | short hcluster => exact hcluster.ne_dash (List.cons.inj (List.cons.inj hchars).2).1.symm

/-! ## One word -/

theorem IsWord.argument_eq (h : IsWord arg) (p : Progress) : p.argument arg = p.value arg := by
  unfold Progress.argument
  split
  · next heq => exact absurd heq (h _ _)
  · next heq => exact absurd heq (h _ _)
  · rfl

theorem value_of_owes (h : p.waiting = some (slot, none)) (value : String) :
    p.value value = .ok { p with waiting := some (slot, some value) } := by
  rw [Progress.value, h]

theorem value_of_not_owes (h : ¬p.Owes) (value : String) : p.value value = p.position value := by
  unfold Progress.value
  split
  · next slot hslot => exact absurd ⟨slot, hslot⟩ h
  · rfl

/-- A log that is named already is there when what waits has been looked at. -/
theorem has_logfile_of_settled? (h : p.settled? = some a)
    (hgiven : p.taken.logfile.isSome ∨ ∃ value, p.waiting = some (.logfile, value)) :
    a.has .logfile = true := by
  obtain ⟨taken, waiting⟩ := p
  match waiting, h with
  | none, h =>
    cases h
    exact hgiven.resolve_right nofun
  | some (slot, none), h =>
    rw [settled?_of_owes ⟨slot, rfl⟩] at h
    cases h
  | some (slot, some value), h =>
    rw [settled?_value] at h
    obtain ⟨-, hfill⟩ := Arguments.give?_value_eq_some_iff.mp h
    rw [Arguments.has_of_fill? hfill]
    rcases hgiven with htaken | ⟨_, hwaits⟩
    · have hhas : taken.has .logfile = true := htaken
      rw [hhas, Bool.true_or]
    · cases hwaits
      simp

/-- The name of the log waits until the next argument comes. That a second one is refused before
what waits is looked at makes no difference: it could not be taken after that. -/
theorem bind_position {α : Type} (p : Progress) (value : String) {k : Progress → Option α}
    {f : Arguments → Option α}
    (hk : ∀ a, k { taken := a, waiting := some (.logfile, some value) } =
      (a.give? (.value .logfile value)).bind f) :
    (p.position value).toOption.bind k =
      p.settled?.bind fun a => (a.give? (.value .logfile value)).bind f := by
  rw [Progress.position]
  dsimp only
  split
  · next hgiven =>
    -- a second log: the slot has a value by the time that it would be filled
    rw [Bool.or_eq_true, Option.any_eq_true] at hgiven
    refine (Option.bind_eq_none_iff.mpr fun a ha => ?_).symm
    have hhas : a.has .logfile = true := by
      refine has_logfile_of_settled? ha (hgiven.imp_right ?_)
      rintro ⟨⟨slot, value⟩, hwaits, hslot⟩
      exact ⟨value, by simpa [← of_decide_eq_true hslot] using hwaits⟩
    rw [Arguments.give?, if_pos hhas]
    rfl
  · rw [toOption_bind, toOption_settle, Option.bind_map, Option.bind_assoc]
    exact Option.bind_congr fun a _ => hk a

/-! ## All arguments -/

/-- The arguments once everything has been read. -/
def Progress.finish? (p : Progress) (args : List String) : Option Arguments :=
  (p.arguments args).toOption.bind Progress.settled?

theorem finish?_nil (p : Progress) : p.finish? [] = p.settled? := rfl

theorem finish?_cons (h : arg ≠ "--") (p : Progress) (rest : List String) :
    p.finish? (arg :: rest) = (p.argument arg).toOption.bind fun q => q.finish? rest := by
  rw [Progress.finish?, Progress.arguments, if_neg h, toOption_bind, Option.bind_assoc]
  rfl

theorem finish?_dashes (p : Progress) (rest : List String) :
    p.finish? ("--" :: rest) =
      (rest.foldlM Progress.position p).toOption.bind Progress.settled? := by
  rw [Progress.finish?, Progress.arguments, if_pos rfl]

theorem not_owes_none (a : Arguments) : ¬Progress.Owes { taken := a } := nofun

theorem not_owes_value (a : Arguments) (slot : Slot) (value : String) :
    ¬Progress.Owes { taken := a, waiting := some (slot, some value) } := by
  rintro ⟨_, h⟩
  cases h

theorem finish?_positions (p : Progress) (rest : List String) :
    (rest.foldlM Progress.position p).toOption.bind Progress.settled? =
      p.settled?.bind fun a => a.gives? (rest.map (.value .logfile)) := by
  induction rest generalizing p with
  | nil =>
    show p.settled? = _
    cases p.settled? <;> rfl
  | cons arg rest ih =>
    rw [List.foldlM_cons, toOption_bind, Option.bind_assoc]
    refine bind_position p arg fun a => ?_
    rw [ih, settled?_value]
    rfl

/-- Reading arguments takes what waits, and then what they spell. -/
theorem finish?_of_spells (h : Spells args given) (hp : ¬p.Owes) :
    p.finish? args = p.settled?.bind fun a => a.gives? given := by
  induction h generalizing p with
  | nil =>
    rw [finish?_nil]
    cases p.settled? <;> rfl
  | @word arg rest given hword hrest ih =>
    have hne : arg ≠ "--" := by
      rintro rfl
      exact hword _ _ rfl
    rw [finish?_cons hne, hword.argument_eq, value_of_not_owes hp]
    refine bind_position p arg fun a => ?_
    rw [ih (not_owes_value a _ _), settled?_value]
    rfl
  | @dashes rest => rw [finish?_dashes, finish?_positions]
  | @switches arg rest switches given harg hrest ih =>
    rw [finish?_cons harg.ne_dashes, toOption_argument harg, Option.bind_assoc]
    refine Option.bind_congr fun a _ => ?_
    rw [Option.bind_assoc, Arguments.gives?_append]
    exact Option.bind_congr fun b _ => ih (not_owes_none b)
  | @attached arg value rest switches slot given harg hrest ih =>
    rw [finish?_cons harg.ne_dashes, toOption_argument harg, Option.bind_assoc]
    refine Option.bind_congr fun a _ => ?_
    rw [Option.bind_assoc, Arguments.gives?_append]
    refine Option.bind_congr fun b _ => ?_
    rw [Arguments.after?, Option.bind_map, Arguments.gives?_cons]
    exact Option.bind_congr fun c _ => ih (not_owes_none c)
  | @apart arg value rest switches slot given harg hword hrest ih =>
    have hne : value ≠ "--" := by
      rintro rfl
      exact hword _ _ rfl
    rw [finish?_cons harg.ne_dashes, toOption_argument harg, Option.bind_assoc]
    refine Option.bind_congr fun a _ => ?_
    rw [Option.bind_assoc, Arguments.gives?_append]
    refine Option.bind_congr fun b _ => ?_
    rw [Arguments.after?, Option.bind_some, finish?_cons hne, hword.argument_eq,
      value_of_owes rfl]
    show Progress.finish? { taken := b, waiting := some (slot, some value) } rest = _
    rw [ih (not_owes_value b _ _), settled?_value, Arguments.gives?_cons]

/-! ## Nothing else is accepted -/

/-- A sequence of steps of reading succeeds only if each of them does. -/
theorem exists_of_bind_eq_ok {α β : Type} {x : Except Refusal α} {f : α → Except Refusal β} {b : β}
    (h : (x >>= f) = .ok b) : ∃ a, x = .ok a ∧ f a = .ok b := by
  cases x with
  | error why => cases h
  | ok a => exact ⟨a, rfl, h⟩

theorem toOption_eq_some_iff {α : Type} {x : Except Refusal α} {a : α} :
    x.toOption = some a ↔ x = .ok a := by
  cases x <;> simp [Except.toOption]

theorem exists_cluster (h : p.short cs = .ok q) : ∃ switches last, Cluster cs switches last := by
  induction cs generalizing p with
  | nil => exact ⟨[], none, .nil⟩
  | cons c rest ih =>
    rw [Progress.short] at h
    split at h
    · cases h
    · next s hname =>
      obtain ⟨next, -, hrest⟩ := exists_of_bind_eq_ok h
      obtain ⟨switches, last, hcluster⟩ := ih hrest
      exact ⟨s :: switches, last, .switch hname hcluster⟩
    · next slot hname =>
      match rest with
      | [] => exact ⟨[], _, .slot hname⟩
      | d :: value =>
        by_cases hd : d = '='
        · subst hd
          exact ⟨[], _, .equals hname⟩
        · exact ⟨[], _, .value hname hd⟩

theorem exists_spelled_of_long {long : List Char} (h : p.long long = .ok q) :
    ∃ switches last, Spelled ('-' :: '-' :: long) switches last := by
  rw [Progress.long] at h
  have hlong : long.takeWhile (· != '=') ++ long.dropWhile (· != '=') = long :=
    List.takeWhile_append_dropWhile
  rw [← hlong]
  generalize hmore : long.dropWhile (· != '=') = more at h
  generalize long.takeWhile (· != '=') = chars at h
  obtain ⟨name, rfl⟩ : ∃ name : String, chars = name.toList := ⟨_, String.toList_ofList.symm⟩
  rw [String.ofList_toList] at h
  cases more with
  | nil =>
    rw [List.append_nil]
    split at h
    · cases h
    · next heq => cases heq
    · next s hname heq => exact ⟨[s], none, .switch hname⟩
    · next slot hname => exact ⟨[], _, .slot hname⟩
  | cons d value =>
    -- what is left after a long name starts with an equals sign
    have hd : ¬(d != '=') = true := by
      have hhead := List.head_dropWhile_not (· != '=') (l := long) (by rw [hmore]; nofun)
      simpa [hmore] using hhead
    obtain rfl : d = '=' := by simpa using hd
    split at h
    · cases h
    · cases h
    · next heq => cases heq
    · next slot hname =>
      have hvalue : value = (String.ofList value).toList := String.toList_ofList.symm
      rw [hvalue]
      exact ⟨[], _, .value hname⟩

theorem exists_spelled (h : p.argument arg = .ok q) (hword : ¬IsWord arg) :
    ∃ switches last, Spelled arg.toList switches last := by
  unfold Progress.argument at h
  split at h
  · next long hchars =>
    rw [hchars]
    exact exists_spelled_of_long h
  · next c rest _ hchars =>
    obtain ⟨switches, last, hcluster⟩ := exists_cluster h
    rw [hchars]
    exact ⟨switches, last, .short hcluster⟩
  · next hne => exact absurd (fun c rest => hne c rest) hword

theorem waiting_of_position (h : p.position value = .ok q) :
    q.waiting = some (.logfile, some value) := by
  rw [Progress.position] at h
  dsimp only at h
  split at h
  · cases h
  · obtain ⟨settled, -, hq⟩ := exists_of_bind_eq_ok h
    cases hq
    rfl

/-- Arguments that can be read to their end spell something, after the value that is waited for. -/
theorem exists_spells (h : p.finish? args = some a) : (¬p.Owes → ∃ given, Spells args given) ∧
    (p.Owes → ∃ value rest given, args = value :: rest ∧ IsWord value ∧ Spells rest given) := by
  induction args generalizing p with
  | nil =>
    refine ⟨fun _ => ⟨[], .nil⟩, fun howes => ?_⟩
    rw [finish?_nil, settled?_of_owes howes] at h
    cases h
  | cons arg rest ih =>
    by_cases hdashes : arg = "--"
    · subst hdashes
      refine ⟨fun _ => ⟨_, .dashes⟩, fun howes => ?_⟩
      rw [finish?_dashes, finish?_positions, settled?_of_owes howes] at h
      cases h
    rw [finish?_cons hdashes] at h
    obtain ⟨q, hq, hrest⟩ := Option.bind_eq_some_iff.mp h
    by_cases hword : IsWord arg
    -- a word is a value, for the option that waits or for the log, and nothing is owed after it
    · rw [toOption_eq_some_iff, hword.argument_eq] at hq
      have hnext : ¬q.Owes := by
        rintro ⟨_, hwaits⟩
        by_cases howes : p.Owes
        · obtain ⟨slot, hslot⟩ := howes
          rw [value_of_owes hslot] at hq
          cases hq
          cases hwaits
        · rw [value_of_not_owes howes] at hq
          rw [waiting_of_position hq] at hwaits
          cases hwaits
      obtain ⟨given, hspells⟩ := (ih hrest).1 hnext
      exact ⟨fun _ => ⟨_, .word hword hspells⟩, fun _ => ⟨arg, rest, given, rfl, hword, hspells⟩⟩
    -- an option cannot come where a value is owed; after it one is owed if its slot has none
    · obtain ⟨switches, last, hspelled⟩ := exists_spelled (toOption_eq_some_iff.mp hq) hword
      rw [toOption_argument hspelled] at hq
      obtain ⟨taken, htaken, hgives⟩ := Option.bind_eq_some_iff.mp hq
      refine ⟨fun _ => ?_, fun howes => ?_⟩
      · obtain ⟨b, -, hlast⟩ := Option.bind_eq_some_iff.mp hgives
        match last, hspelled, hlast with
        | none, hspelled, hlast =>
          cases hlast
          obtain ⟨given, hspells⟩ := (ih hrest).1 (not_owes_none _)
          exact ⟨_, .switches hspelled hspells⟩
        | some (slot, some value), hspelled, hlast =>
          obtain ⟨c, -, hc⟩ := Option.map_eq_some_iff.mp hlast
          cases hc
          obtain ⟨given, hspells⟩ := (ih hrest).1 (not_owes_none _)
          exact ⟨_, .attached hspelled hspells⟩
        | some (slot, none), hspelled, hlast =>
          cases hlast
          obtain ⟨value, rest, given, rfl, hvalue, hspells⟩ := (ih hrest).2 ⟨slot, rfl⟩
          exact ⟨_, .apart hspelled hvalue hspells⟩
      · rw [settled?_of_owes howes] at htaken
        cases htaken

/-! ## Whole command lines -/

theorem checked_eq_ok_iff : a.checked = .ok b ↔ a = b ∧
    ¬(a.order.isSome ∧ (a.chrono ∨ a.thread)) ∧ (a.logfile.isSome ∨ a.completions.isSome) := by
  rw [Arguments.checked]
  split
  · next h =>
    rw [Bool.and_eq_true, Bool.or_eq_true] at h
    simp [h]
  · next h =>
    rw [Bool.and_eq_true, Bool.or_eq_true] at h
    split
    · next hnone =>
      rw [Bool.and_eq_true, Option.isNone_iff_eq_none, Option.isNone_iff_eq_none] at hnone
      simp [hnone]
    · next hsome =>
      have hnamed : a.logfile.isSome ∨ a.completions.isSome := by
        cases hlog : a.logfile with
        | some name => exact .inl rfl
        | none =>
          rw [hlog, Option.isNone_none, Bool.true_and] at hsome
          exact .inr (by simpa [Option.isSome_iff_ne_none] using hsome)
      simp [h, hnamed]

theorem read_eq_ok_iff_finish? :
    read args = .ok b ↔ ∃ a, Progress.finish? {} args = some a ∧ a.checked = .ok b := by
  have hread : (read args).toOption =
      (Progress.finish? {} args).bind fun a => a.checked.toOption := by
    rw [read, toOption_bind, Progress.finish?, Option.bind_assoc]
    refine Option.bind_congr fun p _ => ?_
    rw [toOption_bind, toOption_settle, Option.bind_map]
    rfl
  rw [← toOption_eq_some_iff, hread, Option.bind_eq_some_iff]
  simp only [toOption_eq_some_iff]

/-- **A command line is accepted** if it spells something that can be taken one after the other, and
the whole is sound; it asks for just that then. -/
theorem read_eq_ok_iff : read args = .ok a ↔
    ∃ given, Spells args given ∧ Arguments.gives? {} given = some a ∧ a.checked = .ok a := by
  rw [read_eq_ok_iff_finish?]
  constructor
  · rintro ⟨b, hfinish, hchecked⟩
    obtain ⟨rfl, -⟩ := checked_eq_ok_iff.mp hchecked
    obtain ⟨given, hspells⟩ := (exists_spells hfinish).1 (not_owes_none {})
    rw [finish?_of_spells hspells (not_owes_none {})] at hfinish
    exact ⟨given, hspells, hfinish, hchecked⟩
  · rintro ⟨given, hspells, hgives, hchecked⟩
    refine ⟨a, ?_, hchecked⟩
    rw [finish?_of_spells hspells (not_owes_none {})]
    exact hgives

/-- Whatever a command line that is accepted may be taken to spell is what it asks for. -/
theorem gives?_of_spells (h : read args = .ok a) (hspells : Spells args given) :
    Arguments.gives? {} given = some a := by
  obtain ⟨b, hfinish, hchecked⟩ := read_eq_ok_iff_finish?.mp h
  obtain ⟨rfl, -⟩ := checked_eq_ok_iff.mp hchecked
  rw [finish?_of_spells hspells (not_owes_none {})] at hfinish
  exact hfinish

end LogOrder.CommandLine
