import LogOrder.Proofs.Toml.Keys
import LogOrder.Settings.Resolved

/-!
# Settings files

What a settings file may hold is told here by its document alone: nothing, or the one key `order`
with a value that stands for a policy. Everything else keeps a file from being loaded.

* `Denotes` says which values stand for which policy, and `Loads` which files set which order;
* `load_eq_ok_iff`: loading a file answers what it sets;
* `exists_load_eq_error_iff`: the five things that keep a file from being loaded.
-/

namespace LogOrder

namespace Settings

/-- A table or an array with nothing in it. -/
inductive Hollow : Toml.Value → Prop
  | table {origin : Toml.Origin} : Hollow (.table origin [])
  | array {ofTables : Bool} : Hollow (.array ofTables [])

/-- The value stands for the policy. -/
inductive Denotes : Toml.Value → Policy → Prop
  /-- It is a text that spells it. -/
  | text {name : Bytes} {policy : Policy} (hname : (Bytes.toText name, policy) ∈ variants) :
      Denotes (.text name) policy
  /-- It is a table with one key, which spells it, and nothing under that. -/
  | table {origin : Toml.Origin} {key : Toml.Key} {span : Toml.Span} {content : Toml.Value}
      {policy : Policy} (hname : (Bytes.toText key.name, policy) ∈ variants)
      (hcontent : Hollow content) : Denotes (.table origin [(key, span, content)]) policy

/-- The one key of a settings file. -/
def orderKey : Bytes := Bytes.ofString "order"

/-- The keys and values set the order to that policy, or do not set it; they do nothing else. -/
inductive Sets : Toml.Entries → Option Policy → Prop
  | nothing : Sets [] none
  | order {key : Toml.Key} {span : Toml.Span} {value : Toml.Value} {policy : Policy}
      (hkey : key.name = orderKey) (hvalue : Denotes value policy) :
      Sets [(key, span, value)] (some policy)

/-- What was read is a settings file, which sets that order. -/
inductive Loads : Except IoFault Bytes → Option Policy → Prop
  | file {source : Bytes} {entries : Toml.Entries} {order : Option Policy}
      (hv : Utf8.valid source = true) (hdocument : Toml.document? source = some entries)
      (hsets : Sets entries order) : Loads (.ok source) order

/-- What was read cannot be loaded as a settings file. -/
inductive Unloadable : Except IoFault Bytes → Prop
  /-- Reading failed, as it does for a directory. -/
  | unreadable {why : IoFault} : Unloadable (.error why)
  /-- It is not text. -/
  | notUtf8 {source : Bytes} (hv : Utf8.valid source = false) : Unloadable (.ok source)
  /-- It is no document. -/
  | malformed {source : Bytes} (hdocument : Toml.document? source = none) :
      Unloadable (.ok source)
  /-- It has another key. -/
  | unknownKey {source : Bytes} {entries : Toml.Entries} {key : Toml.Key} {span : Toml.Span}
      {value : Toml.Value} (hdocument : Toml.document? source = some entries)
      (hmem : (key, span, value) ∈ entries) (hkey : key.name ≠ orderKey) :
      Unloadable (.ok source)
  /-- Its order is no policy. -/
  | noPolicy {source : Bytes} {entries : Toml.Entries} {key : Toml.Key} {span : Toml.Span}
      {value : Toml.Value} (hdocument : Toml.document? source = some entries)
      (hmem : (key, span, value) ∈ entries) (hkey : key.name = orderKey)
      (hvalue : ∀ policy, ¬Denotes value policy) : Unloadable (.ok source)

/-! ## Results -/

section Results

variable {ε δ α β : Type} {x : Except ε α} {f : α → β}

theorem map_eq_ok_iff {b : β} : x.map f = .ok b ↔ ∃ a, x = .ok a ∧ f a = b := by
  cases x <;> simp [Except.map]

theorem map_eq_error_iff {e : ε} : x.map f = .error e ↔ x = .error e := by
  cases x <;> simp [Except.map]

theorem mapError_eq_ok_iff {g : ε → δ} {a : α} : x.mapError g = .ok a ↔ x = .ok a := by
  cases x <;> simp [Except.mapError]

end Results

/-! ## Values -/

section Values

variable {span : Toml.Span} {value : Toml.Value} {policy : Policy}

/-- Each name stands for one policy. -/
theorem lookup_variants_eq_some_iff {name : String} :
    variants.lookup name = some policy ↔ (name, policy) ∈ variants := by
  constructor
  · intro h
    obtain ⟨before, after, hvariants, -⟩ := List.lookup_eq_some_iff.mp h
    rw [hvariants]
    exact List.mem_append_right _ List.mem_cons_self
  · intro h
    simp only [variants, List.mem_cons, Prod.mk.injEq, List.not_mem_nil, or_false] at h
    rcases h with ⟨rfl, rfl⟩ | ⟨rfl, rfl⟩ | ⟨rfl, rfl⟩ | ⟨rfl, rfl⟩ | ⟨rfl, rfl⟩ <;> decide

theorem policyOfName_eq_ok_iff {name : Bytes} :
    policyOfName span name = .ok policy ↔ (Bytes.toText name, policy) ∈ variants := by
  rw [← lookup_variants_eq_some_iff]
  unfold policyOfName
  cases hname : variants.lookup (Bytes.toText name) with
  | none => simp [hname]
  | some found => simp [hname]

/-- What stands under a policy that a table names has to be hollow. -/
theorem policyOfValue_entry {origin : Toml.Origin} {key : Toml.Key} {inner : Toml.Span}
    {content : Toml.Value} :
    policyOfValue span (.table origin [(key, inner, content)]) = .ok policy ↔
      policyOfName key.span key.name = .ok policy ∧ Hollow content := by
  rw [policyOfValue]
  cases policyOfName key.span key.name with
  | error fault =>
    constructor
    · intro h
      cases h
    · rintro ⟨h, -⟩
      cases h
  | ok found =>
    constructor
    · intro h
      dsimp only [bind, Except.bind] at h
      split at h
      · exact ⟨h, .table⟩
      · exact ⟨h, .array⟩
      · cases h
    · rintro ⟨h, hcontent⟩
      cases hcontent with
      | table => exact h
      | array => exact h

theorem policyOfValue_eq_ok_iff : policyOfValue span value = .ok policy ↔ Denotes value policy := by
  constructor
  · intro h
    cases value with
    | text name => exact .text (policyOfName_eq_ok_iff.mp h)
    | scalar written => cases h
    | array ofTables items => cases h
    | table origin entries =>
      match entries, h with
      | [], h => cases h
      | [(key, inner, content)], h =>
        obtain ⟨hname, hcontent⟩ := policyOfValue_entry.mp h
        exact .table (policyOfName_eq_ok_iff.mp hname) hcontent
      | _ :: _ :: _, h => cases h
  · intro h
    cases h with
    | text hname => exact policyOfName_eq_ok_iff.mpr hname
    | table hname hcontent =>
      exact policyOfValue_entry.mpr ⟨policyOfName_eq_ok_iff.mpr hname, hcontent⟩

end Values

/-! ## Entries -/

section Entries

variable {entries : Toml.Entries} {file : FileSettings} {order : Option Policy}

theorem ofEntries_cons_eq_ok_iff {key : Toml.Key} {span : Toml.Span} {value : Toml.Value} :
    ofEntries ((key, span, value) :: entries) = .ok file ↔
      key.name = orderKey ∧ (∃ policy, Denotes value policy ∧ file.order = some policy) ∧
        ∃ others, ofEntries entries = .ok others := by
  have hkey : orderKey = Bytes.ofAscii ['o', 'r', 'd', 'e', 'r'] := by decide
  rw [ofEntries, hkey]
  split
  · next hname =>
    simp only [hname, true_and, ← @policyOfValue_eq_ok_iff span]
    cases policyOfValue span value with
    | error fault => simp [bind, Except.bind]
    | ok policy =>
      cases ofEntries entries with
      | error fault => simp [bind, Except.bind]
      | ok others =>
        cases file
        simp [bind, Except.bind, eq_comm]
  · next hname => simp [hname]

/-- A second key would be the first one again. -/
theorem ofEntries_eq_ok_iff (hd : entries.Distinct) :
    ofEntries entries = .ok file ↔ Sets entries file.order := by
  match entries, hd with
  | [], _ =>
    cases file with
    | mk order =>
      constructor
      · intro h
        cases h
        exact .nothing
      · intro h
        cases h
        rfl
  | [(key, span, value)], _ =>
    rw [ofEntries_cons_eq_ok_iff]
    constructor
    · rintro ⟨hkey, ⟨policy, hvalue, horder⟩, -⟩
      rw [horder]
      exact .order hkey hvalue
    · intro h
      cases file with
      | mk order =>
        cases h with
        | order hkey hvalue => exact ⟨hkey, ⟨_, hvalue, rfl⟩, {}, rfl⟩
  | (key, span, value) :: (again, _, _) :: rest, hd =>
    constructor
    · intro h
      obtain ⟨hkey, -, others, hrest⟩ := ofEntries_cons_eq_ok_iff.mp h
      obtain ⟨hagain, -⟩ := ofEntries_cons_eq_ok_iff.mp hrest
      have hne := List.rel_of_pairwise_cons hd List.mem_cons_self
      exact absurd (hkey.trans hagain.symm) hne
    · intro h
      cases h

theorem Sets.perm {other : Toml.Entries} (h : Sets entries order) (hp : entries.Perm other) :
    Sets other order := by
  cases h with
  | nothing =>
    obtain rfl := List.nil_perm.mp hp
    exact .nothing
  | order hkey hvalue =>
    obtain rfl := List.singleton_perm.mp hp
    exact .order hkey hvalue

end Entries

/-! ## Files -/

section Files

variable {path : String} {source : Bytes} {read : Except IoFault Bytes} {file : FileSettings}

/-- In which order the keys are looked at makes no difference. -/
theorem read_eq_ok_iff : FileSettings.read source = .ok file ↔
    ∃ entries, Toml.document? source = some entries ∧ Sets entries file.order := by
  unfold FileSettings.read
  cases hdocument : Toml.document? source with
  | none => simp
  | some entries =>
    dsimp only
    have hp := List.mergeSort_perm entries fun a b => decide (a.1.name ≤ b.1.name)
    have hd : Toml.Entries.Distinct (entries.mergeSort fun a b => decide (a.1.name ≤ b.1.name)) :=
      (hp.map _).nodup_iff.mpr (Toml.distinct_document? hdocument)
    rw [mapError_eq_ok_iff, ofEntries_eq_ok_iff hd]
    constructor
    · intro h
      exact ⟨entries, rfl, h.perm hp⟩
    · rintro ⟨found, hfound, hsets⟩
      cases hfound
      exact hsets.perm hp.symm

/-- Loading answers what the file sets. -/
theorem load_eq_ok_iff : load path read = .ok file ↔ Loads read file.order := by
  cases read with
  | error why =>
    constructor
    · intro h
      cases h
    · intro h
      cases h
  | ok source =>
    rw [load]
    constructor
    · intro h
      split at h
      · next hv =>
        obtain ⟨entries, hdocument, hsets⟩ := read_eq_ok_iff.mp (mapError_eq_ok_iff.mp h)
        exact .file hv hdocument hsets
      · cases h
    · rintro ⟨hv, hdocument, hsets⟩
      rw [if_pos hv, mapError_eq_ok_iff, read_eq_ok_iff]
      exact ⟨_, hdocument, hsets⟩

example : load "config.toml" (.ok (Bytes.ofString "order.line = []\n")) =
    .ok { order := some .line } := by cbv

/-- Keys and values that set nothing have a key that is not `order`, or an order that is no
policy. -/
theorem exists_of_forall_not_sets {entries : Toml.Entries} (hd : entries.Distinct)
    (h : ∀ order, ¬Sets entries order) :
    ∃ key span value, (key, span, value) ∈ entries ∧
      (key.name = orderKey → ∀ policy, ¬Denotes value policy) := by
  match entries, hd with
  | [], _ => exact absurd .nothing (h none)
  | [(key, span, value)], _ =>
    refine ⟨key, span, value, List.mem_singleton_self _, ?_⟩
    intro hkey policy hvalue
    exact h _ (.order hkey hvalue)
  | (key, span, value) :: (again, inner, other) :: rest, hd =>
    have hne := List.rel_of_pairwise_cons hd List.mem_cons_self
    by_cases hkey : key.name = orderKey
    · refine ⟨again, inner, other, by simp, fun hagain => ?_⟩
      exact absurd (hkey.trans hagain.symm) hne
    · exact ⟨key, span, value, List.mem_cons_self, fun hk => absurd hk hkey⟩

theorem forall_not_loads_iff : (∀ order, ¬Loads read order) ↔ Unloadable read := by
  constructor
  · intro h
    cases read with
    | error why => exact .unreadable
    | ok source =>
      cases hv : Utf8.valid source with
      | false => exact .notUtf8 hv
      | true =>
        cases hdocument : Toml.document? source with
        | none => exact .malformed hdocument
        | some entries =>
          have hsets : ∀ order, ¬Sets entries order := fun order hs =>
            h order (.file hv hdocument hs)
          obtain ⟨key, span, value, hmem, hnot⟩ :=
            exists_of_forall_not_sets (Toml.distinct_document? hdocument) hsets
          by_cases hkey : key.name = orderKey
          · exact .noPolicy hdocument hmem hkey (hnot hkey)
          · exact .unknownKey hdocument hmem hkey
  · rintro h order ⟨hv, hdocument, hsets⟩
    cases h with
    | notUtf8 hnot =>
      rw [hv] at hnot
      cases hnot
    | malformed hnone =>
      rw [hdocument] at hnone
      cases hnone
    | unknownKey hdocument' hmem hkey =>
      rw [hdocument] at hdocument'
      cases hdocument'
      cases hsets with
      | nothing => cases hmem
      | order hname _ =>
        cases List.mem_singleton.mp hmem
        exact hkey hname
    | noPolicy hdocument' hmem _ hvalue =>
      rw [hdocument] at hdocument'
      cases hdocument'
      cases hsets with
      | nothing => cases hmem
      | order _ hdenotes =>
        cases List.mem_singleton.mp hmem
        exact hvalue _ hdenotes

/-- **Five things keep a settings file from being loaded**: it cannot be read; it is not text; it is
no document; one of its keys is not `order`; or the value of `order` stands for no policy. -/
theorem exists_load_eq_error_iff : (∃ fault, load path read = .error fault) ↔ Unloadable read := by
  rw [← forall_not_loads_iff]
  constructor
  · rintro ⟨fault, hfault⟩ order hloads
    have hload : load path read = .ok { order } := load_eq_ok_iff.mpr hloads
    rw [hfault] at hload
    cases hload
  · intro h
    cases hload : load path read with
    | error fault => exact ⟨fault, rfl⟩
    | ok file => exact absurd (load_eq_ok_iff.mp hload) (h file.order)

end Files

end Settings

end LogOrder
