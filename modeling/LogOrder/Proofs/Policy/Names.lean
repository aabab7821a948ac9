import LogOrder.Policy
import LogOrder.Proofs.Text.Choice

/-!
# Names of policies

The names that a policy is chosen by and the name that is shown for it are written down apart from
each other. No word is a name of two policies, and all names are in small letters of ASCII.

* `choose?_false_eq_some_iff`: a policy is chosen by its names, and by nothing else;
* `choose?_true_eq`: where size makes no difference, a word is chosen by as if in small letters;
* `parse_eq_ok_iff`, `parse_eq_error`: what is read from a text;
* `toNat_lt_of_parse`: a text with anything but ASCII in it names no policy;
* `choose?_name`: what is shown for a policy chooses it.
-/

namespace LogOrder.Policy

open Choice (SameLetter)

variable {s t : String} {p q : Policy}

theorem mem_all (p : Policy) : p ∈ all := by cases p <;> decide

/-- No word is a name of two policies. -/
theorem eq_of_mem_names (hp : t ∈ p.choice.names) (hq : t ∈ q.choice.names) : p = q := by
  have hapart : (p.choice.names.all fun t => !q.choice.names.contains t || p == q) = true := by
    cases p <;> cases q <;> decide
  have hsame := List.all_eq_true.mp hapart t hp
  simpa [hq] using hsame

/-- The names are in small letters of ASCII. -/
theorem of_mem_names (h : t ∈ p.choice.names) : ∀ c ∈ t.toList, c.toLower = c ∧ c.toNat < 128 := by
  have hall : (p.choice.names.all fun t => t.toList.all fun c =>
      decide (c.toLower = c ∧ c.toNat < 128)) = true := by cases p <;> decide
  intro c hc
  exact of_decide_eq_true (List.all_eq_true.mp (List.all_eq_true.mp hall t h) c hc)

/-- A policy is chosen by its names, and by nothing else. -/
theorem choose?_false_eq_some_iff : choose? false s = some p ↔ s ∈ p.choice.names := by
  rw [choose?, Choice.find?_eq_some_iff (mem_all p), Choice.accepts_false_iff]
  intro q _ hq hp
  exact eq_of_mem_names (Choice.accepts_false_iff.mp hq) (Choice.accepts_false_iff.mp hp)

/-- Where size makes no difference, a word chooses what it chooses in small letters. -/
theorem choose?_true_eq (s : String) : choose? true s = choose? false s.toLower := by
  have hsame : ∀ p : Policy, p.choice.accepts true s = p.choice.accepts false s.toLower := fun p =>
    Choice.accepts_true_eq fun t ht c hc => (of_mem_names ht c hc).1
  exact congrArg (List.find? · all) (funext hsame)

theorem choose?_true_eq_some_iff : choose? true s = some p ↔
    ∃ t ∈ p.choice.names, List.Forall₂ SameLetter s.toList t.toList := by
  rw [choose?_true_eq, choose?_false_eq_some_iff, ← Choice.accepts_false_iff,
    ← Choice.accepts_true_eq fun t ht c hc => (of_mem_names ht c hc).1, Choice.accepts_true_iff]

/-! ## Reading a text -/

theorem parse_eq_ok_iff : parse s = .ok p ↔ choose? true s = some p := by
  rw [parse]
  cases choose? true s <;> simp

/-- The report lists the names that are shown. -/
theorem invalidName_eq (s : String) : invalidName s =
    "invalid order '" ++ s ++ "': expected one of " ++ ", ".intercalate (all.map name) := by
  have hlist : "': expected one of line, chrono, thread, thread+chrono" =
      "': expected one of " ++ ", ".intercalate (all.map name) := by decide
  show "invalid order '" ++ s ++ "': expected one of line, chrono, thread, thread+chrono" = _
  rw [hlist, ← String.append_assoc]

/-- Any other text is reported. -/
theorem parse_eq_error (h : ∀ p, parse s ≠ .ok p) : parse s = .error (invalidName s) := by
  cases hparse : parse s with
  | ok p => exact absurd hparse (h p)
  | error message =>
    rw [parse] at hparse
    split at hparse
    · cases hparse
    · exact hparse.symm

/-- A text with anything but ASCII in it names no policy. -/
theorem toNat_lt_of_parse (h : parse s = .ok p) : ∀ c ∈ s.toList, c.toNat < 128 := by
  obtain ⟨t, ht, halike⟩ := choose?_true_eq_some_iff.mp (parse_eq_ok_iff.mp h)
  exact Choice.forall_toNat_lt_of_sameLetter halike fun d hd => (of_mem_names ht d hd).2

/-! ## What is shown -/

theorem name_mem_names (p : Policy) : p.name ∈ p.choice.names := by cases p <;> decide

theorem choose?_name (p : Policy) : choose? false p.name = some p :=
  choose?_false_eq_some_iff.mpr (name_mem_names p)

theorem parse_name (p : Policy) : parse p.name = .ok p := by
  rw [parse_eq_ok_iff, choose?_true_eq_some_iff]
  refine ⟨p.name, name_mem_names p, ?_⟩
  rw [List.forall₂_same]
  exact fun c _ => .inl rfl

end LogOrder.Policy
