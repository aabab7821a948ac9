import LogOrder.Text.Choice
import Mathlib.Data.List.Forall2

/-!
# Words that are chosen by

A word that a choice accepts is one of its names, or differs from one only in the size of letters
if that makes no difference. Only the letters of ASCII have two sizes here.

* `SameLetter`: two characters are the same but for the size of an ASCII letter;
* `accepts_false_iff` and `accepts_true_iff`: which words are accepted;
* `accepts_true_eq`: names in small letters accept the words that they are the small form of.
-/

namespace LogOrder.Choice

/-- A capital of ASCII, and its small letter. -/
def IsCapitalOf (c d : Char) : Prop := 'A' ≤ c ∧ c ≤ 'Z' ∧ d.toNat = c.toNat + 32

/-- The characters are the same, but for the size of an ASCII letter. -/
def SameLetter (c d : Char) : Prop := c = d ∨ IsCapitalOf c d ∨ IsCapitalOf d c

/-! ## Letters -/

section Letters

variable {c d : Char} {cs ds : List Char}

theorem toNat_toLower (hA : 'A' ≤ c) (hZ : c ≤ 'Z') : c.toLower.toNat = c.toNat + 32 := by
  have hle : c.toNat ≤ 90 := UInt32.le_iff_toNat_le.mp hZ
  have hlower : c.toLower.val = c.val + 32 := congrArg Char.val (dif_pos ⟨hA, hZ⟩)
  rw [Char.toNat, hlower, UInt32.toNat_add]
  show (c.toNat + 32) % 4294967296 = c.toNat + 32
  omega

theorem toLower_eq_self (h : ¬('A' ≤ c ∧ c ≤ 'Z')) : c.toLower = c := dif_neg h

theorem toLower_of_isCapitalOf (h : IsCapitalOf c d) : c.toLower = d ∧ d.toLower = d := by
  obtain ⟨hA, hZ, hd⟩ := h
  refine ⟨Char.toNat_inj.mp ((toNat_toLower hA hZ).trans hd.symm), toLower_eq_self ?_⟩
  rintro ⟨-, hdZ⟩
  have hle : d.toNat ≤ 90 := UInt32.le_iff_toNat_le.mp hdZ
  have hge : 65 ≤ c.toNat := UInt32.le_iff_toNat_le.mp hA
  omega

/-- Letters are the same when their small letters are equal. -/
theorem toLower_eq_toLower_iff : c.toLower = d.toLower ↔ SameLetter c d := by
  constructor
  · intro h
    by_cases hc : 'A' ≤ c ∧ c ≤ 'Z'
    · have hcn := toNat_toLower hc.1 hc.2
      by_cases hd : 'A' ≤ d ∧ d ≤ 'Z'
      · have hdn := toNat_toLower hd.1 hd.2
        exact .inl (Char.toNat_inj.mp (by rw [h] at hcn; omega))
      · rw [h, toLower_eq_self hd] at hcn
        exact .inr (.inl ⟨hc.1, hc.2, hcn⟩)
    · rw [toLower_eq_self hc] at h
      by_cases hd : 'A' ≤ d ∧ d ≤ 'Z'
      · have hdn := toNat_toLower hd.1 hd.2
        exact .inr (.inr ⟨hd.1, hd.2, by rw [h, hdn]⟩)
      · exact .inl (h.trans (toLower_eq_self hd))
  · rintro (rfl | h | h)
    · rfl
    · obtain ⟨hc, hd⟩ := toLower_of_isCapitalOf h
      exact hc.trans hd.symm
    · obtain ⟨hd, hc⟩ := toLower_of_isCapitalOf h
      exact hc.trans hd.symm

theorem toNat_lt_of_sameLetter (h : SameLetter c d) (hd : d.toNat < 128) : c.toNat < 128 := by
  rcases h with rfl | hcapital | hcapital
  · exact hd
  · have hle : c.toNat ≤ 90 := UInt32.le_iff_toNat_le.mp hcapital.2.1
    omega
  · have hle : d.toNat ≤ 90 := UInt32.le_iff_toNat_le.mp hcapital.2.1
    have hc := hcapital.2.2
    omega

theorem forall_toNat_lt_of_sameLetter (h : List.Forall₂ SameLetter cs ds)
    (hds : ∀ d ∈ ds, d.toNat < 128) : ∀ c ∈ cs, c.toNat < 128 := by
  induction h with
  | nil => exact fun c hc => absurd hc List.not_mem_nil
  | cons hhead htail ih =>
    intro c hc
    rcases List.mem_cons.mp hc with rfl | hc
    · exact toNat_lt_of_sameLetter hhead (hds _ List.mem_cons_self)
    · exact ih (fun d hd => hds d (List.mem_cons_of_mem _ hd)) c hc

theorem isEqv_toLower_iff :
    cs.isEqv ds (fun c d => c.toLower == d.toLower) = true ↔ List.Forall₂ SameLetter cs ds := by
  induction cs generalizing ds with
  | nil => cases ds <;> simp [List.isEqv]
  | cons c cs ih => cases ds <;> simp [List.isEqv, toLower_eq_toLower_iff, ih]

theorem map_toLower_eq_iff (hds : ∀ d ∈ ds, d.toLower = d) :
    cs.map Char.toLower = ds ↔ List.Forall₂ SameLetter cs ds := by
  induction cs generalizing ds with
  | nil => cases ds <;> simp
  | cons c cs ih =>
    cases ds with
    | nil => simp
    | cons d ds =>
      obtain ⟨hd, hds⟩ := List.forall_mem_cons.mp hds
      rw [List.map_cons, List.cons.injEq, List.forall₂_cons, ih hds, ← toLower_eq_toLower_iff, hd]

end Letters

/-! ## Words -/

section Words

variable {choice : Choice} {s t : String}

theorem sameWord_false_iff : sameWord false s t = true ↔ s = t := by
  simp [sameWord]

theorem sameWord_true_iff :
    sameWord true s t = true ↔ List.Forall₂ SameLetter s.toList t.toList := by
  rw [← isEqv_toLower_iff]
  rfl

theorem accepts_false_iff : choice.accepts false s = true ↔ s ∈ choice.names := by
  simp [accepts, List.any_eq_true, sameWord_false_iff]

theorem accepts_true_iff : choice.accepts true s = true ↔
    ∃ t ∈ choice.names, List.Forall₂ SameLetter s.toList t.toList := by
  simp [accepts, List.any_eq_true, sameWord_true_iff]

theorem toLower_eq_iff (ht : ∀ c ∈ t.toList, c.toLower = c) :
    s.toLower = t ↔ List.Forall₂ SameLetter s.toList t.toList := by
  have htoList : s.toLower.toList = s.toList.map Char.toLower := String.toList_map
  rw [← String.toList_inj, htoList, map_toLower_eq_iff ht]

/-- Names in small letters accept the words that they are the small form of. -/
theorem accepts_true_eq (hnames : ∀ t ∈ choice.names, ∀ c ∈ t.toList, c.toLower = c) :
    choice.accepts true s = choice.accepts false s.toLower := by
  rw [Bool.eq_iff_iff, accepts_true_iff, accepts_false_iff]
  constructor
  · rintro ⟨t, ht, halike⟩
    rwa [(toLower_eq_iff (hnames t ht)).mpr halike]
  · intro h
    exact ⟨s.toLower, h, (toLower_eq_iff (hnames _ h)).mp rfl⟩

end Words

/-! ## Values -/

section Values

variable {α : Type} {choice : α → Choice} {all : List α} {ignoreCase : Bool} {s : String} {a : α}

theorem accepts_of_find? (h : find? choice all ignoreCase s = some a) :
    (choice a).accepts ignoreCase s = true :=
  List.find?_some (p := fun a => (choice a).accepts ignoreCase s) h

/-- Where no word is accepted for two values, the value that is found is the one that accepts. -/
theorem find?_eq_some_iff (hmem : a ∈ all)
    (hone : ∀ b ∈ all, (choice b).accepts ignoreCase s = true →
      (choice a).accepts ignoreCase s = true → b = a) :
    find? choice all ignoreCase s = some a ↔ (choice a).accepts ignoreCase s = true := by
  constructor
  · exact accepts_of_find?
  · intro h
    cases hfound : find? choice all ignoreCase s with
    | none => exact absurd h (List.find?_eq_none.mp hfound a hmem)
    | some b => rw [hone b (List.mem_of_find?_eq_some hfound) (accepts_of_find? hfound) h]

end Values

end LogOrder.Choice
