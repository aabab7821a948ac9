import LogOrder.Stamp.Basic
import Mathlib.Tactic.Ring

/-!
# The digits of a stamp

What it means that bytes have the form `YYYY-MM-DD HH:MM:SS:mmm` is said here of the bytes alone:
they are seven groups of ASCII digits with the right bytes between them. Each group has a value in
the decimal system. The numbers of a written stamp are these values, whatever the leading zeros.

* `Decimal.value_write`, `Decimal.exists_write`: digits of one width and numbers of that width;
* `Stamp.Fields.Spells` says that bytes have the form, and `Stamp.Fields.Tells` what they say;
* `Stamp.Fields.exists_fields`: bytes of the form are those of a written stamp.
-/

namespace LogOrder

namespace Decimal

/-- The bytes are `k` ASCII digits. -/
structure Digits (k : Nat) (ds : Bytes) : Prop where
  length_eq : ds.length = k
  /-- They lie between `0` and `9`. -/
  toNat_mem : ∀ b ∈ ds, 48 ≤ b.toNat ∧ b.toNat ≤ 57

instance (k : Nat) (ds : Bytes) : Decidable (Digits k ds) :=
  decidable_of_iff (ds.length = k ∧ ds.all fun b => 48 ≤ b.toNat && b.toNat ≤ 57) <| by
    simp only [List.all_eq_true, Bool.and_eq_true, decide_eq_true_eq]
    exact ⟨fun h => ⟨h.1, h.2⟩, fun h => ⟨h.1, h.2⟩⟩

/-- The number that digits write in the decimal system, the first digit counting most. -/
def value (ds : Bytes) : Nat := ds.foldl (fun n b => n * 10 + (b.toNat - 48)) 0

theorem bound_eq (k : Nat) : bound k = 10 ^ k := by
  induction k with
  | zero => rfl
  | succ k ih => rw [bound, ih, Nat.pow_succ, Nat.mul_comm]

theorem foldl_digits (ds : Bytes) (n : Nat) :
    ds.foldl (fun n b => n * 10 + (b.toNat - 48)) n = n * 10 ^ ds.length + value ds := by
  induction ds generalizing n with
  | nil => simp [value]
  | cons b ds ih =>
    rw [value, List.foldl_cons, List.foldl_cons, ih, ih, List.length_cons, Nat.pow_succ]
    ring

theorem value_cons (b : UInt8) (ds : Bytes) :
    value (b :: ds) = (b.toNat - 48) * 10 ^ ds.length + value ds := by
  rw [value, List.foldl_cons, foldl_digits]
  simp

theorem toNat_digitByte (d : Fin 10) : (digitByte d).toNat = 48 + d.val := by
  revert d
  decide

theorem digits_write (k : Nat) (n : Decimal k) : Digits k (write k n) := by
  refine ⟨length_write k n, ?_⟩
  induction k with
  | zero => simp [write]
  | succ k ih =>
    refine List.forall_mem_cons.mpr ⟨?_, ih n.tail⟩
    rw [toNat_digitByte]
    omega

/-- Digits that are written for a number have its value. -/
theorem value_write (k : Nat) (n : Decimal k) : value (write k n) = n.val := by
  induction k with
  | zero => exact (Nat.lt_one_iff.mp n.isLt).symm
  | succ k ih =>
    rw [write, value_cons, toNat_digitByte, length_write, ih, ← bound_eq, Nat.add_sub_cancel_left]
    exact Nat.div_add_mod' n.val (bound k)

/-- Any digits of the width are written for some number. -/
theorem exists_write {k : Nat} {ds : Bytes} (h : Digits k ds) :
    ∃ n : Decimal k, write k n = ds := by
  obtain ⟨rfl, hmem⟩ := h
  induction ds with
  | nil => exact ⟨⟨0, by decide⟩, rfl⟩
  | cons b ds ih =>
    obtain ⟨hb, hds⟩ := List.forall_mem_cons.mp hmem
    obtain ⟨n, hn⟩ := ih hds
    have hdigit : digit? b = some ⟨b.toNat - 48, by omega⟩ := dif_pos ⟨hb.1, by omega⟩
    refine ⟨lead ⟨b.toNat - 48, by omega⟩ n, ?_⟩
    show write (ds.length + 1) _ = _
    rw [write, first_lead, tail_lead, hn, ← eq_digitByte_of_digit? hdigit]

end Decimal

namespace Stamp

open Decimal (value)

/-- The seven groups of digits of a stamp. -/
structure Fields where
  /-- Four digits. -/
  year : Bytes
  /-- Two digits, as all that follow but the last. -/
  month : Bytes
  day : Bytes
  hour : Bytes
  minute : Bytes
  second : Bytes
  /-- Three digits. -/
  milli : Bytes

namespace Fields

/-- The groups with the bytes that stand between them. -/
def text (f : Fields) : Bytes :=
  f.year ++ dash :: (f.month ++ dash :: (f.day ++ space :: (f.hour ++ colon :: (f.minute ++
    colon :: (f.second ++ colon :: f.milli)))))

/-- The bytes have the form `YYYY-MM-DD HH:MM:SS:mmm`, with these groups of digits. -/
@[mk_iff]
structure Spells (f : Fields) (bs : Bytes) : Prop where
  text_eq : f.text = bs
  year : Decimal.Digits 4 f.year
  month : Decimal.Digits 2 f.month
  day : Decimal.Digits 2 f.day
  hour : Decimal.Digits 2 f.hour
  minute : Decimal.Digits 2 f.minute
  second : Decimal.Digits 2 f.second
  milli : Decimal.Digits 3 f.milli

instance (f : Fields) (bs : Bytes) : Decidable (f.Spells bs) :=
  decidable_of_iff' _ (spells_iff f bs)

/-- The numbers are the decimal values of the groups. -/
structure Tells (f : Fields) (w : Written) : Prop where
  year : w.year.val = value f.year
  month : w.month.val = value f.month
  day : w.day.val = value f.day
  hour : w.hour.val = value f.hour
  minute : w.minute.val = value f.minute
  second : w.second.val = value f.second
  milli : w.milli.val = value f.milli

end Fields

/-- The digits of a written stamp. -/
def Written.fields (w : Written) : Fields where
  year := Decimal.write 4 w.year
  month := Decimal.write 2 w.month
  day := Decimal.write 2 w.day
  hour := Decimal.write 2 w.hour
  minute := Decimal.write 2 w.minute
  second := Decimal.write 2 w.second
  milli := Decimal.write 3 w.milli

namespace Fields

theorem spells_fields (w : Written) : w.fields.Spells w.toBytes :=
  ⟨rfl, Decimal.digits_write 4 _, Decimal.digits_write 2 _, Decimal.digits_write 2 _,
    Decimal.digits_write 2 _, Decimal.digits_write 2 _, Decimal.digits_write 2 _,
    Decimal.digits_write 3 _⟩

theorem tells_fields (w : Written) : w.fields.Tells w where
  year := (Decimal.value_write 4 _).symm
  month := (Decimal.value_write 2 _).symm
  day := (Decimal.value_write 2 _).symm
  hour := (Decimal.value_write 2 _).symm
  minute := (Decimal.value_write 2 _).symm
  second := (Decimal.value_write 2 _).symm
  milli := (Decimal.value_write 3 _).symm

/-- Bytes of the form are those of a written stamp. -/
theorem exists_fields {f : Fields} {bs : Bytes} (h : f.Spells bs) :
    ∃ w : Written, w.fields = f ∧ w.toBytes = bs := by
  obtain ⟨year, hyear⟩ := Decimal.exists_write h.year
  obtain ⟨month, hmonth⟩ := Decimal.exists_write h.month
  obtain ⟨day, hday⟩ := Decimal.exists_write h.day
  obtain ⟨hour, hhour⟩ := Decimal.exists_write h.hour
  obtain ⟨minute, hminute⟩ := Decimal.exists_write h.minute
  obtain ⟨second, hsecond⟩ := Decimal.exists_write h.second
  obtain ⟨milli, hmilli⟩ := Decimal.exists_write h.milli
  have hfields : Written.fields { year, month, day, hour, minute, second, milli } = f := by
    simp only [Written.fields, hyear, hmonth, hday, hhour, hminute, hsecond, hmilli]
  exact ⟨_, hfields, (congrArg text hfields).trans h.text_eq⟩

end Fields

end Stamp

end LogOrder
