import LogOrder.Proofs.Stamp.Digits

/-!
# Stamps in machine integers

The numbers of a stamp are held as machine integers: each group of digits is summed in 32 bits, then
the year is cut to 16 bits and the fields from the month to the second to 8 bits, and thousandths
of a second become billionths in 32 bits. No group of a stamp has digits enough for any of this to
wrap around, so the numbers stay those of the written stamp.

* `Decimal.toInt_value32`: nine digits fit in 32 bits;
* `Decimal.toInt_toInt16`, `Decimal.toInt_toInt8`, `Decimal.toInt_billionths`: what is cut or scaled
  is kept;
* `Stamp.Fields.Spells.holds_civil`: all fields of a stamp together.
-/

namespace LogOrder

namespace Decimal

/-! ## Digits summed in 32 bits -/

/-- The value of digits, summed in 32 bits. -/
def value32 (ds : Bytes) : Int32 :=
  ds.foldl (fun n b => n * 10 + Int32.ofNat (b - 48).toNat) 0

variable {k : Nat} {ds : Bytes}

/-- Whether the sum wraps around or not, it is the value modulo `2 ^ 32`. -/
theorem value32_eq (h : Digits k ds) : value32 ds = Int32.ofNat (value ds) := by
  suffices hfold : ∀ n : Nat, ds.foldl (fun n b => n * 10 + Int32.ofNat (b - 48).toNat)
      (Int32.ofNat n) = Int32.ofNat (ds.foldl (fun n b => n * 10 + (b.toNat - 48)) n) from hfold 0
  obtain ⟨-, hmem⟩ := h
  induction ds with
  | nil => exact fun n => rfl
  | cons b ds ih =>
    intro n
    obtain ⟨hb, hds⟩ := List.forall_mem_cons.mp hmem
    have hdigit : (b - 48).toNat = b.toNat - 48 :=
      UInt8.toNat_sub_of_le b 48 (UInt8.le_iff_toNat_le.mpr hb.1)
    have hten : (10 : Int32) = Int32.ofNat 10 := rfl
    rw [List.foldl_cons, List.foldl_cons, hdigit, hten, ← Int32.ofNat_mul, ← Int32.ofNat_add]
    exact ih hds _

theorem value_lt (h : Digits k ds) : value ds < bound k := by
  obtain ⟨n, rfl⟩ := exists_write h
  rw [value_write]
  exact n.isLt

/-- Nine digits fit in 32 bits, and so does all that is summed on the way to the last of them. -/
theorem toInt_value32 (h : Digits k ds) (hk : k ≤ 9) : (value32 ds).toInt = value ds := by
  have hbound : bound k ≤ 10 ^ 9 := bound_eq k ▸ Nat.pow_le_pow_right (by decide) hk
  have hlt : value ds < 2 ^ 31 := (value_lt h).trans_le (hbound.trans (by decide))
  rw [value32_eq h, Int32.toInt_ofNat_of_lt hlt]

/-! ## Numbers cut and scaled -/

theorem toInt_toInt16 (n : Decimal 4) : (Int32.ofNat n.val).toInt16.toInt = n.val := by
  have hlt : n.val < 2 ^ 15 := n.isLt.trans_le (by decide)
  rw [Int32.toInt16_ofNat', Int16.toInt_ofNat_of_lt hlt]

theorem toInt_toInt8 (n : Decimal 2) : (Int32.ofNat n.val).toInt8.toInt = n.val := by
  have hlt : n.val < 2 ^ 7 := n.isLt.trans_le (by decide)
  rw [Int32.toInt8_ofNat', Int8.toInt_ofNat_of_lt hlt]

theorem toInt_billionths (n : Decimal 3) :
    (Int32.ofNat n.val * 1000000).toInt = n.val * 1000000 := by
  have hmillion : (1000000 : Int32) = Int32.ofNat 1000000 := rfl
  have hlt : n.val * 1000000 < 2 ^ 31 :=
    (Nat.mul_le_mul_right 1000000 n.isLt.le).trans_lt (by decide)
  rw [hmillion, ← Int32.ofNat_mul, Int32.toInt_ofNat_of_lt hlt]
  rfl

end Decimal

namespace Stamp

open Decimal (value value32)

/-! ## All fields of a stamp -/

/-- A date and a time of day in machine integers. -/
structure Civil where
  year : Int16
  month : Int8
  day : Int8
  hour : Int8
  minute : Int8
  second : Int8
  /-- Billionths of the second. -/
  billionth : Int32

/-- The values of the groups, cut to the widths of the fields. -/
def Fields.civil (f : Fields) : Civil where
  year := (value32 f.year).toInt16
  month := (value32 f.month).toInt8
  day := (value32 f.day).toInt8
  hour := (value32 f.hour).toInt8
  minute := (value32 f.minute).toInt8
  second := (value32 f.second).toInt8
  billionth := value32 f.milli * 1000000

/-- The machine integers are the numbers of the written stamp. -/
structure Civil.Holds (c : Civil) (w : Written) : Prop where
  year : c.year.toInt = w.year.val
  month : c.month.toInt = w.month.val
  day : c.day.toInt = w.day.val
  hour : c.hour.toInt = w.hour.val
  minute : c.minute.toInt = w.minute.val
  second : c.second.toInt = w.second.val
  billionth : c.billionth.toInt = w.milli.val * 1000000

/-- Nothing is lost of a stamp: what is summed, cut and scaled are the numbers that the digits
tell. -/
theorem Fields.Spells.holds_civil {f : Fields} {bs : Bytes} {w : Written} (h : f.Spells bs)
    (htells : f.Tells w) : f.civil.Holds w := by
  have hvalue {k : Nat} {ds : Bytes} {n : Decimal k} (hds : Decimal.Digits k ds)
      (hn : n.val = value ds) : value32 ds = Int32.ofNat n.val := by
    rw [Decimal.value32_eq hds, hn]
  constructor
  case year => rw [civil, hvalue h.year htells.year, Decimal.toInt_toInt16]
  case month => rw [civil, hvalue h.month htells.month, Decimal.toInt_toInt8]
  case day => rw [civil, hvalue h.day htells.day, Decimal.toInt_toInt8]
  case hour => rw [civil, hvalue h.hour htells.hour, Decimal.toInt_toInt8]
  case minute => rw [civil, hvalue h.minute htells.minute, Decimal.toInt_toInt8]
  case second => rw [civil, hvalue h.second htells.second, Decimal.toInt_toInt8]
  case billionth => rw [civil, hvalue h.milli htells.milli, Decimal.toInt_billionths]

end Stamp

end LogOrder
