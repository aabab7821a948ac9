import LogOrder.Text.Bytes

/-!
# Decimal numbers of a fixed width

A number is written with a given count of ASCII digits, leading zeros included, and read back
from exactly as many. The type says how many: a `Decimal k` is a number that `k` digits can write.

* `read?_write` and `read?_eq_some_iff`: reading accepts exactly what writing produces.
* `length_write`: the width is kept.
-/

namespace LogOrder

/-- How many numbers `k` decimal digits can write. -/
def Decimal.bound : (k : Nat) → Nat
  | 0 => 1
  | k + 1 => 10 * bound k

/-- A number that `k` decimal digits can write. -/
abbrev Decimal (k : Nat) := Fin (Decimal.bound k)

namespace Decimal

theorem bound_pos (k : Nat) : 0 < bound k := by
  induction k with
  | zero => exact Nat.one_pos
  | succ k ih => exact Nat.mul_pos (by decide) ih

/-- The value of an ASCII digit. -/
def digit? (b : UInt8) : Option (Fin 10) :=
  if h : 48 ≤ b.toNat ∧ b.toNat < 58 then some ⟨b.toNat - 48, by omega⟩ else none

/-- The ASCII digit of a value. -/
def digitByte (d : Fin 10) : UInt8 := UInt8.ofNat (48 + d.val)

/-- Whether the byte is an ASCII digit. -/
def isDigit (b : UInt8) : Bool := (digit? b).isSome

theorem digit?_digitByte (d : Fin 10) : digit? (digitByte d) = some d := by
  revert d; decide

theorem eq_digitByte_of_digit? {b : UInt8} {d : Fin 10} (h : digit? b = some d) :
    b = digitByte d := by
  unfold digit? at h
  split at h
  · next hb =>
    cases h
    apply UInt8.toNat_inj.1
    simp only [digitByte, UInt8.toNat_ofNat']
    omega
  · cases h

theorem lead_lt {k : Nat} (d : Fin 10) (n : Decimal k) :
    d.val * bound k + n.val < bound (k + 1) := by
  have first : d.val * bound k ≤ 9 * bound k := Nat.mul_le_mul_right _ (by omega)
  have rest := n.isLt
  show _ < 10 * bound k
  omega

/-- The number with first digit `d` and the digits of `n` after it. -/
def lead {k : Nat} (d : Fin 10) (n : Decimal k) : Decimal (k + 1) :=
  ⟨d.val * bound k + n.val, lead_lt d n⟩

/-- The first of `k + 1` digits. -/
def first {k : Nat} (n : Decimal (k + 1)) : Fin 10 :=
  ⟨n.val / bound k, Nat.div_lt_of_lt_mul (Nat.mul_comm 10 _ ▸ n.isLt)⟩

/-- The digits after the first. -/
def tail {k : Nat} (n : Decimal (k + 1)) : Decimal k :=
  ⟨n.val % bound k, Nat.mod_lt _ (bound_pos k)⟩

theorem first_lead {k : Nat} (d : Fin 10) (n : Decimal k) : (lead d n).first = d := by
  apply Fin.ext
  show (d.val * bound k + n.val) / bound k = d.val
  rw [Nat.add_comm, Nat.add_mul_div_right _ _ (bound_pos k), Nat.div_eq_of_lt n.isLt]
  omega

theorem tail_lead {k : Nat} (d : Fin 10) (n : Decimal k) : (lead d n).tail = n := by
  apply Fin.ext
  show (d.val * bound k + n.val) % bound k = n.val
  rw [Nat.add_comm, Nat.add_mul_mod_self_right, Nat.mod_eq_of_lt n.isLt]

theorem lead_first_tail {k : Nat} (n : Decimal (k + 1)) : lead n.first n.tail = n :=
  Fin.ext (Nat.div_add_mod' n.val (bound k))

/-- Reads exactly `k` digits and returns what follows them. -/
def read? : (k : Nat) → Bytes → Option (Decimal k × Bytes)
  | 0, s => some (⟨0, by decide⟩, s)
  | _ + 1, [] => none
  | k + 1, b :: s =>
    match digit? b, read? k s with
    | some d, some (n, rest) => some (lead d n, rest)
    | _, _ => none

/-- The `k` digits of a number, leading zeros included. -/
def write : (k : Nat) → Decimal k → Bytes
  | 0, _ => []
  | k + 1, n => digitByte n.first :: write k n.tail

theorem length_write (k : Nat) (n : Decimal k) : (write k n).length = k := by
  induction k with
  | zero => rfl
  | succ k ih => simp [write, ih]

theorem read?_write (k : Nat) (n : Decimal k) (rest : Bytes) :
    read? k (write k n ++ rest) = some (n, rest) := by
  induction k with
  | zero =>
    have hn : n = ⟨0, by decide⟩ := Fin.ext (Nat.lt_one_iff.1 n.isLt)
    simp [read?, write, hn]
  | succ k ih => simp [read?, write, digit?_digitByte, ih, lead_first_tail]

theorem eq_write_of_read? {k : Nat} {s rest : Bytes} {n : Decimal k}
    (h : read? k s = some (n, rest)) : s = write k n ++ rest := by
  induction k generalizing s with
  | zero =>
    simp only [read?, Option.some.injEq, Prod.mk.injEq] at h
    simp [write, h.2]
  | succ k ih =>
    cases s with
    | nil => simp [read?] at h
    | cons b s =>
      simp only [read?] at h
      split at h
      · next d m tl hd hm =>
        simp only [Option.some.injEq, Prod.mk.injEq] at h
        obtain ⟨rfl, rfl⟩ := h
        rw [write, first_lead, tail_lead, eq_digitByte_of_digit? hd, ih hm, List.cons_append]
      · simp at h

/-- Reading accepts exactly what writing produces. -/
theorem read?_eq_some_iff {k : Nat} {s rest : Bytes} {n : Decimal k} :
    read? k s = some (n, rest) ↔ s = write k n ++ rest :=
  ⟨eq_write_of_read?, fun h => h ▸ read?_write k n rest⟩

end Decimal

end LogOrder
