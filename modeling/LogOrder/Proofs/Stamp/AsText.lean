import LogOrder.Proofs.Text.Lines
import LogOrder.Stamp.Basic
import Mathlib.Data.List.Basic

/-!
# Stamps as text

The numbers of a stamp are written with fixed widths, the greatest unit first. So stamps come in
the order of time exactly when the bytes they are written in come in byte order.

* `Decimal.compare_write`: numbers of one width compare as their digits do;
* `Stamp.compare_toBytes`: stamps compare as their written forms do;
* `compare_eq_lt_iff`: what byte order is;
* `Stamp.Written.exists_ofString`: the written form is text;
* `Stamp.text?_eq`: the text of a stamp that opens some bytes is its written form.
-/

namespace LogOrder

/-- Texts whose first parts have one length compare by these parts first. -/
theorem compare_append_append {as bs : Bytes} (h : as.length = bs.length) (xs ys : Bytes) :
    compare (as ++ xs) (bs ++ ys) = (compare as bs).then (compare xs ys) := by
  induction as generalizing bs with
  | nil =>
    cases bs with
    | nil => rfl
    | cons b bs => cases h
  | cons a as ih =>
    cases bs with
    | nil => cases h
    | cons b bs =>
      have hrest : as.length = bs.length := Nat.succ.inj h
      rw [List.cons_append, List.cons_append, List.compare_cons_cons, List.compare_cons_cons,
        ih hrest, Ordering.then_assoc]

/-- A byte that both texts have in one place does not decide. -/
theorem compare_cons_self (b : UInt8) (xs ys : Bytes) :
    compare (b :: xs) (b :: ys) = compare xs ys := by
  have hself : compare b b = .eq := Std.ReflOrd.compare_self
  rw [List.compare_cons_cons, hself]
  rfl

/-- One text comes before another in byte order when it is less where they first differ, or has
ended there. -/
theorem compare_eq_lt_iff (as bs : Bytes) : compare as bs = .lt ↔ as < bs := by
  induction as generalizing bs with
  | nil => cases bs <;> simp
  | cons a as ih =>
    cases bs with
    | nil => simp
    | cons b bs =>
      rw [List.compare_cons_cons, List.cons_lt_cons_iff, Ordering.then_eq_lt, ih,
        Std.compare_eq_lt, Std.compare_eq_iff_eq]

namespace Decimal

theorem compare_digitByte (d e : Fin 10) :
    compare (digitByte d) (digitByte e) = compare d.val e.val := by
  revert d e
  decide

/-- The first digit decides, and the others only where it does not. -/
theorem compare_first_tail {k : Nat} (m n : Decimal (k + 1)) :
    (compare m.first.val n.first.val).then (compare m.tail.val n.tail.val) =
      compare m.val n.val := by
  have hm : m.first.val * bound k + m.tail.val = m.val := Nat.div_add_mod' m.val (bound k)
  have hn : n.first.val * bound k + n.tail.val = n.val := Nat.div_add_mod' n.val (bound k)
  have htm := m.tail.isLt
  have htn := n.tail.isLt
  -- a greater first digit outweighs any tail, which is below `bound k`
  rcases Nat.lt_trichotomy m.first.val n.first.val with hlt | heq | hgt
  · have hstep : (m.first.val + 1) * bound k ≤ n.first.val * bound k :=
      Nat.mul_le_mul_right _ hlt
    rw [Nat.succ_mul] at hstep
    have hless : m.val < n.val := by omega
    rw [Nat.compare_eq_lt.mpr hlt, Nat.compare_eq_lt.mpr hless]
    rfl
  · rw [heq] at hm
    rw [heq, Nat.compare_eq_eq.mpr rfl, ← hm, ← hn]
    show compare m.tail.val n.tail.val = _
    simp only [Nat.compare_eq_ite_lt, Nat.add_lt_add_iff_left]
  · have hstep : (n.first.val + 1) * bound k ≤ m.first.val * bound k :=
      Nat.mul_le_mul_right _ hgt
    rw [Nat.succ_mul] at hstep
    have hmore : n.val < m.val := by omega
    rw [Nat.compare_eq_gt.mpr hgt, Nat.compare_eq_gt.mpr hmore]
    rfl

/-- Numbers of one width compare as their digits do. -/
theorem compare_write (k : Nat) (m n : Decimal k) :
    compare (write k m) (write k n) = compare m.val n.val := by
  induction k with
  | zero =>
    have hm : m.val = 0 := Nat.lt_one_iff.mp m.isLt
    have hn : n.val = 0 := Nat.lt_one_iff.mp n.isLt
    rw [hm, hn]
    rfl
  | succ k ih =>
    rw [write, write, List.compare_cons_cons, compare_digitByte, ih, compare_first_tail]

theorem compare_write_append (k : Nat) (m n : Decimal k) (xs ys : Bytes) :
    compare (write k m ++ xs) (write k n ++ ys) = (compare m.val n.val).then (compare xs ys) := by
  rw [compare_append_append (by rw [length_write, length_write]), compare_write]

end Decimal

namespace Stamp

/-- Stamps compare as their written forms do. -/
theorem compare_toBytes (s t : Stamp) :
    compare s.toWritten.toBytes t.toWritten.toBytes = compare s t := by
  simp only [Written.toBytes, Decimal.compare_write_append, compare_cons_self,
    Decimal.compare_write]
  rfl

theorem Written.toBytes_inj {v w : Written} (h : v.toBytes = w.toBytes) : v = w := by
  have hread := read?_toBytes v []
  rw [h, read?_toBytes] at hread
  exact (Prod.mk.inj (Option.some.inj hread)).1.symm

/-- Stamps that are written in the same way are the same. -/
theorem toBytes_inj {s t : Stamp} (h : s.toWritten.toBytes = t.toWritten.toBytes) : s = t := by
  obtain ⟨v, hv⟩ := s
  obtain ⟨w, hw⟩ := t
  obtain rfl : v = w := Written.toBytes_inj h
  rfl

end Stamp

/-! ## Written stamps are text -/

theorem Bytes.ofString_injective : Function.Injective Bytes.ofString :=
  Function.LeftInverse.injective Bytes.toText_ofString

theorem Bytes.ofString_append (r s : String) :
    Bytes.ofString (r ++ s) = Bytes.ofString r ++ Bytes.ofString s := by
  simp [Bytes.ofString, String.toUTF8]

theorem utf8EncodeChar_ofNat {b : UInt8} (h : b.toNat < 128) :
    String.utf8EncodeChar (Char.ofNat b.toNat) = [b] := by
  have hvalid : b.toNat.isValidChar := .inl (by omega)
  have hval : (Char.ofNat b.toNat).val.toNat = b.toNat := by
    rw [Char.ofNat, dif_pos hvalid]
    rfl
  rw [String.utf8EncodeChar, hval]
  simp only [if_pos (Nat.le_of_lt_succ h), UInt8.ofNat_toNat]

/-- ASCII bytes are the UTF-8 form of a text. -/
theorem Bytes.exists_ofString {bs : Bytes} (h : ∀ b ∈ bs, b.toNat < 128) :
    ∃ text, Bytes.ofString text = bs := by
  refine ⟨String.ofList (bs.map fun b => Char.ofNat b.toNat), ?_⟩
  calc Bytes.ofString (String.ofList (bs.map fun b => Char.ofNat b.toNat))
      = bs.flatMap fun b => String.utf8EncodeChar (Char.ofNat b.toNat) := by
        simp [Bytes.ofString, List.utf8Encode, String.toUTF8, List.flatMap_map]
    _ = bs.flatMap fun b => [b] := List.flatMap_congr fun b hb => utf8EncodeChar_ofNat (h b hb)
    _ = bs := List.flatMap_singleton' bs

theorem Decimal.toNat_lt_of_mem_write (k : Nat) (n : Decimal k) :
    ∀ b ∈ write k n, b.toNat < 128 := by
  induction k with
  | zero => simp [write]
  | succ k ih =>
    refine List.forall_mem_cons.mpr ⟨?_, ih n.tail⟩
    generalize n.first = d
    revert d
    decide

namespace Stamp

theorem Written.exists_ofString (w : Written) : ∃ text, Bytes.ofString text = w.toBytes := by
  refine Bytes.exists_ofString ?_
  simp only [toBytes, List.forall_mem_append, List.forall_mem_cons]
  exact ⟨Decimal.toNat_lt_of_mem_write 4 w.year, by decide,
    Decimal.toNat_lt_of_mem_write 2 w.month, by decide,
    Decimal.toNat_lt_of_mem_write 2 w.day, by decide,
    Decimal.toNat_lt_of_mem_write 2 w.hour, by decide,
    Decimal.toNat_lt_of_mem_write 2 w.minute, by decide,
    Decimal.toNat_lt_of_mem_write 2 w.second, by decide,
    Decimal.toNat_lt_of_mem_write 3 w.milli⟩

/-! ## The stamp that some bytes open with -/

/-- The text of the stamp that the bytes open with: what stands between its brackets. -/
def text? (bs : Bytes) : Option Bytes :=
  if (opening? bs).isSome then some ((bs.drop 1).take 23) else none

/-- Bytes open with the same stamp whatever follows it. -/
theorem opening?_append {bs : Bytes} {w : Written} (h : opening? bs = some w) (cs : Bytes) :
    opening? (bs ++ cs) = some w := by
  obtain ⟨rest, rfl⟩ := opening?_eq_some_iff.mp h
  refine opening?_eq_some_iff.mpr ⟨rest ++ cs, ?_⟩
  simp

/-- A newline at the end is no part of a stamp. -/
theorem opening?_concat_newline (body : Bytes) :
    opening? (body ++ [Bytes.newline]) = opening? body := by
  refine Option.ext fun w => ⟨?_, fun h => opening?_append h _⟩
  intro h
  obtain ⟨rest, hrest⟩ := opening?_eq_some_iff.mp h
  have hsplit : body ++ [Bytes.newline] =
      (openBracket :: w.toBytes) ++ closeBracket :: rest := hrest
  obtain ⟨init, hinit⟩ := Line.exists_of_concat_newline_eq (by decide) hsplit
  exact opening?_eq_some_iff.mpr ⟨init, hinit⟩

theorem opening?_chomp (line : Bytes) : opening? (Line.chomp line) = opening? line := by
  rcases List.eq_nil_or_concat line with rfl | ⟨body, last, rfl⟩
  · rfl
  · by_cases hlast : last = Bytes.newline
    · subst hlast
      simp [Line.chomp, Bytes.endsLine, opening?_concat_newline]
    · simp [Line.chomp, Bytes.endsLine, hlast]

theorem opening?_close (line : Bytes) : opening? (Line.close line) = opening? line := by
  unfold Line.close
  split
  · rfl
  · exact opening?_concat_newline line

/-- The text of a stamp that opens some bytes is its written form. -/
theorem text?_eq (bs : Bytes) : text? bs = (opening? bs).map Written.toBytes := by
  rw [text?]
  cases h : opening? bs with
  | none => rfl
  | some w =>
    obtain ⟨rest, rfl⟩ := opening?_eq_some_iff.mp h
    simp [← w.length_toBytes]

theorem text?_chomp (line : Bytes) : text? (Line.chomp line) = text? line := by
  rw [text?_eq, opening?_chomp, text?_eq]

end Stamp

end LogOrder
