import LogOrder.Text.Bytes

/-!
# Lines

Bytes are cut into lines after every newline, so a line keeps its own ending and only the last
one can lack it.

* `flatten_cut`: the lines put together are the bytes again.
* `cut_append_of_not_mem`: a line ends with the first newline, and the rest is cut by itself.
-/

namespace LogOrder.Line

/-- The lines of the bytes, each with its newline; the last may have none. -/
def cut : Bytes → List Bytes
  | [] => []
  | b :: bs =>
    if b = Bytes.newline then [b] :: cut bs
    else match cut bs with
      | [] => [[b]]
      | line :: lines => (b :: line) :: lines

/-- How many lines the bytes have; an unterminated rest counts as one. -/
def count (bs : Bytes) : Nat := (cut bs).length

theorem flatten_cut (bs : Bytes) : (cut bs).flatten = bs := by
  induction bs with
  | nil => rfl
  | cons b bs ih =>
    unfold cut
    split
    · simp [ih]
    · cases h : cut bs with
      | nil => rw [h] at ih; simp [← ih]
      | cons line lines => rw [h] at ih; simp [← ih]

/-- Bytes without a newline are one line with whatever line follows. -/
theorem cut_append_of_not_mem {as : Bytes} (h : Bytes.newline ∉ as) (bs : Bytes) :
    cut (as ++ Bytes.newline :: bs) = (as ++ [Bytes.newline]) :: cut bs := by
  induction as with
  | nil => simp [cut]
  | cons a as ih =>
    have ha : a ≠ Bytes.newline := fun e => h (by simp [e])
    have has : Bytes.newline ∉ as := fun m => h (List.mem_cons_of_mem a m)
    simp [cut, ha, ih has]

/-- Bytes without a newline are a single line, if there are any. -/
theorem cut_of_not_mem {bs : Bytes} (hne : bs ≠ []) (h : Bytes.newline ∉ bs) : cut bs = [bs] := by
  induction bs with
  | nil => exact absurd rfl hne
  | cons b bs ih =>
    have hb : b ≠ Bytes.newline := fun e => h (by simp [e])
    cases bs with
    | nil => simp [cut, hb]
    | cons c bs =>
      have hrest : Bytes.newline ∉ c :: bs := fun m => h (List.mem_cons_of_mem b m)
      rw [cut, if_neg hb, ih (List.cons_ne_nil c bs) hrest]

end LogOrder.Line
