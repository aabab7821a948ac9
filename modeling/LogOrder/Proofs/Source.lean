import LogOrder.Proofs.Text.Lines
import LogOrder.Source

/-!
# The lines of a source

A reader puts the lines of a source together byte by byte, and forgets an unfinished one when the
source fails. Here the lines are cut from all the bytes at once.

* `Assembly.Tidy` is what the reader keeps from byte to byte;
* `lines_delivery_eq`: the reader gets the lines of the source.
-/

namespace LogOrder.Source

/-- The lines of the source: those of its bytes. Bytes after the last newline are a line only if
the source ends, and none if it fails. -/
def lines (s : Source) : List Bytes :=
  match s.failure with
  | none => Line.cut s.pieces.flatten
  | some _ => (Line.cut s.pieces.flatten).filter Bytes.endsLine

namespace Assembly

/-- Every line ends with a newline, and there is none in what is held. -/
structure Tidy (a : Assembly) : Prop where
  endsLine : ∀ line ∈ a.lines, Bytes.endsLine line = true
  held : Bytes.newline ∉ a.held

variable {a : Assembly}

theorem Tidy.push (h : a.Tidy) (b : UInt8) : (a.push b).Tidy := by
  unfold Assembly.push
  by_cases hb : b = Bytes.newline
  · rw [if_pos hb]
    refine ⟨List.forall_mem_cons.mpr ⟨?_, h.endsLine⟩, List.not_mem_nil⟩
    simp [Bytes.endsLine, hb]
  · rw [if_neg hb]
    refine ⟨h.endsLine, ?_⟩
    simp [Ne.symm hb, h.held]

theorem Tidy.foldl_push (h : a.Tidy) (bs : Bytes) : (bs.foldl Assembly.push a).Tidy := by
  induction bs generalizing a with
  | nil => exact h
  | cons b bs ih => exact ih (h.push b)

/-- What is held is the only line without a newline, if it is one. -/
theorem Tidy.filter_finished (h : a.Tidy) :
    a.finished.filter Bytes.endsLine = a.lines.reverse := by
  have hlines : a.lines.reverse.filter Bytes.endsLine = a.lines.reverse := by
    rw [List.filter_eq_self]
    intro line hline
    exact h.endsLine line (List.mem_reverse.mp hline)
  unfold Assembly.finished
  cases hheld : a.held with
  | nil => exact hlines
  | cons b held =>
    have hopen : Bytes.endsLine (b :: held).reverse = false := by
      refine Line.endsLine_eq_false ?_
      rw [List.mem_reverse, ← hheld]
      exact h.held
    rw [List.reverse_cons, List.filter_append, hlines,
      List.filter_cons_of_neg (by rw [hopen]; decide), List.filter_nil, List.append_nil]

end Assembly

/-- A reader gets the lines of the source. -/
theorem lines_delivery_eq (s : Source) : s.delivery.lines = s.lines := by
  have htidy : Assembly.Tidy {} := ⟨by simp, List.not_mem_nil⟩
  cases hs : s.failure with
  | none =>
    rw [lines_delivery_of_ends hs, lines, hs]
  | some why =>
    have hall := finished_foldl_push s.pieces.flatten {} htidy.held
    have hwhole := (htidy.foldl_push s.pieces.flatten).filter_finished
    rw [hall] at hwhole
    rw [lines, hs, delivery, hs, assembled_eq]
    exact hwhole.symm

end LogOrder.Source
