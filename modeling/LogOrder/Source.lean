import LogOrder.Text.Line
import LogOrder.IoFault

/-!
# Sources

A source hands over its bytes in pieces, of whatever sizes, and then ends or fails. How the bytes
fall into pieces must not matter to whoever reads lines, so lines are put together across them.

* `Source.delivery` is the lines a source gives before it ends or fails.
* `delivery_eq_of_flatten_eq`: only the bytes count, not how they are cut.
* `lines_delivery_of_ends`: a source that ends hands over the lines of its bytes.
-/

namespace LogOrder

/-- Bytes that arrive in pieces. -/
structure Source where
  /-- What arrives, in order. -/
  pieces : List Bytes
  /-- How the source fails after the last piece; it just ends if there is nothing here. -/
  failure : Option IoFault := none
deriving DecidableEq, Repr

namespace Source

/-- A source that hands over all its bytes at once and ends. -/
def ofBytes (bs : Bytes) : Source := { pieces := [bs] }

/-- The first `count` pieces of `size` bytes; the last may be shorter. -/
def chunksUpTo (size : Nat) : (count : Nat) → Bytes → List Bytes
  | 0, _ => []
  | _, [] => []
  | count + 1, bs => bs.take size :: chunksUpTo size count (bs.drop size)

/-- The bytes in pieces of `size`, with a shorter one at the end. A piece holds at least one byte,
so there are no more pieces than bytes. -/
def chunks (size : Nat) (bs : Bytes) : List Bytes := chunksUpTo size bs.length bs

/-- Lines put together so far. -/
structure Assembly where
  /-- The whole lines, the latest first. -/
  lines : List Bytes := []
  /-- The bytes since the last line end, the latest first. -/
  held : Bytes := []
deriving DecidableEq, Repr

/-- One more byte: a newline completes a line. -/
def Assembly.push (a : Assembly) (b : UInt8) : Assembly :=
  if b = Bytes.newline then { lines := (b :: a.held).reverse :: a.lines, held := [] }
  else { a with held := b :: a.held }

/-- What a reader of lines gets. -/
structure Delivery where
  /-- The lines, in order. -/
  lines : List Bytes
  /-- How reading fails after the last of them, if it does. -/
  failure : Option IoFault
deriving DecidableEq, Repr

/-- The lines of an assembly when nothing more comes: what is held is the last one. -/
def Assembly.finished (a : Assembly) : List Bytes :=
  match a.held with
  | [] => a.lines.reverse
  | _ :: _ => (a.held.reverse :: a.lines).reverse

/-- What all pieces put together make. -/
def assembled (s : Source) : Assembly :=
  s.pieces.foldl (fun a piece => piece.foldl Assembly.push a) {}

/-- The lines of the source. Bytes after the last newline are a line of their own if the source
ends; if it fails they are lost. -/
def delivery (s : Source) : Delivery :=
  { lines := match s.failure with
      | none => s.assembled.finished
      | some _ => s.assembled.lines.reverse
    failure := s.failure }

/-! ## Pieces do not matter -/

theorem flatten_chunksUpTo {size : Nat} (hs : 1 ≤ size) (count : Nat) (bs : Bytes)
    (hc : bs.length ≤ count) : (chunksUpTo size count bs).flatten = bs := by
  induction count generalizing bs with
  | zero =>
    have : bs = [] := List.eq_nil_of_length_eq_zero (by omega)
    subst this
    rfl
  | succ count ih =>
    cases bs with
    | nil => rfl
    | cons b bs =>
      have short : ((b :: bs).drop size).length ≤ count := by
        rw [List.length_drop]
        omega
      rw [chunksUpTo, List.flatten_cons, ih _ short, List.take_append_drop]
      exact List.cons_ne_nil b bs

/-- Pieces of any size make up the bytes they were cut from. -/
theorem flatten_chunks {size : Nat} (hs : 1 ≤ size) (bs : Bytes) :
    (chunks size bs).flatten = bs :=
  flatten_chunksUpTo hs bs.length bs (Nat.le_refl _)

theorem assembled_eq (s : Source) : s.assembled = s.pieces.flatten.foldl Assembly.push {} :=
  List.foldl_flatten.symm

/-- How the bytes fall into pieces does not matter. -/
theorem delivery_eq_of_flatten_eq {s t : Source} (hp : s.pieces.flatten = t.pieces.flatten)
    (hf : s.failure = t.failure) : s.delivery = t.delivery := by
  unfold delivery
  rw [assembled_eq, assembled_eq, hp, hf]

/-! ## Lines of a source that ends -/

/-- Bytes put under what is held complete its line first. -/
theorem finished_foldl_push (bs : Bytes) (a : Assembly) (ha : Bytes.newline ∉ a.held) :
    (bs.foldl Assembly.push a).finished = a.lines.reverse ++ Line.cut (a.held.reverse ++ bs) := by
  induction bs generalizing a with
  | nil =>
    rw [List.foldl_nil, List.append_nil]
    cases hh : a.held with
    | nil => simp [Assembly.finished, hh, Line.cut]
    | cons b held =>
      have hn : Bytes.newline ∉ a.held.reverse := by simpa using ha
      rw [hh] at hn
      rw [Line.cut_of_not_mem (by simp) hn]
      simp [Assembly.finished, hh]
  | cons b bs ih =>
    rw [List.foldl_cons]
    by_cases hb : b = Bytes.newline
    · subst hb
      have hn : Bytes.newline ∉ a.held.reverse := by simpa using ha
      rw [Line.cut_append_of_not_mem hn]
      rw [ih _ (by simp [Assembly.push])]
      simp [Assembly.push]
    · rw [ih _ (by simp [Assembly.push, hb, ha, Ne.symm hb])]
      simp [Assembly.push, hb]

/-- A source that ends hands over the lines of its bytes. -/
theorem lines_delivery_of_ends {s : Source} (hs : s.failure = none) :
    s.delivery.lines = Line.cut s.pieces.flatten := by
  have held : Bytes.newline ∉ ({} : Assembly).held := List.not_mem_nil
  unfold delivery
  rw [hs, assembled_eq, finished_foldl_push _ _ held]
  rfl

end Source

end LogOrder
