import Mathlib.Algebra.GroupWithZero.Nat
import LogOrder.Text.Line
import LogOrder.Text.Utf8

/-!
# How lines fit together

`Line.cut` reads one byte at a time. Here it is described by its results: bytes are a row of whole
lines, each with its newline at the end, and a rest without a newline.

* `cut_append_of_endsLine`: bytes that end a line are cut by themselves;
* `cut_flatten_of_cut_eq`: neighbouring lines put together are cut into the same lines again;
* `Utf8.valid_iff_forall_mem_cut`: bytes are UTF-8 exactly when each of their lines is;
* `cut_joined`: texts written so that each starts on a line of its own keep their lines;
* `joined_append_cons`, `count_joined`: the place of a text among such texts, and their lines.
-/

namespace LogOrder

namespace Line

/-- A line with its newline at the end and nowhere else. -/
def Whole (line : Bytes) : Prop :=
  ∃ body, Bytes.newline ∉ body ∧ line = body ++ [Bytes.newline]

theorem Whole.ne_nil {line : Bytes} (h : Whole line) : line ≠ [] := by
  obtain ⟨body, -, rfl⟩ := h
  exact List.append_ne_nil_of_right_ne_nil body (List.cons_ne_nil _ _)

theorem Whole.endsLine {line : Bytes} (h : Whole line) : Bytes.endsLine line = true := by
  obtain ⟨body, -, rfl⟩ := h
  simp [Bytes.endsLine]

/-- A whole line is the first line of whatever starts with it. -/
theorem Whole.cut_append {line : Bytes} (h : Whole line) (bs : Bytes) :
    cut (line ++ bs) = line :: cut bs := by
  obtain ⟨body, hbody, rfl⟩ := h
  rw [List.append_assoc]
  exact cut_append_of_not_mem hbody bs

theorem cut_flatten_append {lines : List Bytes} (h : ∀ line ∈ lines, Whole line) (bs : Bytes) :
    cut (lines.flatten ++ bs) = lines ++ cut bs := by
  induction lines with
  | nil => rfl
  | cons line rest ih =>
    have hrest := ih fun l hl => h l (List.mem_cons_of_mem _ hl)
    rw [List.flatten_cons, List.append_assoc, (h line List.mem_cons_self).cut_append, hrest,
      List.cons_append]

/-- All bytes are whole lines and then a rest without a newline. -/
theorem exists_whole (bs : Bytes) : ∃ (lines : List Bytes) (rest : Bytes),
    (∀ line ∈ lines, Whole line) ∧ Bytes.newline ∉ rest ∧ bs = lines.flatten ++ rest := by
  induction bs with
  | nil => exact ⟨[], [], by simp, List.not_mem_nil, rfl⟩
  | cons b bs ih =>
    obtain ⟨lines, rest, hlines, hrest, rfl⟩ := ih
    by_cases hb : b = Bytes.newline
    · refine ⟨[b] :: lines, rest, ?_, hrest, rfl⟩
      intro line hline
      rcases List.mem_cons.mp hline with rfl | hline
      · exact ⟨[], List.not_mem_nil, by rw [hb]; rfl⟩
      · exact hlines line hline
    · cases lines with
      | nil => exact ⟨[], b :: rest, by simp, by simp [Ne.symm hb, hrest], rfl⟩
      | cons first lines =>
        -- the byte goes to the front of the first whole line
        refine ⟨(b :: first) :: lines, rest, ?_, hrest, rfl⟩
        intro line hline
        rcases List.mem_cons.mp hline with rfl | hline
        · obtain ⟨body, hbody, rfl⟩ := hlines first List.mem_cons_self
          exact ⟨b :: body, by simp [Ne.symm hb, hbody], rfl⟩
        · exact hlines line (List.mem_cons_of_mem _ hline)

theorem length_cut_le_one {rest : Bytes} (h : Bytes.newline ∉ rest) : (cut rest).length ≤ 1 := by
  by_cases hne : rest = []
  · rw [hne]
    exact Nat.zero_le 1
  · rw [cut_of_not_mem hne h]
    exact Nat.le_refl 1

theorem endsLine_eq_false {rest : Bytes} (h : Bytes.newline ∉ rest) :
    Bytes.endsLine rest = false := by
  rw [Bytes.endsLine, beq_eq_false_iff_ne]
  exact fun e => h (List.mem_of_getLast? e)

/-- A newline at the end stands after every other byte. -/
theorem exists_of_concat_newline_eq {bs front rest : Bytes} {b : UInt8} (hb : b ≠ Bytes.newline)
    (h : bs ++ [Bytes.newline] = front ++ b :: rest) : ∃ init, bs = front ++ b :: init := by
  rcases List.eq_nil_or_concat rest with rfl | ⟨init, last, rfl⟩
  · have hlast := (List.append_inj' h rfl).2
    exact absurd (List.cons.inj hlast).1.symm hb
  · have hsplit : bs ++ [Bytes.newline] = (front ++ b :: init) ++ [last] := by
      rw [h]
      simp
    exact ⟨init, (List.append_inj' hsplit rfl).1⟩

theorem endsLine_append {as bs : Bytes} (hbs : bs ≠ []) :
    Bytes.endsLine (as ++ bs) = Bytes.endsLine bs := by
  rw [Bytes.endsLine, Bytes.endsLine, List.getLast?_append, List.getLast?_eq_some_getLast hbs]
  rfl

/-- Lines before another one are whole: only the last can lack its newline. -/
theorem whole_of_cut_eq {bs line : Bytes} {before after : List Bytes}
    (h : cut bs = before ++ line :: after) : ∀ l ∈ before, Whole l := by
  obtain ⟨lines, rest, hlines, hrest, rfl⟩ := exists_whole bs
  rw [cut_flatten_append hlines] at h
  have hlen := congrArg List.length h
  have hshort := length_cut_le_one hrest
  simp only [List.length_append, List.length_cons] at hlen
  have hpre : before = lines.take before.length := by
    have htake : (lines ++ cut rest).take before.length = lines.take before.length :=
      List.take_append_of_le_length (by omega)
    rw [← htake, h, List.take_left' rfl]
  intro l hl
  rw [hpre] at hl
  exact hlines l (List.mem_of_mem_take hl)

theorem mem_cut {bs line : Bytes} (h : line ∈ cut bs) :
    line ≠ [] ∧ (Whole line ∨ Bytes.newline ∉ line) := by
  obtain ⟨lines, rest, hlines, hrest, rfl⟩ := exists_whole bs
  rw [cut_flatten_append hlines] at h
  rcases List.mem_append.mp h with h | h
  · exact ⟨(hlines line h).ne_nil, .inl (hlines line h)⟩
  · by_cases hne : rest = []
    · rw [hne] at h
      exact absurd h List.not_mem_nil
    · rw [cut_of_not_mem hne hrest, List.mem_singleton] at h
      subst h
      exact ⟨hne, .inr hrest⟩

theorem cut_self {bs line : Bytes} (h : line ∈ cut bs) : cut line = [line] := by
  obtain ⟨hne, hwhole | hpart⟩ := mem_cut h
  · rw [← List.append_nil line, hwhole.cut_append, List.append_nil]
    rfl
  · exact cut_of_not_mem hne hpart

/-- Neighbouring lines put together are cut into the same lines again. -/
theorem cut_flatten_of_cut_eq {bs : Bytes} {before lines after : List Bytes}
    (h : cut bs = before ++ lines ++ after) : cut lines.flatten = lines := by
  rcases List.eq_nil_or_concat lines with rfl | ⟨init, last, rfl⟩
  · rfl
  · rw [List.concat_eq_append] at h ⊢
    have hwhole : ∀ l ∈ init, Whole l := by
      intro l hl
      have hsplit : cut bs = (before ++ init) ++ last :: after := by
        rw [h]
        simp
      exact whole_of_cut_eq hsplit l (List.mem_append_right _ hl)
    have hmem : last ∈ cut bs := by
      rw [h]
      simp
    have hlast : cut last = [last] := cut_self hmem
    rw [List.flatten_append, cut_flatten_append hwhole, List.flatten_singleton, hlast]

/-- Bytes that end a line are cut by themselves, whatever follows. -/
theorem cut_append_of_endsLine {as : Bytes} (h : Bytes.endsLine as = true) (bs : Bytes) :
    cut (as ++ bs) = cut as ++ cut bs := by
  obtain ⟨lines, rest, hlines, hrest, rfl⟩ := exists_whole as
  have hnil : rest = [] := by
    by_cases hne : rest = []
    · exact hne
    · rw [endsLine_append hne, endsLine_eq_false hrest] at h
      cases h
  subst hnil
  rw [List.append_nil, cut_flatten_append hlines]
  have hcut := cut_flatten_append hlines []
  rw [List.append_nil] at hcut
  rw [hcut]
  simp [cut]

theorem endsLine_flatten {lines : List Bytes} (hne : lines ≠ [])
    (h : ∀ line ∈ lines, Whole line) : Bytes.endsLine lines.flatten = true := by
  rcases List.eq_nil_or_concat lines with rfl | ⟨init, last, rfl⟩
  · exact absurd rfl hne
  · have hlast := h last (by simp)
    rw [List.concat_eq_append, List.flatten_append, List.flatten_singleton,
      endsLine_append hlast.ne_nil]
    exact hlast.endsLine

/-- The bytes stop at the end of a line, or there are none. -/
def Ended (bs : Bytes) : Prop := bs = [] ∨ Bytes.endsLine bs = true

instance (bs : Bytes) : Decidable (Ended bs) :=
  inferInstanceAs (Decidable (bs = [] ∨ Bytes.endsLine bs = true))

theorem ended_iff_forall_whole (bs : Bytes) : Ended bs ↔ ∀ line ∈ cut bs, Whole line := by
  constructor
  · rintro (rfl | hend) line hline
    · exact absurd hline List.not_mem_nil
    · -- with a line after it, even the last one stands before another
      have hcut : cut (bs ++ [Bytes.newline]) = cut bs ++ [Bytes.newline] :: [] :=
        cut_append_of_endsLine hend _
      exact whole_of_cut_eq hcut line hline
  · intro hwhole
    by_cases hne : cut bs = []
    · left
      rw [← flatten_cut bs, hne]
      rfl
    · right
      rw [← flatten_cut bs]
      exact endsLine_flatten hne hwhole

theorem Ended.append {as bs : Bytes} (has : Ended as) (hbs : Ended bs) : Ended (as ++ bs) := by
  rcases hbs with rfl | hend
  · rwa [List.append_nil]
  · right
    rw [endsLine_append (by rintro rfl; cases hend), hend]

theorem Ended.cut_append {as : Bytes} (h : Ended as) (bs : Bytes) :
    cut (as ++ bs) = cut as ++ cut bs := by
  rcases h with rfl | hend
  · rfl
  · exact cut_append_of_endsLine hend bs

/-! ## Lines without their newlines -/

/-- The line without the newline at its end, if it has one. -/
def chomp (line : Bytes) : Bytes := if Bytes.endsLine line then line.dropLast else line

/-- What stands in the lines of the bytes. -/
def texts (bs : Bytes) : List Bytes := (cut bs).map chomp

/-- The bytes with a newline added, unless they end with one. -/
def close (bs : Bytes) : Bytes := if Bytes.endsLine bs then bs else bs ++ [Bytes.newline]

theorem close_eq (t : Bytes) :
    close t = t ++ if Bytes.endsLine t then [] else [Bytes.newline] := by
  unfold close
  split <;> simp

theorem endsLine_close (bs : Bytes) : Bytes.endsLine (close bs) = true := by
  unfold close
  split
  · assumption
  · simp [Bytes.endsLine]

theorem Whole.close_eq {line : Bytes} (h : Whole line) : close line = line := by
  rw [close, if_pos h.endsLine]

theorem close_close (bs : Bytes) : close (close bs) = close bs := by
  rw [close, if_pos (endsLine_close bs)]

/-- Closing bytes closes the last line of them. The others are whole anyway. -/
theorem cut_close {bs : Bytes} (hne : bs ≠ []) : cut (close bs) = (cut bs).map close := by
  obtain ⟨lines, rest, hlines, hrest, rfl⟩ := exists_whole bs
  have hsame : lines.map close = lines :=
    (List.map_congr_left fun line hline => (hlines line hline).close_eq).trans lines.map_id
  by_cases hnil : rest = []
  · subst hnil
    rw [List.append_nil] at hne ⊢
    have hsome : lines ≠ [] := fun e => hne (by rw [e]; rfl)
    have hcut := cut_flatten_append hlines []
    rw [List.append_nil] at hcut
    rw [close, if_pos (endsLine_flatten hsome hlines), hcut, cut, List.append_nil, hsame]
  · have hopen : Bytes.endsLine (lines.flatten ++ rest) = false := by
      rw [endsLine_append hnil, endsLine_eq_false hrest]
    have hlast : close rest = rest ++ [Bytes.newline] := by
      rw [close, endsLine_eq_false hrest]
      rfl
    rw [close, hopen, if_neg Bool.false_ne_true, List.append_assoc, cut_flatten_append hlines,
      cut_flatten_append hlines, cut_append_of_not_mem hrest, cut_of_not_mem hnil hrest,
      List.map_append, hsame, List.map_singleton, hlast, cut]

theorem chomp_close (line : Bytes) : chomp (close line) = chomp line := by
  unfold close
  split
  · rfl
  · next hopen =>
    rw [chomp, chomp, if_neg hopen, if_pos (by simp [Bytes.endsLine]), List.dropLast_concat]

/-- Texts one after the other, all but the last of them closed, so that each starts on a line of
its own. -/
def joined (ts : List Bytes) : Bytes := (ts.dropLast.map close).flatten ++ ts.getLast?.getD []

theorem joined_cons_cons (t u : Bytes) (ts : List Bytes) :
    joined (t :: u :: ts) = close t ++ joined (u :: ts) := by
  simp [joined, List.dropLast_cons_cons]

theorem joined_singleton (t : Bytes) : joined [t] = t := by simp [joined]

/-- Texts that end their lines need nothing between them. -/
theorem joined_eq_flatten {ts : List Bytes}
    (h : ∀ t ∈ ts.dropLast, Bytes.endsLine t = true) : joined ts = ts.flatten := by
  induction ts with
  | nil => rfl
  | cons t rest ih =>
    cases rest with
    | nil => simp [joined_singleton]
    | cons u rest =>
      rw [List.dropLast_cons_cons] at h
      obtain ⟨ht, hrest⟩ := List.forall_mem_cons.mp h
      rw [List.flatten_cons, joined_cons_cons, ih hrest, close, if_pos ht]

/-- Each text is followed by at most one newline that is not its own. -/
theorem joined_map {α : Type} [DecidableEq α] {xs : List α} (hxs : xs.Nodup) (text : α → Bytes) :
    joined (xs.map text) = xs.flatMap fun x => text x ++
      if Bytes.endsLine (text x) = false ∧ xs.getLast? ≠ some x then [Bytes.newline] else [] := by
  rcases List.eq_nil_or_concat xs with rfl | ⟨init, last, rfl⟩
  · rfl
  · rw [List.concat_eq_append] at hxs ⊢
    have hne : ∀ x ∈ init, last ≠ x := by
      intro x hx h
      exact (List.nodup_append.mp hxs).2.2 x hx last List.mem_cons_self h.symm
    have hinit : (init.map text).map close = init.map fun x => text x ++
        if Bytes.endsLine (text x) = false ∧ (init ++ [last]).getLast? ≠ some x then
          [Bytes.newline] else [] := by
      rw [List.map_map]
      refine List.map_congr_left ?_
      intro x hx
      cases hend : Bytes.endsLine (text x) <;> simp [close, hend, hne x hx]
    rw [List.flatMap_append, List.flatMap_def, ← hinit]
    simp [joined]

/-- The function applied to all but the last. -/
def mapInit {α : Type} (f : α → α) (xs : List α) : List α :=
  xs.dropLast.map f ++ xs.getLast?.toList

theorem mapInit_concat {α : Type} (f : α → α) (xs : List α) (x : α) :
    mapInit f (xs ++ [x]) = xs.map f ++ [x] := by
  simp [mapInit]

/-- What takes one function to another takes the lists to each other too. -/
theorem map_mapInit {α β : Type} {f : α → α} {f' : β → β} {g : α → β} {xs : List α}
    (h : ∀ x ∈ xs, g (f x) = f' (g x)) : (mapInit f xs).map g = mapInit f' (xs.map g) := by
  rcases List.eq_nil_or_concat xs with rfl | ⟨init, last, rfl⟩
  · rfl
  · rw [List.concat_eq_append] at h ⊢
    rw [mapInit_concat, List.map_append, List.map_map, List.map_append, List.map_singleton,
      mapInit_concat, List.map_map]
    congr 1
    exact List.map_congr_left fun x hx => h x (List.mem_append_left _ hx)

/-- What does not see the function finds the list unchanged. -/
theorem map_mapInit_of_eq {α β : Type} {f : α → α} {g : α → β} {xs : List α}
    (h : ∀ x ∈ xs, g (f x) = g x) : (mapInit f xs).map g = xs.map g := by
  rcases List.eq_nil_or_concat xs with rfl | ⟨init, last, rfl⟩
  · rfl
  · rw [List.concat_eq_append] at h ⊢
    rw [mapInit_concat, List.map_append, List.map_map, List.map_append]
    congr 1
    exact List.map_congr_left fun x hx => h x (List.mem_append_left _ hx)

theorem mem_mapInit {α : Type} {f : α → α} {xs : List α} {x : α} (h : x ∈ mapInit f xs) :
    ∃ y ∈ xs, x = f y ∨ x = y := by
  rcases List.eq_nil_or_concat xs with rfl | ⟨init, last, rfl⟩
  · exact absurd h List.not_mem_nil
  · rw [List.concat_eq_append] at h ⊢
    rw [mapInit_concat] at h
    rcases List.mem_append.mp h with h | h
    · obtain ⟨y, hy, rfl⟩ := List.mem_map.mp h
      exact ⟨y, by simp [hy], .inl rfl⟩
    · exact ⟨x, List.mem_append_right _ h, .inr rfl⟩

theorem joined_eq_flatten_mapInit (ts : List Bytes) : joined ts = (mapInit close ts).flatten := by
  rw [joined, mapInit, List.flatten_append]
  cases ts.getLast? <;> simp

/-- Texts that were closed to be joined are joined as they are. -/
theorem joined_mapInit_close (ts : List Bytes) : joined (mapInit close ts) = joined ts := by
  rcases List.eq_nil_or_concat ts with rfl | ⟨init, last, rfl⟩
  · rfl
  · have hclose : close ∘ close = close := funext close_close
    rw [List.concat_eq_append, joined_eq_flatten_mapInit, joined_eq_flatten_mapInit, mapInit_concat,
      mapInit_concat, List.map_map, hclose]

/-- Texts are cut by themselves when each of them starts on a line of its own. -/
theorem cut_joined (ts : List Bytes) : cut (joined ts) = (mapInit close ts).flatMap cut := by
  induction ts with
  | nil => rfl
  | cons t rest ih =>
    cases rest with
    | nil => simp [joined_singleton, mapInit]
    | cons u rest =>
      rw [joined_cons_cons, cut_append_of_endsLine (endsLine_close t), ih]
      simp [mapInit, List.dropLast_cons_cons]

theorem length_joined (ts : List Bytes) :
    (joined ts).length = ts.flatten.length + ts.dropLast.countP fun t => !Bytes.endsLine t := by
  induction ts with
  | nil => rfl
  | cons t rest ih =>
    cases rest with
    | nil => simp [joined_singleton]
    | cons u rest =>
      rw [joined_cons_cons, List.length_append, ih, List.dropLast_cons_cons, List.countP_cons,
        List.flatten_cons, List.length_append]
      cases hend : Bytes.endsLine t <;> simp [close, hend] <;> omega

/-- A text stands after those before it, which are closed for it. -/
theorem joined_append_cons (front back : List Bytes) (t : Bytes) :
    joined (front ++ t :: back) = (front.map close).flatten ++ joined (t :: back) := by
  induction front with
  | nil => rfl
  | cons u front ih =>
    -- some text follows `u`, if only `t`, so `u` is closed
    obtain ⟨v, later, hv⟩ := List.exists_cons_of_ne_nil (List.append_ne_nil_of_right_ne_nil front
      (List.cons_ne_nil t back))
    rw [List.cons_append, hv, joined_cons_cons, ← hv, ih, List.map_cons, List.flatten_cons,
      List.append_assoc]

/-- The first of some texts is written as it is, and nothing follows it if it is the only one. -/
theorem exists_joined_cons_eq (t : Bytes) (back : List Bytes) :
    ∃ after, joined (t :: back) = t ++ after ∧ (back = [] → after = []) := by
  cases back with
  | nil => exact ⟨[], by rw [joined_singleton, List.append_nil], fun _ => rfl⟩
  | cons u back =>
    refine ⟨(if Bytes.endsLine t then [] else [Bytes.newline]) ++ joined (u :: back), ?_, by simp⟩
    rw [joined_cons_cons, close_eq, List.append_assoc]

theorem ended_flatten_map_close (ts : List Bytes) : Ended (ts.map close).flatten := by
  induction ts with
  | nil => exact .inl rfl
  | cons t ts ih => exact Ended.append (.inr (endsLine_close t)) ih

theorem count_close (t : Bytes) : count (close t) = max 1 (count t) := by
  by_cases ht : t = []
  · subst ht
    rfl
  · have hsome : cut t ≠ [] := by
      intro h
      have hflat := flatten_cut t
      rw [h] at hflat
      exact ht hflat.symm
    have hpos := List.length_pos_iff.mpr hsome
    rw [count, cut_close ht, List.length_map, count, Nat.max_eq_right hpos]

/-- A text that is closed has a line at least, also if there is nothing in it. -/
theorem count_joined (ts : List Bytes) :
    count (joined ts) =
      (ts.dropLast.map fun t => max 1 (count t)).sum + ts.getLast?.elim 0 count := by
  rw [count, cut_joined, List.length_flatMap, mapInit, List.map_append, List.map_map,
    List.sum_append]
  congr 1
  · congr 1
    exact List.map_congr_left fun t _ => count_close t
  · cases ts.getLast? <;> simp [count]

end Line

/-! ## UTF-8 by lines -/

namespace Utf8

theorem valid_append_whole {line : Bytes} (h : Line.Whole line) (bs : Bytes) :
    valid (line ++ bs) = (valid line && valid bs) := by
  obtain ⟨body, -, rfl⟩ := h
  rw [List.append_assoc, List.cons_append, List.nil_append, valid_cut, valid_cut]
  simp

theorem valid_close {bs : Bytes} (h : valid bs = true) : valid (Line.close bs) = true := by
  unfold Line.close
  split
  · exact h
  · rw [valid_append h]
    decide

/-- Bytes are UTF-8 exactly when each of their lines is. -/
theorem valid_iff_forall_mem_cut (bs : Bytes) :
    valid bs = true ↔ ∀ line ∈ Line.cut bs, valid line = true := by
  obtain ⟨lines, rest, hlines, hrest, rfl⟩ := Line.exists_whole bs
  rw [Line.cut_flatten_append hlines]
  induction lines with
  | nil =>
    by_cases hnil : rest = []
    · simp [hnil, Line.cut]
    · simp [Line.cut_of_not_mem hnil hrest]
  | cons line lines ih =>
    have hrec := ih fun l hl => hlines l (List.mem_cons_of_mem _ hl)
    rw [List.flatten_cons, List.append_assoc, valid_append_whole (hlines line List.mem_cons_self),
      Bool.and_eq_true, hrec]
    simp

end Utf8

end LogOrder
