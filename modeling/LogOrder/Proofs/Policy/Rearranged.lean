import LogOrder.Proofs.Policy.TotalOrder

/-!
# Arranging without lines

The numbers of its lines bind an entry to one log. What it is by itself is an *item*: a thread, a
stamp and a text. A list of items is all that a policy needs: threads come in the order in which
they first appear in the list, and items that the policy does not tell apart keep their order.

* `Policy.rearrange` is the stable sort of a list of items;
* `Policy.eq_of_filter_alike_eq`: there is only one such arrangement;
* `Policy.Agrees.rearrange_eq`: a policy arranges alike what looks alike to it;
* `Policy.agrees_rearrange`, `Policy.Agrees.append`: lists that were arranged before, and lists put
  together, look alike to a policy.
-/

namespace LogOrder

/-! ## The order of first appearance -/

section FirstAppearance

variable {α : Type} [BEq α]

theorem eraseDups_sublist : ∀ as : List α, as.eraseDups.Sublist as
  | [] => by rw [List.eraseDups_nil]
  | a :: as => by
    rw [List.eraseDups_cons]
    exact ((eraseDups_sublist (as.filter fun b => !b == a)).trans List.filter_sublist).cons_cons a
termination_by as => as.length
decreasing_by exact Nat.lt_succ_of_le (List.length_filter_le _ _)

variable [LawfulBEq α]

theorem nodup_eraseDups : ∀ as : List α, as.eraseDups.Nodup
  | [] => by
    rw [List.eraseDups_nil]
    exact List.nodup_nil
  | a :: as => by
    rw [List.eraseDups_cons, List.nodup_cons]
    refine ⟨?_, nodup_eraseDups (as.filter fun b => !b == a)⟩
    intro ha
    have hne := (List.mem_filter.mp (List.mem_eraseDups.mp ha)).2
    simp at hne
termination_by as => as.length
decreasing_by exact Nat.lt_succ_of_le (List.length_filter_le _ _)

theorem eraseDups_filter (keep : α → Bool) :
    ∀ as : List α, (as.filter keep).eraseDups = as.eraseDups.filter keep
  | [] => by rw [List.filter_nil, List.eraseDups_nil, List.filter_nil]
  | a :: as => by
    have ih := eraseDups_filter keep (as.filter fun b => !b == a)
    rw [List.eraseDups_cons]
    by_cases ha : keep a = true
    · rw [List.filter_cons_of_pos ha, List.filter_cons_of_pos ha, List.eraseDups_cons, ← ih,
        List.filter_filter, List.filter_filter]
      simp only [Bool.and_comm]
    · -- what is not kept need not be erased
      have hsame : as.filter keep = (as.filter fun b => !b == a).filter keep := by
        rw [List.filter_filter]
        refine List.filter_congr ?_
        intro b _
        by_cases hb : b = a
        · subst hb
          simp [ha]
        · simp [hb]
      rw [List.filter_cons_of_neg ha, List.filter_cons_of_neg ha, hsame, ih]
termination_by as => as.length
decreasing_by exact Nat.lt_succ_of_le (List.length_filter_le _ _)

theorem eraseDups_append_congr {as bs as' bs' : List α} (has : as'.eraseDups = as.eraseDups)
    (hbs : bs'.eraseDups = bs.eraseDups) : (as' ++ bs').eraseDups = (as ++ bs).eraseDups := by
  have hmem : ∀ b, as'.elem b = as.elem b := by
    intro b
    rw [Bool.eq_iff_iff, List.elem_iff, List.elem_iff, ← List.mem_eraseDups, has,
      List.mem_eraseDups]
  rw [List.eraseDups_append, List.eraseDups_append, List.removeAll, List.removeAll,
    eraseDups_filter, eraseDups_filter, has, hbs]
  simp only [hmem]

/-- A list that is sorted by first appearance in another has the order of that one. -/
theorem eraseDups_eq_of_pairwise {as bs : List α} (hmem : ∀ a, a ∈ bs ↔ a ∈ as)
    (h : bs.Pairwise fun a b => as.eraseDups.idxOf a ≤ as.eraseDups.idxOf b) :
    bs.eraseDups = as.eraseDups := by
  have hperm : bs.eraseDups.Perm as.eraseDups := by
    refine (List.perm_ext_iff_of_nodup (nodup_eraseDups bs) (nodup_eraseDups as)).mpr ?_
    intro a
    rw [List.mem_eraseDups, List.mem_eraseDups, hmem]
  have hself : as.eraseDups.Pairwise fun a b => as.eraseDups.idxOf a ≤ as.eraseDups.idxOf b := by
    rw [List.pairwise_iff_getElem]
    intro i j hi hj hij
    rw [(nodup_eraseDups as).idxOf_getElem, (nodup_eraseDups as).idxOf_getElem]
    exact Nat.le_of_lt hij
  refine List.Perm.eq_of_pairwise ?_ (h.sublist (eraseDups_sublist bs)) hself hperm
  intro a b _ hb hab hba
  exact ((List.idxOf_inj hb).mp (Nat.le_antisymm hba hab)).symm

/-- Increasing numbers compare as the places do. -/
theorem compare_idxOf {as : List α} {f : α → Nat} (h : as.Pairwise fun a b => f a < f b) {a b : α}
    (ha : a ∈ as) (hb : b ∈ as) : compare (as.idxOf a) (as.idxOf b) = compare (f a) (f b) := by
  have hlt : ∀ {x y : α}, x ∈ as → y ∈ as → as.idxOf x < as.idxOf y → f x < f y := by
    intro x y hx hy hxy
    have hstep := List.pairwise_iff_getElem.mp h _ _ (List.idxOf_lt_length_iff.mpr hx)
      (List.idxOf_lt_length_iff.mpr hy) hxy
    rwa [List.getElem_idxOf, List.getElem_idxOf] at hstep
  rcases Nat.lt_trichotomy (as.idxOf a) (as.idxOf b) with hab | hab | hab
  · rw [Nat.compare_eq_lt.mpr hab, Nat.compare_eq_lt.mpr (hlt ha hb hab)]
  · obtain rfl := (List.idxOf_inj ha).mp hab
    rw [Nat.compare_eq_eq.mpr rfl, Nat.compare_eq_eq.mpr rfl]
  · rw [Nat.compare_eq_gt.mpr hab, Nat.compare_eq_gt.mpr (hlt hb ha hab)]

end FirstAppearance

/-! ## Items -/

/-- An entry by itself. -/
structure Item where
  /-- The thread that it names. -/
  name : Option Bytes
  /-- Its date. -/
  stamp : Stamp
  /-- Its lines, with a newline at the end. -/
  text : Bytes
deriving DecidableEq

/-- What a policy sees of an item in a list: its date, and the place of its group among those that
appear. All items stand on one line, so lines do not count. -/
def Item.key (all : List Item) (x : Item) : Key :=
  { thread := none
    stamp := x.stamp
    line := 0
    group := (all.map Item.name).eraseDups.idxOf x.name }

namespace Policy

/-- The policy keeps the entries of a thread together. -/
def ByThread (p : Policy) : Prop := p = .thread ∨ p = .threadChrono

/-- The policy lets the one item of the list stand before the other. -/
def allows (p : Policy) (all : List Item) (x y : Item) : Bool :=
  (p.cmp (x.key all) (y.key all)).isLE

/-- The items in the order of the policy. -/
def rearrange (p : Policy) (xs : List Item) : List Item := xs.mergeSort (p.allows xs)

/-- The policy does not tell the two items apart. -/
def Alike (p : Policy) (x y : Item) : Prop :=
  (p = .chrono ∨ p = .threadChrono → x.stamp = y.stamp) ∧ (p.ByThread → x.name = y.name)

instance (p : Policy) : Decidable p.ByThread :=
  inferInstanceAs (Decidable (p = .thread ∨ p = .threadChrono))

instance (p : Policy) (x : Item) : DecidablePred (p.Alike x) := fun y =>
  inferInstanceAs (Decidable ((p = .chrono ∨ p = .threadChrono → x.stamp = y.stamp) ∧
    (p.ByThread → x.name = y.name)))

variable {p q : Policy} {all xs ys xs' ys' : List Item} {x y z : Item}

theorem allows_trans (p : Policy) (all : List Item) (x y z : Item) (hxy : p.allows all x y = true)
    (hyz : p.allows all y z = true) : p.allows all x z = true :=
  Std.TransCmp.isLE_trans hxy hyz

theorem allows_total (p : Policy) (all : List Item) (x y : Item) :
    (p.allows all x y || p.allows all y x) = true :=
  p.isLE_total (x.key all) (y.key all)

theorem Alike.symm (h : p.Alike x y) : p.Alike y x :=
  ⟨fun hp => (h.1 hp).symm, fun hp => (h.2 hp).symm⟩

theorem Alike.trans (hxy : p.Alike x y) (hyz : p.Alike y z) : p.Alike x z :=
  ⟨fun hp => (hxy.1 hp).trans (hyz.1 hp), fun hp => (hxy.2 hp).trans (hyz.2 hp)⟩

theorem Alike.refl (p : Policy) (x : Item) : p.Alike x x := ⟨fun _ => rfl, fun _ => rfl⟩

theorem Alike.cmp_eq (h : p.Alike x y) (all : List Item) :
    p.cmp (x.key all) (y.key all) = .eq := by
  refine (cmp_eq_eq_iff p _ _).mpr ⟨rfl, h.1, ?_⟩
  intro hp
  show (all.map Item.name).eraseDups.idxOf x.name = (all.map Item.name).eraseDups.idxOf y.name
  rw [h.2 hp]

theorem Alike.allows (h : p.Alike x y) (all : List Item) : p.allows all x y = true := by
  rw [Policy.allows, h.cmp_eq all]
  rfl

/-- What may stand in both orders is not told apart. -/
theorem alike_of_allows (hx : x ∈ all) (hxy : p.allows all x y = true)
    (hyx : p.allows all y x = true) : p.Alike x y := by
  have hkeys : p.cmp (x.key all) (y.key all) = .eq := Std.OrientedCmp.isLE_antisymm hxy hyx
  obtain ⟨-, hstamp, hgroup⟩ := (cmp_eq_eq_iff p _ _).mp hkeys
  refine ⟨hstamp, ?_⟩
  intro hp
  exact (List.idxOf_inj (List.mem_eraseDups.mpr (List.mem_map_of_mem hx))).mp (hgroup hp)

/-- Of the list, a policy sees only in which order the threads appear, and not even that if it does
not look at threads. -/
theorem allows_congr (h : p.ByThread → (xs.map Item.name).eraseDups = (ys.map Item.name).eraseDups)
    (x y : Item) : p.allows xs x y = p.allows ys x y := by
  cases p with
  | line => rfl
  | chrono => rfl
  | thread => simp only [allows, Item.key, h (.inl rfl)]
  | threadChrono => simp only [allows, Item.key, h (.inr rfl)]

/-- What stands in order of thread and time stands in order of thread. -/
theorem allows_thread_of_threadChrono (h : Policy.allows .threadChrono all x y = true) :
    Policy.allows .thread all x y = true := by
  have hgroup : (x.key all).group ≤ (y.key all).group := group_le_of_isLE (.inr rfl) h
  rw [allows, cmp_thread]
  exact Ordering.isLE_then_iff_and.mpr ⟨Nat.isLE_compare.mpr hgroup, .inr rfl⟩

/-! ## One arrangement -/

theorem rearrange_perm (p : Policy) (xs : List Item) : (p.rearrange xs).Perm xs :=
  List.mergeSort_perm xs _

theorem mem_rearrange : x ∈ p.rearrange xs ↔ x ∈ xs := (rearrange_perm p xs).mem_iff

theorem pairwise_rearrange (p : Policy) (xs : List Item) :
    (p.rearrange xs).Pairwise fun x y => p.allows xs x y = true :=
  List.pairwise_mergeSort (allows_trans p xs) (allows_total p xs) xs

/-- What a policy does not tell apart keeps its order. -/
theorem filter_rearrange (p : Policy) (xs : List Item) (x : Item) :
    ((p.rearrange xs).filter fun y => p.Alike x y) = xs.filter fun y => p.Alike x y := by
  refine p.filter_mergeSort (Item.key xs) ?_ xs
  intro a b ha hb
  have hxa : p.Alike x a := of_decide_eq_true ha
  have hxb : p.Alike x b := of_decide_eq_true hb
  exact (hxa.symm.trans hxb).allows xs

theorem mem_of_filter_alike_eq
    (h : ∀ x, (xs.filter fun y => p.Alike x y) = ys.filter fun y => p.Alike x y) (hx : x ∈ xs) :
    x ∈ ys := by
  have hself : x ∈ xs.filter fun y => p.Alike x y :=
    List.mem_filter.mpr ⟨hx, decide_eq_true (Alike.refl p x)⟩
  rw [h x] at hself
  exact (List.mem_filter.mp hself).1

/-- There is one arrangement that a policy allows and that keeps what it does not tell apart. -/
theorem eq_of_filter_alike_eq (hmem : ∀ x ∈ xs, x ∈ all)
    (hxs : xs.Pairwise fun x y => p.allows all x y = true)
    (hys : ys.Pairwise fun x y => p.allows all x y = true)
    (h : ∀ x, (xs.filter fun y => p.Alike x y) = ys.filter fun y => p.Alike x y) : xs = ys := by
  induction xs generalizing ys with
  | nil =>
    refine (List.eq_nil_iff_forall_not_mem.mpr ?_).symm
    intro y hy
    exact List.not_mem_nil (mem_of_filter_alike_eq (fun x => (h x).symm) hy)
  | cons x xs ih =>
    have hx : x ∈ ys := mem_of_filter_alike_eq h List.mem_cons_self
    cases ys with
    | nil => exact absurd hx List.not_mem_nil
    | cons y ys =>
      have hy : y ∈ x :: xs := mem_of_filter_alike_eq (fun z => (h z).symm) List.mem_cons_self
      obtain ⟨hbeforex, hlaterx⟩ := List.pairwise_cons.mp hxs
      obtain ⟨hbeforey, hlatery⟩ := List.pairwise_cons.mp hys
      -- each of the two first ones may stand before the other
      have halike : p.Alike x y := by
        rcases List.mem_cons.mp hx with rfl | hx
        · exact Alike.refl p x
        · rcases List.mem_cons.mp hy with rfl | hy
          · exact Alike.refl p y
          · exact alike_of_allows (hmem x List.mem_cons_self) (hbeforex y hy) (hbeforey x hx)
      have hfirst := h x
      rw [List.filter_cons, if_pos (decide_eq_true (Alike.refl p x)), List.filter_cons,
        if_pos (decide_eq_true halike)] at hfirst
      obtain ⟨rfl, -⟩ := List.cons.inj hfirst
      congr 1
      refine ih (fun z hz => hmem z (List.mem_cons_of_mem _ hz)) hlaterx hlatery ?_
      intro z
      have hz := h z
      by_cases hzx : p.Alike z x
      · rw [List.filter_cons, if_pos (decide_eq_true hzx), List.filter_cons,
          if_pos (decide_eq_true hzx)] at hz
        exact (List.cons.inj hz).2
      · have hnot : ¬decide (p.Alike z x) = true := fun hd => hzx (of_decide_eq_true hd)
        rwa [List.filter_cons, if_neg hnot, List.filter_cons, if_neg hnot] at hz

/-! ## What looks alike to a policy -/

/-- The policy finds the same in both lists: items that it does not tell apart come in one order,
and so do the threads, if it looks at them. -/
structure Agrees (p : Policy) (xs ys : List Item) : Prop where
  filter_alike_eq : ∀ x, (xs.filter fun y => p.Alike x y) = ys.filter fun y => p.Alike x y
  eraseDups_eq : p.ByThread → (xs.map Item.name).eraseDups = (ys.map Item.name).eraseDups

/-- What looks alike to a policy is arranged alike. -/
theorem Agrees.rearrange_eq (h : p.Agrees xs ys) : p.rearrange xs = p.rearrange ys := by
  have hxs := pairwise_rearrange p xs
  simp only [allows_congr h.eraseDups_eq] at hxs
  refine eq_of_filter_alike_eq ?_ hxs (pairwise_rearrange p ys) ?_
  · intro x hx
    exact mem_of_filter_alike_eq h.filter_alike_eq (mem_rearrange.mp hx)
  · intro x
    rw [filter_rearrange, filter_rearrange, h.filter_alike_eq x]

theorem Agrees.append (hxs : p.Agrees xs' xs) (hys : p.Agrees ys' ys) :
    p.Agrees (xs' ++ ys') (xs ++ ys) := by
  refine ⟨?_, ?_⟩
  · intro x
    rw [List.filter_append, List.filter_append, hxs.filter_alike_eq x, hys.filter_alike_eq x]
  · intro hp
    rw [List.map_append, List.map_append]
    exact eraseDups_append_congr (hxs.eraseDups_eq hp) (hys.eraseDups_eq hp)

/-- A policy by thread keeps the order in which the threads appear. -/
theorem eraseDups_rearrange (hp : p.ByThread) (xs : List Item) :
    ((p.rearrange xs).map Item.name).eraseDups = (xs.map Item.name).eraseDups := by
  refine eraseDups_eq_of_pairwise (fun _ => ((rearrange_perm p xs).map Item.name).mem_iff) ?_
  rw [List.pairwise_map]
  refine (pairwise_rearrange p xs).imp ?_
  intro x y hle
  exact group_le_of_isLE hp hle

/-- Arranging items by one policy makes no difference to another that tells apart as much. -/
theorem agrees_rearrange (halike : ∀ x y, q.Alike x y → p.Alike x y)
    (hthread : q.ByThread → p.ByThread) (xs : List Item) : q.Agrees (p.rearrange xs) xs := by
  refine ⟨?_, fun hq => eraseDups_rearrange (hthread hq) xs⟩
  intro x
  have hkeep : ∀ zs : List Item, (zs.filter fun y => q.Alike x y) =
      (zs.filter fun y => p.Alike x y).filter fun y => q.Alike x y := by
    intro zs
    rw [List.filter_filter]
    refine List.filter_congr ?_
    intro y _
    by_cases hxy : q.Alike x y
    · simp [hxy, halike x y hxy]
    · simp [hxy]
  rw [hkeep, filter_rearrange, ← hkeep]

/-- Arranged items are in order for every policy that asks for less. -/
theorem pairwise_allows_rearrange (hle : ∀ x y, p.allows xs x y = true → q.allows xs x y = true)
    (hthread : q.ByThread → p.ByThread) :
    (p.rearrange xs).Pairwise fun x y => q.allows (p.rearrange xs) x y = true := by
  have hsame := allows_congr (p := q) fun hq => eraseDups_rearrange (hthread hq) xs
  simp only [hsame]
  exact (pairwise_rearrange p xs).imp fun {x y} => hle x y

end Policy

end LogOrder
