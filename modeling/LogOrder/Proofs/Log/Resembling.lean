import LogOrder.Proofs.Log.FirstLines
import LogOrder.Proofs.Policy.Rearranged
import Mathlib.Data.List.FinRange

/-!
# Logs that look alike to a policy

A policy by time looks at how the stamps of entries compare, and a policy by thread at which entries
belong together. Two logs in which the entries agree in this, place by place, are put in the same
order. Their line numbers may be others, and so may the numbers that stand for their groups: what
matters is only how these compare, and that does not change.

* `Contents.order` is the order in which a log is written, as a list of places;
* `order_eq`: it is a sorted list of places, so only comparisons count;
* `compare_line_eq`, `compare_group_eq`: lines compare as the places do, and groups as the places of
  their first entries;
* **`order_resembling`**: logs that look alike to a policy are put in the same order.
-/

namespace LogOrder.Log

/-- The places of the entries in the log, counted from 0, in the order in which they are written. -/
def Contents.order (c : Contents) (policy : Policy) : List Nat :=
  (arrange policy c.entries).map fun e => c.entries.idxOf e

/-- Two logs look alike to a policy: they have as many entries, and all that the policy asks for is
the same in both, place by place. -/
structure Resembling (policy : Policy) (lines lines' : List Bytes) (c c' : Contents) : Prop where
  length_eq : c.entries.length = c'.entries.length
  /-- A policy by time asks how stamps compare. -/
  compare_stamp : policy = .chrono ∨ policy = .threadChrono → ∀ i j : Fin c.entries.length,
    compare (c.entries.get i).stamp (c.entries.get j).stamp =
      compare (c'.entries.get (i.cast length_eq)).stamp (c'.entries.get (j.cast length_eq)).stamp
  /-- A policy by thread asks which entries name the same thread, or both name none. -/
  threadAt_iff : policy = .thread ∨ policy = .threadChrono → ∀ i j : Fin c.entries.length,
    threadAt lines (c.entries.get i).line = threadAt lines (c.entries.get j).line ↔
      threadAt lines' (c'.entries.get (i.cast length_eq)).line =
        threadAt lines' (c'.entries.get (j.cast length_eq)).line

/-- The order of a log tells which entry stands where. -/
theorem getElem?_order (c : Contents) (policy : Policy) :
    (c.order policy).map (fun i => c.entries[i]?) = (arrange policy c.entries).map some := by
  rw [Contents.order, List.map_map]
  refine List.map_congr_left ?_
  intro e he
  exact List.getElem?_idxOf (mem_arrange.mp he)

/-! ## Places -/

section Places

variable {lines : List Bytes} {c : Contents} {n : Nat} {f : Fin n → Entry}

theorem getElem?_place (hf : (List.finRange n).map f = c.entries) (i : Fin n) :
    c.entries[i.val]? = some (f i) := by
  rw [← hf]
  simp

theorem idxOf_place (hc : contents lines = .ok c) (hf : (List.finRange n).map f = c.entries)
    (i : Fin n) : c.entries.idxOf (f i) = i.val := by
  have hnodup : c.entries.Nodup := by
    refine (pairwise_line_contents hc).imp ?_
    rintro a _ hlt rfl
    exact Nat.lt_irrefl _ hlt
  obtain ⟨hi, hget⟩ := List.getElem?_eq_some_iff.mp (getElem?_place hf i)
  rw [← hget, hnodup.idxOf_getElem]

/-- The order of a log is a sorted list of its places. -/
theorem order_eq (hc : contents lines = .ok c) (hf : (List.finRange n).map f = c.entries)
    (policy : Policy) :
    c.order policy = ((List.finRange n).mergeSort fun i j =>
      (policy.cmp (f i).key (f j).key).isLE).map Fin.val := by
  -- sorting the entries is sorting their places, since only keys are compared
  have harrange : arrange policy c.entries = ((List.finRange n).mergeSort fun i j =>
      (policy.cmp (f i).key (f j).key).isLE).map f := by
    rw [arrange, ← hf]
    exact (List.map_mergeSort (f := f) fun _ _ _ _ => rfl).symm
  rw [Contents.order, harrange, List.map_map]
  exact List.map_congr_left fun i _ => idxOf_place hc hf i

theorem compare_line_eq (hc : contents lines = .ok c) (hf : (List.finRange n).map f = c.entries)
    (i j : Fin n) : compare (f i).line (f j).line = compare i.val j.val := by
  have hi := List.mem_of_getElem? (getElem?_place hf i)
  have hj := List.mem_of_getElem? (getElem?_place hf j)
  rw [← compare_idxOf (pairwise_line_contents hc) hi hj, idxOf_place hc hf, idxOf_place hc hf]

/-- The group of an entry is the line of the first entry of the group. -/
theorem exists_first_place (hc : contents lines = .ok c)
    (hf : (List.finRange n).map f = c.entries) (i : Fin n) :
    ∃ k : Fin n, ((List.finRange n).find? fun k =>
      threadAt lines (f k).line == threadAt lines (f i).line) = some k ∧
      (f i).key.group = (f k).line := by
  have hmem : f i ∈ c.entries := List.mem_of_getElem? (getElem?_place hf i)
  obtain ⟨-, rfl⟩ := contents_eq_ok_iff.mp hc
  have hfirst := firstLine_eq_group hmem
  rw [firstLine, show (Scan.feed {} lines).finish.entries = _ from hf.symm, List.find?_map,
    Option.map_map] at hfirst
  obtain ⟨k, hk, hline⟩ := Option.map_eq_some_iff.mp hfirst
  exact ⟨k, hk, hline.symm⟩

end Places

section Resembling

variable {lines lines' : List Bytes} {c c' : Contents} {n : Nat} {f f' : Fin n → Entry}

/-- Groups compare alike in two logs when the same entries belong together. -/
theorem compare_group_eq (hc : contents lines = .ok c) (hc' : contents lines' = .ok c')
    (hf : (List.finRange n).map f = c.entries) (hf' : (List.finRange n).map f' = c'.entries)
    (hthread : ∀ i j, threadAt lines (f i).line = threadAt lines (f j).line ↔
      threadAt lines' (f' i).line = threadAt lines' (f' j).line) (i j : Fin n) :
    compare (f i).key.group (f j).key.group = compare (f' i).key.group (f' j).key.group := by
  -- the first entry of a group stands at one place in both logs
  have hfirst : ∀ i, ∃ k, (f i).key.group = (f k).line ∧ (f' i).key.group = (f' k).line := by
    intro i
    obtain ⟨k, hk, hgroup⟩ := exists_first_place hc hf i
    obtain ⟨k', hk', hgroup'⟩ := exists_first_place hc' hf' i
    have hsame : ∀ k, (threadAt lines (f k).line == threadAt lines (f i).line) =
        (threadAt lines' (f' k).line == threadAt lines' (f' i).line) := by
      intro k
      rw [Bool.eq_iff_iff, beq_iff_eq, beq_iff_eq]
      exact hthread k i
    simp only [hsame, hk', Option.some.injEq] at hk
    exact ⟨k, hgroup, hk ▸ hgroup'⟩
  obtain ⟨k, hk, hk'⟩ := hfirst i
  obtain ⟨l, hl, hl'⟩ := hfirst j
  rw [hk, hl, hk', hl', compare_line_eq hc hf, compare_line_eq hc' hf']

/-- **The order depends on what the policy names.** Two logs that can be read and look alike to a
policy are put in the same order: entries from the same places are written in the same places. -/
theorem order_resembling {policy : Policy} (hc : contents lines = .ok c)
    (hc' : contents lines' = .ok c') (h : Resembling policy lines lines' c c') :
    c.order policy = c'.order policy ∧
    (c.order policy).map (fun i => c.entries[i]?) = (arrange policy c.entries).map some ∧
    (c'.order policy).map (fun i => c'.entries[i]?) = (arrange policy c'.entries).map some := by
  obtain ⟨hlength, hstamp, hthread⟩ := h
  have hf : (List.finRange c.entries.length).map c.entries.get = c.entries :=
    List.map_get_finRange c.entries
  have hf' : (List.finRange c.entries.length).map (fun i => c'.entries.get (i.cast hlength)) =
      c'.entries := by
    refine List.ext_getElem (by simp [hlength]) ?_
    intro i _ _
    simp
  refine ⟨?_, getElem?_order c policy, getElem?_order c' policy⟩
  rw [order_eq hc hf, order_eq hc' hf']
  congr 2
  funext i j
  congr 1
  refine policy.cmp_congr ?_ (fun hp => hstamp hp i j) ?_
  · exact (compare_line_eq hc hf i j).trans (compare_line_eq hc' hf' i j).symm
  · intro hp
    exact compare_group_eq hc hc' hf hf' (hthread hp) i j

/-- A thread between which an entry without one stands, and the other way round, with other dates on
other lines. -/
theorem order_resembling_apart : ∃ (lines lines' : List Bytes) (c c' : Contents),
    contents lines = .ok c ∧ contents lines' = .ok c' ∧
    c.entries.map Entry.line = [0, 1, 2] ∧ c'.entries.map Entry.line = [1, 3, 4] ∧
    c.entries.map (fun e => threadAt lines e.line) =
      [some (Bytes.ofString "thread-1"), none, some (Bytes.ofString "thread-1")] ∧
    c'.entries.map (fun e => threadAt lines' e.line) =
      [none, some (Bytes.ofString "thread-9"), none] ∧
    c.order .threadChrono = c'.order .threadChrono := by
  obtain ⟨lines, lines', c, c', hc, hc', hlines, hlines', hnames, hnames', h⟩ :
      ∃ (lines lines' : List Bytes) (c c' : Contents),
        contents lines = .ok c ∧ contents lines' = .ok c' ∧
        c.entries.map Entry.line = [0, 1, 2] ∧ c'.entries.map Entry.line = [1, 3, 4] ∧
        c.entries.map (fun e => threadAt lines e.line) =
          [some (Bytes.ofString "thread-1"), none, some (Bytes.ofString "thread-1")] ∧
        c'.entries.map (fun e => threadAt lines' e.line) =
          [none, some (Bytes.ofString "thread-9"), none] ∧
        Resembling .threadChrono lines lines' c c' :=
    ⟨[Bytes.ofString "[2024-01-01 00:00:00:005] [thread-1] b\n",
        Bytes.ofString "[2024-01-01 00:00:00:003] a\n",
        Bytes.ofString "[2024-01-01 00:00:00:001] [thread-1] c"],
      [Bytes.ofString "started\n", Bytes.ofString "[1999-12-31 23:59:59:999] x\n",
        Bytes.ofString "  at y\n", Bytes.ofString "[1999-01-01 00:00:00:000] [thread-9] z\n",
        Bytes.ofString "[1998-01-01 00:00:00:000] w\n"],
      _, _, rfl, rfl, by decide, by decide, by decide, by decide, by decide, by decide, by decide⟩
  exact ⟨lines, lines', c, c', hc, hc', hlines, hlines', hnames, hnames',
    (order_resembling hc hc' h).1⟩

end Resembling

end LogOrder.Log
