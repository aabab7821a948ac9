import LogOrder.Proofs.Log.Arrangements
import LogOrder.Proofs.Log.Lossless

/-!
# Groups in the output

The policies by thread keep each group together and put the groups in the order in which they
appear in the log. Inside a group they do what the policy does that knows no groups.

* `group_eq_rank`: the key of an entry tells where its group stands among the others;
* **`thread_cohesion`**: groups are pieces of the output, in the order of their first entries;
* `filter_arrange_ungrouped`: what a policy by thread does with one group;
* **`group_agreement`**: policies agree on each group, and on a log of one group altogether.
-/

namespace LogOrder

/-- The thread that an entry names: that of the rightmost marker in its first line. -/
def Entry.name? (e : Entry) : Option Bytes := Thread.rightmost? ((Line.cut e.text).headD [])

namespace Policy

/-- The policy without the threads. -/
def ungrouped : Policy → Policy
  | .thread => .line
  | .threadChrono => .chrono
  | p => p

theorem cmp_ungrouped {x y : Key} (h : x.group = y.group) (p : Policy) :
    p.ungrouped.cmp x y = p.cmp x y := by
  cases p
  · rfl
  · rfl
  · exact (if_pos h).symm
  · exact (if_pos h).symm

end Policy

namespace Log

/-- What a run over a log of these contents writes. -/
def Contents.output (policy : Policy) (c : Contents) : Bytes :=
  c.preamble.flatten ++ Line.joined ((arrange policy c.entries).map Entry.text)

section Groups

variable {log : Bytes} {c : Contents}

theorem writes_output (policy : Policy) (hv : Utf8.valid log = true)
    (hc : contents (Line.cut log) = .ok c) : Writes policy log (c.output policy) := by
  obtain ⟨hd, rfl⟩ := contents_eq_ok_iff.mp hc
  have hwrites := writes_of_sound policy (sound_of_valid hv hd)
  rw [← entries_finish_feed] at hwrites
  exact hwrites

theorem name?_entry (hd : ∀ line ∈ Line.cut log, Stamp.Dated line) {b : Block}
    (hb : b ∈ (Layout.ofLines 0 (Line.cut log)).blocks) (first : Option Bytes → Option Nat) :
    (b.entry first).name? = b.name? := by
  rw [Entry.name?, Block.text_entry, Layout.cut_text hd hb]
  rfl

theorem map_name?_entries (hd : ∀ line ∈ Line.cut log, Stamp.Dated line) :
    (Layout.ofLines 0 (Line.cut log)).entries.map Entry.name? =
      (Layout.ofLines 0 (Line.cut log)).blocks.map Block.name? := by
  rw [Layout.entries, List.map_map]
  exact List.map_congr_left fun b hb => name?_entry hd hb _

/-- The key of an entry tells where its group stands among the others. -/
theorem group_eq_rank (hd : ∀ line ∈ Line.cut log, Stamp.Dated line) {e : Entry}
    (he : e ∈ (Layout.ofLines 0 (Line.cut log)).entries) :
    e.key.group = rank (Layout.ofLines 0 (Line.cut log)).blocks e.name? := by
  obtain ⟨b, hb, rfl⟩ := List.mem_map.mp he
  obtain ⟨first, hfirst⟩ := exists_firstIn hb
  rw [name?_entry hd hb, Block.group_entry, rank, hfirst]
  rfl

/-- Entries have one group in their keys exactly when they name one thread, or both name none. -/
theorem group_eq_iff_name? (hc : contents (Line.cut log) = .ok c) {a b : Entry}
    (ha : a ∈ c.entries) (hb : b ∈ c.entries) : a.key.group = b.key.group ↔ a.name? = b.name? := by
  obtain ⟨hd, rfl⟩ := contents_eq_ok_iff.mp hc
  rw [entries_finish_feed] at ha hb
  obtain ⟨x, hx, rfl⟩ := List.mem_map.mp ha
  obtain ⟨y, hy, rfl⟩ := List.mem_map.mp hb
  rw [name?_entry hd hx, name?_entry hd hy]
  exact Block.group_entry_eq_iff (Layout.pairwise_line 0 (Line.cut log)) hx hy

/-- **Threads stay together.** Under the policies by thread, the entries of each group are one
piece of what is written, and the pieces stand in the order in which the groups appear in the log;
the entries without a thread are a group as any other. -/
theorem thread_cohesion (hc : contents (Line.cut log) = .ok c) {policy : Policy}
    (hp : policy = .thread ∨ policy = .threadChrono) :
    (Utf8.valid log = true → Writes policy log (c.output policy)) ∧
    (arrange policy c.entries).Perm c.entries ∧
    arrange policy c.entries = (c.entries.map Entry.name?).eraseDups.flatMap fun group =>
      (arrange policy c.entries).filter fun e => e.name? = group := by
  refine ⟨fun hv => writes_output policy hv hc, arrange_perm policy c.entries, ?_⟩
  obtain ⟨hd, rfl⟩ := contents_eq_ok_iff.mp hc
  rw [entries_finish_feed]
  have hgroups := pairwise_rank (Layout.pairwise_line 0 (Line.cut log))
  rw [← map_name?_entries hd] at hgroups
  have hsorted : (arrange policy (Layout.ofLines 0 (Line.cut log)).entries).Pairwise fun a b =>
      rank (Layout.ofLines 0 (Line.cut log)).blocks a.name? ≤
        rank (Layout.ofLines 0 (Line.cut log)).blocks b.name? := by
    refine (arrange_pairwise policy _).imp_of_mem ?_
    intro a b ha hb hle
    rw [← group_eq_rank hd (mem_arrange.mp ha), ← group_eq_rank hd (mem_arrange.mp hb)]
    exact Policy.group_le_of_isLE hp hle
  refine (flatMap_filter_eq hgroups hsorted ?_).symm
  intro e he
  exact List.mem_eraseDups.mpr (List.mem_map_of_mem (mem_arrange.mp he))

/-- An entry without a thread stands between two of one thread, and is written after both. -/
theorem thread_cohesion_apart : ∃ (log : Bytes) (c : Contents),
    contents (Line.cut log) = .ok c ∧
    c.entries.map Entry.name? =
      [some (Bytes.ofString "thread-1"), none, some (Bytes.ofString "thread-1")] ∧
    Writes .thread log (c.output .thread) ∧
    arrange .thread c.entries = [some (Bytes.ofString "thread-1"), none].flatMap fun group =>
      (arrange .thread c.entries).filter fun e => e.name? = group := by
  obtain ⟨c, hc, hnames⟩ : ∃ c, contents (Line.cut (Bytes.ofString ("[2024-01-01 00:00:00:005] " ++
      "[thread-1] b\n[2024-01-01 00:00:00:001] a\n[2024-01-01 00:00:00:002] [thread-1] c\n"))) =
        .ok c ∧ c.entries.map Entry.name? =
          [some (Bytes.ofString "thread-1"), none, some (Bytes.ofString "thread-1")] :=
    ⟨_, rfl, by decide⟩
  obtain ⟨hwrites, -, heq⟩ := thread_cohesion hc (.inl rfl)
  have hgroups : (c.entries.map Entry.name?).eraseDups =
      [some (Bytes.ofString "thread-1"), none] := by
    rw [hnames]
    decide
  exact ⟨_, c, hc, hnames, hwrites (by decide), hgroups ▸ heq⟩

/-! ## Policies that agree -/

/-- Inside a group, a policy does what it does without the threads. -/
theorem filter_arrange_ungrouped (hc : contents (Line.cut log) = .ok c) (policy : Policy)
    (group : Option Bytes) :
    ((arrange policy c.entries).filter fun e => e.name? = group) =
      (arrange policy.ungrouped c.entries).filter fun e => e.name? = group := by
  refine filter_arrange_congr hc ?_
  intro a ha b hb hkeepa hkeepb
  have hname : a.name? = b.name? :=
    (of_decide_eq_true hkeepa).trans (of_decide_eq_true hkeepb).symm
  exact (Policy.cmp_ungrouped ((group_eq_iff_name? hc ha hb).mpr hname) policy).symm

/-- In a log of one group, a policy does what it does without the threads. -/
theorem arrange_ungrouped (hc : contents (Line.cut log) = .ok c)
    (hone : ∀ a ∈ c.entries, ∀ b ∈ c.entries, a.name? = b.name?) (policy : Policy) :
    arrange policy c.entries = arrange policy.ungrouped c.entries := by
  cases hentries : c.entries with
  | nil => simp [arrange]
  | cons first later =>
    rw [← hentries]
    have hall : ∀ r : Policy,
        ((arrange r c.entries).filter fun e => e.name? = first.name?) = arrange r c.entries := by
      intro r
      refine List.filter_eq_self.mpr ?_
      intro e he
      have hfirst : first ∈ c.entries := by
        rw [hentries]
        exact List.mem_cons_self
      exact decide_eq_true (hone e (mem_arrange.mp he) first hfirst)
    rw [← hall policy, filter_arrange_ungrouped hc, hall]

/-- **Policies agree on each group.** Under a policy by thread, the entries of a group come in the
order in which they come without the threads. So a log of a single group is written in the same
way with the threads and without, to every sink and with every failure. -/
theorem group_agreement (hc : contents (Line.cut log) = .ok c) :
    (Utf8.valid log = true → ∀ policy : Policy, Writes policy log (c.output policy)) ∧
    (∀ group : Option Bytes,
      ((arrange .thread c.entries).filter fun e => e.name? = group) =
        ((arrange .line c.entries).filter fun e => e.name? = group) ∧
      ((arrange .threadChrono c.entries).filter fun e => e.name? = group) =
        ((arrange .chrono c.entries).filter fun e => e.name? = group)) ∧
    ((∀ a ∈ c.entries, ∀ b ∈ c.entries, a.name? = b.name?) →
      ∀ (names : Names) (source : Source), source.pieces.flatten = log →
        reorder names .thread source = reorder names .line source ∧
        reorder names .threadChrono source = reorder names .chrono source) := by
  refine ⟨fun hv policy => writes_output policy hv hc, ?_, ?_⟩
  · intro group
    exact ⟨filter_arrange_ungrouped hc .thread group,
      filter_arrange_ungrouped hc .threadChrono group⟩
  · intro hone names source hsource
    have hthread := arrange_ungrouped hc hone .thread
    have hthreadChrono := arrange_ungrouped hc hone .threadChrono
    obtain ⟨-, rfl⟩ := contents_eq_ok_iff.mp hc
    exact ⟨reorder_congr names hsource hthread, reorder_congr names hsource hthreadChrono⟩

/-- Two entries without a thread. -/
theorem group_agreement_unmarked : ∃ source : Source, source.delivery.lines.length = 2 ∧
    ∀ names : Names, reorder names .thread source = reorder names .line source ∧
      reorder names .threadChrono source = reorder names .chrono source := by
  obtain ⟨c, hc, hnames⟩ : ∃ c, contents (Line.cut (Bytes.ofString
      "[2024-01-01 00:00:00:005] b\n[2024-01-01 00:00:00:001] a")) = .ok c ∧
        ∀ a ∈ c.entries, ∀ b ∈ c.entries, a.name? = b.name? := ⟨_, rfl, by decide⟩
  obtain ⟨-, -, hone⟩ := group_agreement hc
  exact ⟨.ofBytes _, by decide, fun names => hone hnames names (.ofBytes _) (List.append_nil _)⟩

end Groups

end Log

end LogOrder
