import LogOrder.Proofs.Log.Items

/-!
# Logs that were written before

A run over the output of another finds the same items in the order in which that one left them. When
its policy asks for no more, it finds them in order; when it asks for more, it arranges them as it
arranges those of the log.

* `writes_again`: what is in order is written as it is;
* **`output_sorted_again`**: sorting again changes nothing;
* `writes_append`: what a run over two logs, one after the other, writes;
* **`pieces_sorted_first`**: sorting the pieces of a log first changes nothing.
-/

namespace LogOrder.Log

section Resorted

variable {log as bs : Bytes} {c d : Contents} {p q : Policy}

/-! ## Sorting again -/

/-- The output of a run, written again by a policy that leaves it in order. -/
theorem writes_again (hv : Utf8.valid log = true) (hc : contents (Line.cut log) = .ok c)
    (hle : ∀ (all : List Item) (x y : Item), p.allows all x y = true → q.allows all x y = true)
    (hthread : q.ByThread → p.ByThread) : Writes q (c.output p) (c.output p) := by
  obtain ⟨d, hread, h⟩ := exists_rereads hc p
  have hitems := Policy.pairwise_allows_rearrange (hle (c.entries.map Entry.item)) hthread
  rw [← h.map_item_eq hc] at hitems
  have hsame : d.output q = c.output p := by
    rw [Contents.output, arrange_eq_self hread hitems, h.map_text, Line.joined_mapInit_close,
      h.preamble_eq]
    rfl
  have hwrites := writes_output q (valid_output hv hc p) hread
  rwa [hsame] at hwrites

/-- The output thread by thread, written again thread by thread and by time. -/
theorem writes_threadChrono_again (hv : Utf8.valid log = true) (hend : Line.Ended log)
    (hc : contents (Line.cut log) = .ok c) :
    Writes .threadChrono (c.output .thread) (c.output .threadChrono) := by
  obtain ⟨d, hread, h⟩ := exists_rereads hc .thread
  have halike : ∀ x y, Policy.Alike .threadChrono x y → Policy.Alike .thread x y := by
    intro x y hxy
    refine ⟨?_, fun _ => hxy.2 (.inr rfl)⟩
    rintro (hp | hp) <;> cases hp
  have hagrees : Policy.Agrees .threadChrono (d.entries.map Entry.item)
      (c.entries.map Entry.item) := by
    rw [h.map_item_eq hc]
    exact Policy.agrees_rearrange halike (fun _ => .inl rfl) _
  have hwrites := writes_output .threadChrono (valid_output hv hc .thread) hread
  rwa [output_of_ended (ended_output hend hc .thread) hread, hagrees.rearrange_eq, h.preamble_eq,
    ← output_of_ended hend hc] at hwrites

/-- **Sorting again changes nothing.** What is written in the order of a policy stays as it is in
that order and in the order of the log; what is written thread by thread and by time also stays so
thread by thread. When the log does not stop in the middle of a line, it makes no difference to the
order by thread and time that the threads were put together before. -/
theorem output_sorted_again (hsorts : Sorts p log) :
    ∃ out : Policy → Bytes, (∀ q, Writes q log (out q)) ∧
      (∀ q, Writes q (out q) (out q)) ∧
      (∀ q, Writes .line (out q) (out q)) ∧
      Writes .thread (out .threadChrono) (out .threadChrono) ∧
      (Line.Ended log → Writes .threadChrono (out .thread) (out .threadChrono)) := by
  obtain ⟨c, hc, hv⟩ := hsorts.exists_contents
  refine ⟨fun q => c.output q, fun q => writes_output q hv hc, ?_, ?_, ?_, ?_⟩
  · intro q
    exact writes_again hv hc (fun _ _ _ h => h) fun h => h
  · intro q
    refine writes_again hv hc (fun _ _ _ _ => rfl) ?_
    rintro (h | h) <;> cases h
  · exact writes_again hv hc (fun _ _ _ => Policy.allows_thread_of_threadChrono) fun _ => .inr rfl
  · intro hend
    exact writes_threadChrono_again hv hend hc

/-- Threads that alternate, with stamps that go back, and an entry that names none. -/
theorem output_sorted_again_threads : ∃ (log : Bytes) (out : Policy → Bytes),
    (Line.cut log).length = 5 ∧ Writes .thread log (out .thread) ∧
    Writes .thread (out .threadChrono) (out .threadChrono) ∧
    Writes .threadChrono (out .thread) (out .threadChrono) := by
  have hv : Utf8.valid (Bytes.ofString ("[2024-01-01 00:00:00:005] [thread-1] b\n  at x\n" ++
      "[2024-01-01 00:00:00:003] a\n[2024-01-01 00:00:00:005] [thread-2] c\n" ++
      "[2024-01-01 00:00:00:001] [thread-1] d\n")) = true := by decide
  have hd : ∀ line ∈ Line.cut (Bytes.ofString ("[2024-01-01 00:00:00:005] [thread-1] b\n  at x\n" ++
      "[2024-01-01 00:00:00:003] a\n[2024-01-01 00:00:00:005] [thread-2] c\n" ++
      "[2024-01-01 00:00:00:001] [thread-1] d\n")), Stamp.Dated line := by decide
  obtain ⟨out, hwrites, -, -, hthread, hthreadChrono⟩ :=
    output_sorted_again (sorts_of_sound .chrono (sound_of_valid hv hd))
  exact ⟨_, out, by decide, hwrites .thread, hthread, hthreadChrono (.inr (by decide))⟩

/-! ## Sorting the pieces -/

/-- A run over two logs, one after the other, arranges the items of both. -/
theorem writes_append (hvas : Utf8.valid as = true) (hvbs : Utf8.valid bs = true)
    (hendas : Line.Ended as) (hendbs : Line.Ended bs) (hc : contents (Line.cut as) = .ok c)
    (hd : contents (Line.cut bs) = .ok d) (hplain : d.preamble = []) (p : Policy) :
    Writes p (as ++ bs) (c.preamble.flatten ++ ((p.rearrange
      (c.entries.map Entry.item ++ d.entries.map Entry.item)).map Item.text).flatten) := by
  obtain ⟨e, he, hpreamble, hitems⟩ := exists_contents_append hendas hc hd hplain
  have hv : Utf8.valid (as ++ bs) = true := by rw [Utf8.valid_append hvas, hvbs]
  have hwrites := writes_output p hv he
  rwa [output_of_ended (hendas.append hendbs) he, hpreamble, hitems] at hwrites

theorem preamble_eq_nil (hd : contents (Line.cut bs) = .ok d)
    (hfirst : ∀ line ∈ (Line.cut bs).head?, (Stamp.opening? line).isSome) : d.preamble = [] := by
  obtain ⟨hdated, rfl⟩ := contents_eq_ok_iff.mp hd
  show (Layout.ofLines 0 (Line.cut bs)).preamble = []
  rw [Layout.preamble_ofLines 0 hdated]
  cases hcut : Line.cut bs with
  | nil => rfl
  | cons line rest =>
    rw [hcut] at hfirst
    obtain ⟨w, hw⟩ := Option.isSome_iff_exists.mp (hfirst line rfl)
    exact List.takeWhile_cons_of_neg (by rw [hw]; exact Bool.false_ne_true)

/-- **Sorting the pieces first changes nothing.** Two logs that stop at the end of a line can be
sorted before they are put together, and what is written in the end is the same. The second of them
must start with an entry, if it is not empty. -/
theorem pieces_sorted_first (has : Sorts p as) (hbs : Sorts p bs) (hendas : Line.Ended as)
    (hendbs : Line.Ended bs)
    (hfirst : ∀ line ∈ (Line.cut bs).head?, (Stamp.opening? line).isSome) :
    ∃ a b out, Writes p as a ∧ Writes p bs b ∧ Writes p (as ++ bs) out ∧
      Writes p (a ++ b) out := by
  obtain ⟨c, hc, hvas⟩ := has.exists_contents
  obtain ⟨d, hd, hvbs⟩ := hbs.exists_contents
  obtain ⟨c', hc', hcc'⟩ := exists_rereads hc p
  obtain ⟨d', hd', hdd'⟩ := exists_rereads hd p
  have hplain : d.preamble = [] := preamble_eq_nil hd hfirst
  have hagrees : p.Agrees
      (p.rearrange (c.entries.map Entry.item) ++ p.rearrange (d.entries.map Entry.item))
      (c.entries.map Entry.item ++ d.entries.map Entry.item) :=
    (Policy.agrees_rearrange (fun _ _ h => h) (fun h => h) _).append
      (Policy.agrees_rearrange (fun _ _ h => h) (fun h => h) _)
  have hpieces := writes_append (valid_output hvas hc p) (valid_output hvbs hd p)
    (ended_output hendas hc p) (ended_output hendbs hd p) hc' hd' (hdd'.preamble_eq.trans hplain) p
  rw [hcc'.map_item_eq hc, hdd'.map_item_eq hd, hagrees.rearrange_eq, hcc'.preamble_eq] at hpieces
  exact ⟨c.output p, d.output p, _, writes_output p hvas hc, writes_output p hvbs hd,
    writes_append hvas hvbs hendas hendbs hc hd hplain p, hpieces⟩

/-- A thread that appears in both pieces and one that appears in the second only. -/
theorem pieces_sorted_first_threads : ∃ as bs a b out : Bytes,
    (Line.cut (as ++ bs)).length = 5 ∧ Writes .threadChrono as a ∧ Writes .threadChrono bs b ∧
    Writes .threadChrono (as ++ bs) out ∧ Writes .threadChrono (a ++ b) out := by
  have hvas : Utf8.valid (Bytes.ofString ("started\n[2024-01-01 00:00:00:005] [thread-1] b\n" ++
      "[2024-01-01 00:00:00:003] a\n")) = true := by decide
  have hdas : ∀ line ∈ Line.cut (Bytes.ofString ("started\n" ++
      "[2024-01-01 00:00:00:005] [thread-1] b\n[2024-01-01 00:00:00:003] a\n")),
      Stamp.Dated line := by decide
  have hvbs : Utf8.valid (Bytes.ofString ("[2024-01-01 00:00:00:004] [thread-2] c\n" ++
      "[2024-01-01 00:00:00:001] [thread-1] d\n")) = true := by decide
  have hdbs : ∀ line ∈ Line.cut (Bytes.ofString ("[2024-01-01 00:00:00:004] [thread-2] c\n" ++
      "[2024-01-01 00:00:00:001] [thread-1] d\n")), Stamp.Dated line := by decide
  obtain ⟨a, b, out, ha, hb, hwhole, hpieces⟩ := pieces_sorted_first (p := .threadChrono)
    (sorts_of_sound .threadChrono (sound_of_valid hvas hdas))
    (sorts_of_sound .threadChrono (sound_of_valid hvbs hdbs))
    (.inr (by decide)) (.inr (by decide)) (by decide)
  exact ⟨_, _, a, b, out, by decide, ha, hb, hwhole, hpieces⟩

end Resorted

end LogOrder.Log
