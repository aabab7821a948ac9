import LogOrder.Toml.Document
import Mathlib.Data.List.Nodup

/-!
# Keys of a document

A statement of a document changes one key of it or adds one that was not there. So no key of a
document stands twice, whatever its statements are.

* `Entries.Distinct.changeAt`: changing something at the end of a path keeps keys distinct;
* `Draft.distinct_add`: so does a statement;
* `distinct_document?`: no key of a document stands twice.
-/

namespace LogOrder.Toml

namespace Entries

/-- No key stands twice. -/
def Distinct (entries : Entries) : Prop := (entries.map fun e => e.1.name).Nodup

section Distinct

variable {entries other : Entries} {key : Key} {span : Span} {value : Value} {path : List Key}

theorem ne_of_find?_eq_none {name : Bytes} (h : entries.find? name = none) :
    ∀ e ∈ entries, e.1.name ≠ name := by
  intro e he
  have hnot := List.find?_eq_none.mp h e he
  simpa using hnot

/-- A key that is not there can be added. -/
theorem Distinct.concat (h : entries.Distinct) (hnew : entries.find? key.name = none) :
    (entries ++ [(key, span, value)]).Distinct := by
  rw [Distinct, List.map_append, List.nodup_append']
  refine ⟨h, List.nodup_singleton _, ?_⟩
  intro name hname hlast
  obtain ⟨e, he, rfl⟩ := List.mem_map.mp hname
  exact ne_of_find?_eq_none hnew e he (List.mem_singleton.mp hlast)

theorem map_name_replace (entries : Entries) (name : Bytes) (value : Value) :
    (entries.replace name value).map (fun e => e.1.name) = entries.map fun e => e.1.name := by
  rw [replace, List.map_map]
  refine List.map_congr_left ?_
  intro e _
  rw [Function.comp_apply]
  split <;> rfl

theorem Distinct.replace (h : entries.Distinct) (name : Bytes) (value : Value) :
    (entries.replace name value).Distinct := by
  rw [Distinct, map_name_replace]
  exact h

theorem Distinct.erase (h : entries.Distinct) (name : Bytes) : (entries.erase name).Distinct :=
  h.sublist (List.filter_sublist.map _)

theorem find?_erase (entries : Entries) (name : Bytes) :
    (entries.erase name).find? name = none := by
  rw [find?, List.find?_eq_none]
  intro e he
  have hkept := (List.mem_filter.mp he).2
  simpa using hkept

theorem Distinct.insertNew (h : entries.Distinct)
    (hinsert : entries.insertNew key span value = some other) : other.Distinct := by
  unfold Entries.insertNew at hinsert
  split at hinsert
  · next hnew =>
    cases hinsert
    exact h.concat hnew
  · cases hinsert

/-- What is changed at the end of a path is a value here, unless the path ends here. -/
theorem Distinct.changeAt {dotted : Bool} {change : Origin → Entries → Option Entries}
    {origin : Origin}
    (hchange : ∀ {origin entries other}, Distinct entries → change origin entries = some other →
      other.Distinct)
    (h : entries.Distinct) (hat : changeAt dotted change origin path entries = some other) :
    other.Distinct := by
  unfold Entries.changeAt at hat
  split at hat
  · exact hchange h hat
  · split at hat
    · next hnew =>
      obtain ⟨inner, -, hadd⟩ := Option.bind_eq_some_iff.mp hat
      cases hadd
      exact h.concat hnew
    · split at hat
      · cases hat
      · obtain ⟨inner, -, hput⟩ := Option.bind_eq_some_iff.mp hat
        cases hput
        exact h.replace _ _
    · split at hat
      · obtain ⟨inner, -, hput⟩ := Option.bind_eq_some_iff.mp hat
        cases hput
        exact h.replace _ _
      · cases hat
    · cases hat

theorem Distinct.assign (h : entries.Distinct)
    (hassign : entries.assign path key span value = some other) : other.Distinct := by
  refine h.changeAt ?_ hassign
  intro origin inner after hinner hchange
  split at hchange
  · cases hchange
  · exact hinner.insertNew hchange

theorem Distinct.openTable (h : entries.Distinct)
    (hopen : entries.openTable path key span = some other) : other.Distinct := by
  refine h.changeAt ?_ hopen
  intro origin inner after hinner hchange
  split at hchange
  · next hnew =>
    cases hchange
    exact hinner.concat hnew
  · cases hchange
    exact (hinner.erase _).concat (find?_erase _ _)
  · cases hchange

theorem Distinct.openItem (h : entries.Distinct)
    (hopen : entries.openItem path key span = some other) : other.Distinct := by
  refine h.changeAt ?_ hopen
  intro origin inner after hinner hchange
  split at hchange
  · next hnew =>
    cases hchange
    exact hinner.concat hnew
  · cases hchange
    exact hinner.replace _ _
  · cases hchange

end Distinct

end Entries

open Entries

/-- A statement keeps the keys of the document distinct. -/
theorem Draft.distinct_add {d d' : Draft} {s : Statement} (h : d.root.Distinct)
    (hadd : d.add s = some d') : d'.root.Distinct := by
  cases s with
  | header ofArray path key span =>
    cases ofArray with
    | false =>
      obtain ⟨root, hopen, hd⟩ := Option.bind_eq_some_iff.mp hadd
      cases hd
      exact h.openTable hopen
    | true =>
      obtain ⟨root, hopen, hd⟩ := Option.bind_eq_some_iff.mp hadd
      cases hd
      exact h.openItem hopen
  | assign path key span value =>
    obtain ⟨root, hchange, hd⟩ := Option.bind_eq_some_iff.mp hadd
    cases hd
    exact h.changeAt (fun hinner hassign => hinner.assign hassign) hchange

theorem Draft.distinct_foldlM {d d' : Draft} {all : List Statement} (h : d.root.Distinct)
    (hall : all.foldlM Draft.add d = some d') : d'.root.Distinct := by
  induction all generalizing d with
  | nil =>
    cases hall
    exact h
  | cons s rest ih =>
    rw [List.foldlM_cons] at hall
    obtain ⟨next, hadd, hrest⟩ := Option.bind_eq_some_iff.mp hall
    exact ih (distinct_add h hadd) hrest

/-- No key of a document stands twice. -/
theorem distinct_document? {source : Bytes} {entries : Entries}
    (h : document? source = some entries) : entries.Distinct := by
  obtain ⟨⟨all, rest⟩, -, hall⟩ := Option.bind_eq_some_iff.mp h
  obtain ⟨draft, hdraft, hroot⟩ := Option.bind_eq_some_iff.mp hall
  cases hroot
  have hnone : Distinct [] := List.nodup_nil
  exact Draft.distinct_foldlM hnone hdraft

end LogOrder.Toml
