import LogOrder.Policy
import LogOrder.Sink

/-!
# Entries in order

Entries are arranged by a stable sort and written one after the other.

* `arrange_perm`: nothing is lost and nothing added.
* `arrange_pairwise`: no entry comes before one that the policy puts earlier.
* `emit` writes the texts. An entry that does not end its last line gets a newline unless it is
  the last, so that the next one starts on a line of its own.
-/

namespace LogOrder.Log

section Arrange

variable {τ : Type} [Ord τ]

/-- The entries in the order of the policy; those that compare equal keep their order. -/
def arrange (policy : Policy) (entries : List (Entry τ)) : List (Entry τ) :=
  entries.mergeSort fun a b => (policy.cmp a.key b.key).isLE

theorem arrange_perm (policy : Policy) (entries : List (Entry τ)) :
    (arrange policy entries).Perm entries :=
  List.mergeSort_perm entries _

theorem mem_arrange {policy : Policy} {entries : List (Entry τ)} {e : Entry τ} :
    e ∈ arrange policy entries ↔ e ∈ entries :=
  (arrange_perm policy entries).mem_iff

theorem arrange_pairwise [Std.TransOrd τ] (policy : Policy) (entries : List (Entry τ)) :
    (arrange policy entries).Pairwise fun a b => (policy.cmp a.key b.key).isLE := by
  apply List.pairwise_mergeSort
  · intro a b c
    exact Std.TransCmp.isLE_trans
  · intro a b
    exact policy.isLE_total a.key b.key

end Arrange

/-- Writes the entries in order, each starting on a line of its own. -/
def emit : List Entry → EStateM IoFault Sink Unit
  | [] => pure ()
  | [entry] => Sink.write entry.text
  | entry :: rest => do
    Sink.write entry.text
    if Bytes.endsLine entry.text then pure () else Sink.write [Bytes.newline]
    emit rest

end LogOrder.Log
