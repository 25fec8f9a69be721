import Mathlib.Data.List.Basic

/-!
# Entries — the last one of a key

Fields, members and rules come as lists of entries, and of several entries with one key the last
counts.  `List.lookup` finds the first one, so it is the lookup in the reversed list that gives what
counts: an entry at the end goes before all others (`lookup_reverse_concat`), and what is found is an
entry behind which the key does not come up again (`lookup_reverse_eq_some_iff`).
-/

namespace SqlTree

variable {α β : Type} [DecidableEq α]

theorem lookup_cons_eq (key : α) (e : α × β) (es : List (α × β)) :
    (e :: es).lookup key = if key = e.1 then some e.2 else es.lookup key := by
  rw [List.lookup_cons]
  split
  · next h => rw [if_pos (beq_iff_eq.1 h)]
  · next h => rw [if_neg (beq_eq_false_iff_ne.1 h)]

theorem lookup_reverse_concat (es : List (α × β)) (e : α × β) (key : α) :
    (es ++ [e]).reverse.lookup key = if key = e.1 then some e.2 else es.reverse.lookup key := by
  rw [List.reverse_concat, lookup_cons_eq]

theorem lookup_reverse_eq_some_iff {es : List (α × β)} {key : α} {value : β} :
    es.reverse.lookup key = some value ↔
      ∃ before after, es = before ++ (key, value) :: after ∧ ∀ e ∈ after, e.1 ≠ key := by
  have hreverse (before after : List (α × β)) : (before ++ (key, value) :: after).reverse =
      after.reverse ++ (key, value) :: before.reverse := by
    rw [List.reverse_append, List.reverse_cons, List.append_assoc, List.singleton_append]
  rw [List.lookup_eq_some_iff]
  constructor
  · rintro ⟨after, before, heq, hafter⟩
    refine ⟨before.reverse, after.reverse, ?_, fun e he => ?_⟩
    · rw [← List.reverse_inj, heq, hreverse, List.reverse_reverse, List.reverse_reverse]
    · exact (bne_iff_ne.1 (hafter e (List.mem_reverse.1 he))).symm
  · rintro ⟨before, after, rfl, hafter⟩
    refine ⟨after.reverse, before.reverse, hreverse before after, fun e he => ?_⟩
    exact bne_iff_ne.2 (hafter e (List.mem_reverse.1 he)).symm

end SqlTree
