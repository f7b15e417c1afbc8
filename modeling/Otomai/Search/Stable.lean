import Mathlib.Data.List.Sort

/-!
# Stable sorting

Insertion sort keeps the order of the entries that it does not tell apart.

* `pairwise_insertionSort`: what holds between entries in order holds between equal ones of the sorted list.
* `insertionSort_eq`: where entries that are not told apart either way are equal, any order leads to one sorted list.
-/

namespace Search

variable {α : Type} (r s : α → α → Prop)

/-- The first entry comes first, and if the order does not tell, then by another relation. -/
def Before (a b : α) : Prop := r a b ∧ (r b a → s a b)

variable {r s} [DecidableRel r] [Std.Total r] [IsTrans α r] {a : α} {l l' : List α}

theorem pairwise_orderedInsert (hl : l.Pairwise (Before r s)) (ha : ∀ b ∈ l, s a b) :
    (l.orderedInsert r a).Pairwise (Before r s) := by
  induction l with
  | nil => exact List.pairwise_singleton _ a
  | cons b l ih =>
    obtain ⟨hb, hl'⟩ := List.pairwise_cons.1 hl
    by_cases hab : r a b
    · rw [List.orderedInsert_cons_of_le _ _ hab]
      refine List.pairwise_cons.2 ⟨fun c hc => ⟨?_, fun _ => ha c hc⟩, hl⟩
      rcases List.mem_cons.1 hc with rfl | hc
      · exact hab
      · exact IsTrans.trans a b c hab (hb c hc).1
    · rw [List.orderedInsert_of_not_le _ _ hab]
      refine List.pairwise_cons.2 ⟨fun c hc => ?_, ih hl' fun c hc => ha c (List.mem_cons_of_mem b hc)⟩
      rcases (List.mem_orderedInsert r).1 hc with rfl | hc
      · exact ⟨(Std.Total.total b c).resolve_right hab, fun h => absurd h hab⟩
      · exact hb c hc

theorem pairwise_insertionSort (hl : l.Pairwise s) : (l.insertionSort r).Pairwise (Before r s) := by
  induction l with
  | nil => exact List.Pairwise.nil
  | cons a l ih =>
    obtain ⟨ha, hl⟩ := List.pairwise_cons.1 hl
    exact pairwise_orderedInsert (ih hl) fun b hb => ha b ((List.mem_insertionSort r).1 hb)

theorem insertionSort_eq (hl : l.Pairwise s) (hl' : l'.Pairwise s) (h : l.Perm l')
    (heq : ∀ a ∈ l, ∀ b ∈ l, r a b → r b a → s a b → s b a → a = b) : l.insertionSort r = l'.insertionSort r := by
  have hperm : (l.insertionSort r).Perm (l'.insertionSort r) :=
    (List.perm_insertionSort r l).trans (h.trans (List.perm_insertionSort r l').symm)
  refine hperm.eq_of_pairwise ?_ (pairwise_insertionSort hl) (pairwise_insertionSort hl')
  intro a b ha hb hab hba
  have ha : a ∈ l := (List.mem_insertionSort r).1 ha
  have hb : b ∈ l := h.mem_iff.2 ((List.mem_insertionSort r).1 hb)
  exact heq a ha b hb hab.1 hba.1 (hab.2 hba.1) (hba.2 hab.1)

end Search
