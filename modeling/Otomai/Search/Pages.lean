import Mathlib.Data.List.Basic

/-!
# Pages of a list

A list is cut into pages of the same length, but for the last one.

* `pageCount_le_iff`: how many pages are needed.
* `flatMap_pageOf`: one after the other they make the list.
-/

namespace Search

variable {α : Type}

/-- The page with some pages before it. -/
def pageOf (length : Nat) (l : List α) (before : Nat) : List α := (l.drop (before * length)).take length

/-- The number of pages of `n` items. -/
def pageCount (length n : Nat) : Nat := (n + length - 1) / length

variable {length n m : Nat} {l : List α}

/-- The pages are as few as can hold the items. -/
theorem pageCount_le_iff (hlength : 0 < length) : pageCount length n ≤ m ↔ n ≤ m * length := by
  have hmul : (m + 1) * length = m * length + length := Nat.succ_mul m length
  rw [pageCount, ← Nat.lt_succ_iff, Nat.div_lt_iff_lt_mul hlength, Nat.succ_eq_add_one, hmul]
  omega

/-- The first pages are the beginning of the list. -/
theorem flatMap_pageOf_range (length : Nat) (l : List α) (m : Nat) :
    (List.range m).flatMap (pageOf length l) = l.take (m * length) := by
  induction m with
  | zero => simp
  | succ m ih =>
    rw [List.range_succ, List.flatMap_append, ih, List.flatMap_singleton, pageOf, Nat.succ_mul, List.take_add]

theorem flatMap_pageOf (hlength : 0 < length) (l : List α) :
    (List.range (pageCount length l.length)).flatMap (pageOf length l) = l := by
  rw [flatMap_pageOf_range]
  exact List.take_of_length_le ((pageCount_le_iff hlength).1 (Nat.le_refl _))

/-- There is nothing behind the last page. -/
theorem pageOf_eq_nil (hlength : 0 < length) (h : pageCount length l.length ≤ m) : pageOf length l m = [] := by
  rw [pageOf, List.drop_eq_nil_of_le ((pageCount_le_iff hlength).1 h), List.take_nil]

/-- The items before a page are fewer than those of the list. -/
theorem mul_lt_of_lt_pageCount (hlength : 0 < length) (h : m < pageCount length n) : m * length < n := by
  by_contra hle
  exact absurd ((pageCount_le_iff hlength).2 (Nat.le_of_not_lt hle)) (Nat.not_le_of_lt h)

end Search
