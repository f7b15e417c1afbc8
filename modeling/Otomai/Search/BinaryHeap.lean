import Mathlib.Data.List.Basic
import Mathlib.Data.List.Perm.Basic

/-!
# Binary heaps

A priority queue in a list: the parent of the element at `i` is the one at `(i - 1) / 2`, and is at least as great.
`push` and `pop` move elements as `std::collections::BinaryHeap` does, so that they also agree with it on which of
several greatest elements is popped.

* `push_perm`, `isHeap_push`: `push` adds an element and keeps the order.
* `pop_perm`, `isHeap_pop`: `pop` takes an element out and keeps the order.
* `le_of_pop`: what is popped is greatest.
-/

namespace Search

variable {α : Type}

/-! ### Swapping two elements -/

def swap (l : List α) (i j : Nat) : List α :=
  match l[i]?, l[j]? with
  | some x, some y => (l.set i y).set j x
  | _, _ => l

section

variable {l : List α} {i j : Nat}

theorem swap_eq (hi : i < l.length) (hj : j < l.length) : swap l i j = (l.set i l[j]).set j l[i] := by
  rw [swap, List.getElem?_eq_getElem hi, List.getElem?_eq_getElem hj]

theorem swap_perm (hi : i < l.length) (hj : j < l.length) : List.Perm (swap l i j) l := by
  rw [swap_eq hi hj]
  exact List.set_set_perm hi hj

theorem getElem?_swap_left (hi : i < l.length) (hj : j < l.length) (hij : i ≠ j) : (swap l i j)[i]? = l[j]? := by
  rw [swap_eq hi hj, List.getElem?_set_ne hij.symm, List.getElem?_set_self hi, List.getElem?_eq_getElem hj]

theorem getElem?_swap_right (hi : i < l.length) (hj : j < l.length) : (swap l i j)[j]? = l[i]? := by
  rw [swap_eq hi hj, List.getElem?_set_self (by rwa [List.length_set]), List.getElem?_eq_getElem hi]

theorem getElem?_swap_of_ne (hi : i < l.length) (hj : j < l.length) {k : Nat} (hki : k ≠ i) (hkj : k ≠ j) :
    (swap l i j)[k]? = l[k]? := by
  rw [swap_eq hi hj, List.getElem?_set_ne hkj.symm, List.getElem?_set_ne hki.symm]

end

/-! ### The queue -/

section

variable (le : α → α → Prop) [DecidableRel le]

/-- The element at `i` is at most the one at `j`, if both are there. -/
def AtMost (l : List α) (i j : Nat) : Prop := ∀ x ∈ l[i]?, ∀ y ∈ l[j]?, le x y

instance (l : List α) (i j : Nat) : Decidable (AtMost le l i j) :=
  inferInstanceAs (Decidable (∀ x ∈ l[i]?, ∀ y ∈ l[j]?, le x y))

/-- `sift_up`: the element at `pos` rises until its parent is as great; `pos` is also the number of steps it takes at
most. -/
def siftUpFrom : Nat → List α → Nat → List α
  | 0, l, _ => l
  | steps + 1, l, pos =>
    if pos = 0 then l
    else if AtMost le l pos ((pos - 1) / 2) then l
    else siftUpFrom steps (swap l pos ((pos - 1) / 2)) ((pos - 1) / 2)

def siftUp (l : List α) (pos : Nat) : List α := siftUpFrom le pos l pos

/-- The first loop of `sift_down_to_bottom`: the element at `pos` falls along the greater children, of two equal ones
the right one.  The result tells where it ends. -/
def siftDown : Nat → List α → Nat → List α × Nat
  | 0, l, pos => (l, pos)
  | steps + 1, l, pos =>
    let child := 2 * pos + 1
    if child + 2 ≤ l.length then
      let child := if AtMost le l child (child + 1) then child + 1 else child
      siftDown steps (swap l pos child) child
    else if child + 1 = l.length then (swap l pos child, child)
    else (l, pos)

def siftDownToBottom (l : List α) : List α :=
  let (l, pos) := siftDown le l.length l 0
  siftUp le l pos

def push (l : List α) (a : α) : List α := siftUp le (l ++ [a]) l.length

/-- `pop`: the last element takes the place of the first. -/
def pop : List α → Option (α × List α)
  | [] => none
  | top :: rest =>
    match rest.getLast? with
    | none => some (top, [])
    | some last => some (top, siftDownToBottom le (last :: rest.dropLast))

end

/-! ### The same elements -/

section

variable {le : α → α → Prop} [DecidableRel le] {l : List α} {pos : Nat}

theorem siftUpFrom_perm {steps : Nat} (hpos : pos < l.length) : List.Perm (siftUpFrom le steps l pos) l := by
  induction steps generalizing l pos with
  | zero => exact List.Perm.refl l
  | succ steps ih =>
    rw [siftUpFrom]
    split_ifs
    · exact List.Perm.refl l
    · exact List.Perm.refl l
    · have hswap := swap_perm hpos (by omega : (pos - 1) / 2 < l.length)
      exact (ih (by rw [hswap.length_eq]; omega)).trans hswap

theorem siftDown_perm {steps : Nat} (hpos : pos < l.length) :
    List.Perm (siftDown le steps l pos).1 l ∧ (siftDown le steps l pos).2 < l.length := by
  induction steps generalizing l pos with
  | zero => exact ⟨List.Perm.refl l, hpos⟩
  | succ steps ih =>
    rw [siftDown]
    dsimp only
    by_cases htwo : 2 * pos + 1 + 2 ≤ l.length
    · rw [if_pos htwo]
      obtain ⟨child, hchild, hlt⟩ : ∃ child,
          (if AtMost le l (2 * pos + 1) (2 * pos + 1 + 1) then 2 * pos + 1 + 1 else 2 * pos + 1) = child ∧
            child < l.length := ⟨_, rfl, by split_ifs <;> omega⟩
      rw [hchild]
      have hswap := swap_perm hpos hlt
      have hrest := @ih (swap l pos child) child (by rwa [hswap.length_eq])
      exact ⟨hrest.1.trans hswap, by rw [← hswap.length_eq]; exact hrest.2⟩
    · rw [if_neg htwo]
      by_cases hone : 2 * pos + 1 + 1 = l.length
      · rw [if_pos hone]
        exact ⟨swap_perm hpos (by omega), by dsimp only; omega⟩
      · rw [if_neg hone]
        exact ⟨List.Perm.refl l, hpos⟩

theorem siftDownToBottom_perm (hl : l ≠ []) : List.Perm (siftDownToBottom le l) l := by
  obtain ⟨hperm, hlt⟩ := @siftDown_perm _ le _ _ _ l.length (List.length_pos_of_ne_nil hl)
  exact (siftUpFrom_perm (by rwa [hperm.length_eq])).trans hperm

theorem push_perm (l : List α) (a : α) : List.Perm (push le l a) (a :: l) := by
  have hpos : l.length < (l ++ [a]).length := by
    rw [List.length_append, List.length_singleton]
    omega
  exact (siftUpFrom_perm hpos).trans (List.perm_append_singleton a l)

theorem pop_eq_none : pop le l = none ↔ l = [] := by
  constructor
  · intro h
    cases l with
    | nil => rfl
    | cons top rest =>
      rw [pop] at h
      split at h
      · cases h
      · cases h
  · rintro rfl
    rfl

theorem pop_perm {a : α} {rest : List α} (h : pop le l = some (a, rest)) : List.Perm l (a :: rest) := by
  cases l with
  | nil => cases h
  | cons top others =>
    rw [pop] at h
    cases hlast : others.getLast? with
    | none =>
      rw [hlast] at h
      obtain ⟨rfl, rfl⟩ := Prod.mk.inj (Option.some.inj h)
      rw [List.getLast?_eq_none_iff.1 hlast]
    | some last =>
      rw [hlast] at h
      obtain ⟨rfl, rfl⟩ := Prod.mk.inj (Option.some.inj h)
      have hothers : others.dropLast ++ [last] = others := List.dropLast_append_getLast? last hlast
      refine List.Perm.cons top ?_
      calc List.Perm others (others.dropLast ++ [last]) := by rw [hothers]
        List.Perm _ (last :: others.dropLast) := List.perm_append_singleton _ _
        List.Perm _ (siftDownToBottom le (last :: others.dropLast)) :=
          (siftDownToBottom_perm (List.cons_ne_nil _ _)).symm

end

/-! ### The order -/

section

variable (le : α → α → Prop)

/-- Every element but the first is at most its parent. -/
def IsHeap (l : List α) : Prop := ∀ i, 0 < i → AtMost le l i ((i - 1) / 2)

/-- Only the element at `pos` may be greater than its parent; its children are at most its parent. -/
structure Rising (l : List α) (pos : Nat) : Prop where
  others : ∀ i, 0 < i → i ≠ pos → AtMost le l i ((i - 1) / 2)
  grand : ∀ i, 0 < i → (i - 1) / 2 = pos → 0 < pos → AtMost le l i ((pos - 1) / 2)

/-- Only the element at `pos` may be out of order with its parent and its children; these are in order. -/
structure Falling (l : List α) (pos : Nat) : Prop where
  others : ∀ i, 0 < i → i ≠ pos → (i - 1) / 2 ≠ pos → AtMost le l i ((i - 1) / 2)
  grand : ∀ i, 0 < i → (i - 1) / 2 = pos → 0 < pos → AtMost le l i ((pos - 1) / 2)

end

section

variable {le : α → α → Prop} {l : List α} {pos : Nat}

theorem AtMost.trans [IsTrans α le] {i j k : Nat} (hj : j < l.length) (hij : AtMost le l i j)
    (hjk : AtMost le l j k) :
    AtMost le l i k := by
  intro x hx z hz
  have hy := List.getElem?_eq_getElem hj
  exact IsTrans.trans _ _ _ (hij x hx _ hy) (hjk _ hy z hz)

theorem atMost_of_not [Std.Total le] {i j : Nat} (h : ¬AtMost le l i j) : AtMost le l j i := by
  intro y hy x hx
  rcases (inferInstance : Std.Total le).total x y with hxy | hyx
  · refine absurd (fun x' hx' y' hy' => ?_) h
    rw [Option.mem_unique hx' hx, Option.mem_unique hy' hy]
    exact hxy
  · exact hyx

theorem atMost_refl [Std.Total le] (l : List α) (i : Nat) : AtMost le l i i := by
  intro x hx y hy
  rw [Option.mem_unique hx hy]
  rcases (inferInstance : Std.Total le).total y y with h | h
  · exact h
  · exact h

theorem atMost_of_le_length {i j : Nat} (hi : l.length ≤ i) : AtMost le l i j := by
  intro x hx
  rw [List.getElem?_eq_none hi] at hx
  cases hx

theorem isHeap_nil : IsHeap le ([] : List α) := fun i _ => atMost_of_le_length (Nat.zero_le i)

/-- What `AtMost` says of two lists that have the same elements at some places. -/
theorem AtMost.congr {l' : List α} {i j i' j' : Nat} (h : AtMost le l i j) (hi : l'[i']? = l[i]?)
    (hj : l'[j']? = l[j]?) : AtMost le l' i' j' := by
  intro x hx y hy
  rw [hi] at hx
  rw [hj] at hy
  exact h x hx y hy

theorem Rising.finish (h : Rising le l pos) (hpos : 0 < pos → AtMost le l pos ((pos - 1) / 2)) : IsHeap le l := by
  intro i hi
  by_cases hi' : i = pos
  · subst hi'
    exact hpos hi
  · exact h.others i hi hi'

/-- The element at `pos` changes places with a child that is as great as the other. -/
theorem Falling.down (h : Falling le l pos) {child : Nat} (hchild : child < l.length) (hpos : (child - 1) / 2 = pos)
    (hzero : 0 < child) (hgreatest : ∀ i, 0 < i → (i - 1) / 2 = pos → AtMost le l i child) :
    Falling le (swap l pos child) child := by
  have hlt : pos < l.length := by omega
  have hne : pos ≠ child := by omega
  have hleft : (swap l pos child)[pos]? = l[child]? := getElem?_swap_left hlt hchild hne
  have hrest : ∀ k, k ≠ pos → k ≠ child → (swap l pos child)[k]? = l[k]? :=
    fun k h h' => getElem?_swap_of_ne hlt hchild h h'
  constructor
  · intro i hi hic hgrandchild
    by_cases hipos : i = pos
    · subst hipos
      exact (h.grand child hzero hpos hi).congr hleft (hrest _ (by omega) (by omega))
    · by_cases hsib : (i - 1) / 2 = pos
      · rw [hsib]
        exact (hgreatest i hi hsib).congr (hrest i hipos hic) hleft
      · exact (h.others i hi hipos hsib).congr (hrest i hipos hic) (hrest _ hsib hgrandchild)
  · intro i hi hgrandchild _
    rw [hpos]
    have hdown := h.others i hi (by omega) (by omega)
    rw [hgrandchild] at hdown
    exact hdown.congr (hrest i (by omega) (by omega)) hleft

/-- A place without children. -/
theorem Falling.rising (h : Falling le l pos) (hpos : l.length ≤ 2 * pos + 1) : Rising le l pos := by
  refine ⟨fun i hi hne => ?_, h.grand⟩
  by_cases hchild : (i - 1) / 2 = pos
  · exact atMost_of_le_length (by omega)
  · exact h.others i hi hne hchild

variable [Std.Total le]

theorem rising_siftDown [DecidableRel le] {steps : Nat} (h : Falling le l pos) (hpos : pos < l.length)
    (hsteps : l.length ≤ pos + steps) : Rising le (siftDown le steps l pos).1 (siftDown le steps l pos).2 := by
  induction steps generalizing l pos with
  | zero => omega
  | succ steps ih =>
    rw [siftDown]
    dsimp only
    by_cases htwo : 2 * pos + 1 + 2 ≤ l.length
    · rw [if_pos htwo]
      obtain ⟨child, hchild, hlt, hbelow, hparent, hgreatest⟩ : ∃ child,
          (if AtMost le l (2 * pos + 1) (2 * pos + 1 + 1) then 2 * pos + 1 + 1 else 2 * pos + 1) = child ∧
            child < l.length ∧ pos < child ∧ (child - 1) / 2 = pos ∧
              ∀ i, 0 < i → (i - 1) / 2 = pos → AtMost le l i child := by
        refine ⟨_, rfl, ?_⟩
        by_cases hright : AtMost le l (2 * pos + 1) (2 * pos + 1 + 1)
        · rw [if_pos hright]
          refine ⟨by omega, by omega, by omega, fun i hi hi' => ?_⟩
          obtain rfl | rfl : i = 2 * pos + 1 ∨ i = 2 * pos + 1 + 1 := by omega
          · exact hright
          · exact atMost_refl _ _
        · rw [if_neg hright]
          refine ⟨by omega, by omega, by omega, fun i hi hi' => ?_⟩
          obtain rfl | rfl : i = 2 * pos + 1 ∨ i = 2 * pos + 1 + 1 := by omega
          · exact atMost_refl _ _
          · exact atMost_of_not hright
      rw [hchild]
      have hlength := (swap_perm hpos hlt).length_eq
      exact ih (h.down hlt hparent (by omega) hgreatest) (by omega) (by omega)
    · rw [if_neg htwo]
      by_cases hone : 2 * pos + 1 + 1 = l.length
      · rw [if_pos hone]
        have hlength := (swap_perm hpos (by omega : 2 * pos + 1 < l.length)).length_eq
        refine (h.down (by omega) (by omega) (by omega) fun i hi hi' => ?_).rising (by omega)
        obtain rfl | hi : i = 2 * pos + 1 ∨ l.length ≤ i := by omega
        · exact atMost_refl _ _
        · exact atMost_of_le_length hi
      · rw [if_neg hone]
        exact h.rising (by omega)

variable [IsTrans α le]

/-- The element at `pos` changes places with its parent. -/
theorem Rising.up (h : Rising le l pos) (hpos : pos < l.length) (hzero : pos ≠ 0)
    (hgreater : ¬AtMost le l pos ((pos - 1) / 2)) : Rising le (swap l pos ((pos - 1) / 2)) ((pos - 1) / 2) := by
  obtain ⟨parent, hparent⟩ : ∃ parent, (pos - 1) / 2 = parent := ⟨_, rfl⟩
  rw [hparent] at hgreater ⊢
  have hlt : parent < l.length := by omega
  have hne : pos ≠ parent := by omega
  have hleft : (swap l pos parent)[pos]? = l[parent]? := getElem?_swap_left hpos hlt hne
  have hright : (swap l pos parent)[parent]? = l[pos]? := getElem?_swap_right hpos hlt
  have hrest : ∀ k, k ≠ pos → k ≠ parent → (swap l pos parent)[k]? = l[k]? :=
    fun k h h' => getElem?_swap_of_ne hpos hlt h h'
  have hsibling : ∀ i, 0 < i → i ≠ pos → (i - 1) / 2 = parent → AtMost le l i parent :=
    fun i hi hne heq => heq ▸ h.others i hi hne
  constructor
  · intro i hi hip
    by_cases hipos : i = pos
    · rw [hipos, hparent]
      exact (atMost_of_not hgreater).congr hleft hright
    · by_cases hchild : (i - 1) / 2 = pos
      · rw [hchild]
        exact (hparent ▸ h.grand i hi hchild (by omega)).congr (hrest i hipos hip) hleft
      · by_cases hsib : (i - 1) / 2 = parent
        · rw [hsib]
          exact ((hsibling i hi hipos hsib).trans hlt (atMost_of_not hgreater)).congr (hrest i hipos hip) hright
        · exact (h.others i hi hipos).congr (hrest i hipos hip) (hrest _ hchild hsib)
  · intro i hi hchild hpar
    -- the parent of `parent` is as great as `parent`, and so as its children
    have habove : AtMost le l parent ((parent - 1) / 2) := h.others parent hpar hne.symm
    have hgrand : (swap l pos parent)[(parent - 1) / 2]? = l[(parent - 1) / 2]? := hrest _ (by omega) (by omega)
    by_cases hipos : i = pos
    · rw [hipos]
      exact habove.congr hleft hgrand
    · exact ((hsibling i hi hipos hchild).trans hlt habove).congr (hrest i hipos (by omega)) hgrand

/-- The first element of a heap is greatest. -/
theorem le_of_isHeap {a : α} {rest : List α} (h : IsHeap le (a :: rest)) {b : α} (hb : b ∈ a :: rest) : le b a := by
  have hroot : ∀ i, AtMost le (a :: rest) i 0 := by
    intro i
    induction i using Nat.strongRecOn with
    | ind i ih =>
      by_cases hi : i = 0
      · rw [hi]
        exact atMost_refl _ _
      · by_cases hlt : (i - 1) / 2 < (a :: rest).length
        · exact (h i (by omega)).trans hlt (ih _ (by omega))
        · exact atMost_of_le_length (by omega)
  obtain ⟨i, hi⟩ := List.mem_iff_getElem?.1 hb
  exact hroot i b hi a rfl

variable [DecidableRel le]

theorem isHeap_siftUpFrom {steps : Nat} (h : Rising le l pos) (hpos : pos < l.length) (hsteps : pos ≤ steps) :
    IsHeap le (siftUpFrom le steps l pos) := by
  induction steps generalizing l pos with
  | zero => exact h.finish fun hlt => by omega
  | succ steps ih =>
    rw [siftUpFrom]
    by_cases hzero : pos = 0
    · rw [if_pos hzero]
      exact h.finish fun hlt => by omega
    · rw [if_neg hzero]
      by_cases hle : AtMost le l pos ((pos - 1) / 2)
      · rw [if_pos hle]
        exact h.finish fun _ => hle
      · rw [if_neg hle]
        have hlength := (swap_perm hpos (by omega : (pos - 1) / 2 < l.length)).length_eq
        exact ih (h.up hpos hzero hle) (by omega) (by omega)

theorem isHeap_siftDownToBottom (h : Falling le l 0) (hl : l ≠ []) : IsHeap le (siftDownToBottom le l) := by
  have hpos := List.length_pos_of_ne_nil hl
  obtain ⟨hperm, hend⟩ := @siftDown_perm _ le _ _ _ l.length hpos
  have hrising := @rising_siftDown _ le _ _ _ _ l.length h hpos (by omega)
  exact isHeap_siftUpFrom hrising (by rwa [hperm.length_eq]) (Nat.le_refl _)

theorem isHeap_push (h : IsHeap le l) (a : α) : IsHeap le (push le l a) := by
  have hlength : (l ++ [a]).length = l.length + 1 := by rw [List.length_append, List.length_singleton]
  have hold : ∀ k, k < l.length → (l ++ [a])[k]? = l[k]? := fun k hk => List.getElem?_append_left hk
  refine isHeap_siftUpFrom ⟨fun i hi hne => ?_, fun i hi hchild _ => atMost_of_le_length (by omega)⟩ (by omega)
    (Nat.le_refl _)
  by_cases hlt : i < l.length
  · exact (h i hi).congr (hold i hlt) (hold _ (by omega))
  · exact atMost_of_le_length (by omega)

theorem isHeap_pop (h : IsHeap le l) {a : α} {rest : List α} (hpop : pop le l = some (a, rest)) : IsHeap le rest := by
  cases l with
  | nil => cases hpop
  | cons top others =>
    rw [pop] at hpop
    cases hlast : others.getLast? with
    | none =>
      rw [hlast] at hpop
      obtain ⟨-, rfl⟩ := Prod.mk.inj (Option.some.inj hpop)
      exact isHeap_nil
    | some last =>
      rw [hlast] at hpop
      obtain ⟨-, rfl⟩ := Prod.mk.inj (Option.some.inj hpop)
      have hothers : others.dropLast ++ [last] = others := List.dropLast_append_getLast? last hlast
      have hold : ∀ k, 0 < k → k < (last :: others.dropLast).length →
          (last :: others.dropLast)[k]? = (top :: others)[k]? := by
        intro k hk hlt
        obtain ⟨k, rfl⟩ : ∃ m, k = m + 1 := ⟨k - 1, by omega⟩
        rw [List.getElem?_cons_succ, List.getElem?_cons_succ, ← hothers, List.dropLast_concat]
        exact (List.getElem?_append_left (by simpa using hlt)).symm
      have hfalling : Falling le (last :: others.dropLast) 0 := by
        refine ⟨fun i hi _ hparent => ?_, fun i _ _ hlt => by omega⟩
        by_cases hlt : i < (last :: others.dropLast).length
        · exact (h i hi).congr (hold i hi hlt) (hold _ (by omega) (by omega))
        · exact atMost_of_le_length (by omega)
      exact isHeap_siftDownToBottom hfalling (List.cons_ne_nil _ _)

theorem le_of_pop (h : IsHeap le l) {a : α} {rest : List α} (hpop : pop le l = some (a, rest)) {b : α} (hb : b ∈ l) :
    le b a := by
  cases l with
  | nil => cases hpop
  | cons top others =>
    have htop : top = a := by
      rw [pop] at hpop
      cases hlast : others.getLast? with
      | none =>
        rw [hlast] at hpop
        exact (Prod.mk.inj (Option.some.inj hpop)).1
      | some last =>
        rw [hlast] at hpop
        exact (Prod.mk.inj (Option.some.inj hpop)).1
    rw [htop] at h hb
    exact le_of_isHeap h hb

end

end Search
