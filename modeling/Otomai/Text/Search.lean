import Mathlib.Data.List.Basic
import Mathlib.Data.List.Infix

/-!
# Searching in text

Text is a list of characters.  `cut p s` splits `s` at the first occurrence of `p`, which is how `find` is used
together with the two slices next to what it found; `contains`, `lines` and `trim` are the string functions of the
same names.

The lemmas evaluate a search in a text that is known up to some words: an occurrence of a pattern `a ++ c :: b` uses
one of the characters `c` of the text (`contains_cons`), and the first occurrence of a pattern is found by a character
that does not occur before it (`cut_of_head`, `cut_of_last`).
-/

namespace Text

/-- What holds of every character of a text is decided on its characters, not on all there are. -/
instance decidableForallMem {l : List Char} {p : Char → Prop} [DecidablePred p] : Decidable (∀ c ∈ l, p c) :=
  List.decidableBAll p l

/-! ### Occurrences -/

/-- What stands before the first occurrence of `p` in a text, and what follows it. -/
def cut (p : List Char) : List Char → Option (List Char × List Char)
  | [] => if p = [] then some ([], []) else none
  | c :: s =>
    if p <+: c :: s then some ([], (c :: s).drop p.length)
    else (cut p s).map fun x => (c :: x.1, x.2)

def contains (p s : List Char) : Bool := (cut p s).isSome

theorem contains_iff {p s : List Char} : contains p s = true ↔ p <:+: s := by
  unfold contains
  induction s with
  | nil =>
    by_cases h : p = []
    · simp [cut, h]
    · simp [cut, h]
  | cons c s ih =>
    rw [cut]
    by_cases h : p <+: c :: s
    · simp [h, h.isInfix]
    · rw [if_neg h, Option.isSome_map, ih, List.infix_cons_iff]
      simp [h]

theorem contains_eq_false {p s : List Char} : contains p s = false ↔ ¬p <:+: s := by
  rw [← Bool.not_eq_true, contains_iff]

theorem cut_eq_none {p s : List Char} : cut p s = none ↔ contains p s = false := by
  unfold contains
  cases cut p s <;> simp

theorem eq_of_cut {p s x t : List Char} (h : cut p s = some (x, t)) : s = x ++ (p ++ t) := by
  induction s generalizing x with
  | nil =>
    obtain ⟨rfl, hparts⟩ := Option.ite_none_right_eq_some.1 h
    obtain ⟨rfl, rfl⟩ := Prod.mk.inj (Option.some.inj hparts)
    rfl
  | cons c s ih =>
    rw [cut] at h
    split_ifs at h with hp
    · obtain ⟨rfl, rfl⟩ := Prod.mk.inj (Option.some.inj h)
      exact (List.prefix_iff_eq_append.1 hp).symm
    · obtain ⟨y, hy, heq⟩ := Option.map_eq_some_iff.1 h
      obtain ⟨rfl, rfl⟩ := Prod.mk.inj heq
      rw [ih hy]
      rfl

theorem contains_of_not_mem {p s : List Char} {c : Char} (hp : c ∈ p) (hs : c ∉ s) : contains p s = false :=
  contains_eq_false.2 fun h => hs (h.subset hp)

/-- An occurrence of `a ++ c :: b` uses the first `c` of the text, or comes after it. -/
theorem contains_cons {a b x t : List Char} {c : Char} (ha : c ∉ a) (hx : c ∉ x) :
    contains (a ++ c :: b) (x ++ c :: t) = (decide (a <:+ x ∧ b <+: t) || contains (a ++ c :: b) t) := by
  rw [Bool.eq_iff_iff, Bool.or_eq_true, decide_eq_true_iff, contains_iff, contains_iff]
  constructor
  · rintro ⟨u, v, h⟩
    rw [List.append_assoc, List.append_assoc, List.cons_append, ← List.append_assoc] at h
    rcases List.append_eq_append_iff.1 h with ⟨w, hw, hw'⟩ | ⟨w, hw, hw'⟩
    · cases w with
      | nil =>
        obtain ⟨-, rfl⟩ := List.cons.inj hw'
        exact Or.inl ⟨⟨u, by simpa using hw.symm⟩, ⟨v, rfl⟩⟩
      | cons d w =>
        obtain ⟨rfl, -⟩ := List.cons.inj hw'
        exact absurd (hw ▸ List.mem_append_right _ (List.mem_cons_self ..)) hx
    · cases w with
      | nil =>
        obtain ⟨-, rfl⟩ := List.cons.inj hw'
        exact Or.inl ⟨⟨u, by simpa using hw⟩, ⟨v, rfl⟩⟩
      | cons d w =>
        obtain ⟨rfl, ht⟩ := List.cons.inj hw'
        -- The first `c` of the text stands in `u`, since it is not in `a`.
        rcases List.append_eq_append_iff.1 hw with ⟨y, rfl, hy⟩ | ⟨y, rfl, hy⟩
        · exact absurd (hy ▸ List.mem_append_right _ (List.mem_cons_self ..)) ha
        · cases y with
          | nil =>
            rw [List.nil_append] at hy
            exact absurd (hy ▸ List.mem_cons_self ..) ha
          | cons e y =>
            obtain ⟨rfl, rfl⟩ := List.cons.inj hy
            exact Or.inr ⟨y, v, by rw [ht]; simp⟩
  · rintro (⟨⟨u, rfl⟩, ⟨v, rfl⟩⟩ | ⟨u, v, rfl⟩)
    · exact ⟨u, v, by simp⟩
    · exact ⟨x ++ c :: u, v, by simp⟩

/-! ### Joined text -/

/-- The parts with a character between them. -/
def joinWith (c : Char) : List (List Char) → List Char
  | [] => []
  | [x] => x
  | x :: y :: xs => x ++ c :: joinWith c (y :: xs)

/-- Two neighbours are in the relation. -/
def adjacent (p : List Char → List Char → Bool) : List (List Char) → Bool
  | x :: y :: xs => p x y || adjacent p (y :: xs)
  | _ => false

/-- A prefix without the character `c` ends before it. -/
theorem prefix_append_cons {p x t : List Char} {c : Char} (hp : c ∉ p) : p <+: x ++ c :: t ↔ p <+: x := by
  constructor
  · rintro ⟨v, hv⟩
    rcases List.append_eq_append_iff.1 hv with ⟨w, hw, -⟩ | ⟨w, hw, hw'⟩
    · exact ⟨w, hw.symm⟩
    · cases w with
      | nil => exact ⟨[], by simpa using hw⟩
      | cons d w =>
        obtain ⟨rfl, -⟩ := List.cons.inj hw'
        exact absurd (hw ▸ List.mem_append_right _ (List.mem_cons_self ..)) hp
  · exact fun h => h.trans (List.prefix_append ..)

/-- A pattern with one `c` occurs across one of the places where the parts are joined. -/
theorem contains_joinWith {a b : List Char} {c : Char} (ha : c ∉ a) (hb : c ∉ b) : ∀ {xs : List (List Char)},
    (∀ x ∈ xs, c ∉ x) →
      contains (a ++ c :: b) (joinWith c xs) = adjacent (fun x y => decide (a <:+ x) && decide (b <+: y)) xs := by
  have none {s : List Char} (hs : c ∉ s) : contains (a ++ c :: b) s = false := contains_of_not_mem (by simp) hs
  intro xs
  induction xs with
  | nil => exact fun _ => none (by simp [joinWith])
  | cons x xs ih =>
    intro h
    have hx := h x (List.mem_cons_self ..)
    cases xs with
    | nil => exact none hx
    | cons y xs =>
      have hxs := ih fun z hz => h z (List.mem_cons_of_mem _ hz)
      have hy : b <+: joinWith c (y :: xs) ↔ b <+: y := by
        cases xs with
        | nil => rfl
        | cons z xs => exact prefix_append_cons hb
      rw [joinWith, contains_cons ha hx, hxs, adjacent]
      simp [hy]

/-! ### The first occurrence -/

/-- The first `c` of the text starts an occurrence of `c :: b`, or the search goes on after it. -/
theorem cut_cons {b x : List Char} {c : Char} (hx : c ∉ x) (t : List Char) :
    cut (c :: b) (x ++ c :: t) =
      if b <+: t then some (x, t.drop b.length) else (cut (c :: b) t).map fun y => (x ++ c :: y.1, y.2) := by
  induction x with
  | nil =>
    by_cases h : b <+: t
    · simp [cut, h]
    · simp [cut, h]
  | cons d x ih =>
    have hd : c ≠ d := fun e => hx (e ▸ List.mem_cons_self ..)
    rw [List.cons_append, cut, if_neg (by simp [hd]), ih fun h => hx (List.mem_cons_of_mem _ h)]
    split
    · rfl
    · rw [Option.map_map]
      rfl

theorem cut_of_head {x p : List Char} {c : Char} (hx : c ∉ x) (t : List Char) :
    cut (c :: p) (x ++ c :: (p ++ t)) = some (x, t) := by
  rw [cut_cons hx, if_pos (List.prefix_append ..), List.drop_left]

theorem cut_char {x : List Char} {c : Char} (hx : c ∉ x) (t : List Char) : cut [c] (x ++ c :: t) = some (x, t) :=
  cut_of_head hx t

theorem cut_of_last {x p : List Char} {c : Char} (hx : c ∉ x) (hp : c ∉ p) (t : List Char) :
    cut (p ++ [c]) (x ++ (p ++ c :: t)) = some (x, t) := by
  induction x with
  | nil =>
    cases p with
    | nil => simp [cut]
    | cons d p =>
      have hpre : (d :: p) ++ [c] <+: d :: (p ++ c :: t) := ⟨t, by simp⟩
      show cut _ (d :: (p ++ c :: t)) = _
      rw [cut, if_pos hpre]
      simp
  | cons d x ih =>
    have hx' : c ∉ x := fun h => hx (List.mem_cons_of_mem _ h)
    have hpre : ¬p ++ [c] <+: d :: (x ++ (p ++ c :: t)) := by
      -- The occurrence would end at the first `c`, one character too late.
      rintro ⟨v, hv⟩
      have hsplit : p ++ c :: v = (d :: x ++ p) ++ c :: t := by simpa using hv
      rcases List.append_eq_append_iff.1 hsplit with ⟨w, hw, hw'⟩ | ⟨w, hw, hw'⟩
      · cases w with
        | nil =>
          have := congrArg List.length hw
          simp only [List.length_append, List.length_cons, List.length_nil] at this
          omega
        | cons e w =>
          obtain ⟨rfl, -⟩ := List.cons.inj hw'
          have hmem : c ∈ d :: x ++ p := hw ▸ List.mem_append_right _ (List.mem_cons_self ..)
          rcases List.mem_append.1 hmem with h | h
          · exact hx h
          · exact hp h
      · have := congrArg List.length hw
        simp only [List.length_append, List.length_cons] at this
        omega
    rw [List.cons_append, cut, if_neg hpre, ih hx']
    rfl

/-- A pattern without the character `c` that does not occur before it is found after it. -/
theorem cut_separated {p x : List Char} {c : Char} (hp : c ∉ p) (hne : p ≠ []) (hx : contains p x = false)
    (t : List Char) : cut p (x ++ c :: t) = (cut p t).map fun y => (x ++ c :: y.1, y.2) := by
  induction x with
  | nil =>
    have hpre : ¬p <+: c :: t := by
      rintro ⟨v, hv⟩
      cases p with
      | nil => exact hne rfl
      | cons d p =>
        obtain ⟨rfl, -⟩ := List.cons.inj hv
        exact hp (List.mem_cons_self ..)
    rw [List.nil_append, cut, if_neg hpre]
    rfl
  | cons d x ih =>
    have hx' : contains p x = false := contains_eq_false.2 fun h =>
      contains_eq_false.1 hx (h.trans (List.suffix_cons d x).isInfix)
    have hpre : ¬p <+: d :: (x ++ c :: t) := by
      rintro ⟨v, hv⟩
      have hsplit : p ++ v = (d :: x) ++ c :: t := by simpa using hv
      rcases List.append_eq_append_iff.1 hsplit with ⟨w, hw, -⟩ | ⟨w, hw, hw'⟩
      · exact contains_eq_false.1 hx ⟨[], w, by simpa using hw.symm⟩
      · cases w with
        | nil => exact contains_eq_false.1 hx ⟨[], [], by simpa using hw⟩
        | cons e w =>
          obtain ⟨rfl, -⟩ := List.cons.inj hw'
          exact hp (hw ▸ List.mem_append_right _ (List.mem_cons_self ..))
    rw [List.cons_append, cut, if_neg hpre, ih hx', Option.map_map]
    rfl

end Text
