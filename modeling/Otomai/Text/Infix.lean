import Mathlib.Data.List.DropRight
import Otomai.Text.Lines
import Otomai.Wire.Reader

/-!
# Operands with a separator between them

A parser reads a tree off the front of a text and leaves the rest.  `parseInfix` reads operands for as long as a
separator follows, with white space before it or not, and joins their trees from the left.

* `joinAll_stop`, `joinAll_sep`: what it does next.
* `joinAll_ok`, `joinAll_panic`: what has been read when it ends, and when an operand panics.
* `parseInfix_congr`, `parseInfix_ne_exhausted`: for operands whose parser calls it again, on less of the text.
-/

namespace Text

open Wire

def trimStart (s : List Char) : List Char := s.dropWhile isWhitespace

abbrev Parser (α : Type) := List Char → Outcome Unit (α × List Char)

section

variable {α : Type} (operand : Parser α) (sep : Char) (join : α → α → α)

/-- The operands that follow the tree `left`, if they are not more than so many. -/
def joinLoop : Nat → α → Parser α
  | 0, _, _ => .exhausted
  | n + 1, left, rest =>
    match trimStart rest with
    | [] => .ok (left, [])
    | c :: r =>
      if c = sep then do
        let (right, r') ← operand r
        joinLoop n (join left right) r'
      else .ok (left, c :: r)

/-- Each of them takes a separator. -/
def joinAll (left : α) : Parser α := fun rest => joinLoop operand sep join (rest.length + 1) left rest

def parseInfix : Parser α := fun s => do
  let (left, rest) ← operand s
  joinAll operand sep join left rest

/-- The rest is not longer than the text. -/
def Shrinks : Prop := ∀ s a r, operand s = .ok (a, r) → r.length ≤ s.length

end

variable {α : Type} {operand f g : Parser α} {sep : Char} {join : α → α → α} {left a : α} {s rest r : List Char}

/-! ### White space -/

theorem length_trimStart_le (s : List Char) : (trimStart s).length ≤ s.length := (List.dropWhile_suffix _).length_le

theorem trimStart_append {w : List Char} (hw : ∀ c ∈ w, isWhitespace c = true) (s : List Char) :
    trimStart (w ++ s) = trimStart s :=
  List.dropWhile_append_of_pos hw

theorem trimStart_cons {c : Char} (hc : isWhitespace c = false) (s : List Char) : trimStart (c :: s) = c :: s :=
  List.dropWhile_cons_of_neg (by simp [hc])

theorem trimStart_trimStart (s : List Char) : trimStart (trimStart s) = trimStart s := List.dropWhile_idempotent _ _

/-- A text is the white space that it starts with, and the rest. -/
theorem exists_trimStart (s : List Char) : ∃ w, s = w ++ trimStart s ∧ ∀ c ∈ w, isWhitespace c = true :=
  ⟨s.takeWhile isWhitespace, (List.takeWhile_append_dropWhile ..).symm, fun _ hc => List.mem_takeWhile_imp hc⟩

theorem head_trimStart {c : Char} (h : (trimStart s).head? = some c) : isWhitespace c = false := by
  have hnot := List.head?_dropWhile_not isWhitespace s
  rw [trimStart] at h
  rw [h] at hnot
  simpa using hnot

/-! ### Loops -/

theorem joinLoop_shrinks (hf : Shrinks operand) (n : Nat) (left : α) :
    Shrinks (joinLoop operand sep join n left) := by
  induction n generalizing left with
  | zero => exact fun _ _ _ h => by cases h
  | succ n ih =>
    intro s a r h
    have hle := length_trimStart_le s
    rw [joinLoop] at h
    cases htrim : trimStart s with
    | nil =>
      simp only [htrim, Outcome.ok.injEq, Prod.mk.injEq] at h
      rw [← h.2]
      exact Nat.zero_le _
    | cons c r₁ =>
      rw [htrim, List.length_cons] at hle
      simp only [htrim] at h
      split at h
      · obtain ⟨⟨right, r₂⟩, hright, hloop⟩ := Outcome.bind_eq_ok.1 h
        have h₂ := hf _ _ _ hright
        have h₃ : r.length ≤ r₂.length := ih (join left right) _ _ _ hloop
        omega
      · simp only [Outcome.ok.injEq, Prod.mk.injEq] at h
        rw [← h.2, List.length_cons]
        exact hle

theorem parseInfix_shrinks (hf : Shrinks operand) : Shrinks (parseInfix operand sep join) := by
  intro s a r h
  obtain ⟨⟨left, rest⟩, hleft, hrest⟩ := Outcome.bind_eq_ok.1 h
  exact (joinLoop_shrinks hf _ left _ _ _ hrest).trans (hf _ _ _ hleft)

/-- How many operands a loop may read does not matter if they are enough, nor how it reads them as long as it reads
the same. -/
theorem joinLoop_congr (hf : Shrinks f) {n m : Nat} (left : α) (hfg : ∀ t, t.length < rest.length → f t = g t)
    (hn : rest.length < n) (hm : rest.length < m) :
    joinLoop f sep join n left rest = joinLoop g sep join m left rest := by
  induction n generalizing m left rest with
  | zero => omega
  | succ n ih =>
    cases m with
    | zero => omega
    | succ m =>
      have hle := length_trimStart_le rest
      rw [joinLoop, joinLoop]
      cases htrim : trimStart rest with
      | nil => rfl
      | cons c r =>
        rw [htrim, List.length_cons] at hle
        dsimp only
        split
        · rw [← hfg r (by omega)]
          cases hright : f r with
          | ok x =>
            have hlen := hf _ _ _ hright
            exact ih (join left x.1) (fun t ht => hfg t (by omega)) (by omega) (by omega)
          | _ => rfl
        · rfl

theorem parseInfix_congr (hf : Shrinks f) (hfg : ∀ t, t.length ≤ s.length → f t = g t) :
    parseInfix f sep join s = parseInfix g sep join s := by
  rw [parseInfix, parseInfix, ← hfg s le_rfl]
  cases hleft : f s with
  | ok x =>
    have hlen := hf _ _ _ hleft
    exact joinLoop_congr hf x.1 (fun t ht => hfg t (by omega)) (by omega) (by omega)
  | _ => rfl

/-- A separator follows, or none does. -/
theorem sep_or_stop (sep : Char) (rest : List Char) :
    (∃ r, trimStart rest = sep :: r) ∨ ∀ c ∈ (trimStart rest).head?, c ≠ sep := by
  cases htrim : trimStart rest with
  | nil => exact .inr fun c hc => by cases hc
  | cons c r =>
    by_cases hc : c = sep
    · exact .inl ⟨r, by rw [hc]⟩
    · exact .inr fun d hd => Option.some.inj hd ▸ hc

theorem joinAll_stop (h : ∀ c ∈ (trimStart rest).head?, c ≠ sep) :
    joinAll operand sep join left rest = .ok (left, trimStart rest) := by
  rw [joinAll, joinLoop]
  cases htrim : trimStart rest with
  | nil => rfl
  | cons c r =>
    rw [htrim] at h
    exact if_neg (h c rfl)

theorem joinAll_sep (hf : Shrinks operand) (h : trimStart rest = sep :: r) :
    joinAll operand sep join left rest = operand r >>= fun x => joinAll operand sep join (join left x.1) x.2 := by
  have hle := length_trimStart_le rest
  rw [h, List.length_cons] at hle
  rw [joinAll, joinLoop, h]
  simp only [if_true]
  cases hright : operand r with
  | ok x =>
    have hlen := hf _ _ _ hright
    exact joinLoop_congr hf _ (fun _ _ => rfl) (by omega) (by omega)
  | _ => rfl

theorem joinAll_trimStart (hf : Shrinks operand) (left : α) (rest : List Char) :
    joinAll operand sep join left (trimStart rest) = joinAll operand sep join left rest := by
  rw [joinAll, joinLoop, trimStart_trimStart, joinAll]
  have hle := length_trimStart_le rest
  refine Eq.trans ?_ (joinLoop_congr hf left (fun _ _ => rfl) (n := rest.length + 1) (by omega) (by omega))
  rw [joinLoop]
  cases htrim : trimStart rest with
  | nil => rfl
  | cons c r =>
    rw [htrim, List.length_cons] at hle
    dsimp only
    split
    · cases hright : operand r with
      | ok x =>
        have hlen := hf _ _ _ hright
        exact joinLoop_congr hf _ (fun _ _ => rfl) (by rw [List.length_cons]; omega) (by omega)
      | _ => rfl
    · rfl

/-! ### What has been read -/

section

variable {Q : α → List Char → Prop} (hf : Shrinks operand)
  (hstep : ∀ left rest r x, Q left rest → trimStart rest = sep :: r → operand r = .ok x → Q (join left x.1) x.2)

include hf hstep

/-- Where the loop ends, no separator follows. -/
theorem joinAll_ok (hQ : Q left rest) (h : joinAll operand sep join left rest = .ok (a, r)) :
    ∃ rest', Q a rest' ∧ r = trimStart rest' ∧ ∀ c ∈ r.head?, c ≠ sep := by
  generalize hk : rest.length = k
  induction k using Nat.strong_induction_on generalizing left rest with
  | _ k ih =>
    rcases sep_or_stop sep rest with ⟨r₁, hr₁⟩ | hstop
    · rw [joinAll_sep hf hr₁] at h
      obtain ⟨x, hright, hrest⟩ := Outcome.bind_eq_ok.1 h
      have hle := length_trimStart_le rest
      have hlen := hf _ _ _ hright
      rw [hr₁, List.length_cons] at hle
      exact ih _ (by omega) (hstep left rest r₁ x hQ hr₁ hright) hrest rfl
    · rw [joinAll_stop hstop, Outcome.ok.injEq, Prod.mk.injEq] at h
      obtain ⟨rfl, rfl⟩ := h
      exact ⟨rest, hQ, rfl, hstop⟩

/-- A loop panics where an operand does. -/
theorem joinAll_panic (hQ : Q left rest) (h : joinAll operand sep join left rest = .panic) :
    ∃ left' rest' r, Q left' rest' ∧ trimStart rest' = sep :: r ∧ operand r = .panic := by
  generalize hk : rest.length = k
  induction k using Nat.strong_induction_on generalizing left rest with
  | _ k ih =>
    rcases sep_or_stop sep rest with ⟨r₁, hr₁⟩ | hstop
    · rw [joinAll_sep hf hr₁] at h
      have hle := length_trimStart_le rest
      rw [hr₁, List.length_cons] at hle
      cases hright : operand r₁ with
      | ok x =>
        have hlen := hf _ _ _ hright
        rw [hright, Outcome.ok_bind] at h
        exact ih _ (by omega) (hstep left rest r₁ x hQ hr₁ hright) h rfl
      | panic => exact ⟨left, rest, r₁, hQ, hr₁, hright⟩
      | err e =>
        rw [hright] at h
        cases h
      | exhausted =>
        rw [hright] at h
        cases h
    · rw [joinAll_stop hstop] at h
      cases h

end

/-- Which trees are joined does not decide how the loop ends, and what it leaves. -/
theorem joinAll_left (hf : Shrinks operand) (left left' : α) (rest : List Char) :
    (joinAll operand sep join left rest >>= fun x => .ok x.2) =
      (joinAll operand sep join left' rest >>= fun x => .ok x.2) := by
  generalize hk : rest.length = k
  induction k using Nat.strong_induction_on generalizing left left' rest with
  | _ k ih =>
    rcases sep_or_stop sep rest with ⟨r, hr⟩ | hstop
    · have hle := length_trimStart_le rest
      rw [hr, List.length_cons] at hle
      rw [joinAll_sep hf hr, joinAll_sep hf hr]
      cases hright : operand r with
      | ok x =>
        have hlen := hf _ _ _ hright
        exact ih _ (by omega) _ _ x.2 rfl
      | _ => rfl
    · rw [joinAll_stop hstop, joinAll_stop hstop]
      rfl

/-! ### That it ends -/

theorem joinAll_ne_exhausted (hf : Shrinks operand) (hends : ∀ t, t.length < rest.length → operand t ≠ .exhausted)
    (left : α) : joinAll operand sep join left rest ≠ .exhausted := by
  generalize hk : rest.length = k at hends
  induction k using Nat.strong_induction_on generalizing left rest with
  | _ k ih =>
    rcases sep_or_stop sep rest with ⟨r, hr⟩ | hstop
    · have hle := length_trimStart_le rest
      rw [hr, List.length_cons] at hle
      rw [joinAll_sep hf hr]
      cases hright : operand r with
      | ok x =>
        have hlen := hf _ _ _ hright
        exact ih x.2.length (by omega) _ rfl fun t ht => hends t (by omega)
      | exhausted => exact absurd hright (hends r (by omega))
      | err e => exact nofun
      | panic => exact nofun
    · rw [joinAll_stop hstop]
      exact nofun

theorem parseInfix_ne_exhausted (hf : Shrinks operand) (hends : ∀ t, t.length ≤ s.length → operand t ≠ .exhausted) :
    parseInfix operand sep join s ≠ .exhausted := by
  rw [parseInfix]
  cases hleft : operand s with
  | ok x =>
    have hlen := hf _ _ _ hleft
    exact joinAll_ne_exhausted hf (fun t ht => hends t (by omega)) x.1
  | exhausted => exact absurd hleft (hends s le_rfl)
  | err e => exact nofun
  | panic => exact nofun

end Text
