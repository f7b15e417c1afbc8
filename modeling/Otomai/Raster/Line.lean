import Mathlib.Algebra.Order.Ring.Nat
import Mathlib.Tactic.Ring

/-!
# Lines on a grid of integers

A line takes `M` steps along its longer side, of length `M`, and is at `k * m / M` of its shorter side, of length `m`,
after `k` of them.  A walk with an error term goes to the nearest integer.  Half-way between two integers it takes the
one nearer to its start, so that a walk the other way takes the other one there.

* `near`, `far`: the nearest integer, with a tie broken towards the start and towards the end.
* `step_linePoint`: the walk goes along the points of `near`.
* `linePoint_reverse`: the walk the other way goes along the points of `far`.
* `near_eq_far_iff`: they differ at the ties.
-/

namespace Raster

/-- The integer nearest to `k * m / M`, of two the one nearer to the start. -/
def near (M m k : Nat) : Nat := (2 * (k * m) + M - 1) / (2 * M)

/-- The integer nearest to `k * m / M`, of two the one nearer to the end. -/
def far (M m k : Nat) : Nat := (2 * (k * m) + M) / (2 * M)

/-- The line is half-way between two integers. -/
def IsTie (M m k : Nat) : Prop := 2 * M ∣ 2 * (k * m) + M

instance (M m k : Nat) : Decidable (IsTie M m k) := inferInstanceAs (Decidable (_ ∣ _))

section

variable {M m k l j : Nat}

private theorem div_eq_iff {a : Nat} (hM : 0 < M) : a / (2 * M) = j ↔ 2 * (M * j) ≤ a ∧ a < 2 * (M * j) + 2 * M := by
  rw [Nat.div_eq_iff (by omega)]
  have hmul : j * (2 * M) = 2 * (M * j) := by ring
  omega

theorem near_eq_iff (hM : 0 < M) : near M m k = j ↔ 2 * (M * j) < 2 * (k * m) + M ∧ 2 * (k * m) ≤ 2 *
    (M * j) + M := by
  rw [near, div_eq_iff hM]
  omega

theorem far_eq_iff (hM : 0 < M) : far M m k = j ↔ 2 * (M * j) ≤ 2 * (k * m) + M ∧ 2 * (k * m) < 2 * (M * j) + M := by
  rw [far, div_eq_iff hM]
  omega

theorem near_zero (hM : 0 < M) : near M m 0 = 0 := by
  rw [near_eq_iff hM]
  omega

theorem near_self (hM : 0 < M) : near M m M = m := by
  rw [near_eq_iff hM]
  omega

/-- From one point to the next, the shorter side advances if the line gets past the middle. -/
theorem near_succ (hM : 0 < M) (hm : m ≤ M) (k : Nat) :
    near M m (k + 1) = if 2 * (M * near M m k) + M < 2 * ((k + 1) * m) then near M m k + 1 else near M m k := by
  obtain ⟨hlow, hhigh⟩ := (near_eq_iff hM).1 (rfl : near M m k = _)
  generalize near M m k = j at hlow hhigh ⊢
  have hk : (k + 1) * m = k * m + m := by ring
  have hj : M * (j + 1) = M * j + M := by ring
  split
  · rw [near_eq_iff hM]
    omega
  · rw [near_eq_iff hM]
    omega

theorem near_mono (hM : 0 < M) (hm : m ≤ M) (hkl : k ≤ l) :
    near M m k ≤ near M m l ∧ near M m l + k ≤ near M m k + l := by
  induction l, hkl using Nat.le_induction with
  | base => exact ⟨le_rfl, le_rfl⟩
  | succ l _ ih =>
    rw [near_succ hM hm]
    split <;> omega

theorem near_le (hM : 0 < M) (hm : m ≤ M) (hk : k ≤ M) : near M m k ≤ m := by
  have h := (near_mono hM hm hk).1
  rwa [near_self hM] at h

/-- The other way round, ties are broken the other way. -/
theorem near_add_far (hM : 0 < M) (hm : m ≤ M) (hk : k ≤ M) : near M m (M - k) + far M m k = m := by
  have hle := near_le hM hm (Nat.sub_le M k)
  obtain ⟨hlow, hhigh⟩ := (near_eq_iff hM).1 (rfl : near M m (M - k) = _)
  generalize near M m (M - k) = j at hle hlow hhigh ⊢
  obtain ⟨j', rfl⟩ := Nat.exists_eq_add_of_le hle
  obtain ⟨k', rfl⟩ := Nat.exists_eq_add_of_le hk
  rw [Nat.add_left_cancel_iff, far_eq_iff hM]
  rw [Nat.add_sub_cancel_left] at hlow hhigh
  have hsum : k' * (j + j') + k * (j + j') = (k + k') * j + (k + k') * j' := by ring
  omega

theorem near_eq_far_iff (hM : 0 < M) : near M m k = far M m k ↔ ¬IsTie M m k := by
  obtain ⟨hlow, hhigh⟩ := (far_eq_iff hM).1 (rfl : far M m k = _)
  rw [near_eq_iff hM]
  generalize far M m k = j at hlow hhigh ⊢
  constructor
  · rintro ⟨hlt, -⟩ ⟨c, hc⟩
    rw [Nat.mul_assoc] at hc
    have hj : M * j < M * c := by omega
    have hc' : M * c < M * (j + 1) := by
      rw [Nat.mul_add, Nat.mul_one]
      omega
    have := Nat.lt_of_mul_lt_mul_left hj
    have := Nat.lt_of_mul_lt_mul_left hc'
    omega
  · intro htie
    refine ⟨Nat.lt_of_le_of_ne hlow fun heq => htie ⟨j, ?_⟩, by omega⟩
    rw [Nat.mul_assoc, heq]

/-! ### The walk -/

/-- A step of the walk from the point `(i, j)`: each side advances if its own next half is not past the other one. -/
def step (dx dy : Nat) (p : Nat × Nat) : Nat × Nat :=
  (if (2 * p.1 + 1) * dy < 2 * ((p.2 + 1) * dx) then p.1 + 1 else p.1,
    if (2 * p.2 + 1) * dx < 2 * ((p.1 + 1) * dy) then p.2 + 1 else p.2)

/-- The point after `k` steps on the longer side, for a rounding of the shorter one. -/
def linePoint (round : Nat → Nat → Nat → Nat) (dx dy k : Nat) : Nat × Nat :=
  if dy ≤ dx then (k, round dx dy k) else (round dy dx k, k)

/-- The longer side always advances. -/
theorem longer_advances (hM : 0 < M) (hm : m ≤ M) (k : Nat) : (2 * k + 1) * m < 2 * ((near M m k + 1) * M) := by
  obtain ⟨-, hhigh⟩ := (near_eq_iff hM).1 (rfl : near M m k = _)
  have hleft : (2 * k + 1) * m = 2 * (k * m) + m := by ring
  have hright : 2 * ((near M m k + 1) * M) = 2 * (M * near M m k) + 2 * M := by ring
  rcases Nat.lt_or_eq_of_le hm with hlt | rfl
  · omega
  · -- on a diagonal there is nothing to round
    have hcomm := Nat.mul_comm k m
    have hsame : near m m k = k := (near_eq_iff hM).2 (by omega)
    rw [hsame] at hright ⊢
    omega

theorem shorter_advances_iff {j : Nat} : (2 * j + 1) * M < 2 * ((k + 1) * m) ↔ 2 * (M * j) + M < 2 *
    ((k + 1) * m) := by
  have h : (2 * j + 1) * M = 2 * (M * j) + M := by ring
  rw [h]

variable {dx dy : Nat}

/-- The walk goes along the line. -/
theorem step_linePoint (hk : k < max dx dy) : step dx dy (linePoint near dx dy k) = linePoint near dx dy (k + 1) := by
  unfold linePoint step
  by_cases hle : dy ≤ dx
  · have hpos : 0 < dx := by omega
    have hlonger := longer_advances hpos hle k
    simp only [if_pos hle, hlonger, if_true, shorter_advances_iff, near_succ hpos hle]
  · have hpos : 0 < dy := by omega
    have hle' := Nat.le_of_not_le hle
    have hlonger := longer_advances hpos hle' k
    simp only [if_neg hle, hlonger, if_true, shorter_advances_iff, near_succ hpos hle']

theorem linePoint_zero : linePoint near dx dy 0 = (0, 0) := by
  unfold linePoint
  rcases Nat.eq_zero_or_pos (max dx dy) with h | h
  · obtain ⟨rfl, rfl⟩ : dx = 0 ∧ dy = 0 := by omega
    rfl
  · split
    · rw [near_zero (by omega)]
    · rw [near_zero (by omega)]

theorem linePoint_max (h : 0 < max dx dy) : linePoint near dx dy (max dx dy) = (dx, dy) := by
  unfold linePoint
  by_cases hle : dy ≤ dx
  · rw [if_pos hle, max_eq_left hle, near_self (by omega)]
  · rw [if_neg hle, max_eq_right (Nat.le_of_not_le hle), near_self (by omega)]

theorem linePoint_bounds (hk : k ≤ max dx dy) :
    (linePoint near dx dy k).1 ≤ dx ∧ (linePoint near dx dy k).2 ≤ dy ∧
      (dy ≤ dx → (linePoint near dx dy k).2 ≤ (linePoint near dx dy k).1 ∧
        (linePoint near dx dy k).1 + dy ≤ (linePoint near dx dy k).2 + dx) ∧
      (dx ≤ dy → (linePoint near dx dy k).1 ≤ (linePoint near dx dy k).2 ∧
        (linePoint near dx dy k).2 + dx ≤ (linePoint near dx dy k).1 + dy) := by
  rcases Nat.eq_zero_or_pos (max dx dy) with h | h
  · obtain ⟨rfl, rfl, rfl⟩ : dx = 0 ∧ dy = 0 ∧ k = 0 := by omega
    rw [linePoint_zero]
    simp
  · unfold linePoint
    by_cases hle : dy ≤ dx
    · rw [max_eq_left hle] at h hk
      have hfirst := near_mono h hle (Nat.zero_le k)
      have hlast := near_mono h hle hk
      rw [near_zero h] at hfirst
      rw [near_self h] at hlast
      simp only [if_pos hle]
      omega
    · have hle' := Nat.le_of_not_le hle
      rw [max_eq_right hle'] at h hk
      have hfirst := near_mono h hle' (Nat.zero_le k)
      have hlast := near_mono h hle' hk
      rw [near_zero h] at hfirst
      rw [near_self h] at hlast
      simp only [if_neg hle]
      omega

/-- From the other end, the point `max dx dy - k` of the walk is the one of the rounding towards that end. -/
theorem linePoint_reverse (hk : k ≤ max dx dy) (h : 0 < max dx dy) :
    (linePoint near dx dy (max dx dy - k)).1 + (linePoint far dx dy k).1 = dx ∧
      (linePoint near dx dy (max dx dy - k)).2 + (linePoint far dx dy k).2 = dy := by
  unfold linePoint
  by_cases hle : dy ≤ dx
  · rw [max_eq_left hle] at hk ⊢
    simp only [if_pos hle]
    exact ⟨Nat.sub_add_cancel hk, near_add_far (by omega) hle hk⟩
  · have hle' := Nat.le_of_not_le hle
    rw [max_eq_right hle'] at hk ⊢
    simp only [if_neg hle]
    exact ⟨near_add_far (by omega) hle' hk, Nat.sub_add_cancel hk⟩

end

end Raster
