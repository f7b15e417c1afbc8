import Mathlib.Tactic.Linarith
import Mathlib.Tactic.Zify
import Otomai.Common.Lines
import Otomai.Raster.Line

/-!
# Lines of sight

The line of sight from one cell to another runs along the points of a rounded line.  Half-way between two cells it
takes the one nearer to where it starts, so from the other side it takes the other one.

* `hasLineOfSight_iff`: what the line of sight is.
* `hasLineOfSight_symm_iff`: when it is the same from both sides.
-/

namespace Otomai.Common

open Machine Trace Raster

/-! ### Points of the grid -/

/-- The coordinates are those of a cell. -/
def Coord.OnGrid (c : Coord) : Prop := (0 ≤ c.x - c.y ∧ c.x - c.y < 40) ∧ 0 ≤ c.x + c.y ∧ c.x + c.y < 28

theorem cellCoord_onGrid {u : Nat} {c : Coord} (h : cellCoord u = some c) : c.OnGrid := by
  obtain ⟨hu, hc⟩ := Option.ite_none_right_eq_some.1 h
  rw [← Option.some.inj hc]
  unfold Coord.OnGrid
  simp only [mapWidth, mapCellsCount] at hu ⊢
  omega

theorem Coord.OnGrid.cell {c : Coord} (h : c.OnGrid) : ∃ u, cellCoord u = some c := by
  obtain ⟨x, y⟩ := c
  obtain ⟨⟨hrow, hrow'⟩, hcol, hcol'⟩ := h
  dsimp only at hrow hrow' hcol hcol'
  obtain ⟨r, hr⟩ := Int.eq_ofNat_of_zero_le hrow
  obtain ⟨q, hq⟩ : ∃ q : Nat, y + (r / 2 : Nat) = q := Int.eq_ofNat_of_zero_le (by omega)
  have hcell : 14 * r + q < mapCellsCount := by
    unfold mapCellsCount
    omega
  refine ⟨14 * r + q, (if_pos hcell).trans (congrArg some ?_)⟩
  have hq' : q < 14 := by omega
  have hdiv : (14 * r + q) / 14 = r := by omega
  have hmod : (14 * r + q) % 14 = q := by omega
  simp only [mapWidth, Coord.mk.injEq, ← Int.natCast_ediv, ← Int.natCast_emod]
  rw [hdiv, hmod]
  omega

/-! ### Points of a line -/

attribute [ext] Coord

/-- The direction from one number to another. -/
def toward (a b : Int) : Int := if a < b then 1 else -1

namespace Coord

variable (c0 c1 : Coord)

def dx : Nat := (c1.x - c0.x).natAbs

def dy : Nat := (c1.y - c0.y).natAbs

/-- The length of the longer side. -/
def reach : Nat := max (dx c0 c1) (dy c0 c1)

/-- So many steps from the first coordinate towards the second one. -/
def shift (p : Nat × Nat) : Coord := ⟨c0.x + toward c0.x c1.x * p.1, c0.y + toward c0.y c1.y * p.2⟩

/-- The point of the line after `k` steps, with ties broken towards the first coordinate. -/
def nearPoint (k : Nat) : Coord := c0.shift c1 (linePoint near (dx c0 c1) (dy c0 c1) k)

/-- The point of the line after `k` steps, with ties broken towards the second coordinate. -/
def farPoint (k : Nat) : Coord := c0.shift c1 (linePoint far (dx c0 c1) (dy c0 c1) k)

variable {c0 c1}

theorem sub_eq_toward (a b : Int) : b - a = toward a b * (b - a).natAbs := by
  unfold toward
  split <;> omega

theorem shift_zero : c0.shift c1 (0, 0) = c0 := by
  simp [shift]

theorem shift_end : c0.shift c1 (dx c0 c1, dy c0 c1) = c1 := by
  have hx := sub_eq_toward c0.x c1.x
  have hy := sub_eq_toward c0.y c1.y
  obtain ⟨x1, y1⟩ := c1
  simp only [shift, dx, dy, mk.injEq] at hx hy ⊢
  omega

/-- Steps from the other end. -/
theorem shift_reverse {p q : Nat × Nat} (hx : p.1 + q.1 = dx c0 c1) (hy : p.2 + q.2 = dy c0 c1) :
    c1.shift c0 p = c0.shift c1 q := by
  have hside (a b : Int) (m n : Nat) (h : m + n = (b - a).natAbs) : b + toward b a * m = a + toward a b * n := by
    unfold toward
    split <;> split <;> omega
  simp only [shift, mk.injEq]
  exact ⟨hside _ _ _ _ hx, hside _ _ _ _ hy⟩

theorem dx_comm : dx c1 c0 = dx c0 c1 := by
  unfold dx
  omega

theorem dy_comm : dy c1 c0 = dy c0 c1 := by
  unfold dy
  omega

theorem reach_comm : reach c1 c0 = reach c0 c1 := by
  rw [reach, dx_comm, dy_comm, reach]

/-- The points from the one end are those of the other rounding from the other end. -/
theorem nearPoint_reverse {k : Nat} (hk : k ≤ reach c0 c1) (h : 0 < reach c0 c1) :
    c1.nearPoint c0 (reach c0 c1 - k) = c0.farPoint c1 k := by
  obtain ⟨hx, hy⟩ := linePoint_reverse hk h
  unfold nearPoint farPoint
  rw [dx_comm, dy_comm]
  exact shift_reverse hx hy

/-- A line between two cells stays on the grid. -/
theorem nearPoint_onGrid (h0 : c0.OnGrid) (h1 : c1.OnGrid) {k : Nat} (hk : k ≤ reach c0 c1) :
    (c0.nearPoint c1 k).OnGrid := by
  have hbounds := linePoint_bounds hk
  have hx := sub_eq_toward c0.x c1.x
  have hy := sub_eq_toward c0.y c1.y
  unfold nearPoint shift
  generalize linePoint near (dx c0 c1) (dy c0 c1) k = p at hbounds ⊢
  obtain ⟨i, j⟩ := p
  unfold OnGrid at h0 h1 ⊢
  unfold dx dy at hbounds
  dsimp only at hbounds ⊢
  generalize (c1.x - c0.x).natAbs = dx at hbounds hx
  generalize (c1.y - c0.y).natAbs = dy at hbounds hy
  obtain ⟨hi, hj, hwide, hhigh⟩ := hbounds
  unfold toward at hx hy ⊢
  rcases Nat.le_total dy dx with hle | hle
  · have hcase := hwide hle
    split at hx <;> split at hy <;> simp only [*, if_true, if_false] <;> omega
  · have hcase := hhigh hle
    split at hx <;> split at hy <;> simp only [*, if_true, if_false] <;> omega

theorem nearPoint_zero : c0.nearPoint c1 0 = c0 := by
  rw [nearPoint, linePoint_zero, shift_zero]

theorem nearPoint_reach (h : 0 < reach c0 c1) : c0.nearPoint c1 (reach c0 c1) = c1 := by
  rw [nearPoint, reach, linePoint_max h, shift_end]

/-- The points of a line are different. -/
theorem nearPoint_injective {k l : Nat} (h : c0.nearPoint c1 k = c0.nearPoint c1 l) : k = l := by
  have hcancel (a b : Int) (m n : Nat) (h : a + toward a b * m = a + toward a b * n) : m = n := by
    unfold toward at h
    split at h <;> omega
  simp only [nearPoint, shift, mk.injEq] at h
  have hx := hcancel _ _ _ _ h.1
  have hy := hcancel _ _ _ _ h.2
  unfold linePoint at hx hy
  split at hx <;> simp_all

end Coord

/-! ### The walk -/

/-- The cell at the coordinates lets nobody see through it. -/
def MapData.Blocks (map : MapData) (c : Coord) : Prop :=
  ∃ cell data, cellCoord cell = some c ∧ map.cells[cell]? = some data ∧ data.los = false

/-- The error term at a point of the line. -/
def errorAt (dx dy : Nat) (p : Nat × Nat) : Int := (p.2 + 1) * dx - (p.1 + 1) * dy

theorem errorAt_spec (dx dy : Nat) (p : Nat × Nat) :
    (2 * errorAt dx dy p > -(dy : Int) ↔ (2 * p.1 + 1) * dy < 2 * ((p.2 + 1) * dx)) ∧
      (2 * errorAt dx dy p < dx ↔ (2 * p.2 + 1) * dx < 2 * ((p.1 + 1) * dy)) := by
  obtain ⟨i, j⟩ := p
  simp only [errorAt]
  zify
  constructor
  · constructor <;> intro h <;> linarith
  · constructor <;> intro h <;> linarith

/-- The variables of the walk after one iteration at the point `p` of the line, for whatever is done with them. -/
theorem advance_eq {α : Type} (F : Int → Int → Int → α) (c0 c1 : Coord) (p : Nat × Nat) :
    let c := c0.shift c1 p
    let dx : Int := Coord.dx c0 c1
    let dy : Int := Coord.dy c0 c1
    let err := errorAt (Coord.dx c0 c1) (Coord.dy c0 c1) p
    let q := step (Coord.dx c0 c1) (Coord.dy c0 c1) p
    F (if 2 * err > -dy then c.x + toward c0.x c1.x else c.x) (if 2 * err < dx then c.y + toward c0.y c1.y else c.y)
      ((if 2 * err > -dy then err - dy else err) + (if 2 * err < dx then dx else 0)) =
    F (c0.shift c1 q).x (c0.shift c1 q).y (errorAt (Coord.dx c0 c1) (Coord.dy c0 c1) q) := by
  obtain ⟨hx, hy⟩ := errorAt_spec (Coord.dx c0 c1) (Coord.dy c0 c1) p
  unfold step
  simp only [hx, hy, Coord.shift]
  generalize toward c0.x c1.x = sx
  generalize toward c0.y c1.y = sy
  congr 1
  · split <;> push_cast <;> ring
  · split <;> push_cast <;> ring
  · unfold errorAt
    split <;> split <;> push_cast <;> ring

/-- The walk of the code, at the point `p` of the line. -/
def walkAt (map : MapData) (origin target : Nat) (c0 c1 : Coord) (n : Nat) (p : Nat × Nat) : Ending Bool :=
  losWalk map origin target c1 (Coord.dx c0 c1) (Coord.dy c0 c1) (toward c0.x c1.x) (toward c0.y c1.y) n
    (c0.shift c1 p).x (c0.shift c1 p).y (errorAt (Coord.dx c0 c1) (Coord.dy c0 c1) p)

/-- A step of the walk of the code is a step of the rounded line. -/
theorem walkAt_step (map : MapData) (origin target : Nat) (c0 c1 : Coord) (n : Nat) (p : Nat × Nat) :
    let c := c0.shift c1 p
    let dx : Int := Coord.dx c0 c1
    let dy : Int := Coord.dy c0 c1
    let err := errorAt (Coord.dx c0 c1) (Coord.dy c0 c1) p
    losWalk map origin target c1 dx dy (toward c0.x c1.x) (toward c0.y c1.y) n
      (if 2 * err > -dy then c.x + toward c0.x c1.x else c.x) (if 2 * err < dx then c.y + toward c0.y c1.y else c.y)
      ((if 2 * err > -dy then err - dy else err) + (if 2 * err < dx then dx else 0)) =
    walkAt map origin target c0 c1 n (step (Coord.dx c0 c1) (Coord.dy c0 c1) p) :=
  advance_eq (losWalk map origin target c1 (Coord.dx c0 c1) (Coord.dy c0 c1) (toward c0.x c1.x) (toward c0.y c1.y) n)
    c0 c1 p

section

variable {map : MapData} {origin target : Nat} {c0 c1 : Coord}

/-- The line of sight is clear from a point on if no point after it blocks it. -/
theorem walkAt_iff (horigin : cellCoord origin = some c0) (htarget : cellCoord target = some c1) {n k : Nat}
    (hk : 0 < k) (hle : k ≤ Coord.reach c0 c1) (hn : Coord.reach c0 c1 < n + k) :
    walkAt map origin target c0 c1 n (linePoint near (Coord.dx c0 c1) (Coord.dy c0 c1) k) = .value true ↔
      ∀ l, k ≤ l → l < Coord.reach c0 c1 → ¬map.Blocks (c0.nearPoint c1 l) := by
  induction n generalizing k with
  | zero => omega
  | succ n ih =>
    unfold walkAt losWalk
    rcases Nat.eq_or_lt_of_le hle with rfl | hlt
    · have hend : c0.shift c1 (linePoint near (Coord.dx c0 c1) (Coord.dy c0 c1) (Coord.reach c0 c1)) = c1 :=
        Coord.nearPoint_reach hk
      rw [hend, if_pos ⟨rfl, rfl⟩]
      exact iff_of_true rfl fun l hl hlt => absurd hlt (Nat.not_lt.2 hl)
    · obtain ⟨cell, hcell⟩ :=
        (Coord.nearPoint_onGrid (cellCoord_onGrid horigin) (cellCoord_onGrid htarget) hle).cell
      have hne (l : Nat) (h : c0.nearPoint c1 l = c0.nearPoint c1 k) : l = k := Coord.nearPoint_injective h
      have hnotOrigin : cell ≠ origin := by
        rintro rfl
        have h := hne 0 (Coord.nearPoint_zero.trans (Option.some.inj (horigin.symm.trans hcell)))
        omega
      have hnotTarget : cell ≠ target := by
        rintro rfl
        have h := hne _ ((Coord.nearPoint_reach (by omega)).trans (Option.some.inj (htarget.symm.trans hcell)))
        omega
      have hnotEnd : ¬((c0.nearPoint c1 k).x = c1.x ∧ (c0.nearPoint c1 k).y = c1.y) := fun h => by
        have h := hne _ ((Coord.nearPoint_reach (by omega)).trans (Coord.ext_iff.2 h).symm)
        omega
      have hdata : cell < map.cells.length := map.size ▸ cellCoord_isSome.1 (by rw [hcell]; rfl)
      have hrest := @ih (k + 1) (Nat.succ_pos k) hlt (by omega)
      rw [← step_linePoint hlt, ← walkAt_step] at hrest
      unfold Coord.nearPoint at hcell hnotEnd
      rw [if_neg hnotEnd, coordToCellId_cellCoord hcell]
      simp only [hnotOrigin, hnotTarget, ne_eq, not_false_eq_true, and_self, if_true, List.getElem?_eq_getElem hdata]
      cases hlos : map.cells[cell].los with
      | false =>
        have hblocks : map.Blocks (c0.nearPoint c1 k) :=
          ⟨cell, _, hcell, List.getElem?_eq_getElem hdata, hlos⟩
        exact iff_of_false (fun h => by cases h) fun h => h k le_rfl hlt hblocks
      | true =>
        have hclear : ¬map.Blocks (c0.nearPoint c1 k) := by
          rintro ⟨cell', data, hcell', hdata', hlos'⟩
          obtain rfl : cell = cell' := Option.some.inj
            ((coordToCellId_cellCoord hcell).symm.trans (coordToCellId_cellCoord hcell'))
          rw [List.getElem?_eq_getElem hdata, Option.some.injEq] at hdata'
          rw [hdata', hlos'] at hlos
          cases hlos
        refine hrest.trans ⟨fun h l hl hlt' => ?_, fun h l hl => h l (Nat.le_of_succ_le hl)⟩
        rcases Nat.eq_or_lt_of_le hl with rfl | hl
        · exact hclear
        · exact h l hl hlt'

/-- The line of sight is clear if no point between its ends blocks it. -/
theorem hasLineOfSight_iff (horigin : cellCoord origin = some c0) (htarget : cellCoord target = some c1) :
    hasLineOfSight map origin target = .value true ↔
      ∀ k, 0 < k → k < Coord.reach c0 c1 → ¬map.Blocks (c0.nearPoint c1 k) := by
  have hstart : hasLineOfSight map origin target =
      walkAt map origin target c0 c1 (Coord.dx c0 c1 + Coord.dy c0 c1 + 1) (0, 0) := by
    unfold hasLineOfSight walkAt
    rw [horigin, htarget, Coord.shift_zero]
    simp only [errorAt, Nat.cast_zero, zero_add, one_mul]
    rfl
  rw [hstart]
  rcases Nat.eq_zero_or_pos (Coord.reach c0 c1) with hzero | hpos
  · have hsame : c0 = c1 := by
      unfold Coord.reach Coord.dx Coord.dy at hzero
      exact Coord.ext (by omega) (by omega)
    have hend : (c0.shift c1 (0, 0)).x = c1.x ∧ (c0.shift c1 (0, 0)).y = c1.y := by
      rw [Coord.shift_zero, hsame]
      exact ⟨rfl, rfl⟩
    rw [walkAt, losWalk, if_pos hend]
    exact iff_of_true rfl fun k _ hk => absurd hk (by omega)
  · have hfirst := @walkAt_iff map origin target c0 c1 horigin htarget (Coord.dx c0 c1 + Coord.dy c0 c1) 1
      Nat.one_pos hpos
      (by unfold Coord.reach; omega)
    rw [← step_linePoint hpos, linePoint_zero, ← walkAt_step] at hfirst
    refine Iff.trans (iff_of_eq ?_) hfirst
    have hnotEnd : ¬((c0.shift c1 (0, 0)).x = c1.x ∧ (c0.shift c1 (0, 0)).y = c1.y) := fun h => by
      rw [Coord.shift_zero] at h
      unfold Coord.reach Coord.dx Coord.dy at hpos
      omega
    rw [walkAt, losWalk, if_neg hnotEnd, Coord.shift_zero, coordToCellId_cellCoord horigin]
    simp only [ne_eq, not_true_eq_false, false_and, if_false]

/-! ### From both sides -/

/-- The line of sight is the same from both sides: a point that is no tie blocks it, or the ties block it on the one
side if they do on the other. -/
def MapData.SeesAlike (map : MapData) (c0 c1 : Coord) : Prop :=
  let M := max (Coord.dx c0 c1) (Coord.dy c0 c1)
  let m := min (Coord.dx c0 c1) (Coord.dy c0 c1)
  (∃ k, (0 < k ∧ k < M) ∧ ¬IsTie M m k ∧ map.Blocks (c0.nearPoint c1 k)) ∨
    ((∃ k, (0 < k ∧ k < M) ∧ IsTie M m k ∧ map.Blocks (c0.nearPoint c1 k)) ↔
      ∃ k, (0 < k ∧ k < M) ∧ IsTie M m k ∧ map.Blocks (c0.farPoint c1 k))

/-- Away from the ties the two roundings agree. -/
theorem Coord.nearPoint_eq_farPoint {k : Nat} (h : 0 < Coord.reach c0 c1)
    (htie : ¬IsTie (max (Coord.dx c0 c1) (Coord.dy c0 c1)) (min (Coord.dx c0 c1) (Coord.dy c0 c1)) k) :
    c0.nearPoint c1 k = c0.farPoint c1 k := by
  unfold Coord.reach at h
  unfold Coord.nearPoint Coord.farPoint linePoint
  by_cases hle : Coord.dy c0 c1 ≤ Coord.dx c0 c1
  · rw [max_eq_left hle] at h htie
    rw [min_eq_right hle] at htie
    rw [if_pos hle, if_pos hle, (near_eq_far_iff h).2 htie]
  · have hle' := Nat.le_of_not_le hle
    rw [max_eq_right hle'] at h htie
    rw [min_eq_left hle'] at htie
    rw [if_neg hle, if_neg hle, (near_eq_far_iff h).2 htie]

/-- No number in between has a property: neither one that is a tie, nor one that is not. -/
private theorem between_iff {M m : Nat} {p : Nat → Prop} : (∀ k, 0 < k → k < M → ¬p k) ↔
    ¬((∃ k, (0 < k ∧ k < M) ∧ ¬IsTie M m k ∧ p k) ∨ ∃ k, (0 < k ∧ k < M) ∧ IsTie M m k ∧ p k) := by
  constructor
  · rintro h (⟨k, ⟨hk, hlt⟩, -, hp⟩ | ⟨k, ⟨hk, hlt⟩, -, hp⟩) <;> exact h k hk hlt hp
  · intro h k hk hlt hp
    by_cases htie : IsTie M m k
    · exact h (.inr ⟨k, ⟨hk, hlt⟩, htie, hp⟩)
    · exact h (.inl ⟨k, ⟨hk, hlt⟩, htie, hp⟩)

private theorem or_iff_or {p q r : Prop} : (p ∨ q ↔ p ∨ r) ↔ p ∨ (q ↔ r) := by
  by_cases p <;> simp [*]

/-- The line of sight from one cell to another is the same as the one back, exactly if a point that both walks see
blocks it, or the points where the walks differ do so on both sides or on none. -/
theorem hasLineOfSight_symm_iff (map : MapData) {a b : Nat} {c0 c1 : Coord} (ha : cellCoord a = some c0)
    (hb : cellCoord b = some c1) : hasLineOfSight map a b = hasLineOfSight map b a ↔ map.SeesAlike c0 c1 := by
  have hthere := @hasLineOfSight_iff map a b c0 c1 ha hb
  have hback : hasLineOfSight map b a = .value true ↔
      ∀ k, 0 < k → k < Coord.reach c0 c1 → ¬map.Blocks (c0.farPoint c1 k) := by
    rw [hasLineOfSight_iff hb ha, Coord.reach_comm]
    constructor
    · intro h k hk hlt
      rw [← Coord.nearPoint_reverse (Nat.le_of_lt hlt) (by omega)]
      exact h _ (by omega) (by omega)
    · intro h k hk hlt
      have hpoint := h (Coord.reach c0 c1 - k) (by omega) (by omega)
      rwa [← Coord.nearPoint_reverse (Nat.sub_le ..) (by omega), Nat.sub_sub_self (Nat.le_of_lt hlt)] at hpoint
  obtain ⟨v, hv⟩ := hasLineOfSight_value map (cellCoord_isSome.1 (by rw [ha]; rfl))
    (cellCoord_isSome.1 (by rw [hb]; rfl))
  obtain ⟨w, hw⟩ := hasLineOfSight_value map (cellCoord_isSome.1 (by rw [hb]; rfl))
    (cellCoord_isSome.1 (by rw [ha]; rfl))
  rw [hv, Ending.value.injEq, @between_iff _ (min (Coord.dx c0 c1) (Coord.dy c0 c1))] at hthere
  rw [hw, Ending.value.injEq, @between_iff _ (min (Coord.dx c0 c1) (Coord.dy c0 c1))] at hback
  have hagree :
    (∃ k, (0 < k ∧ k < Coord.reach c0 c1) ∧ ¬IsTie (Coord.reach c0 c1) (min (Coord.dx c0 c1) (Coord.dy c0 c1)) k ∧
        map.Blocks (c0.farPoint c1 k)) ↔
      ∃ k, (0 < k ∧ k < Coord.reach c0 c1) ∧ ¬IsTie (Coord.reach c0 c1) (min (Coord.dx c0 c1) (Coord.dy c0 c1)) k ∧
        map.Blocks (c0.nearPoint c1 k) := by
    refine exists_congr fun k => and_congr_right fun hk => and_congr_right fun htie => ?_
    rw [Coord.nearPoint_eq_farPoint (by omega) htie]
  rw [hagree] at hback
  rw [hv, hw, Ending.value.injEq, Bool.eq_iff_iff, hthere, hback, not_iff_not]
  exact or_iff_or

end

/-- An open map with a wall on cell 1. -/
def MapData.oneWall : MapData where
  topNeighbourId := 0
  bottomNeighbourId := 0
  leftNeighbourId := 0
  rightNeighbourId := 0
  cells := (List.range mapCellsCount).map fun cell => ⟨true, false, cell ≠ 1⟩
  size := by rw [List.length_map, List.length_range]

/-- The line from cell 0 to cell 15 is half-way between cells 1 and 14. -/
theorem hasLineOfSight_symm_iff_oneWall :
    hasLineOfSight .oneWall 0 15 = hasLineOfSight .oneWall 15 0 ↔ MapData.oneWall.SeesAlike ⟨0, 0⟩ ⟨2, 1⟩ :=
  hasLineOfSight_symm_iff .oneWall (by decide) (by decide)

/-- It is clear from cell 0, where it passes over cell 14, and blocked from cell 15, where it passes over cell 1. -/
theorem hasLineOfSight_not_symm : ¬∀ (map : MapData) (a b : Nat), a < mapCellsCount → b < mapCellsCount →
    hasLineOfSight map a b = hasLineOfSight map b a := by
  intro h
  have hthere : hasLineOfSight .oneWall 0 15 = .value true := by decide +kernel
  have hback : hasLineOfSight .oneWall 15 0 = .value false := by decide +kernel
  have hsame := h .oneWall 0 15 (by decide) (by decide)
  rw [hthere, hback] at hsame
  cases hsame

end Otomai.Common
