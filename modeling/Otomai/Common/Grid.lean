import Mathlib.Algebra.Order.Ring.Int
import Mathlib.Tactic.Ring
import Otomai.Common.Machine
import Otomai.Trace.Program

/-!
# The grid of a map

The 560 cells of a map lie on a staggered grid.  The table of coordinates is built row by row; `cellCoord` gives its
entries (`buildCellCoords_eq`), and none outside of it: looking up such a cell is an index out of bounds, which the
functions here report as `none`.

* `cellNeighbours_lt`: the neighbours of a cell are cells.
* `hasLineOfSight_value`: between two cells the line of sight is always decided, by the bound on the steps of the walk
  (`losWalk_value`).
-/

namespace Otomai.Common

open Machine Trace

def mapWidth : Nat := 14

def mapCellsCount : Nat := 560

structure Coord where
  x : Int
  y : Int
  deriving DecidableEq, Repr

/-- The offsets of the directions 0 to 7: E, SE, S, SW, W, NW, N, NE. -/
def dirOffsets : List (Int × Int) := [(1, 1), (1, 0), (1, -1), (0, -1), (-1, -1), (-1, 0), (-1, 1), (0, 1)]

/-! ### The table of coordinates -/

/-- A sub-row of the table, from its first coordinate. -/
def subRow (startX startY : Int) : List Coord :=
  (List.range mapWidth).map fun b => ⟨startX + b, startY + b⟩

/-- `build_cell_coords`: each row is two sub-rows, the second of which starts one further in `x`. -/
def buildRows : Nat → Int → Int → List Coord
  | 0, _, _ => []
  | rows + 1, startX, startY =>
    subRow startX startY ++ subRow (startX + 1) startY ++ buildRows rows (startX + 1) (startY - 1)

def buildCellCoords : List Coord := buildRows 20 0 0

/-- The coordinate of a cell; `none` is an index out of bounds. -/
def cellCoord (cell : Nat) : Option Coord :=
  if cell < mapCellsCount then
    some ⟨(cell / mapWidth + 1) / 2 + cell % mapWidth, cell % mapWidth - cell / mapWidth / 2⟩
  else none

private theorem getElem?_of_map_range {α : Type} {l : List α} {n : Nat} {f : Nat → Option α}
    (h : l.map some = (List.range n).map f) (hf : ∀ k, n ≤ k → f k = none) (k : Nat) : l[k]? = f k := by
  have hk : l[k]?.map some = (List.range n)[k]?.map f := by
    rw [← List.getElem?_map, ← List.getElem?_map, h]
  by_cases hlt : k < n
  · rw [List.getElem?_range hlt, Option.map_some] at hk
    obtain ⟨c, hc, hf⟩ := Option.map_eq_some_iff.1 hk
    rw [hc, hf]
  · have hle := Nat.le_of_not_lt hlt
    have hout : (List.range n)[k]? = none := List.getElem?_eq_none (by rwa [List.length_range])
    rw [hout, Option.map_none, Option.map_eq_none_iff] at hk
    rw [hk, hf k hle]

theorem buildCellCoords_eq (cell : Nat) : buildCellCoords[cell]? = cellCoord cell := by
  have htable : buildCellCoords.map some = (List.range mapCellsCount).map cellCoord := by decide +kernel
  exact getElem?_of_map_range htable (fun _ hle => if_neg (Nat.not_lt.2 hle)) cell

theorem cellCoord_isSome {cell : Nat} : (cellCoord cell).isSome ↔ cell < mapCellsCount := by
  unfold cellCoord
  split <;> simp_all

/-- `coord_to_cell_id`. -/
def coordToCellId (x y : Int) : Option Nat :=
  let diff := x - y
  let id := diff * mapWidth + y + diff.tdiv 2
  if 0 ≤ id ∧ id < mapCellsCount then some id.toNat else none

theorem coordToCellId_lt {x y : Int} {cell : Nat} (h : coordToCellId x y = some cell) : cell < mapCellsCount := by
  obtain ⟨hid, hcell⟩ := Option.ite_none_right_eq_some.1 h
  have := Option.some.inj hcell
  omega

/-! ### Neighbours, distances and directions -/

/-- `cell_neighbours`: the neighbours of a cell with their directions. -/
def cellNeighbours (cell : Nat) : Option (List (Nat × Nat)) :=
  (cellCoord cell).map fun c =>
    dirOffsets.zipIdx.filterMap fun (offset, dir) =>
      match coordToCellId (c.x + offset.1) (c.y + offset.2) with
      | some next => if next ≠ cell then some (next, dir) else none
      | none => none

theorem cellNeighbours_lt {cell : Nat} {neighbours : List (Nat × Nat)} (h : cellNeighbours cell = some neighbours)
    {next dir : Nat} (hmem : (next, dir) ∈ neighbours) : next < mapCellsCount := by
  obtain ⟨c, -, rfl⟩ := Option.map_eq_some_iff.1 h
  obtain ⟨⟨offset, d⟩, -, hnext⟩ := List.mem_filterMap.1 hmem
  cases hid : coordToCellId (c.x + offset.1) (c.y + offset.2) with
  | none => simp [hid] at hnext
  | some n =>
    simp only [hid, Option.ite_none_right_eq_some, Option.some.injEq, Prod.mk.injEq] at hnext
    exact hnext.2.1 ▸ coordToCellId_lt hid

theorem cellNeighbours_isSome {cell : Nat} : (cellNeighbours cell).isSome ↔ cell < mapCellsCount := by
  rw [cellNeighbours, Option.isSome_map, cellCoord_isSome]

/-- The Manhattan distance of the coordinates of two cells. -/
def distance (a b : Nat) : Option Nat := do
  let ca ← cellCoord a
  let cb ← cellCoord b
  return (ca.x - cb.x).natAbs + (ca.y - cb.y).natAbs

theorem distance_isSome {a b : Nat} : (distance a b).isSome ↔ a < mapCellsCount ∧ b < mapCellsCount := by
  rw [← cellCoord_isSome, ← cellCoord_isSome]
  unfold distance
  cases cellCoord a <;> cases cellCoord b <;> simp

private theorem cellCoord_bounds {cell : Nat} {c : Coord} (h : cellCoord cell = some c) :
    0 ≤ c.x ∧ c.x < 34 ∧ -20 < c.y ∧ c.y < 14 := by
  obtain ⟨hcell, hc⟩ := Option.ite_none_right_eq_some.1 h
  obtain rfl := Option.some.inj hc
  simp only [mapWidth, mapCellsCount] at hcell ⊢
  omega

/-- No two cells are further apart. -/
theorem distance_lt {a b d : Nat} (h : distance a b = some d) : d < 66 := by
  unfold distance at h
  cases ha : cellCoord a with
  | none => simp [ha] at h
  | some ca =>
    cases hb : cellCoord b with
    | none => simp [ha, hb] at h
    | some cb =>
      have hca := cellCoord_bounds ha
      have hcb := cellCoord_bounds hb
      simp only [ha, hb, Option.bind_eq_bind, Option.bind_some, Option.pure_def, Option.some.injEq] at h
      omega

/-- `direction_between`: an index out of bounds, or the direction, if there is one. -/
def directionBetween (origin target : Nat) : Option (Option Nat) := do
  let cf ← cellCoord origin
  let ct ← cellCoord target
  return dirOffsets.idxOf? ((ct.x - cf.x).sign, (ct.y - cf.y).sign)

theorem directionBetween_isSome {a b : Nat} :
    (directionBetween a b).isSome ↔ a < mapCellsCount ∧ b < mapCellsCount := by
  rw [← cellCoord_isSome, ← cellCoord_isSome]
  unfold directionBetween
  cases cellCoord a <;> cases cellCoord b <;> simp

/-! ### Map data -/

/-- What is known of a cell of a map. -/
structure CellData where
  mov : Bool
  nonWalkableDuringRp : Bool
  los : Bool
  deriving DecidableEq, Repr

def CellData.isWalkable (c : CellData) : Bool := c.mov && !c.nonWalkableDuringRp

/-- A parsed map: the parser reads as many cells as the grid has. -/
structure MapData where
  topNeighbourId : Int
  bottomNeighbourId : Int
  leftNeighbourId : Int
  rightNeighbourId : Int
  cells : List CellData
  size : cells.length = mapCellsCount

/-! ### Line of sight -/

/-- The walk of `has_line_of_sight` from `(x, y)`, within a number of steps. -/
def losWalk (map : MapData) (origin target : Nat) (c1 : Coord) (dx dy sx sy : Int) :
    Nat → Int → Int → Int → Ending Bool
  | 0, _, _, _ => .exhausted
  | steps + 1, x, y, err =>
    if x = c1.x ∧ y = c1.y then .value true
    else match coordToCellId x y with
      | none => .value false
      | some cell =>
        let onward :=
          losWalk map origin target c1 dx dy sx sy steps (if 2 * err > -dy then x + sx else x)
            (if 2 * err < dx then y + sy else y)
            ((if 2 * err > -dy then err - dy else err) + (if 2 * err < dx then dx else 0))
        if cell ≠ origin ∧ cell ≠ target then
          match map.cells[cell]? with
          | none => .panic
          | some data => if data.los then onward else .value false
        else onward

/-- `has_line_of_sight`.  Each step of the walk comes nearer to the target in at least one coordinate and passes it in
none, so `dx + dy + 1` steps suffice. -/
def hasLineOfSight (map : MapData) (origin target : Nat) : Ending Bool :=
  match cellCoord origin, cellCoord target with
  | some c0, some c1 =>
    let dx : Int := (c1.x - c0.x).natAbs
    let dy : Int := (c1.y - c0.y).natAbs
    let sx : Int := if c0.x < c1.x then 1 else -1
    let sy : Int := if c0.y < c1.y then 1 else -1
    losWalk map origin target c1 dx dy sx sy ((c1.x - c0.x).natAbs + (c1.y - c0.y).natAbs + 1) c0.x c0.y (dx - dy)
  | _, _ => .panic

/-- `p` and `q` are the distances left in each coordinate.  The error term says which of them is to be reduced. -/
theorem losWalk_value {map : MapData} {origin target : Nat} {c1 : Coord} {dx dy sx sy : Int} (hdx : 0 ≤ dx)
    (hdy : 0 ≤ dy) {steps p q : Nat} (hsteps : p + q < steps) (hpdx : p ≤ dx) (hqdy : q ≤ dy) {x y err : Int}
    (hx : x = c1.x - sx * p) (hy : y = c1.y - sy * q) (herr : err = dx - dy + p * dy - q * dx) :
    ∃ b, losWalk map origin target c1 dx dy sx sy steps x y err = .value b := by
  induction steps generalizing p q x y err with
  | zero => omega
  | succ steps ih =>
    unfold losWalk
    by_cases hend : x = c1.x ∧ y = c1.y
    · exact ⟨true, if_pos hend⟩
    rw [if_neg hend]
    have hpq : ¬(p = 0 ∧ q = 0) := by
      rintro ⟨rfl, rfl⟩
      exact hend ⟨by simp [hx], by simp [hy]⟩
    have hp : p = 0 ∨ dy ≤ p * dy ∧ 1 ≤ p := by
      rcases Nat.eq_zero_or_pos p with h | h
      · exact .inl h
      · exact .inr ⟨le_mul_of_one_le_left hdy (by exact_mod_cast h), h⟩
    have hq : q = 0 ∨ dx ≤ q * dx ∧ 1 ≤ q := by
      rcases Nat.eq_zero_or_pos q with h | h
      · exact .inl h
      · exact .inr ⟨le_mul_of_one_le_left hdx (by exact_mod_cast h), h⟩
    -- a coordinate that has been reached is not moved, and one of the two is moved
    have hxstep : 2 * err > -dy → 1 ≤ p := by
      intro h
      rcases hp with rfl | hp
      · rcases hq with rfl | hq
        · exact absurd ⟨rfl, rfl⟩ hpq
        · rw [Nat.cast_zero, zero_mul] at herr
          omega
      · exact hp.2
    have hystep : 2 * err < dx → 1 ≤ q := by
      intro h
      rcases hq with rfl | hq
      · rcases hp with rfl | hp
        · exact absurd ⟨rfl, rfl⟩ hpq
        · rw [Nat.cast_zero, zero_mul] at herr
          omega
      · exact hq.2
    have hmoves : 2 * err > -dy ∨ 2 * err < dx := by omega
    have honward : ∃ b, losWalk map origin target c1 dx dy sx sy steps (if 2 * err > -dy then x + sx else x)
        (if 2 * err < dx then y + sy else y)
        ((if 2 * err > -dy then err - dy else err) + (if 2 * err < dx then dx else 0)) = .value b := by
      refine ih (p := if 2 * err > -dy then p - 1 else p) (q := if 2 * err < dx then q - 1 else q) ?_ ?_ ?_ ?_ ?_ ?_
      · split <;> split <;> omega
      · split <;> omega
      · split <;> omega
      · split
        · have hcast : ((p - 1 : Nat) : Int) = p - 1 := Int.ofNat_sub (hxstep ‹_›)
          rw [hcast, hx]; ring
        · exact hx
      · split
        · have hcast : ((q - 1 : Nat) : Int) = q - 1 := Int.ofNat_sub (hystep ‹_›)
          rw [hcast, hy]; ring
        · exact hy
      · have hpcast : 2 * err > -dy → ((p - 1 : Nat) : Int) = p - 1 := fun h => Int.ofNat_sub (hxstep h)
        have hqcast : 2 * err < dx → ((q - 1 : Nat) : Int) = q - 1 := fun h => Int.ofNat_sub (hystep h)
        split <;> split
        · rw [hpcast ‹_›, hqcast ‹_›, herr]; ring
        · rw [hpcast ‹_›, herr]; ring
        · rw [hqcast ‹_›, herr]; ring
        · rw [herr]; ring
    cases hcell : coordToCellId x y with
    | none => exact ⟨false, rfl⟩
    | some cell =>
      have hlt : cell < map.cells.length := by
        rw [map.size]
        exact coordToCellId_lt hcell
      by_cases hbetween : cell ≠ origin ∧ cell ≠ target
      · simp only [if_pos hbetween, List.getElem?_eq_getElem hlt]
        split
        · exact honward
        · exact ⟨false, rfl⟩
      · simp only [if_neg hbetween]
        exact honward

/-- The line of sight between two cells is decided, without an index out of bounds. -/
theorem hasLineOfSight_value (map : MapData) {origin target : Nat} (horigin : origin < mapCellsCount)
    (htarget : target < mapCellsCount) : ∃ b, hasLineOfSight map origin target = .value b := by
  obtain ⟨c0, hc0⟩ := Option.isSome_iff_exists.1 (cellCoord_isSome.2 horigin)
  obtain ⟨c1, hc1⟩ := Option.isSome_iff_exists.1 (cellCoord_isSome.2 htarget)
  unfold hasLineOfSight
  simp only [hc0, hc1]
  refine losWalk_value (p := (c1.x - c0.x).natAbs) (q := (c1.y - c0.y).natAbs) (by omega) (by omega)
    (Nat.lt_succ_self _) (by omega) (by omega) ?_ ?_ (by ring)
  · split <;> omega
  · split <;> omega

end Otomai.Common
