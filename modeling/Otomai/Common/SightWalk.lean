import Otomai.Common.Sight

/-!
# The walk of a line of sight

The loop of `has_line_of_sight` with the coordinates that it comes to, and with the way it ends.  From one cell to
another it comes to the points of the line one after the other, all of them coordinates of cells, and stops at the end
of the line or at a point before it that blocks the sight.

* `losTrace_ending`: the loop with its coordinates is the loop of the code.
* `walkTrace_spec`: what it comes to and how it ends.
* `lineOfSight_walk`: the walk stays on the grid, has no more steps than the longer side, and is stopped by nothing
  but a cell in between.
-/

namespace Otomai.Common

open Machine Trace Raster

/-! ### The loop -/

/-- The ways out of the loop. -/
inductive LosExit where
  | reached
  | blocked
  | outOfBounds
  | panic
  | exhausted
  deriving DecidableEq, Repr

/-- What the function returns then. -/
def LosExit.ending : LosExit → Ending Bool
  | reached => .value true
  | blocked => .value false
  | outOfBounds => .value false
  | panic => .panic
  | exhausted => .exhausted

/-- The loop from `(x, y)`: the coordinates at the head of each iteration, and how the loop ends. -/
def losTrace (map : MapData) (origin target : Nat) (c1 : Coord) (dx dy sx sy : Int) :
    Nat → Int → Int → Int → List Coord × LosExit
  | 0, _, _, _ => ([], .exhausted)
  | steps + 1, x, y, err =>
    if x = c1.x ∧ y = c1.y then ([⟨x, y⟩], .reached)
    else match coordToCellId x y with
      | none => ([⟨x, y⟩], .outOfBounds)
      | some cell =>
        let onward :=
          losTrace map origin target c1 dx dy sx sy steps (if 2 * err > -dy then x + sx else x)
            (if 2 * err < dx then y + sy else y)
            ((if 2 * err > -dy then err - dy else err) + (if 2 * err < dx then dx else 0))
        if cell ≠ origin ∧ cell ≠ target then
          match map.cells[cell]? with
          | none => ([⟨x, y⟩], .panic)
          | some data => if data.los then (⟨x, y⟩ :: onward.1, onward.2) else ([⟨x, y⟩], .blocked)
        else (⟨x, y⟩ :: onward.1, onward.2)

theorem losTrace_ending (map : MapData) (origin target : Nat) (c1 : Coord) (dx dy sx sy : Int) (steps : Nat)
    (x y err : Int) : (losTrace map origin target c1 dx dy sx sy steps x y err).2.ending =
      losWalk map origin target c1 dx dy sx sy steps x y err := by
  induction steps generalizing x y err with
  | zero => rfl
  | succ steps ih =>
    unfold losTrace losWalk
    by_cases hend : x = c1.x ∧ y = c1.y
    · rw [if_pos hend, if_pos hend]
      rfl
    rw [if_neg hend, if_neg hend]
    cases coordToCellId x y with
    | none => rfl
    | some cell =>
      by_cases hbetween : cell ≠ origin ∧ cell ≠ target
      · simp only [if_pos hbetween]
        cases map.cells[cell]? with
        | none => rfl
        | some data =>
          dsimp only
          cases data.los with
          | true => exact ih _ _ _
          | false => rfl
      · simp only [if_neg hbetween]
        exact ih _ _ _

/-- The walk of `has_line_of_sight`, with room for `steps` iterations. -/
def lineOfSight (map : MapData) (origin target steps : Nat) : List Coord × LosExit :=
  match cellCoord origin, cellCoord target with
  | some c0, some c1 =>
    let dx : Int := (c1.x - c0.x).natAbs
    let dy : Int := (c1.y - c0.y).natAbs
    let sx : Int := if c0.x < c1.x then 1 else -1
    let sy : Int := if c0.y < c1.y then 1 else -1
    losTrace map origin target c1 dx dy sx sy steps c0.x c0.y (dx - dy)
  | _, _ => ([], .panic)

/-! ### Along the line -/

section

variable {map : MapData} {origin target : Nat} {c0 c1 : Coord}

/-- The loop at the point `p` of the line. -/
def traceAt (map : MapData) (origin target : Nat) (c0 c1 : Coord) (n : Nat) (p : Nat × Nat) : List Coord × LosExit :=
  losTrace map origin target c1 (Coord.dx c0 c1) (Coord.dy c0 c1) (toward c0.x c1.x) (toward c0.y c1.y) n
    (c0.shift c1 p).x (c0.shift c1 p).y (errorAt (Coord.dx c0 c1) (Coord.dy c0 c1) p)

theorem lineOfSight_eq (horigin : cellCoord origin = some c0) (htarget : cellCoord target = some c1) (n : Nat) :
    lineOfSight map origin target n = traceAt map origin target c0 c1 n (0, 0) := by
  unfold lineOfSight traceAt
  rw [horigin, htarget, Coord.shift_zero]
  simp only [errorAt, Nat.cast_zero, zero_add, one_mul]
  rfl

/-- The cell at a point of the line. -/
theorem nearPoint_cell (horigin : cellCoord origin = some c0) (htarget : cellCoord target = some c1) {k : Nat}
    (hk : k ≤ Coord.reach c0 c1) : ∃ cell, cellCoord cell = some (c0.nearPoint c1 k) :=
  (Coord.nearPoint_onGrid (cellCoord_onGrid horigin) (cellCoord_onGrid htarget) hk).cell

/-- Only the last point of the line is its target. -/
theorem nearPoint_ne_target {k : Nat} (hk : k < Coord.reach c0 c1) :
    ¬((c0.nearPoint c1 k).x = c1.x ∧ (c0.nearPoint c1 k).y = c1.y) := by
  intro h
  have hlast : c0.nearPoint c1 (Coord.reach c0 c1) = c1 := Coord.nearPoint_reach (by omega)
  have hsame := Coord.nearPoint_injective ((Coord.ext_iff.2 h).trans hlast.symm)
  omega

/-- The points between the ends are those of other cells. -/
theorem nearPoint_between (horigin : cellCoord origin = some c0) (htarget : cellCoord target = some c1) {k : Nat}
    (hpos : 0 < k) (hk : k < Coord.reach c0 c1) {cell : Nat} (hcell : cellCoord cell = some (c0.nearPoint c1 k)) :
    cell ≠ origin ∧ cell ≠ target := by
  constructor
  · rintro rfl
    have hsame := Coord.nearPoint_injective (Coord.nearPoint_zero.trans (Option.some.inj (horigin.symm.trans hcell)))
    omega
  · rintro rfl
    have hend : c0.nearPoint c1 k = c1 := Option.some.inj (hcell.symm.trans htarget)
    exact nearPoint_ne_target hk (Coord.ext_iff.1 hend)

theorem nearPoint_last : c0.nearPoint c1 (Coord.reach c0 c1) = c1 := by
  rcases Nat.eq_zero_or_pos (Coord.reach c0 c1) with hzero | hpos
  · rw [hzero, Coord.nearPoint_zero]
    unfold Coord.reach Coord.dx Coord.dy at hzero
    exact Coord.ext (by omega) (by omega)
  · exact Coord.nearPoint_reach hpos

/-- The iteration at the end of the line. -/
theorem traceAt_reach (n : Nat) :
    traceAt map origin target c0 c1 (n + 1) (linePoint near (Coord.dx c0 c1) (Coord.dy c0 c1) (Coord.reach c0 c1)) =
      ([c1], .reached) := by
  have hlast : c0.shift c1 (linePoint near (Coord.dx c0 c1) (Coord.dy c0 c1) (Coord.reach c0 c1)) = c1 :=
    nearPoint_last
  unfold traceAt losTrace
  rw [hlast, if_pos ⟨rfl, rfl⟩]

/-- The iteration at a point that blocks the sight. -/
theorem traceAt_blocked (horigin : cellCoord origin = some c0) (htarget : cellCoord target = some c1) {k : Nat}
    (hpos : 0 < k) (hk : k < Coord.reach c0 c1) (hblocks : map.Blocks (c0.nearPoint c1 k)) (n : Nat) :
    traceAt map origin target c0 c1 (n + 1) (linePoint near (Coord.dx c0 c1) (Coord.dy c0 c1) k) =
      ([c0.nearPoint c1 k], .blocked) := by
  obtain ⟨cell, data, hcell, hdata, hlos⟩ := hblocks
  have hbetween := nearPoint_between horigin htarget hpos hk hcell
  have hend := nearPoint_ne_target hk
  have hid := coordToCellId_cellCoord hcell
  unfold Coord.nearPoint at hend hid ⊢
  unfold traceAt losTrace
  simp only [if_neg hend, hid, if_pos hbetween, hdata, hlos, Bool.false_eq_true, if_false]

/-- The iteration at any other point before the end. -/
theorem traceAt_onward (horigin : cellCoord origin = some c0) (htarget : cellCoord target = some c1) {k : Nat}
    (hk : k < Coord.reach c0 c1) (hclear : 0 < k → ¬map.Blocks (c0.nearPoint c1 k)) (n : Nat) :
    traceAt map origin target c0 c1 (n + 1) (linePoint near (Coord.dx c0 c1) (Coord.dy c0 c1) k) =
      let onward := traceAt map origin target c0 c1 n (linePoint near (Coord.dx c0 c1) (Coord.dy c0 c1) (k + 1))
      (c0.nearPoint c1 k :: onward.1, onward.2) := by
  obtain ⟨cell, hcell⟩ := nearPoint_cell horigin htarget (Nat.le_of_lt hk)
  have hend := nearPoint_ne_target hk
  have hid := coordToCellId_cellCoord hcell
  have hnext := advance_eq (losTrace map origin target c1 (Coord.dx c0 c1) (Coord.dy c0 c1) (toward c0.x c1.x)
    (toward c0.y c1.y) n) c0 c1 (linePoint near (Coord.dx c0 c1) (Coord.dy c0 c1) k)
  rw [step_linePoint hk] at hnext
  have hdata : cell < map.cells.length := map.size ▸ cellCoord_isSome.1 (by rw [hcell]; rfl)
  have hsees : cell ≠ origin ∧ cell ≠ target → map.cells[cell].los = true := by
    intro hbetween
    have hpos : 0 < k := by
      rcases Nat.eq_zero_or_pos k with rfl | hpos
      · rw [Coord.nearPoint_zero] at hcell
        exact absurd (Option.some.inj ((coordToCellId_cellCoord hcell).symm.trans (coordToCellId_cellCoord horigin)))
          hbetween.1
      · exact hpos
    cases hlos : map.cells[cell].los with
    | true => rfl
    | false => exact absurd ⟨cell, _, hcell, List.getElem?_eq_getElem hdata, hlos⟩ (hclear hpos)
  unfold Coord.nearPoint at hend hid ⊢
  unfold traceAt
  rw [losTrace, if_neg hend, hid]
  dsimp only at hnext ⊢
  rw [hnext, List.getElem?_eq_getElem hdata]
  by_cases hbetween : cell ≠ origin ∧ cell ≠ target
  · simp only [if_pos hbetween, hsees hbetween, if_true]
  · simp only [if_neg hbetween]

/-- From a point of the line on, the loop comes to the points up to the first one that blocks the sight, or to the
end. -/
theorem traceAt_spec (horigin : cellCoord origin = some c0) (htarget : cellCoord target = some c1) {n k : Nat}
    (hk : k ≤ Coord.reach c0 c1) (hn : Coord.reach c0 c1 < n + k) :
    ∃ j exit, k ≤ j ∧ j ≤ Coord.reach c0 c1 ∧
      traceAt map origin target c0 c1 n (linePoint near (Coord.dx c0 c1) (Coord.dy c0 c1) k) =
        ((List.range' k (j + 1 - k)).map (c0.nearPoint c1), exit) ∧
      (∀ l, k ≤ l → l < j → 0 < l → ¬map.Blocks (c0.nearPoint c1 l)) ∧
      (exit = .reached ∧ j = Coord.reach c0 c1 ∨
        exit = .blocked ∧ 0 < j ∧ j < Coord.reach c0 c1 ∧ map.Blocks (c0.nearPoint c1 j)) := by
  induction n generalizing k with
  | zero => omega
  | succ n ih =>
    have hone (j : Nat) : (List.range' j (j + 1 - j)).map (c0.nearPoint c1) = [c0.nearPoint c1 j] := by
      rw [Nat.add_sub_cancel_left]
      rfl
    rcases Nat.eq_or_lt_of_le hk with rfl | hlt
    · refine ⟨_, .reached, le_rfl, le_rfl, ?_, fun l hl hlt => absurd hlt (Nat.not_lt.2 hl), .inl ⟨rfl, rfl⟩⟩
      rw [traceAt_reach, hone, nearPoint_last]
    by_cases hblocks : 0 < k ∧ map.Blocks (c0.nearPoint c1 k)
    · refine ⟨k, .blocked, le_rfl, hk, ?_, fun l hl hlt => absurd hlt (Nat.not_lt.2 hl),
        .inr ⟨rfl, hblocks.1, hlt, hblocks.2⟩⟩
      rw [traceAt_blocked horigin htarget hblocks.1 hlt hblocks.2, hone]
    · obtain ⟨j, exit, hkj, hj, hrest, hclear, hexit⟩ := @ih (k + 1) hlt (by omega)
      have hclear' : ∀ l, k ≤ l → l < j → 0 < l → ¬map.Blocks (c0.nearPoint c1 l) := by
        intro l hl hlj hpos hb
        rcases Nat.eq_or_lt_of_le hl with rfl | hl
        · exact hblocks ⟨hpos, hb⟩
        · exact hclear l hl hlj hpos hb
      refine ⟨j, exit, Nat.le_of_succ_le hkj, hj, ?_, hclear', hexit⟩
      have hcount : j + 1 - k = (j + 1 - (k + 1)) + 1 := by omega
      rw [traceAt_onward horigin htarget hlt (fun hpos hb => hblocks ⟨hpos, hb⟩), hrest, hcount, List.range'_succ,
        List.map_cons]

end

/-! ### The whole walk -/

/-- Whoever sees through a cell of the first map sees through it on the second one. -/
def MapData.Opens (map map' : MapData) : Prop :=
  ∀ (cell : Nat) (data data' : CellData), map.cells[cell]? = some data → map'.cells[cell]? = some data' →
    data.los = true → data'.los = true

theorem MapData.Opens.blocks {map map' : MapData} (h : map.Opens map') {c : Coord} (hblocks : map'.Blocks c) :
    map.Blocks c := by
  obtain ⟨cell, data', hcell, hdata', hlos'⟩ := hblocks
  have hlt : cell < map.cells.length := map.size ▸ cellCoord_isSome.1 (by rw [hcell]; rfl)
  have hdata := List.getElem?_eq_getElem hlt
  refine ⟨cell, _, hcell, hdata, ?_⟩
  cases hlos : map.cells[cell].los with
  | false => rfl
  | true =>
    have := h cell _ data' hdata hdata' hlos
    rw [hlos'] at this
    cases this

/-- A walk from the cell `a` to the cell `b`: it has no more steps than the longer side, comes to the end or to a
point that blocks the sight, and only to coordinates of cells, and what it returns is false only for a cell in
between. -/
structure WalksTo (map : MapData) (a b : Nat) (c0 c1 : Coord) (walk : List Coord × LosExit) : Prop where
  returns : hasLineOfSight map a b = walk.2.ending
  steps : walk.1.length ≤ Coord.reach c0 c1 + 1
  ends : walk.2 = .reached ∧ walk.1.getLast? = some c1 ∨
    walk.2 = .blocked ∧ ∃ c, walk.1.getLast? = some c ∧ map.Blocks c
  onGrid : ∀ c ∈ walk.1, ∃ cell, coordToCellId c.x c.y = some cell ∧ cellCoord cell = some c
  stopped : hasLineOfSight map a b = .value false → ∃ c ∈ walk.1, ∃ cell data, cellCoord cell = some c ∧
    cell ≠ a ∧ cell ≠ b ∧ map.cells[cell]? = some data ∧ data.los = false

section

variable {map : MapData} {origin target : Nat} {c0 c1 : Coord}

/-- The walk, with room for enough iterations. -/
theorem lineOfSight_spec (horigin : cellCoord origin = some c0) (htarget : cellCoord target = some c1) {n : Nat}
    (hn : Coord.reach c0 c1 < n) : ∃ j exit, j ≤ Coord.reach c0 c1 ∧
      lineOfSight map origin target n = ((List.range' 0 (j + 1)).map (c0.nearPoint c1), exit) ∧
      (∀ l, l < j → 0 < l → ¬map.Blocks (c0.nearPoint c1 l)) ∧
      (exit = .reached ∧ j = Coord.reach c0 c1 ∨
        exit = .blocked ∧ 0 < j ∧ j < Coord.reach c0 c1 ∧ map.Blocks (c0.nearPoint c1 j)) := by
  obtain ⟨j, exit, -, hj, htrace, hclear, hexit⟩ :=
    @traceAt_spec map origin target c0 c1 horigin htarget n 0 (Nat.zero_le _) hn
  rw [linePoint_zero, Nat.sub_zero] at htrace
  exact ⟨j, exit, hj, (lineOfSight_eq horigin htarget n).trans htrace, fun l => hclear l (Nat.zero_le l), hexit⟩

/-- The function returns what the walk ends with. -/
theorem hasLineOfSight_ending (horigin : cellCoord origin = some c0) (htarget : cellCoord target = some c1) {n : Nat}
    (hn : Coord.reach c0 c1 < n) : hasLineOfSight map origin target = (lineOfSight map origin target n).2.ending := by
  have hroom : Coord.reach c0 c1 < (c1.x - c0.x).natAbs + (c1.y - c0.y).natAbs + 1 := by
    unfold Coord.reach Coord.dx Coord.dy
    omega
  have hcode : hasLineOfSight map origin target =
      (lineOfSight map origin target ((c1.x - c0.x).natAbs + (c1.y - c0.y).natAbs + 1)).2.ending := by
    unfold hasLineOfSight lineOfSight
    rw [horigin, htarget]
    exact (losTrace_ending ..).symm
  obtain ⟨j, exit, hj, hwalk, hclear, hexit⟩ := @lineOfSight_spec map origin target c0 c1 horigin htarget n hn
  obtain ⟨j', exit', hj', hwalk', hclear', hexit'⟩ :=
    @lineOfSight_spec map origin target c0 c1 horigin htarget _ hroom
  rw [hcode, hwalk, hwalk']
  -- a walk that reaches the end passes over the point at which another one would be blocked
  rcases hexit with ⟨rfl, rfl⟩ | ⟨rfl, hpos, hlt, hblocks⟩
  · rcases hexit' with ⟨rfl, -⟩ | ⟨rfl, hpos', hlt', hblocks'⟩
    · rfl
    · exact absurd hblocks' (hclear j' hlt' hpos')
  · rcases hexit' with ⟨rfl, rfl⟩ | ⟨rfl, -⟩
    · exact absurd hblocks (hclear' j hlt hpos)
    · rfl

/-- Where more cells can be seen through, the line of sight stays clear. -/
theorem hasLineOfSight_opens {map' : MapData} (hopens : map.Opens map') (horigin : cellCoord origin = some c0)
    (htarget : cellCoord target = some c1) (hclear : hasLineOfSight map origin target = .value true) :
    hasLineOfSight map' origin target = .value true := by
  rw [hasLineOfSight_iff horigin htarget] at hclear ⊢
  exact fun k hpos hk hblocks => hclear k hpos hk (hopens.blocks hblocks)

/-- Between all cells of a map, the loop needs room for no more iterations than the longer side has points, and the
line of sight stays clear if more cells can be seen through. -/
theorem lineOfSight_walk (map : MapData) (a b : Nat) (ha : a < mapCellsCount) (hb : b < mapCellsCount) :
    ∃ c0 c1, cellCoord a = some c0 ∧ cellCoord b = some c1 ∧
      (∀ n, Coord.reach c0 c1 < n → WalksTo map a b c0 c1 (lineOfSight map a b n)) ∧
      ∀ map', map.Opens map' → hasLineOfSight map a b = .value true → hasLineOfSight map' a b = .value true := by
  obtain ⟨c0, hc0⟩ := Option.isSome_iff_exists.1 (cellCoord_isSome.2 ha)
  obtain ⟨c1, hc1⟩ := Option.isSome_iff_exists.1 (cellCoord_isSome.2 hb)
  refine ⟨c0, c1, hc0, hc1, fun n hn => ?_, fun map' hopens => hasLineOfSight_opens hopens hc0 hc1⟩
  have hending := @hasLineOfSight_ending map a b c0 c1 hc0 hc1 n hn
  obtain ⟨j, exit, hj, hwalk, -, hexit⟩ := @lineOfSight_spec map a b c0 c1 hc0 hc1 n hn
  rw [hwalk] at hending ⊢
  have hlast : ((List.range' 0 (j + 1)).map (c0.nearPoint c1)).getLast? = some (c0.nearPoint c1 j) := by
    rw [List.getLast?_map, List.getLast?_range']
    simp
  have hvisited : ∀ c ∈ (List.range' 0 (j + 1)).map (c0.nearPoint c1), ∃ cell, cellCoord cell = some c := by
    intro c hc
    obtain ⟨k, hk, rfl⟩ := List.mem_map.1 hc
    have hkj := (List.mem_range'_1.1 hk).2
    exact nearPoint_cell hc0 hc1 (by omega)
  refine ⟨hending, ?_, ?_, fun c hc => ?_, fun hfalse => ?_⟩
  · rw [List.length_map, List.length_range']
    exact Nat.succ_le_succ hj
  · rcases hexit with ⟨rfl, rfl⟩ | ⟨rfl, -, -, hblocks⟩
    · exact .inl ⟨rfl, hlast.trans (congrArg some nearPoint_last)⟩
    · exact .inr ⟨rfl, _, hlast, hblocks⟩
  · obtain ⟨cell, hcell⟩ := hvisited c hc
    exact ⟨cell, coordToCellId_cellCoord hcell, hcell⟩
  · rw [hending] at hfalse
    rcases hexit with ⟨rfl, -⟩ | ⟨rfl, hpos, hlt, cell, data, hcell, hdata, hlos⟩
    · cases hfalse
    · obtain ⟨hnotOrigin, hnotTarget⟩ := nearPoint_between hc0 hc1 hpos hlt hcell
      exact ⟨_, List.mem_of_getLast? hlast, cell, data, hcell, hnotOrigin, hnotTarget, hdata, hlos⟩

end

/-- Past the wall on cell 1. -/
theorem lineOfSight_walk_oneWall : ∃ c0 c1, cellCoord 15 = some c0 ∧ cellCoord 0 = some c1 ∧
    (∀ n, Coord.reach c0 c1 < n → WalksTo .oneWall 15 0 c0 c1 (lineOfSight .oneWall 15 0 n)) ∧
    ∀ map', MapData.oneWall.Opens map' → hasLineOfSight .oneWall 15 0 = .value true →
      hasLineOfSight map' 15 0 = .value true :=
  lineOfSight_walk .oneWall 15 0 (by decide) (by decide)

end Otomai.Common
