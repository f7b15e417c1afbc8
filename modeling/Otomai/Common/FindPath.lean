import Otomai.Common.Steps
import Otomai.Search.AStar

/-!
# Finding paths

`find_path` and the two rules of what a step is: the one it searches by, and the one `validate_path` checks.

The estimate of the search is the distance of the coordinates in either direction, which falls by at most one along a
continuous step (`heuristic_le`).  Along a step over the side of the map it is far too high (`detour`).

* `findPath_shortest`: where the estimate holds along some shortest path, the result is a shortest path.
* `continuous_iff`: paths are continuous if and only if the map cannot be walked on at its sides.
* `validatePath_agrees_iff`: when `validate_path` agrees with `find_path`.
-/

namespace Otomai.Common

open Search Trace

/-! ### The search -/

/-- `heuristic`: the Chebyshev distance of two cells. -/
def heuristic (a b : Nat) : Option Nat := do
  let ca ← cellCoord a
  let cb ← cellCoord b
  return max (ca.x - cb.x).natAbs (ca.y - cb.y).natAbs

/-- Directions of odd number: SE, SW, NW and NE. -/
def isDiagonal (dir : Nat) : Bool := dir % 2 = 1

def diagonalAdjacents (dir : Nat) : Nat × Nat := ((dir + 7) % 8, (dir + 1) % 8)

/-- Whether there is a walkable cell in a direction. -/
def walkableTowards (map : MapData) (coord : Coord) (dir : Nat) : Bool :=
  (dirOffsets[dir]?).any fun offset =>
    (coordToCellId (coord.x + offset.1) (coord.y + offset.2)).any fun cell => map.walkable cell

/-- The step from a cell in a direction passes between two cells that cannot be walked on. -/
def cutsWall (map : MapData) (coord : Coord) (dir : Nat) : Bool :=
  isDiagonal dir &&
    !(walkableTowards map coord (diagonalAdjacents dir).1 || walkableTowards map coord (diagonalAdjacents dir).2)

/-- The neighbours that the loop of `find_path` goes on to. -/
def successors (map : MapData) (cell : Nat) : List Nat :=
  match cellCoord cell, cellNeighbours cell with
  | some coord, some neighbours =>
    neighbours.filterMap fun (next, dir) => if map.walkable next && !cutsWall map coord dir then some next else none
  | _, _ => []

def pathProblem (map : MapData) (start target : Nat) (maxCost : Option Nat) : Problem Nat where
  next := successors map
  heuristic := fun cell => (heuristic cell target).getD 0
  maxCost := maxCost
  start := start
  goal := target

/-- `find_path`.  A cell is closed once and opens at most eight entries of the queue, which bounds the rounds. -/
def findPath (map : MapData) (start target : Nat) (maxCost : Option Nat) : Ending (Option (List Nat)) :=
  if start = target then .value (some [start])
  else if map.walkable target = false then .value none
  else if mapCellsCount ≤ start then .panic
  else search (pathProblem map start target maxCost) (8 * mapCellsCount + 2)
    (State.start (pathProblem map start target maxCost))

section

variable {map : MapData}

/-- A step that `find_path` goes on to. -/
theorem mem_successors {u v : Nat} :
    v ∈ successors map u ↔ ∃ coord neighbours dir, cellCoord u = some coord ∧ cellNeighbours u = some neighbours ∧
      (v, dir) ∈ neighbours ∧ map.walkable v = true ∧ cutsWall map coord dir = false := by
  unfold successors
  cases hcoord : cellCoord u with
  | none => simp
  | some coord =>
    cases hneighbours : cellNeighbours u with
    | none => simp
    | some neighbours =>
      simp only [List.mem_filterMap, Prod.exists, Option.ite_none_right_eq_some, Bool.and_eq_true, Bool.not_eq_true',
        Option.some.injEq]
      constructor
      · rintro ⟨next, dir, hmem, ⟨hwalk, hcut⟩, rfl⟩
        exact ⟨coord, neighbours, dir, rfl, rfl, hmem, hwalk, hcut⟩
      · rintro ⟨_, _, dir, rfl, rfl, hmem, hwalk, hcut⟩
        exact ⟨v, dir, hmem, ⟨hwalk, hcut⟩, rfl⟩

theorem successors_lt {u v : Nat} (h : v ∈ successors map u) : v < mapCellsCount := by
  obtain ⟨_, _, _, -, -, -, hwalk, -⟩ := mem_successors.1 h
  exact MapData.lt_of_walkable hwalk

theorem length_cellNeighbours_le {u : Nat} {neighbours : List (Nat × Nat)} (h : cellNeighbours u = some neighbours) :
    neighbours.length ≤ 8 := by
  obtain ⟨c, -, rfl⟩ := Option.map_eq_some_iff.1 h
  exact List.length_filterMap_le _ _

theorem length_successors_le (u : Nat) : (successors map u).length ≤ 8 := by
  unfold successors
  cases cellCoord u with
  | none => exact Nat.zero_le 8
  | some coord =>
    cases hneighbours : cellNeighbours u with
    | none => exact Nat.zero_le 8
    | some neighbours => exact (List.length_filterMap_le _ _).trans (length_cellNeighbours_le hneighbours)

/-! ### Shortest paths -/

/-- What a bounded search for a shortest path returns: one, or nothing where no path is within the bound. -/
def FindsShortest (map : MapData) (start target : Nat) (maxCost : Option Nat) : Prop :=
  ∃ result, findPath map start target maxCost = .value result ∧
    (∀ path ∈ result, IsPath (successors map) start target path ∧ (∀ max ∈ maxCost, path.length - 1 ≤ max) ∧
      ∀ other, IsPath (successors map) start target other → path.length ≤ other.length) ∧
    (result = none → ∀ path, IsPath (successors map) start target path → ¬∀ max ∈ maxCost, path.length - 1 ≤ max)

theorem walkable_of_reach {start target n : Nat} (h : Reach (successors map) start n target) (hne : start ≠ target) :
    map.walkable target = true := by
  cases h with
  | start => exact absurd rfl hne
  | step _ hv =>
    obtain ⟨_, _, _, -, -, -, hwalk, -⟩ := mem_successors.1 hv
    exact hwalk

theorem successors_mem_range : ∀ u ∈ List.range mapCellsCount, ∀ v ∈ successors map u, v ∈ List.range mapCellsCount :=
  fun _ _ _ hv => List.mem_range.2 (successors_lt hv)

theorem rounds : 1 + 8 * (List.range mapCellsCount).length < 8 * mapCellsCount + 2 := by
  rw [List.length_range]
  omega

theorem search_findPath {start : Nat} (hstart : start < mapCellsCount) (target : Nat) (maxCost : Option Nat) :
    ∃ result, search (pathProblem map start target maxCost) (8 * mapCellsCount + 2)
        (State.start (pathProblem map start target maxCost)) = .value result ∧
      ∀ path ∈ result, IsPath (successors map) start target path ∧ ∀ max ∈ maxCost, path.length - 1 ≤ max :=
  @search_path _ _ (pathProblem map start target maxCost) _ _ _ (List.mem_range.2 hstart) successors_mem_range
    length_successors_le rounds

/-- Where there is a path within the bound, and some shortest path along which the estimate falls by at most one at
each step, a shortest path is found. -/
theorem findPath_shortest (map : MapData) {start target : Nat} (hstart : start < mapCellsCount) (hne : start ≠ target)
    (maxCost : Option Nat) (hguided : Guided (pathProblem map start target maxCost)) :
    FindsShortest map start target maxCost := by
  unfold FindsShortest findPath
  rw [if_neg hne]
  by_cases hwalk : map.walkable target = false
  · rw [if_pos hwalk]
    refine ⟨none, rfl, fun _ h => (by cases h), fun _ path hpath => ?_⟩
    rw [walkable_of_reach hpath.reach hne] at hwalk
    cases hwalk
  · rw [if_neg hwalk, if_neg (Nat.not_le.2 hstart)]
    exact search_shortest (List.mem_range.2 hstart) successors_mem_range length_successors_le rounds hguided

/-! ### The estimate -/

/-- Along a continuous step the distance falls by at most one. -/
theorem heuristic_le {u v target : Nat} (h : IsContinuous u v) :
    (heuristic u target).getD 0 ≤ (heuristic v target).getD 0 + 1 := by
  obtain ⟨⟨cu, cv, hcu, hcv, hx, hy⟩, -⟩ := h
  unfold heuristic
  rw [hcu, hcv]
  cases cellCoord target with
  | none => exact Nat.zero_le _
  | some c =>
    simp only [Option.bind_eq_bind, Option.bind_some, Option.pure_def, Option.getD_some]
    have hdx : (cu.x - c.x).natAbs ≤ (cv.x - c.x).natAbs + 1 := by omega
    have hdy : (cu.y - c.y).natAbs ≤ (cv.y - c.y).natAbs + 1 := by omega
    omega

theorem isNeighbour_of_mem_successors {u v : Nat} (h : v ∈ successors map u) : IsNeighbour u v := by
  obtain ⟨_, neighbours, dir, -, hneighbours, hmem, -, -⟩ := mem_successors.1 h
  exact ⟨neighbours, dir, hneighbours, hmem⟩

/-- Where no step leads over the side of the map, every path within the bound is a guide. -/
theorem guided_of_not_jump {start target : Nat} {maxCost : Option Nat}
    (h : ∀ u v, v ∈ successors map u → ¬IsJump u v) : Guided (pathProblem map start target maxCost) := by
  intro path hpath hmax
  obtain ⟨shortest, hshortest, hle, hall⟩ := exists_shortest hpath
  refine ⟨shortest, ⟨hshortest, fun max hmem => ?_, hshortest.2.2.imp fun u v hv => ?_⟩, hall⟩
  · have hlimit := hmax max hmem
    omega
  · exact heuristic_le ((isContinuous_iff (isNeighbour_of_mem_successors hv)).2 (h u v hv))

end

/-- A map of which the first cells can be walked on. -/
def firstRow (first last : Nat) : MapData where
  topNeighbourId := 0
  bottomNeighbourId := 0
  leftNeighbourId := 0
  rightNeighbourId := 0
  cells := (List.range mapCellsCount).map fun cell => ⟨first ≤ cell && cell ≤ last, false, true⟩
  size := by rw [List.length_map, List.length_range]

/-- The search along a row from which there is a step over the side of the map. -/
theorem findPath_shortest_firstRow : FindsShortest (firstRow 0 14) 12 5 none := by
  refine findPath_shortest _ (by decide) (by decide) _ fun _ _ _ =>
    ⟨[12, 11, 10, 9, 8, 7, 6, 5], by decide +kernel, ?_⟩
  have hlevels : ∀ m < 7, 5 ∉ level (successors (firstRow 0 14)) 12 m := by decide +kernel
  exact fun other hother => hother.lt_length hlevels

/-- On a map that can be walked on from side to side, the search goes the long way. -/
theorem detour : ¬FindsShortest (firstRow 0 14) 12 14 none := by
  rintro ⟨result, hresult, hpath, -⟩
  have hfound : findPath (firstRow 0 14) 12 14 none = .value (some [12, 11, 10, 9, 8, 7, 6, 5, 4, 3, 2, 1, 14]) := by
    decide +kernel
  obtain rfl := Ending.value.inj (hfound.symm.trans hresult)
  have hshort : IsPath (successors (firstRow 0 14)) 12 14 [12, 13, 14] := ⟨rfl, rfl, by decide +kernel⟩
  have hle := (hpath _ rfl).2.2 _ hshort
  exact absurd hle (by decide)

/-! ### Continuous paths -/

section

variable {map : MapData}

/-- The steps of a path that is found. -/
theorem findPath_isChain {start target : Nat} {maxCost : Option Nat} {path : List Nat}
    (h : findPath map start target maxCost = .value (some path)) : path.IsChain fun u v => v ∈ successors map u := by
  unfold findPath at h
  by_cases heq : start = target
  · rw [if_pos heq] at h
    obtain rfl := Option.some.inj (Ending.value.inj h)
    exact List.isChain_singleton start
  rw [if_neg heq] at h
  by_cases hwalk : map.walkable target = false
  · rw [if_pos hwalk] at h
    cases h
  rw [if_neg hwalk] at h
  by_cases hstart : mapCellsCount ≤ start
  · rw [if_pos hstart] at h
    cases h
  rw [if_neg hstart] at h
  obtain ⟨result, hresult, hpath⟩ := search_findPath (Nat.lt_of_not_le hstart) target maxCost
  obtain rfl := Ending.value.inj (hresult.symm.trans h)
  exact (hpath path rfl).1.2.2

/-- On steps between neighbours, continuity is that none leads over the side. -/
theorem isChain_continuous_iff {path : List Nat} (h : path.IsChain IsNeighbour) :
    path.IsChain IsContinuous ↔ path.IsChain fun u v => ¬IsJump u v := by
  induction path with
  | nil => exact iff_of_true List.isChain_nil List.isChain_nil
  | cons u path ih =>
    cases path with
    | nil => exact iff_of_true (List.isChain_singleton u) (List.isChain_singleton u)
    | cons v rest =>
      obtain ⟨huv, hrest⟩ := List.isChain_cons_cons.1 h
      rw [List.isChain_cons_cons, List.isChain_cons_cons, isContinuous_iff huv, ih hrest]

/-- On a map whose sides cannot be walked on, the last cell apart, no step leads over a side. -/
theorem not_isJump_of_sides {u v : Nat}
    (hsides : ∀ cell, map.walkable cell = true → cell % mapWidth = 0 ∨ cell % mapWidth = mapWidth - 1 →
      cell = mapCellsCount - 1)
    (huv : IsNeighbour u v) (hwalk : map.walkable v = true) : ¬IsJump u v := by
  intro hjump
  have hside : v % mapWidth = 0 ∨ v % mapWidth = mapWidth - 1 := by
    rcases hjump with ⟨-, h⟩ | ⟨-, h⟩
    · exact .inl h
    · exact .inr h
  obtain rfl := hsides v hwalk hside
  exact not_isJump_last huv hjump

/-- A path that is accepted, and a path that is found, is continuous if and only if none of its steps leads over a
side of the map; they all are if and only if no cell at a side can be walked on, the last one apart. -/
theorem continuous_iff (map : MapData) :
    (∀ path : List Nat, (∀ cell ∈ path, cell < mapCellsCount) → validatePath map path = some true →
      (path.IsChain IsContinuous ↔ path.IsChain fun u v => ¬IsJump u v)) ∧
    (∀ start target maxCost path, findPath map start target maxCost = .value (some path) →
      (path.IsChain IsContinuous ↔ path.IsChain fun u v => ¬IsJump u v)) ∧
    ((∀ path : List Nat, (∀ cell ∈ path, cell < mapCellsCount) → validatePath map path = some true →
        path.IsChain IsContinuous) ∧
      (∀ start target maxCost path, findPath map start target maxCost = .value (some path) →
        path.IsChain IsContinuous) ↔
      ∀ cell, map.walkable cell = true → cell % mapWidth = 0 ∨ cell % mapWidth = mapWidth - 1 →
        cell = mapCellsCount - 1) := by
  have haccepted : ∀ path : List Nat, validatePath map path = some true → path.IsChain IsNeighbour :=
    fun path h => (validatePath_eq_true.1 h).imp fun _ _ hstep => hstep.1
  have hfound : ∀ start target maxCost path, findPath map start target maxCost = .value (some path) →
      path.IsChain IsNeighbour :=
    fun _ _ _ _ h => (findPath_isChain h).imp fun _ _ hstep => isNeighbour_of_mem_successors hstep
  refine ⟨fun path _ h => isChain_continuous_iff (haccepted path h),
    fun _ _ _ _ h => isChain_continuous_iff (hfound _ _ _ _ h), ?_⟩
  constructor
  · rintro ⟨hvalid, -⟩ cell hwalk hside
    by_contra hlast
    have hcell := MapData.lt_of_walkable hwalk
    obtain ⟨hstep, hjump⟩ := exists_jump hcell hside hlast
    have hacross : acrossTo cell < mapCellsCount := by
      obtain ⟨neighbours, _, hneighbours, -⟩ := hstep
      exact cellNeighbours_isSome.1 (Option.isSome_iff_exists.2 ⟨_, hneighbours⟩)
    -- a step that jumps onto the cell at the side is itself an accepted path
    have haccept : validatePath map [acrossTo cell, cell] = some true :=
      validatePath_eq_true.2 (List.isChain_pair.2 ⟨hstep, hwalk⟩)
    have hcontinuous := hvalid _ (by simp [hacross, hcell]) haccept
    exact (isContinuous_iff hstep).1 (List.isChain_pair.1 hcontinuous) hjump
  · intro hsides
    constructor
    · intro path _ h
      rw [isChain_continuous_iff (haccepted path h)]
      exact (validatePath_eq_true.1 h).imp fun _ _ hstep => not_isJump_of_sides hsides hstep.1 hstep.2
    · intro start target maxCost path h
      rw [isChain_continuous_iff (hfound _ _ _ _ h)]
      refine (findPath_isChain h).imp fun _ _ hstep => ?_
      obtain ⟨_, _, _, -, -, -, hwalk, -⟩ := mem_successors.1 hstep
      exact not_isJump_of_sides hsides (isNeighbour_of_mem_successors hstep) hwalk

/-- On a map that can be walked on from side to side, a path that leaves at the end of the first row and enters at the
start of the second one is accepted. -/
theorem jump_accepted :
    ¬∀ path : List Nat, (∀ cell ∈ path, cell < mapCellsCount) → validatePath (firstRow 0 14) path = some true →
      path.IsChain IsContinuous := by
  intro h
  have hstep : IsNeighbour 13 14 := isNeighbour_iff_any.2 (by decide)
  have hcontinuous := h [13, 14] (by decide) (by decide +kernel)
  exact (isContinuous_iff hstep).1 (List.isChain_pair.1 hcontinuous) (by decide)

/-! ### The two rules -/

/-- In whatever direction the step goes, it passes between two cells that cannot be walked on. -/
def CutsWall (map : MapData) (u v : Nat) : Prop :=
  ∀ coord neighbours dir, cellCoord u = some coord → cellNeighbours u = some neighbours → (v, dir) ∈ neighbours →
    cutsWall map coord dir = true

theorem mem_successors_iff {u v : Nat} :
    v ∈ successors map u ↔ (IsNeighbour u v ∧ map.walkable v = true) ∧ ¬CutsWall map u v := by
  rw [mem_successors]
  constructor
  · rintro ⟨coord, neighbours, dir, hcoord, hneighbours, hmem, hwalk, hcut⟩
    refine ⟨⟨⟨neighbours, dir, hneighbours, hmem⟩, hwalk⟩, fun h => ?_⟩
    rw [h coord neighbours dir hcoord hneighbours hmem] at hcut
    cases hcut
  · rintro ⟨⟨-, hwalk⟩, hcuts⟩
    simp only [CutsWall, not_forall] at hcuts
    obtain ⟨coord, neighbours, dir, hcoord, hneighbours, hmem, hcut⟩ := hcuts
    exact ⟨coord, neighbours, dir, hcoord, hneighbours, hmem, hwalk, Bool.of_not_eq_true hcut⟩

/-- The path starts on the grid, unless it has no second cell to walk on; and if its steps go to walkable neighbours,
none of them cuts a wall. -/
def Guarded (map : MapData) (path : List Nat) : Prop :=
  (∀ u v rest, path = u :: v :: rest → map.walkable v = true → u < mapCellsCount) ∧
    ((path.IsChain fun u v => IsNeighbour u v ∧ map.walkable v = true) → path.IsChain fun u v => ¬CutsWall map u v)

theorem isChain_and {α : Type} {R S : α → α → Prop} {l : List α} (hR : l.IsChain R) (hS : l.IsChain S) :
    l.IsChain fun a b => R a b ∧ S a b := by
  induction l with
  | nil => exact List.isChain_nil
  | cons a l ih =>
    cases l with
    | nil => exact List.isChain_singleton a
    | cons b l =>
      obtain ⟨hab, hrest⟩ := List.isChain_cons_cons.1 hR
      obtain ⟨hab', hrest'⟩ := List.isChain_cons_cons.1 hS
      exact List.isChain_cons_cons.2 ⟨⟨hab, hab'⟩, ih hrest hrest'⟩

/-- `validate_path` looks up no cell outside of the grid and follows the rules of `find_path` if and only if the path
is guarded. -/
theorem validatePath_agrees_iff (map : MapData) (path : List Nat) :
    ((∃ b, validatePath map path = some b) ∧
      ∀ first ∈ path.head?, first < mapCellsCount →
        (validatePath map path = some true ↔ path.IsChain fun u v => v ∈ successors map u)) ↔
      Guarded map path := by
  have hrules : (path.IsChain fun u v => v ∈ successors map u) →
      (path.IsChain fun u v => IsNeighbour u v ∧ map.walkable v = true) ∧ path.IsChain fun u v => ¬CutsWall map u v :=
    fun h =>
      ⟨h.imp fun _ _ hstep => (mem_successors_iff.1 hstep).1, h.imp fun _ _ hstep => (mem_successors_iff.1 hstep).2⟩
  constructor
  · rintro ⟨⟨b, hb⟩, hagree⟩
    refine ⟨fun u v rest hpath hwalk => ?_, fun hsteps => ?_⟩
    · by_contra hout
      rw [validatePath_eq_none.2 ⟨u, v, rest, hpath, hwalk, Nat.le_of_not_lt hout⟩] at hb
      cases hb
    · cases path with
      | nil => exact List.isChain_nil
      | cons u path =>
        cases path with
        | nil => exact List.isChain_singleton u
        | cons v rest =>
          obtain ⟨⟨⟨_, _, hneighbours, -⟩, -⟩, -⟩ := List.isChain_cons_cons.1 hsteps
          have hu : u < mapCellsCount := cellNeighbours_isSome.1 (Option.isSome_iff_exists.2 ⟨_, hneighbours⟩)
          exact (hrules ((hagree u rfl hu).1 (validatePath_eq_true.2 hsteps))).2
  · rintro ⟨hstart, hwalls⟩
    constructor
    · cases h : validatePath map path with
      | some b => exact ⟨b, rfl⟩
      | none =>
        obtain ⟨u, v, rest, hpath, hwalk, hout⟩ := validatePath_eq_none.1 h
        -- a panic is the look-up of a first cell outside of the grid, and the path starts inside
        exact absurd (hstart u v rest hpath hwalk) (Nat.not_lt.2 hout)
    · intro first _ _
      rw [validatePath_eq_true]
      constructor
      · intro hsteps
        exact (isChain_and hsteps (hwalls hsteps)).imp fun _ _ hstep => mem_successors_iff.2 hstep
      · exact fun h => (hrules h).1

/-- A path that starts outside of the grid makes `validate_path` panic, and one that passes between two walls is
accepted. -/
theorem validatePath_disagrees :
    validatePath (firstRow 14 14) [560, 14] = none ∧ validatePath (firstRow 14 14) [0, 14] = some true ∧
      ¬[0, 14].IsChain fun u v => v ∈ successors (firstRow 14 14) u := by
  refine ⟨by decide +kernel, by decide +kernel, ?_⟩
  rw [List.isChain_pair]
  decide +kernel

end

end Otomai.Common
