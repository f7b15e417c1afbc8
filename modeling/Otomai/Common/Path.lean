import Otomai.Common.Grid

/-!
# Paths and borders

What the server checks of the path of a client, and where a player that leaves a map over its border enters the next
one.

* `walkable_of_validatePath`: an accepted path leads over walkable cells, its start apart.
* `validatePath_panics`: the check fails only for a path that starts outside of the grid.
* `enters_opposite`: over a border, the next map is entered on its opposite border.
-/

namespace Otomai.Common

namespace MapData

variable (map : MapData)

/-- The cell exists and can be walked on. -/
def walkable (cell : Nat) : Bool := map.cells[cell]?.any (·.isWalkable)

theorem lt_of_walkable {map : MapData} {cell : Nat} (h : map.walkable cell = true) : cell < mapCellsCount := by
  rw [← map.size]
  by_contra hout
  rw [walkable, List.getElem?_eq_none (Nat.le_of_not_lt hout)] at h
  cases h

end MapData

/-! ### Paths -/

/-- `validate_path`: every step goes to a walkable neighbour.  `none` is an index out of bounds. -/
def validatePath (map : MapData) : List Nat → Option Bool
  | origin :: target :: rest =>
    if map.walkable target then do
      let neighbours ← cellNeighbours origin
      if neighbours.any (·.1 = target) then validatePath map (target :: rest) else some false
    else some false
  | _ => some true

section

variable {map : MapData}

theorem walkable_of_validatePath {origin : Nat} {rest : List Nat}
    (h : validatePath map (origin :: rest) = some true) :
    ∀ cell ∈ rest, map.walkable cell = true := by
  induction rest generalizing origin with
  | nil => exact nofun
  | cons target rest ih =>
    unfold validatePath at h
    by_cases hwalk : map.walkable target = true
    · rw [if_pos hwalk] at h
      obtain ⟨neighbours, -, h⟩ := Option.bind_eq_some_iff.1 h
      split at h
      · intro cell hcell
        rcases List.mem_cons.1 hcell with rfl | hcell
        · exact hwalk
        · exact ih h cell hcell
      · cases h
    · rw [if_neg hwalk] at h
      cases h

/-- The check looks its cells up in the grid; only the first one can be outside of it. -/
theorem validatePath_panics {path : List Nat} (h : validatePath map path = none) :
    ∃ origin ∈ path.head?, mapCellsCount ≤ origin := by
  suffices hstart : ∀ (rest : List Nat) (origin : Nat), origin < mapCellsCount →
    validatePath map (origin :: rest) ≠ none by
    cases path with
    | nil => cases h
    | cons origin rest =>
      refine ⟨origin, rfl, ?_⟩
      by_contra hlt
      exact hstart rest origin (Nat.lt_of_not_le hlt) h
  intro rest
  induction rest with
  | nil => exact fun _ _ h => by cases h
  | cons target rest ih =>
    intro origin horigin
    unfold validatePath
    by_cases hwalk : map.walkable target = true
    · obtain ⟨c, hc⟩ := Option.isSome_iff_exists.1 (cellCoord_isSome.2 horigin)
      simp only [if_pos hwalk, cellNeighbours, hc, Option.map_some, Option.bind_eq_bind, Option.bind_some]
      split
      · exact ih target (MapData.lt_of_walkable hwalk)
      · rintro ⟨⟩
    · rw [if_neg hwalk]
      rintro ⟨⟩

end

/-! ### Borders -/

inductive MapDirection where
  | top | bottom | left | right
  deriving DecidableEq, Repr

namespace MapDirection

def all : List MapDirection := [top, bottom, left, right]

def opposite : MapDirection → MapDirection
  | top => bottom
  | bottom => top
  | left => right
  | right => left

end MapDirection

/-- `cell_border`: the top and the bottom are preferred at the corners. -/
def cellBorder (cell : Nat) : Option MapDirection :=
  if cell < mapWidth * 2 then some .top
  else if mapCellsCount - mapWidth * 2 ≤ cell then some .bottom
  else if cell % mapWidth = 0 then some .left
  else if (cell + 1) % mapWidth = 0 then some .right
  else none

/-- `mirror_cell`: the cell across the border. -/
def mirrorCell (exitCell : Nat) : MapDirection → Nat
  | .top => exitCell + (mapCellsCount - mapWidth * 2)
  | .bottom => exitCell - (mapCellsCount - mapWidth * 2)
  | .right => exitCell - (mapWidth - 1)
  | .left => exitCell + (mapWidth - 1)

namespace MapData

variable (map : MapData)

/-- `neighbour`: a map of a positive id. -/
def neighbour (direction : MapDirection) : Option Int :=
  let id := match direction with
    | .top => map.topNeighbourId
    | .bottom => map.bottomNeighbourId
    | .left => map.leftNeighbourId
    | .right => map.rightNeighbourId
  if 0 < id then some id else none

/-- `walkable_border_cells`. -/
def walkableBorderCells (direction : MapDirection) : List Nat :=
  (List.range mapCellsCount).filter fun cell =>
    map.walkable cell && match direction with
      | .top => cell < mapWidth * 2
      | .bottom => mapCellsCount - mapWidth * 2 ≤ cell
      | .left => cell % mapWidth = 0
      | .right => (cell + 1) % mapWidth = 0

/-- The first of the cells that are nearest to a target, by their numbers. -/
def nearestCell (target : Nat) : List Nat → Option Nat
  | [] => none
  | cell :: rest =>
    match nearestCell target rest with
    | none => some cell
    | some other =>
      if ((other : Int) - target).natAbs < ((cell : Int) - target).natAbs then some other else some cell

/-- `nearest_walkable_on_border`. -/
def nearestWalkableOnBorder (target : Nat) (direction : MapDirection) : Option Nat :=
  if map.walkable target then some target else nearestCell target (map.walkableBorderCells direction)

end MapData

/-- The cell is on a border, if it is one of the grid; at a corner it is on two. -/
def OnBorder : MapDirection → Nat → Prop
  | .top, cell => cell < mapWidth * 2
  | .bottom, cell => mapCellsCount - mapWidth * 2 ≤ cell
  | .left, cell => cell % mapWidth = 0
  | .right, cell => (cell + 1) % mapWidth = 0

section

variable {map : MapData} {cell target : Nat} {direction : MapDirection}

theorem mem_walkableBorderCells :
    cell ∈ map.walkableBorderCells direction ↔ map.walkable cell = true ∧ OnBorder direction cell := by
  have hborder : (match direction with
      | .top => decide (cell < mapWidth * 2)
      | .bottom => decide (mapCellsCount - mapWidth * 2 ≤ cell)
      | .left => decide (cell % mapWidth = 0)
      | .right => decide ((cell + 1) % mapWidth = 0)) = true ↔ OnBorder direction cell := by
    cases direction <;> exact decide_eq_true_iff
  rw [MapData.walkableBorderCells, List.mem_filter, List.mem_range, Bool.and_eq_true, hborder]
  exact ⟨fun h => h.2, fun h => ⟨MapData.lt_of_walkable h.1, h⟩⟩

theorem nearestCell_mem {cells : List Nat} (h : MapData.nearestCell target cells = some cell) : cell ∈ cells := by
  induction cells generalizing cell with
  | nil => cases h
  | cons first rest ih =>
    cases hrest : MapData.nearestCell target rest with
    | none =>
      simp only [MapData.nearestCell, hrest] at h
      obtain rfl := Option.some.inj h
      exact List.mem_cons_self
    | some other =>
      simp only [MapData.nearestCell, hrest] at h
      split at h
      · obtain rfl := Option.some.inj h
        exact List.mem_cons_of_mem _ (ih hrest)
      · obtain rfl := Option.some.inj h
        exact List.mem_cons_self

theorem nearestCell_eq_none {cells : List Nat} (h : MapData.nearestCell target cells = none) : cells = [] := by
  cases cells with
  | nil => rfl
  | cons first rest =>
    unfold MapData.nearestCell at h
    split at h
    · cases h
    · split at h <;> cases h

/-- Where a player that stands on a cell of a border comes out: on the cell across the border, or where one can
walk. -/
def entryCell (map : Option MapData) (cell : Nat) (direction : MapDirection) : Nat :=
  match map with
  | some map =>
    (map.nearestWalkableOnBorder (mirrorCell cell direction) direction.opposite).getD (mirrorCell cell direction)
  | none => mirrorCell cell direction

theorem entryCell_cases (map : Option MapData) (cell : Nat) (direction : MapDirection) :
    entryCell map cell direction = mirrorCell cell direction ∧
      (∀ m ∈ map, m.walkable (mirrorCell cell direction) = true ∨ m.walkableBorderCells direction.opposite = []) ∨
    ∃ m ∈ map, entryCell map cell direction ∈ m.walkableBorderCells direction.opposite := by
  cases map with
  | none => exact .inl ⟨rfl, fun m hm => by cases hm⟩
  | some m =>
    have hentry : entryCell (some m) cell direction =
        (m.nearestWalkableOnBorder (mirrorCell cell direction) direction.opposite).getD
          (mirrorCell cell direction) := rfl
    rw [hentry, MapData.nearestWalkableOnBorder]
    by_cases hwalk : m.walkable (mirrorCell cell direction) = true
    · rw [if_pos hwalk]
      refine .inl ⟨rfl, fun m' hm => ?_⟩
      obtain rfl := Option.some.inj hm
      exact .inl hwalk
    rw [if_neg hwalk]
    cases hnearest : MapData.nearestCell (mirrorCell cell direction) (m.walkableBorderCells direction.opposite) with
    | none =>
      refine .inl ⟨rfl, fun m' hm => ?_⟩
      obtain rfl := Option.some.inj hm
      exact .inr (nearestCell_eq_none hnearest)
    | some v => exact .inr ⟨m, rfl, nearestCell_mem hnearest⟩

theorem cellBorder_onBorder (hborder : cellBorder cell = some direction) :
    OnBorder direction cell ∧ (direction = .left ∨ direction = .right → cell < mapCellsCount - mapWidth * 2) := by
  unfold cellBorder at hborder
  split at hborder
  · next htop =>
    obtain rfl := Option.some.inj hborder
    exact ⟨htop, by rintro (h | h) <;> cases h⟩
  split at hborder
  · next hbottom =>
    obtain rfl := Option.some.inj hborder
    exact ⟨hbottom, by rintro (h | h) <;> cases h⟩
  next hbottom =>
  split at hborder
  · next hleft =>
    obtain rfl := Option.some.inj hborder
    exact ⟨hleft, fun _ => Nat.lt_of_not_le hbottom⟩
  split at hborder
  · next hright =>
    obtain rfl := Option.some.inj hborder
    exact ⟨hright, fun _ => Nat.lt_of_not_le hbottom⟩
  · cases hborder

/-- Across a border of the grid is the opposite border of the next map. -/
theorem mirrorCell_opposite (hborder : cellBorder cell = some direction) (hcell : cell < mapCellsCount) :
    mirrorCell cell direction < mapCellsCount ∧ OnBorder direction.opposite (mirrorCell cell direction) := by
  obtain ⟨hon, hsides⟩ := cellBorder_onBorder hborder
  cases direction with
  | top =>
    simp only [mirrorCell, OnBorder, MapDirection.opposite, mapCellsCount, mapWidth] at hon ⊢
    omega
  | bottom =>
    simp only [mirrorCell, OnBorder, MapDirection.opposite, mapCellsCount, mapWidth] at hon hcell ⊢
    omega
  | left =>
    have hinside := hsides (.inl rfl)
    simp only [mirrorCell, OnBorder, MapDirection.opposite, mapCellsCount, mapWidth] at hon hinside ⊢
    omega
  | right =>
    have hinside := hsides (.inr rfl)
    simp only [mirrorCell, OnBorder, MapDirection.opposite, mapCellsCount, mapWidth] at hon hinside ⊢
    omega

theorem mirrorCell_ne (hborder : cellBorder cell = some direction) : mirrorCell cell direction ≠ cell := by
  obtain ⟨hon, -⟩ := cellBorder_onBorder hborder
  cases direction with
  | top | left => simp only [mirrorCell, mapCellsCount, mapWidth]; omega
  | bottom | right =>
    simp only [mirrorCell, OnBorder, mapCellsCount, mapWidth] at hon ⊢
    omega

/-- No cell is on a border and, over that border, where the next map is entered. -/
theorem entryCell_ne (map : Option MapData) (hborder : cellBorder cell = some direction) :
    entryCell map cell direction ≠ cell := by
  obtain ⟨hon, -⟩ := cellBorder_onBorder hborder
  obtain ⟨heq, -⟩ | ⟨m, -, hmem⟩ := entryCell_cases map cell direction
  · rw [heq]
    exact mirrorCell_ne hborder
  · intro hsame
    obtain ⟨-, hopposite⟩ := mem_walkableBorderCells.1 hmem
    rw [hsame] at hopposite
    cases direction <;>
      simp only [OnBorder, MapDirection.opposite, mapCellsCount, mapWidth] at hon hopposite <;> omega

theorem entryCell_lt (map : Option MapData) (hborder : cellBorder cell = some direction) (hcell : cell < 65536) :
    entryCell map cell direction < 65536 := by
  obtain ⟨hon, hsides⟩ := cellBorder_onBorder hborder
  obtain ⟨heq, -⟩ | ⟨m, -, hmem⟩ := entryCell_cases map cell direction
  · rw [heq]
    cases direction with
    | top =>
      simp only [OnBorder, mapWidth] at hon
      simp only [mirrorCell, mapCellsCount, mapWidth]
      omega
    | left =>
      have hinside := hsides (.inl rfl)
      simp only [mapCellsCount, mapWidth] at hinside
      simp only [mirrorCell, mapWidth]
      omega
    | bottom | right => exact Nat.lt_of_le_of_lt (Nat.sub_le _ _) hcell
  · have hlt := MapData.lt_of_walkable (mem_walkableBorderCells.1 hmem).1
    unfold mapCellsCount at hlt
    omega

/-- The next map is entered on its opposite border, on a cell that can be walked on if there is one. -/
theorem enters_opposite (map : Option MapData) (hborder : cellBorder cell = some direction)
    (hcell : cell < mapCellsCount) :
    entryCell map cell direction < mapCellsCount ∧ OnBorder direction.opposite (entryCell map cell direction) ∧
      ∀ m ∈ map, (∃ v, m.walkable v = true ∧ OnBorder direction.opposite v) →
        m.walkable (entryCell map cell direction) = true := by
  obtain ⟨heq, hmirror⟩ | ⟨m, hm, hmem⟩ := entryCell_cases map cell direction
  · rw [heq]
    obtain ⟨hlt, hon⟩ := mirrorCell_opposite hborder hcell
    refine ⟨hlt, hon, fun m hm ⟨v, hv⟩ => ?_⟩
    rcases hmirror m hm with hwalk | hempty
    · exact hwalk
    · have hmem := mem_walkableBorderCells.2 hv
      rw [hempty] at hmem
      cases hmem
  · obtain ⟨hwalk, hon⟩ := mem_walkableBorderCells.1 hmem
    refine ⟨MapData.lt_of_walkable hwalk, hon, fun m' hm' _ => ?_⟩
    obtain rfl : m = m' := Option.mem_unique hm hm'
    exact hwalk

end

end Otomai.Common
