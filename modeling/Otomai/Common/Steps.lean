import Mathlib.Data.List.Chain
import Otomai.Common.Path

/-!
# Steps of a path

A step goes from a cell to one of its neighbours.  `coord_to_cell_id` accepts coordinates beside the grid as long as
the number it computes is that of some cell, so that a step may leave the map at the end of a row and enter it at the
start of another one.  These are all the steps between the first and the last cells of rows (`IsJump`); every other
step is continuous (`isContinuous_iff`).

* `validatePath_eq_true`: `validate_path` accepts the paths whose steps go to walkable neighbours.
* `validatePath_eq_none`: it fails on the paths that start outside of the grid, with a walkable second cell.
-/

namespace Otomai.Common

def IsNeighbour (u v : Nat) : Prop := ∃ neighbours dir, cellNeighbours u = some neighbours ∧ (v, dir) ∈ neighbours

/-- A step between the last cell of a row and the first cell of a row. -/
def IsJump (u v : Nat) : Prop :=
  u % mapWidth = mapWidth - 1 ∧ v % mapWidth = 0 ∨ u % mapWidth = 0 ∧ v % mapWidth = mapWidth - 1

instance (u v : Nat) : Decidable (IsJump u v) := inferInstanceAs (Decidable (_ ∨ _))

/-- Two coordinates differ by at most one in each direction. -/
def Coord.Near (c d : Coord) : Prop := (d.x - c.x).natAbs ≤ 1 ∧ (d.y - c.y).natAbs ≤ 1

instance (c d : Coord) : Decidable (c.Near d) := inferInstanceAs (Decidable (_ ∧ _))

/-- The coordinates of the cells are near, and `direction_between` gives the direction of the step. -/
def IsContinuous (u v : Nat) : Prop :=
  (∃ cu cv, cellCoord u = some cu ∧ cellCoord v = some cv ∧ cu.Near cv) ∧
    ∀ neighbours dir, cellNeighbours u = some neighbours → (v, dir) ∈ neighbours →
      directionBetween u v = some (some dir)

theorem tdiv_two (a : Int) : a.tdiv 2 = if 0 ≤ a then a / 2 else -(-a / 2) := by
  by_cases ha : 0 ≤ a
  · rw [if_pos ha, Int.tdiv_eq_ediv_of_nonneg ha]
  · rw [if_neg ha, ← Int.tdiv_eq_ediv_of_nonneg (by omega : 0 ≤ -a), Int.neg_tdiv, Int.neg_neg]

/-- From the column `c` of the row `r`, a step ends at the coordinates it goes to, or it leads over the side. -/
private theorem coordToCellId_step {r c v : Nat} {dx dy : Int} (hc : c < mapWidth) (hdx : -1 ≤ dx ∧ dx ≤ 1)
    (hdy : -1 ≤ dy ∧ dy ≤ 1)
    (h : coordToCellId ((((r + 1) / 2 + c : Nat) : Int) + dx) ((c : Int) - ((r / 2 : Nat) : Int) + dy) = some v) :
    (c = mapWidth - 1 ∧ v % mapWidth = 0 ∨ c = 0 ∧ v % mapWidth = mapWidth - 1) ∨
      ((v / mapWidth + 1) / 2 + v % mapWidth : Nat) = (((r + 1) / 2 + c : Nat) : Int) + dx ∧
        ((v % mapWidth : Nat) : Int) - (v / mapWidth / 2 : Nat) = (c : Int) - ((r / 2 : Nat) : Int) + dy := by
  obtain ⟨hid, hcell⟩ := Option.ite_none_right_eq_some.1 h
  have hv := Option.some.inj hcell
  clear h hcell
  rw [tdiv_two] at hid hv
  simp only [mapWidth, mapCellsCount] at *
  obtain ⟨s, hs⟩ : ∃ s : Int, s = r + dx - dy := ⟨_, rfl⟩
  have hrows : (((r + 1) / 2 + c : Nat) : Int) + dx - ((c : Int) - ((r / 2 : Nat) : Int) + dy) = s := by omega
  rw [hrows] at hid hv
  by_cases hsn : 0 ≤ s
  · rw [if_pos hsn] at hid hv
    -- the column `k` is on the row of the step, or one beside it
    obtain ⟨k, hk⟩ : ∃ k : Int, k = (c : Int) - ((r / 2 : Nat) : Int) + dy + s / 2 := ⟨_, rfl⟩
    have hvk : (v : Int) = s * 14 + k := by omega
    have hkc : -1 ≤ k - c ∧ k - c ≤ 1 := by omega
    rcases (by omega : k = -1 ∨ (0 ≤ k ∧ k < 14) ∨ k = 14) with hk' | hk' | hk'
    · exact .inl (.inr ⟨by omega, by omega⟩)
    · have hrow : (v : Int) / 14 = s := by omega
      have hcol : (v : Int) % 14 = k := by omega
      exact .inr ⟨by omega, by omega⟩
    · exact .inl (.inl ⟨by omega, by omega⟩)
  · -- above the first row, only the step from its end leads to a cell
    rw [if_neg hsn] at hid hv
    omega

theorem mem_cellNeighbours {u v dir : Nat} {neighbours : List (Nat × Nat)} (h : cellNeighbours u = some neighbours)
    (hmem : (v, dir) ∈ neighbours) :
    ∃ cu offset, cellCoord u = some cu ∧ (offset, dir) ∈ dirOffsets.zipIdx ∧
      coordToCellId (cu.x + offset.1) (cu.y + offset.2) = some v := by
  obtain ⟨cu, hcu, rfl⟩ := Option.map_eq_some_iff.1 h
  obtain ⟨⟨offset, d⟩, hoffset, hnext⟩ := List.mem_filterMap.1 hmem
  dsimp only at hnext
  cases hid : coordToCellId (cu.x + offset.1) (cu.y + offset.2) with
  | none =>
    rw [hid] at hnext
    cases hnext
  | some n =>
    rw [hid] at hnext
    obtain ⟨-, hpair⟩ := Option.ite_none_right_eq_some.1 hnext
    obtain ⟨rfl, rfl⟩ := Prod.mk.inj (Option.some.inj hpair)
    exact ⟨cu, offset, hcu, hoffset, hid⟩

theorem offset_facts : ∀ step ∈ dirOffsets.zipIdx, (-1 ≤ step.1.1 ∧ step.1.1 ≤ 1) ∧
    (-1 ≤ step.1.2 ∧ step.1.2 ≤ 1) ∧ dirOffsets.idxOf? (step.1.1.sign, step.1.2.sign) = some step.2 := by
  decide

/-- A step that is no jump ends at the coordinates it goes to. -/
theorem step_lands {u v dir : Nat} {neighbours : List (Nat × Nat)} (h : cellNeighbours u = some neighbours)
    (hmem : (v, dir) ∈ neighbours) (hjump : ¬IsJump u v) :
    ∃ cu offset, cellCoord u = some cu ∧ dirOffsets[dir]? = some offset ∧
      cellCoord v = some ⟨cu.x + offset.1, cu.y + offset.2⟩ := by
  obtain ⟨cu, offset, hcu, hoffset, hid⟩ := mem_cellNeighbours h hmem
  obtain ⟨cv, hcv⟩ := Option.isSome_iff_exists.1 (cellCoord_isSome.2 (coordToCellId_lt hid))
  obtain ⟨hdx, hdy, -⟩ := offset_facts _ hoffset
  obtain ⟨-, hcu'⟩ := Option.ite_none_right_eq_some.1 hcu
  obtain ⟨-, hcv'⟩ := Option.ite_none_right_eq_some.1 hcv
  have hstep := @coordToCellId_step (u / mapWidth) (u % mapWidth) v _ _ (Nat.mod_lt u (by decide)) hdx hdy (by
    rw [← hid, ← Option.some.inj hcu']
    rfl)
  obtain ⟨hx, hy⟩ := hstep.resolve_left hjump
  refine ⟨cu, offset, hcu, List.mk_mem_zipIdx_iff_getElem?.1 hoffset, ?_⟩
  rw [hcv, ← Option.some.inj hcu', ← Option.some.inj hcv', Option.some.injEq, Coord.mk.injEq]
  exact ⟨hx, hy⟩

theorem step_facts {u v dir : Nat} {neighbours : List (Nat × Nat)} (h : cellNeighbours u = some neighbours)
    (hmem : (v, dir) ∈ neighbours) :
    ∃ cu cv, cellCoord u = some cu ∧ cellCoord v = some cv ∧ (cu.Near cv ↔ ¬IsJump u v) ∧
      (¬IsJump u v → directionBetween u v = some (some dir)) := by
  by_cases hjump : IsJump u v
  · obtain ⟨cu, offset, hcu, -, hid⟩ := mem_cellNeighbours h hmem
    obtain ⟨cv, hcv⟩ := Option.isSome_iff_exists.1 (cellCoord_isSome.2 (coordToCellId_lt hid))
    obtain ⟨-, hcu'⟩ := Option.ite_none_right_eq_some.1 hcu
    obtain ⟨-, hcv'⟩ := Option.ite_none_right_eq_some.1 hcv
    refine ⟨cu, cv, hcu, hcv, iff_of_false ?_ (not_not_intro hjump), fun h => absurd hjump h⟩
    rw [← Option.some.inj hcu', ← Option.some.inj hcv']
    unfold Coord.Near
    unfold IsJump at hjump
    simp only [mapWidth] at hjump ⊢
    omega
  · obtain ⟨cu, offset, hcu, hoffset, hcv⟩ := step_lands h hmem hjump
    obtain ⟨hdx, hdy, hdir⟩ := offset_facts _ (List.mk_mem_zipIdx_iff_getElem?.2 hoffset)
    dsimp only at hdx hdy hdir
    refine ⟨cu, _, hcu, hcv, iff_of_true ?_ hjump, fun _ => ?_⟩
    · unfold Coord.Near
      dsimp only
      exact ⟨by omega, by omega⟩
    · unfold directionBetween
      rw [hcu, hcv, ← hdir]
      simp only [Option.bind_eq_bind, Option.bind_some, Option.pure_def, add_sub_cancel_left]

theorem isContinuous_iff {u v : Nat} (h : IsNeighbour u v) : IsContinuous u v ↔ ¬IsJump u v := by
  obtain ⟨neighbours, dir, hneighbours, hmem⟩ := h
  obtain ⟨cu, cv, hcu, hcv, hnear, -⟩ := step_facts hneighbours hmem
  constructor
  · rintro ⟨⟨cu', cv', hcu', hcv', hnear'⟩, -⟩
    rw [hcu] at hcu'
    rw [hcv] at hcv'
    obtain rfl := Option.some.inj hcu'
    obtain rfl := Option.some.inj hcv'
    exact hnear.1 hnear'
  · intro hjump
    refine ⟨⟨cu, cv, hcu, hcv, hnear.2 hjump⟩, fun neighbours' dir' hneighbours' hmem' => ?_⟩
    obtain ⟨_, _, -, -, -, hdir⟩ := step_facts hneighbours' hmem'
    exact hdir hjump

/-- From the other side of a row to the cell `v` at the side of a map. -/
def acrossTo (v : Nat) : Nat := if v = 0 then mapWidth - 1 else if v % mapWidth = 0 then v - 1 else v + 1

private theorem sides_table :
    (List.range mapCellsCount).all (fun v =>
      if (v % mapWidth = 0 ∨ v % mapWidth = mapWidth - 1) ∧ v ≠ mapCellsCount - 1 then
        ((cellNeighbours (acrossTo v)).getD []).any (fun step => decide (step.1 = v)) &&
          decide (IsJump (acrossTo v) v)
      else true) = true := by
  decide +kernel

private theorem last_table :
    (List.range (mapCellsCount / mapWidth)).all (fun row =>
      ((cellNeighbours (mapWidth * row)).getD []).all fun step => step.1 ≠ mapCellsCount - 1) = true := by
  decide +kernel

theorem isNeighbour_iff_any {u v : Nat} :
    IsNeighbour u v ↔ ((cellNeighbours u).getD []).any (fun step => decide (step.1 = v)) = true := by
  rw [List.any_eq_true]
  constructor
  · rintro ⟨neighbours, dir, hneighbours, hmem⟩
    rw [hneighbours]
    exact ⟨(v, dir), hmem, decide_eq_true rfl⟩
  · rintro ⟨⟨next, dir⟩, hmem, heq⟩
    obtain rfl : next = v := of_decide_eq_true heq
    cases hneighbours : cellNeighbours u with
    | none =>
      rw [hneighbours] at hmem
      exact absurd hmem List.not_mem_nil
    | some neighbours =>
      rw [hneighbours] at hmem
      exact ⟨neighbours, dir, hneighbours, hmem⟩

/-- To every cell at a side of the map, but the last one, there is a step over the side. -/
theorem exists_jump {v : Nat} (hv : v < mapCellsCount) (hside : v % mapWidth = 0 ∨ v % mapWidth = mapWidth - 1)
    (hlast : v ≠ mapCellsCount - 1) : IsNeighbour (acrossTo v) v ∧ IsJump (acrossTo v) v := by
  have hrow := List.all_eq_true.1 sides_table v (List.mem_range.2 hv)
  rw [if_pos ⟨hside, hlast⟩, Bool.and_eq_true] at hrow
  exact ⟨isNeighbour_iff_any.2 hrow.1, of_decide_eq_true hrow.2⟩

theorem not_isJump_last {u : Nat} (h : IsNeighbour u (mapCellsCount - 1)) : ¬IsJump u (mapCellsCount - 1) := by
  intro hjump
  obtain ⟨neighbours, dir, hneighbours, hmem⟩ := h
  have hu : u < mapCellsCount := cellNeighbours_isSome.1 (Option.isSome_iff_exists.2 ⟨_, hneighbours⟩)
  obtain ⟨row, hrow, rfl⟩ : ∃ row, row < mapCellsCount / mapWidth ∧ u = mapWidth * row := by
    refine ⟨u / mapWidth, ?_, ?_⟩
    · simp only [mapWidth, mapCellsCount] at hu ⊢
      omega
    · unfold IsJump at hjump
      simp only [mapWidth, mapCellsCount] at hjump ⊢
      omega
  have hneighbour := List.all_eq_true.1 last_table row (List.mem_range.2 hrow)
  rw [hneighbours] at hneighbour
  exact absurd rfl (of_decide_eq_true (List.all_eq_true.1 hneighbour _ hmem))

/-! ### Validation -/

section

variable {map : MapData}

theorem validatePath_eq_true {path : List Nat} :
    validatePath map path = some true ↔ path.IsChain fun u v => IsNeighbour u v ∧ map.walkable v = true := by
  induction path with
  | nil => exact iff_of_true rfl List.isChain_nil
  | cons u path ih =>
    cases path with
    | nil => exact iff_of_true rfl (List.isChain_singleton u)
    | cons v rest =>
      rw [List.isChain_cons_cons, ← ih, validatePath]
      by_cases hwalk : map.walkable v = true
      swap
      · rw [if_neg hwalk]
        exact iff_of_false (fun h => by cases h) fun h => hwalk h.1.2
      rw [if_pos hwalk]
      cases hneighbours : cellNeighbours u with
      | none =>
        refine iff_of_false (fun h => by cases h) ?_
        rintro ⟨⟨⟨_, _, hsome, -⟩, -⟩, -⟩
        rw [hneighbours] at hsome
        cases hsome
      | some neighbours =>
        have hany : neighbours.any (fun step => decide (step.1 = v)) = true ↔ IsNeighbour u v := by
          rw [isNeighbour_iff_any, hneighbours]
          rfl
        simp only [Option.bind_eq_bind, Option.bind_some]
        by_cases hmem : IsNeighbour u v
        · rw [if_pos (hany.2 hmem)]
          exact (and_iff_right ⟨hmem, hwalk⟩).symm
        · rw [if_neg fun h => hmem (hany.1 h)]
          exact iff_of_false (fun h => by cases h) fun h => hmem h.1.1

/-- The cells after the first are looked up only if they can be walked on, so that they are on the grid. -/
theorem validatePath_eq_none {path : List Nat} :
    validatePath map path = none ↔
      ∃ u v rest, path = u :: v :: rest ∧ map.walkable v = true ∧ mapCellsCount ≤ u := by
  constructor
  · intro h
    obtain ⟨origin, hhead, hout⟩ := validatePath_panics h
    cases path with
    | nil => cases hhead
    | cons u path =>
      obtain rfl : u = origin := Option.some.inj hhead
      cases path with
      | nil => cases h
      | cons v rest =>
        rw [validatePath] at h
        by_cases hwalk : map.walkable v = true
        · exact ⟨u, v, rest, rfl, hwalk, hout⟩
        · rw [if_neg hwalk] at h
          cases h
  · rintro ⟨u, v, rest, rfl, hwalk, hout⟩
    have hnone : cellNeighbours u = none := by
      rw [← Option.not_isSome_iff_eq_none, cellNeighbours_isSome]
      exact Nat.not_lt.2 hout
    rw [validatePath, if_pos hwalk, hnone]
    rfl

end

end Otomai.Common
