import Otomai.Common.Steps

/-!
# Straight lines on the grid

A step in a direction adds the offset of the direction to the coordinates.  The code takes the neighbour that
`cell_neighbours` lists for the direction, which at the first and last columns of the map may be a cell of another row
(`IsJump`) where the step leads off the grid; everywhere else it is the step (`neighbourIn_spec`).

* `Line free dir k u v`: `k` steps lead from `u` to `v`, over free cells.
* `walk_line`: a walk from neighbour to neighbour is a line, unless it leaves the grid.
* `walk_leaves`, `walk_blocked`: what becomes of a walk that leaves it.
-/

namespace Otomai.Common

/-- The neighbour of a cell that is listed for a direction. -/
def neighbourIn (u dir : Nat) : Option Nat :=
  (cellNeighbours u).bind fun neighbours => (neighbours.find? fun step => step.2 = dir).map Prod.fst

theorem neighbourIn_eq {u : Nat} {neighbours : List (Nat × Nat)}
    (h : cellNeighbours u = some neighbours) (dir : Nat) :
    neighbourIn u dir = (neighbours.find? fun step => step.2 = dir).map Prod.fst := by
  rw [neighbourIn, h, Option.bind_some]

/-- The coordinates of the second cell are those of the first one and the offset of the direction. -/
def IsStep (dir u v : Nat) : Prop :=
  ∃ cu offset, cellCoord u = some cu ∧ dirOffsets[dir]? = some offset ∧
    cellCoord v = some ⟨cu.x + offset.1, cu.y + offset.2⟩

/-- The number of a cell follows from its coordinates. -/
theorem coordToCellId_cellCoord {u : Nat} {c : Coord} (h : cellCoord u = some c) :
    coordToCellId c.x c.y = some u := by
  obtain ⟨hu, hc⟩ := Option.ite_none_right_eq_some.1 h
  have hrow : c.x - c.y = (u / 14 : Nat) ∧ c.y = (u % 14 : Nat) - (u / 14 / 2 : Nat) := by
    rw [← Option.some.inj hc]
    simp only [mapWidth]
    omega
  have hid : (c.x - c.y) * mapWidth + c.y + (c.x - c.y).tdiv 2 = u := by
    rw [hrow.1, Int.tdiv_eq_ediv_of_nonneg (Int.natCast_nonneg _), hrow.2]
    simp only [mapWidth]
    omega
  unfold coordToCellId
  simp only [hid]
  rw [if_pos ⟨Int.natCast_nonneg u, Int.ofNat_lt.2 hu⟩, Int.toNat_natCast]

theorem neighbourIn_eq_some {u dir v : Nat} (h : neighbourIn u dir = some v) :
    ∃ neighbours, cellNeighbours u = some neighbours ∧ (v, dir) ∈ neighbours := by
  obtain ⟨neighbours, hneighbours, h⟩ := Option.bind_eq_some_iff.1 h
  obtain ⟨step, hfind, rfl⟩ := Option.map_eq_some_iff.1 h
  obtain rfl : step.2 = dir := by simpa using List.find?_some hfind
  exact ⟨neighbours, hneighbours, List.mem_of_find?_eq_some hfind⟩

/-- A step has one end. -/
theorem IsStep.unique {dir u v w : Nat} (h : IsStep dir u v) (h' : IsStep dir u w) : v = w := by
  obtain ⟨cu, offset, hcu, hoffset, hcv⟩ := h
  obtain ⟨cu', offset', hcu', hoffset', hcw⟩ := h'
  obtain rfl := Option.some.inj (hcu.symm.trans hcu')
  obtain rfl := Option.some.inj (hoffset.symm.trans hoffset')
  exact Option.some.inj ((coordToCellId_cellCoord hcv).symm.trans (coordToCellId_cellCoord hcw))

/-- A step goes to another cell. -/
theorem IsStep.ne {dir u v : Nat} (h : IsStep dir u v) : v ≠ u := by
  rintro rfl
  obtain ⟨cu, offset, hcu, hoffset, hcv⟩ := h
  have hsame := Option.some.inj (hcu.symm.trans hcv)
  have hzero : offset = (0, 0) := by
    have hx := congrArg Coord.x hsame
    have hy := congrArg Coord.y hsame
    dsimp only at hx hy
    exact Prod.ext (by dsimp only; omega) (by dsimp only; omega)
  rw [hzero] at hoffset
  exact absurd (List.mem_of_getElem? hoffset) (by decide)

/-- The directions of the neighbours of a cell are distinct. -/
private theorem dir_unique {u v w dir : Nat} {neighbours : List (Nat × Nat)} (h : cellNeighbours u = some neighbours)
    (hv : (v, dir) ∈ neighbours) (hw : (w, dir) ∈ neighbours) : v = w := by
  obtain ⟨cu, offset, hcu, hoffset, hidv⟩ := mem_cellNeighbours h hv
  obtain ⟨cu', offset', hcu', hoffset', hidw⟩ := mem_cellNeighbours h hw
  obtain rfl := Option.some.inj (hcu.symm.trans hcu')
  rw [List.mk_mem_zipIdx_iff_getElem?] at hoffset hoffset'
  obtain rfl := Option.some.inj (hoffset.symm.trans hoffset')
  exact Option.some.inj (hidv.symm.trans hidw)

theorem neighbourIn_of_mem {u v dir : Nat} {neighbours : List (Nat × Nat)} (h : cellNeighbours u = some neighbours)
    (hv : (v, dir) ∈ neighbours) : neighbourIn u dir = some v := by
  rw [neighbourIn_eq h]
  cases hfind : neighbours.find? fun step => step.2 = dir with
  | none => exact absurd (decide_eq_true rfl) (List.find?_eq_none.1 hfind (v, dir) hv)
  | some step =>
    obtain rfl : step.2 = dir := by simpa using List.find?_some hfind
    rw [Option.map_some, dir_unique h (List.mem_of_find?_eq_some hfind) hv]

/-- Where there is a step, it is to the neighbour that is listed. -/
theorem IsStep.neighbourIn {dir u v : Nat} (h : IsStep dir u v) : neighbourIn u dir = some v := by
  have hne := h.ne
  obtain ⟨cu, offset, hcu, hoffset, hcv⟩ := h
  refine neighbourIn_of_mem (congrArg (Option.map _) hcu) ?_
  refine List.mem_filterMap.2 ⟨(offset, dir), List.mk_mem_zipIdx_iff_getElem?.2 hoffset, ?_⟩
  have hid := coordToCellId_cellCoord hcv
  dsimp only at hid ⊢
  rw [hid]
  exact if_pos hne

/-- The neighbour that is listed is a step away, or it is on another row and the step leads off the grid. -/
theorem neighbourIn_spec {u dir v : Nat} (h : neighbourIn u dir = some v) :
    ¬IsJump u v ∧ IsStep dir u v ∨ IsJump u v ∧ ∀ w, ¬IsStep dir u w := by
  obtain ⟨neighbours, hneighbours, hmem⟩ := neighbourIn_eq_some h
  by_cases hjump : IsJump u v
  · refine .inr ⟨hjump, fun w hw => ?_⟩
    obtain rfl := Option.some.inj (h.symm.trans hw.neighbourIn)
    obtain ⟨cu, cv, hcu, hcv, hnear, -⟩ := step_facts hneighbours hmem
    refine hnear.1 ?_ hjump
    obtain ⟨cu', offset, hcu', hoffset, hcv'⟩ := hw
    obtain rfl := Option.some.inj (hcu.symm.trans hcu')
    obtain rfl := Option.some.inj (hcv.symm.trans hcv')
    obtain ⟨hdx, hdy, -⟩ := offset_facts _ (List.mk_mem_zipIdx_iff_getElem?.2 hoffset)
    unfold Coord.Near
    dsimp only at hdx hdy ⊢
    exact ⟨by omega, by omega⟩
  · exact .inl ⟨hjump, step_lands hneighbours hmem hjump⟩

/-! ### Lines -/

/-- `k` steps in a direction lead from `u` to `v`, over free cells. -/
inductive Line (free : Nat → Bool) (dir : Nat) : Nat → Nat → Nat → Prop where
  | refl (u : Nat) : Line free dir 0 u u
  | step {k u v w : Nat} (hstep : IsStep dir u v) (hfree : free v = true) (hrest : Line free dir k v w) :
    Line free dir (k + 1) u w

/-- The cells of the first four directions have higher numbers, those of the others lower ones. -/
def Ahead (dir u v : Nat) : Prop := if dir < 4 then u < v else v < u

theorem Ahead.trans {dir u v w : Nat} (h : Ahead dir u v) (h' : Ahead dir v w) : Ahead dir u w := by
  unfold Ahead at h h' ⊢
  by_cases hdir : dir < 4
  · simp only [hdir, if_true] at h h' ⊢
    exact h.trans h'
  · simp only [hdir, if_false] at h h' ⊢
    exact h'.trans h

theorem Ahead.irrefl {dir u : Nat} : ¬Ahead dir u u := by
  unfold Ahead
  split <;> exact Nat.lt_irrefl u

theorem ahead_neighbourIn {u v dir : Nat} (h : neighbourIn u dir = some v) : Ahead dir u v := by
  obtain ⟨neighbours, hneighbours, hmem⟩ := neighbourIn_eq_some h
  obtain ⟨cu, offset, hcu, hoffset, hid⟩ := mem_cellNeighbours hneighbours hmem
  obtain ⟨hu, hcu⟩ := Option.ite_none_right_eq_some.1 hcu
  -- the row of the cell is `2 * h + p`, and its column is `q`
  obtain ⟨h, p, q, hp, hq, hu, hrow, hcol⟩ : ∃ h p q : Nat, p < 2 ∧ q < 14 ∧ u = 14 * (2 * h + p) + q ∧
      cu.x - cu.y = 2 * h + p ∧ cu.y = q - h := by
    refine ⟨u / 14 / 2, u / 14 % 2, u % 14, by omega, by omega, by omega, ?_⟩
    rw [← Option.some.inj hcu]
    simp only [mapWidth]
    omega
  obtain ⟨hcell, hv⟩ := Option.ite_none_right_eq_some.1 hid
  replace hv := Option.some.inj hv
  simp only [mapWidth] at hcell hv
  have hhalf := tdiv_two (cu.x + offset.1 - (cu.y + offset.2))
  generalize (cu.x + offset.1 - (cu.y + offset.2)).tdiv 2 = half at hcell hv hhalf
  simp only [dirOffsets, List.zipIdx_cons, List.zipIdx_nil, List.mem_cons, List.not_mem_nil, or_false,
    Prod.mk.injEq] at hoffset
  unfold Ahead
  rcases hoffset with ⟨rfl, rfl⟩ | ⟨rfl, rfl⟩ | ⟨rfl, rfl⟩ | ⟨rfl, rfl⟩ | ⟨rfl, rfl⟩ | ⟨rfl, rfl⟩ | ⟨rfl, rfl⟩ |
    ⟨rfl, rfl⟩ <;> dsimp only at hcell hv hhalf <;> split at hhalf <;> split <;> omega

section

variable {free : Nat → Bool} {dir k n u v w c d : Nat}

theorem Line.ahead (h : Line free dir k u v) : u = v ∨ Ahead dir u v := by
  induction h with
  | refl u => exact .inl rfl
  | step hstep _ _ ih =>
    have hfirst := ahead_neighbourIn hstep.neighbourIn
    rcases ih with rfl | ih
    · exact .inr hfirst
    · exact .inr (hfirst.trans ih)

theorem Line.mono {free' : Nat → Bool} (hfree : ∀ v, free v = true → free' v = true) (h : Line free dir k u v) :
    Line free' dir k u v := by
  induction h with
  | refl u => exact .refl u
  | step hstep hv _ ih => exact .step hstep (hfree _ hv) ih

/-- Where the grid ends for one line, it ends for all of them. -/
theorem Line.before {free' : Nat → Bool} (h : Line free dir k u c) (hend : ∀ w, ¬IsStep dir c w) {k' : Nat}
    (h' : Line free' dir k' u v) : k' ≤ k ∧ (v = c ∨ Ahead dir v c) := by
  induction h generalizing k' with
  | refl u =>
    cases h' with
    | refl _ => exact ⟨le_rfl, .inl rfl⟩
    | step hstep _ _ => exact absurd hstep (hend _)
  | step hstep hfree hrest ih =>
    cases h' with
    | refl _ => exact ⟨Nat.zero_le _, (Line.step hstep hfree hrest).ahead⟩
    | step hstep' _ hrest' =>
      obtain rfl := hstep.unique hstep'
      obtain ⟨hle, hahead⟩ := ih hend hrest'
      exact ⟨Nat.succ_le_succ hle, hahead⟩

/-- The coordinates at the end of a line. -/
theorem Line.coord {cu : Coord} {offset : Int × Int} (h : Line free dir k u v) (hcu : cellCoord u = some cu)
    (hoffset : dirOffsets[dir]? = some offset) : cellCoord v = some ⟨cu.x + k * offset.1, cu.y + k * offset.2⟩ := by
  induction h generalizing cu with
  | refl u => simpa using hcu
  | step hstep _ _ ih =>
    obtain ⟨cu', offset', hcu', hoffset', hcv⟩ := hstep
    obtain rfl := Option.some.inj (hcu.symm.trans hcu')
    obtain rfl := Option.some.inj (hoffset.symm.trans hoffset')
    rw [ih hcv, Option.some.injEq, Coord.mk.injEq]
    push_cast
    exact ⟨by ring, by ring⟩

/-! ### Walks -/

/-- From neighbour to neighbour, as far as they are free: the number of steps, and the cell reached. -/
def walk (free : Nat → Bool) (dir : Nat) : Nat → Nat → Nat × Nat
  | 0, u => (0, u)
  | n + 1, u =>
    match neighbourIn u dir with
    | some v => if free v then ((walk free dir n v).1 + 1, (walk free dir n v).2) else (0, u)
    | none => (0, u)

theorem walk_of_free (h : neighbourIn u dir = some v) (hv : free v = true) :
    walk free dir (n + 1) u = ((walk free dir n v).1 + 1, (walk free dir n v).2) := by
  simp [walk, h, hv]

theorem walk_of_taken (h : ∀ v, neighbourIn u dir = some v → free v = false) : walk free dir (n + 1) u = (0, u) := by
  unfold walk
  cases hu : neighbourIn u dir with
  | none => rfl
  | some v => simp [h v hu]

/-- A walk takes all of its steps, or its next one is not free. -/
theorem walk_stops : (walk free dir n u).1 = n ∨
    (walk free dir n u).1 < n ∧ ∀ v, neighbourIn (walk free dir n u).2 dir = some v → free v = false := by
  induction n generalizing u with
  | zero => exact .inl rfl
  | succ n ih =>
    by_cases hfree : ∃ v, neighbourIn u dir = some v ∧ free v = true
    · obtain ⟨v, hv, hfree⟩ := hfree
      rw [walk_of_free hv hfree]
      exact (@ih v).imp (congrArg (· + 1)) fun h => ⟨Nat.succ_lt_succ h.1, h.2⟩
    · have htaken (v : Nat) (hv : neighbourIn u dir = some v) : free v = false :=
        Bool.eq_false_iff.2 fun h => hfree ⟨v, hv, h⟩
      rw [walk_of_taken htaken]
      exact .inr ⟨Nat.succ_pos n, htaken⟩

theorem walk_ahead : u = (walk free dir n u).2 ∨ Ahead dir u (walk free dir n u).2 := by
  induction n generalizing u with
  | zero => exact .inl rfl
  | succ n ih =>
    by_cases hfree : ∃ v, neighbourIn u dir = some v ∧ free v = true
    · obtain ⟨v, hv, hfree⟩ := hfree
      rw [walk_of_free hv hfree]
      have hfirst := ahead_neighbourIn hv
      rcases @ih v with h | h
      · exact .inr (h ▸ hfirst)
      · exact .inr (hfirst.trans h)
    · rw [walk_of_taken fun v hv => Bool.eq_false_iff.2 fun h => hfree ⟨v, hv, h⟩]
      exact .inl rfl

/-- A walk follows its line. -/
theorem Line.walk (h : Line free dir k u c) (m : Nat) :
    walk free dir (k + m) u = (k + (walk free dir m c).1, (walk free dir m c).2) := by
  induction h with
  | refl u => simp
  | step hstep hfree _ ih =>
    rw [Nat.add_right_comm, walk_of_free hstep.neighbourIn hfree, ih, Nat.add_right_comm]

/-- The line comes to the side of the map with steps left, and the neighbour that is listed there is on another
row. -/
def LeavesTo (free : Nat → Bool) (dir n u d : Nat) : Prop :=
  ∃ k c, k < n ∧ Line free dir k u c ∧ neighbourIn c dir = some d ∧ IsJump c d

/-- A walk that does not enter another row over the side is a line. -/
theorem walk_line (h : ∀ d, LeavesTo free dir n u d → free d = false) :
    Line free dir (walk free dir n u).1 u (walk free dir n u).2 := by
  induction n generalizing u with
  | zero => exact .refl u
  | succ n ih =>
    by_cases hfree : ∃ v, neighbourIn u dir = some v ∧ free v = true
    · obtain ⟨v, hv, hfree⟩ := hfree
      rw [walk_of_free hv hfree]
      rcases neighbourIn_spec hv with ⟨-, hstep⟩ | ⟨hjump, -⟩
      · refine .step hstep hfree (ih fun d hd => h d ?_)
        obtain ⟨k, c, hk, hline, hd⟩ := hd
        exact ⟨k + 1, c, Nat.succ_lt_succ hk, .step hstep hfree hline, hd⟩
      · have htaken := h v ⟨0, u, Nat.succ_pos n, .refl u, hv, hjump⟩
        rw [hfree] at htaken
        cases htaken
    · rw [walk_of_taken fun v hv => Bool.eq_false_iff.2 fun h => hfree ⟨v, hv, h⟩]
      exact .refl u

/-- A walk that enters another row passes the end of its line. -/
theorem walk_leaves (h : LeavesTo free dir n u d) (hd : free d = true) :
    ∃ k c, Line free dir k u c ∧ (∀ w, ¬IsStep dir c w) ∧ k < (walk free dir n u).1 ∧
      Ahead dir c (walk free dir n u).2 := by
  obtain ⟨k, c, hk, hline, hc, hjump⟩ := h
  obtain ⟨m, rfl⟩ := Nat.exists_eq_add_of_lt hk
  refine ⟨k, c, hline, ?_, ?_⟩
  · exact ((neighbourIn_spec hc).resolve_left fun h => h.1 hjump).2
  · rw [Nat.add_assoc, hline.walk, walk_of_free hc hd]
    refine ⟨by omega, ?_⟩
    have hfirst := ahead_neighbourIn hc
    rcases @walk_ahead free dir m d with h | h
    · exact h ▸ hfirst
    · exact hfirst.trans h

/-- A walk ends at the end of its line if it finds the cell of the other row taken. -/
theorem walk_blocked (h : LeavesTo free dir n u d) (hd : free d = false) :
    ∃ k c, k < n ∧ Line free dir k u c ∧ neighbourIn c dir = some d ∧ (∀ w, ¬IsStep dir c w) ∧
      walk free dir n u = (k, c) := by
  obtain ⟨k, c, hk, hline, hc, hjump⟩ := h
  have hend := ((neighbourIn_spec hc).resolve_left fun h => h.1 hjump).2
  obtain ⟨m, rfl⟩ := Nat.exists_eq_add_of_lt hk
  refine ⟨k, c, hk, hline, hc, hend, ?_⟩
  have htaken (v : Nat) (hv : neighbourIn c dir = some v) : free v = false :=
    Option.some.inj (hc.symm.trans hv) ▸ hd
  rw [Nat.add_assoc, hline.walk, walk_of_taken htaken]
  rfl

end

end Otomai.Common
