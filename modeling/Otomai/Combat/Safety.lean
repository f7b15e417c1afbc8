import Otomai.Combat.History

/-!
# Cells stay on the grid

The tables of the grid have 560 entries, and a cell that is stored or aimed at is looked up in them.  The code looks a
cast's cell up before it refuses it, and stores the cell of a movement as it comes.

* `CellsValid.apply`: every write but a movement keeps the stored cells on the grid.
* `fight_stays_on_grid`: no fight panics if no message aims a payable cast or moves a fighter off the grid.
-/

namespace Otomai.Combat

open Machine Otomai.Common Trace Program

variable {maps : Int → Option MapData} {n : Nat} {playerId : Int}

/-- A cast aims at a cell of the grid, unless the player could not pay for it; a movement that is executed ends on the
grid. -/
def OnGrid (playerId : Int) (s : Fight) : Action → Prop
  | .receive (.cast _ cellId loaded _) => ValidCell cellId.toInt ∨ ¬s.CanPay playerId (loaded.getD .fallback)
  | .update (.move _ cellId) => cellId < 560
  | _ => True

instance (s : Fight) (a : Action) : Decidable (OnGrid playerId s a) := by
  delta OnGrid
  induction a using Action.casesOn with
  | receive r => induction r using Request.casesOn <;> infer_instance
  | update u => induction u using Update.casesOn <;> infer_instance
  | _ => infer_instance

/-- What is accepted is on the grid. -/
def AcceptsOnGrid : Action → Prop
  | .acceptCast _ _ cellId _ => ValidCell cellId
  | .update (.move _ cellId) => ValidCell cellId
  | _ => True

/-- The stored cells are on the grid, and the positions that may be stored are. -/
def Fight.GridKept (s : Fight) : Prop := s.CellsValid ∧ ∀ c ∈ s.challengerPositions, ValidCell c

namespace Fight

variable {s : Fight}

theorem challengerPositions_apply (u : Update) : (s.apply u).challengerPositions = s.challengerPositions := by
  cases u with
  | advanceTurn =>
    simp only [apply, advanceTurn]
    split <;> rfl
  | _ => rfl

/-- A write that changes no cell and adds no mark. -/
private theorem CellsValid.of_cells {s' : Fight} (hs : s.CellsValid)
    (hmap : s'.fighters.map Fighter.cellId = s.fighters.map Fighter.cellId)
    (hmarks : ∀ m' ∈ s'.marks, ∃ m ∈ s.marks, m'.zoneCells = m.zoneCells) : s'.CellsValid := by
  constructor
  · intro f' hf'
    have hmem := List.mem_map_of_mem (f := Fighter.cellId) hf'
    rw [hmap] at hmem
    obtain ⟨f, hf, hcell⟩ := List.mem_map.1 hmem
    rw [← hcell]
    exact hs.1 f hf
  · intro m' hm' c hc
    obtain ⟨m, hm, hzone⟩ := hmarks m' hm'
    rw [hzone] at hc
    exact hs.2 m hm c hc

private theorem CellsValid.of_modifyFighter (hs : s.CellsValid) {id cellId : Int} (hcell : ValidCell cellId) :
    (s.modifyFighter id (·.onCell cellId)).CellsValid := by
  refine ⟨fun f' hf' => ?_, hs.2⟩
  rcases mem_modifyFirst hf' with hmem | ⟨f, -, rfl⟩
  · exact hs.1 f' hmem
  · exact hcell

/-- The marks after a write that places none. -/
private theorem marks_apply (u : Update) (hplace : ∀ m, u ≠ .placeMark m) :
    ∀ m' ∈ (s.apply u).marks, ∃ m ∈ s.marks, m'.zoneCells = m.zoneCells := by
  intro m' hm'
  cases u with
  | placeMark m => exact absurd rfl (hplace m)
  | removeMark id => exact ⟨m', List.mem_of_mem_filter hm', rfl⟩
  | tickMarks =>
    obtain ⟨m, hm, rfl⟩ := List.mem_map.1 hm'
    exact ⟨m, List.mem_of_mem_filter hm, rfl⟩
  | advanceTurn =>
    simp only [apply, advanceTurn] at hm'
    split at hm' <;> exact ⟨m', hm', rfl⟩
  | _ => exact ⟨m', hm', rfl⟩

/-- Every write keeps the stored cells on the grid, if a movement ends there. -/
theorem CellsValid.apply {u : Update} (hs : s.GridKept) (hu : Write s u)
    (hmove : ∀ mpCost cellId, u = .move mpCost cellId → cellId < 560) : (s.apply u).CellsValid := by
  obtain ⟨hcells, hpositions⟩ := hs
  by_cases hkeeps : u.keepsCells = true
  · by_cases hplace : ∃ m, u = .placeMark m
    · obtain ⟨m, rfl⟩ := hplace
      refine ⟨hcells.1, fun m' hm' => ?_⟩
      rcases List.mem_append.1 hm' with hm' | hm'
      · exact hcells.2 m' hm'
      · rw [List.mem_singleton.1 hm']
        cases hu with
        | quiet hquiet => cases hquiet
        | placeMark hzone => exact hzone
    · have hmarks := s.marks_apply u fun m hm => hplace ⟨m, hm⟩
      exact hcells.of_cells (s.map_cellId_apply hkeeps) hmarks
  · cases hu with
    | quiet hquiet => cases u <;> contradiction
    | slide hcell _ => exact hcells.of_modifyFighter hcell
    | teleport hcell _ => exact hcells.of_modifyFighter hcell
    | exchange ha hb _ _ =>
      have hcellA := hcells.1 _ (List.mem_of_find?_eq_some ha)
      have hcellB := hcells.1 _ (List.mem_of_find?_eq_some hb)
      exact (hcells.of_modifyFighter hcellB).of_modifyFighter hcellA
    | summon hcell _ _ =>
      refine ⟨fun f' hf' => ?_, hcells.2⟩
      rcases List.mem_append.1 hf' with hf' | hf'
      · exact hcells.1 f' hf'
      · rw [List.mem_singleton.1 hf']
        exact hcell
    | move _ _ hnonneg _ =>
      refine ⟨fun f' hf' => ?_, hcells.2⟩
      rcases mem_modify hf' with hmem | ⟨f, -, rfl⟩
      · exact hcells.1 f' hmem
      · exact ⟨hnonneg, hmove _ _ rfl⟩
    | place hcell => exact hcells.of_modifyFighter (hpositions _ hcell)
    | _ => exact absurd rfl hkeeps

theorem GridKept.apply {u : Update} (hs : s.GridKept) (hu : Write s u) (hgrid : OnGrid playerId s (.update u)) :
    (s.apply u).GridKept := by
  refine ⟨CellsValid.apply hs hu fun mpCost cellId hmove => ?_, ?_⟩
  · subst hmove
    exact hgrid
  · rw [s.challengerPositions_apply u]
    exact hs.2

theorem GridKept.after {t : List Action} (hs : s.GridKept) (hblocks : Composed Block s t)
    (hgrid : Along (OnGrid playerId) s t) : (after s t).GridKept :=
  (writes_invariant (fun _ _ hs hu hgrid => hs.apply hu hgrid) hblocks hgrid hs).2

end Fight

/-- A cast or a movement is accepted on the grid only, if movements end there. -/
theorem Block.acceptsOnGrid {s : Fight} {b : List Action} (hb : Block s b) (hgrid : Along (OnGrid playerId) s b) :
    Along (fun _ a => AcceptsOnGrid a) s b := by
  have hnothing {a : Action} (hcast : ∀ id spellId cellId data, a ≠ .acceptCast id spellId cellId data)
      (hmove : ∀ mpCost cellId, a ≠ .update (.move mpCost cellId)) : AcceptsOnGrid a := by
    cases a with
    | acceptCast id spellId cellId data => exact absurd rfl (hcast id spellId cellId data)
    | update u => cases u with
      | move mpCost cellId => exact absurd rfl (hmove mpCost cellId)
      | _ => trivial
    | _ => trivial
  have heffect {s : Fight} {b : List Action} (h : Effect s b) : Along (fun _ a => AcceptsOnGrid a) s b := by
    cases h with
    | @quiet u hu _ _ =>
      refine ⟨hnothing (fun _ _ _ _ h => Action.noConfusion h) (fun mpCost cellId h => ?_), trivial⟩
      obtain rfl := Action.update.inj h
      cases hu
    | hit _ _ _ => split <;> simp [AcceptsOnGrid]
    | heal _ => split <;> simp [AcceptsOnGrid]
    | _ => simp [AcceptsOnGrid]
  cases hb with
  | spell h =>
    cases h with
    | effect h => exact heffect h
    | summon _ _ _ _ => simp [AcceptsOnGrid]
  | turn h =>
    cases h with
    | effect h => exact heffect h
    | tick hu => rcases Update.eq_of_isTick hu with rfl | rfl <;> exact ⟨trivial, trivial⟩
    | _ => simp [AcceptsOnGrid]
  | cast _ _ _ _ hcell _ => exact ⟨trivial, hcell, trivial, trivial⟩
  | move _ _ _ hcell _ _ => exact ⟨trivial, ⟨by omega, hgrid.2.1⟩, trivial, trivial, trivial, trivial, trivial⟩
  | _ => simp [AcceptsOnGrid]

theorem Block.grid {s : Fight} {b : List Action} (hs : s.GridKept) (hb : Block s b)
    (hgrid : Along (OnGrid playerId) s b) : Along (fun _ a => AcceptsOnGrid a) s b ∧ (after s b).GridKept :=
  ⟨hb.acceptsOnGrid hgrid, hs.after (.single hb) hgrid⟩

/-- A request panics only where a cell outside of the grid is stored, or was aimed at. -/
private theorem serve_ending (r : Request) {s : Fight} (hcoherent : s.Coherent) (hs : s.GridKept)
    (hgrid : Along (OnGrid playerId) s (serve maps n playerId r s).trace) :
    (serve maps n playerId r s).ending ≠ .panic := by
  intro hpanic
  have hspec := serve_spec maps n playerId r hcoherent
  have hafter := hs.after hspec.served.composed hgrid
  rcases hspec.fault hpanic with hfault | ⟨spellId, cellId, loaded, roll, rfl, hcell, hpay⟩
  · exact hfault hafter.1
  · -- the first action of the trace is the receipt of the cast
    have hreceipt : OnGrid playerId s (.receive (.cast spellId cellId loaded roll)) := hgrid.1
    exact hreceipt.elim hcell fun hrefused => hrefused hpay

theorem history_ending (rs : List Request) {s : Fight} (hcoherent : s.Coherent) (hs : s.GridKept)
    (hgrid : Along (OnGrid playerId) s (history maps n playerId rs s).trace) :
    (history maps n playerId rs s).ending ≠ .panic := by
  induction rs generalizing s with
  | nil => nofun
  | cons r rs ih =>
    rw [history_cons] at hgrid ⊢
    obtain ⟨hserve, hrest⟩ := along_bind hgrid
    have hspec := serve_spec maps n playerId r hcoherent
    have hending := serve_ending r hcoherent hs hserve
    rw [bind_run]
    cases hrun : (serve maps n playerId r s).ending with
    | panic => exact absurd hrun hending
    | exhausted => nofun
    | value u =>
      have hafter := hs.after hspec.served.composed hserve
      have hcoherent' := hspec.coherent hrun
      have hrest := hrest u hrun
      dsimp only
      generalize after s (serve maps n playerId r s).trace = s' at hafter hcoherent' hrest ⊢
      by_cases hstop : (r.checksEnd && s'.isOver) = true
      · rw [historyRest_of_over hstop]
        nofun
      · rw [historyRest_of_going hstop] at hrest ⊢
        exact ih (coherent_of_going hcoherent' hstop) hafter hrest

/-! ### The start of a fight -/

/-- The positions of a range are in it. -/
theorem placementPositions_range {map : Option MapData} {first count : Nat} (hcount : 8 ≤ count) {c : Int}
    (hc : c ∈ placementPositions map first count) : (first : Int) ≤ c ∧ c < first + count := by
  have hrange {k size : Nat} (hk : k ∈ List.range' first size) (hsize : size ≤ count) :
      (first : Int) ≤ Int.ofNat k ∧ Int.ofNat k < first + count := by
    have h := List.mem_range'_1.1 hk
    rw [Int.ofNat_eq_natCast]
    omega
  unfold placementPositions at hc
  cases map with
  | none =>
    obtain ⟨k, hk, rfl⟩ := List.mem_map.1 hc
    exact hrange hk hcount
  | some map =>
    obtain ⟨k, hk, rfl⟩ := List.mem_map.1 hc
    exact hrange (List.mem_of_mem_filter (List.mem_of_mem_take hk)) le_rfl

/-- A fighter starts on the first position of its range, or on a cell of the range if there is none. -/
theorem placementPositions_headD {map : Option MapData} {first count : Nat} (hcount : 8 ≤ count) {c : Int}
    (hmin : (first : Int) ≤ c) (hmax : c < first + count) :
    (first : Int) ≤ (placementPositions map first count).headD c ∧
      (placementPositions map first count).headD c < first + count := by
  cases hpositions : placementPositions map first count with
  | nil => exact ⟨hmin, hmax⟩
  | cons d rest =>
    have hmem : d ∈ placementPositions map first count := by
      rw [hpositions]
      exact List.mem_cons_self
    exact placementPositions_range hcount hmem

/-- The player starts below the monster. -/
theorem startPveFight_cells (c : Character) (mapId : Int) (nextMarkId drawn : Nat) :
    ∃ p m, (startPveFight maps c mapId nextMarkId drawn).fighters = [p, m] ∧
      (280 ≤ p.cellId ∧ p.cellId < 310) ∧ 400 ≤ m.cellId ∧ m.cellId < 430 :=
  ⟨_, _, rfl, placementPositions_headD (by decide) (by decide) (by decide),
    placementPositions_headD (by decide) (by decide) (by decide)⟩

theorem startPveFight_gridKept (c : Character) (mapId : Int) (nextMarkId drawn : Nat) :
    (startPveFight maps c mapId nextMarkId drawn).GridKept := by
  obtain ⟨p, m, hfighters, hp, hm⟩ := @startPveFight_cells maps c mapId nextMarkId drawn
  refine ⟨⟨fun f hf => ?_, nofun⟩, fun d hd => ?_⟩
  · rw [hfighters] at hf
    unfold ValidCell
    rcases List.mem_pair.1 hf with rfl | rfl
    · omega
    · omega
  · have hrange := placementPositions_range (by omega) hd
    unfold ValidCell
    omega

/-- Whatever the client sends, a fight never looks outside of its tables, if no payable cast is aimed and no movement
ends outside of the grid; what it accepts is on the grid. -/
theorem fight_stays_on_grid (maps : Int → Option MapData) (n : Nat) (c : Character) (mapId : Int)
    (nextMarkId drawn : Nat) (rs : List Request) :
    let s := startPveFight maps c mapId nextMarkId drawn
    let run := history maps n c.id rs s
    Along (OnGrid c.id) s run.trace → run.ending ≠ .panic ∧ Along (fun _ a => AcceptsOnGrid a) s run.trace := by
  intro s run h
  have hcoherent := @startPveFight_coherent maps c mapId nextMarkId drawn
  have hs := @startPveFight_gridKept maps c mapId nextMarkId drawn
  have halong := (history_composed rs hcoherent).along_invariant (fun _ _ hs hb hgrid => hb.grid hs hgrid) h hs
  exact ⟨history_ending rs hcoherent hs h, halong.1⟩

/-- A novice casts on the cell next to it and walks two cells. -/
theorem fight_stays_on_grid_novice :
    let s := startPveFight (fun _ => none) .novice 0 0 0
    let run := history (fun _ => none) 3 1 [.ready true, .cast 0 281 none 0, .movement [280, 294, 308]] s
    run.ending ≠ .panic ∧ Along (fun _ a => AcceptsOnGrid a) s run.trace :=
  fight_stays_on_grid (fun _ => none) 3 .novice 0 0 0 [.ready true, .cast 0 281 none 0, .movement [280, 294, 308]]
    (by decide +kernel)

/-- A cast on the cell 600 is not refused: the distance to it is looked up first. -/
theorem fight_leaves_grid :
    ¬∀ (maps : Int → Option MapData) (n : Nat) (c : Character) (mapId : Int) (nextMarkId drawn : Nat)
      (rs : List Request),
        (history maps n c.id rs (startPveFight maps c mapId nextMarkId drawn)).ending ≠ .panic := by
  intro h
  have hcast := h (fun _ => none) 0 .novice 0 0 0 [.cast 0 600 none 0]
  have hpanic : (history (fun _ => none) 0 1 [.cast 0 600 none 0]
      (startPveFight (fun _ => none) .novice 0 0 0)).ending = .panic := by decide +kernel
  exact hcast hpanic

end Otomai.Combat
