import Otomai.Combat.History
import Otomai.Common.Lines

/-!
# Pushes and pulls

A push or a pull walks from neighbour to neighbour.  As long as its line stays on the grid the walk is the line, and
it stops where it should.  At the side of the map the walk may go on with a cell of another row.

* `pushLoop_eq`, `pullLoop_eq`: the loops are walks.
* `displacement_straight_iff`: when pushes and pulls move along straight free lines.
-/

namespace Otomai.Combat

open Machine Otomai.Common Trace Program

/-- Nobody alive stands on the cell. -/
def Fight.isFree (s : Fight) (cell : Nat) : Bool := (s.fighterOnCell cell).isNone

/-- A cell that a pull towards a source may go to. -/
def Fight.isFreeBut (s : Fight) (sourceCell cell : Nat) : Bool := s.isFree cell && cell ≠ sourceCell

section

variable {s : Fight} {dir n u sourceCell : Nat}

theorem isFree_eq_false {cell : Nat} : s.isFree cell = false ↔ ∃ f, s.fighterOnCell cell = some f := by
  rw [Fight.isFree, Option.isNone_eq_false_iff, Option.isSome_iff_exists]

/-- Whom a walk of so many steps meets at its end. -/
def Fight.blockerAfter (s : Fight) (dir n u : Nat) : Option Int :=
  if (walk s.isFree dir n u).1 = n then none
  else (neighbourIn (walk s.isFree dir n u).2 dir).bind fun next => (s.fighterOnCell next).map Fighter.id

theorem pushLoop_eq (hu : u < mapCellsCount) (moved : Int) :
    pushLoop s dir n u moved =
      some ((walk s.isFree dir n u).2, moved + (walk s.isFree dir n u).1, s.blockerAfter dir n u) := by
  induction n generalizing u moved with
  | zero => simp [pushLoop, walk, Fight.blockerAfter]
  | succ n ih =>
    obtain ⟨neighbours, hneighbours⟩ := Option.isSome_iff_exists.1 (cellNeighbours_isSome.2 hu)
    have hfind := neighbourIn_eq hneighbours dir
    unfold pushLoop Fight.blockerAfter
    simp only [hneighbours, Option.bind_eq_bind, Option.bind_some]
    cases hnext : neighbours.find? fun step => step.2 = dir with
    | none =>
      rw [hnext, Option.map_none] at hfind
      simp [walk_of_taken, hfind]
    | some step =>
      obtain ⟨next, d⟩ := step
      rw [hnext, Option.map_some] at hfind
      have hlt : next < mapCellsCount := cellNeighbours_lt hneighbours (List.mem_of_find?_eq_some hnext)
      cases hblocker : s.fighterOnCell next with
      | some blocker =>
        have htaken : ∀ v, neighbourIn u dir = some v → s.isFree v = false := fun v hv => by
          rw [hfind, Option.some.injEq] at hv
          exact isFree_eq_false.2 ⟨blocker, hv ▸ hblocker⟩
        simp [walk_of_taken htaken, hfind, hblocker]
      | none =>
        have hfree : s.isFree next = true := by rw [Fight.isFree, hblocker]; rfl
        simp only [hblocker, if_neg (Nat.not_le.2 hlt), ih hlt, walk_of_free hfind hfree]
        simp only [Fight.blockerAfter, Nat.add_right_cancel_iff]
        push_cast
        rw [add_assoc, add_comm 1]

theorem pullLoop_eq (hu : u < mapCellsCount) :
    pullLoop s sourceCell dir n u = some (walk (s.isFreeBut sourceCell) dir n u).2 := by
  induction n generalizing u with
  | zero => rfl
  | succ n ih =>
    obtain ⟨neighbours, hneighbours⟩ := Option.isSome_iff_exists.1 (cellNeighbours_isSome.2 hu)
    have hfind := neighbourIn_eq hneighbours dir
    unfold pullLoop
    simp only [hneighbours, Option.bind_eq_bind, Option.bind_some]
    cases hnext : neighbours.find? fun step => step.2 = dir with
    | none =>
      rw [hnext, Option.map_none] at hfind
      simp [walk_of_taken, hfind]
    | some step =>
      obtain ⟨next, d⟩ := step
      rw [hnext, Option.map_some] at hfind
      have hlt : next < mapCellsCount := cellNeighbours_lt hneighbours (List.mem_of_find?_eq_some hnext)
      have hfree : s.isFreeBut sourceCell next = true ↔ next ≠ sourceCell ∧ s.fighterOnCell next = none := by
        simp [Fight.isFreeBut, Fight.isFree, and_comm]
      by_cases h : next ≠ sourceCell ∧ s.fighterOnCell next = none
      · simp only [if_pos h, ih hlt, walk_of_free hfind (hfree.2 h)]
      · have htaken : ∀ v, neighbourIn u dir = some v → s.isFreeBut sourceCell v = false := fun v hv => by
          rw [hfind, Option.some.injEq] at hv
          exact hv ▸ Bool.eq_false_iff.2 (mt hfree.1 h)
        simp only [if_neg h, walk_of_taken htaken]

end

/-! ### Straight lines -/

/-- A push has moved its target along a straight line of free cells, and has stopped early only at the end of the grid
or next to the fighter that it collided with. -/
structure PushResult.Straight (s : Fight) (dir : Nat) (distance : Int) (r : PushResult) : Prop where
  line : ∃ k : Nat, k ≤ distance.toNat ∧ r.cellsMoved = k ∧ Line s.isFree dir k r.startCell r.endCell
  cells : r.cellsMoved + r.cellsRemaining = distance
  full : r.cellsMoved = distance.toNat → r.collidedWithFighter = none
  early : r.cellsMoved < distance.toNat → (∀ v, ¬IsStep dir r.endCell v) ∧ r.collidedWithFighter = none ∨
    ∃ (v : Nat) (f : Fighter), IsStep dir r.endCell v ∧ s.fighterOnCell v = some f ∧ r.collidedWithFighter = some f.id

/-- A pull has moved its target along a straight line of free cells, and has stopped early only at the end of the
grid, next to a fighter or next to its source. -/
def StraightPull (s : Fight) (sourceCell dir : Nat) (distance : Int) (start endCell : Nat) : Prop :=
  ∃ k, k ≤ distance.toNat ∧ Line s.isFree dir k start endCell ∧
    (k < distance.toNat → (∀ v, ¬IsStep dir endCell v) ∨
      ∃ v, IsStep dir endCell v ∧ (v = sourceCell ∨ s.isFree v = false))

section

variable {s : Fight} {dir start sourceCell : Nat} {distance : Int}

theorem computePush_straight_iff (hstart : start < mapCellsCount) :
    ∃ r, computePush s start dir distance = some r ∧ r.startCell = start ∧
      (r.Straight s dir distance ↔ ∀ d, ¬LeavesTo s.isFree dir distance.toNat start d) := by
  have hwalk := @pushLoop_eq s dir distance.toNat start hstart 0
  refine ⟨_, by rw [computePush, hwalk]; rfl, rfl, ?_⟩
  constructor
  · intro h d hleaves
    cases hd : s.isFree d with
    | true =>
      obtain ⟨k, c, hline, hend, hpassed, -⟩ := walk_leaves hleaves hd
      obtain ⟨k', -, hmoved, hline'⟩ := h.line
      have hle := (hline.before hend hline').1
      dsimp only at hmoved
      omega
    | false =>
      obtain ⟨k, c, hk, -, hc, hend, hblocked⟩ := walk_blocked hleaves hd
      obtain ⟨f, hf⟩ := isFree_eq_false.1 hd
      have hearly := h.early
      simp only [Fight.blockerAfter, hblocked] at hearly
      rcases hearly (by omega) with ⟨-, hnone⟩ | ⟨v, -, hstep, -, -⟩
      · rw [if_neg (Nat.ne_of_lt hk), hc, Option.bind_some, hf] at hnone
        cases hnone
      · exact hend v hstep
  · intro h
    have hline := @walk_line s.isFree dir distance.toNat start fun d hd => absurd hd (h d)
    have hle : (walk s.isFree dir distance.toNat start).1 ≤ distance.toNat :=
      walk_stops.elim Nat.le_of_eq (Nat.le_of_lt ·.1)
    refine ⟨⟨_, hle, by dsimp only; omega, hline⟩, by dsimp only; omega, fun hfull => ?_, fun hearly => ?_⟩
    · dsimp only at hfull
      exact if_pos (by omega)
    · dsimp only at hearly
      have hlt : (walk s.isFree dir distance.toNat start).1 < distance.toNat := by omega
      have htaken := (walk_stops.resolve_left (Nat.ne_of_lt hlt)).2
      simp only [Fight.blockerAfter, if_neg (Nat.ne_of_lt hlt)]
      cases hnext : neighbourIn (walk s.isFree dir distance.toNat start).2 dir with
      | none =>
        refine .inl ⟨fun v hv => ?_, rfl⟩
        rw [hv.neighbourIn] at hnext
        cases hnext
      | some v =>
        obtain ⟨f, hf⟩ := isFree_eq_false.1 (htaken v hnext)
        rcases neighbourIn_spec hnext with ⟨-, hstep⟩ | ⟨hjump, -⟩
        · exact .inr ⟨v, f, hstep, hf, by rw [Option.bind_some, hf]; rfl⟩
        · exact absurd ⟨_, _, hlt, hline, hnext, hjump⟩ (h v)

theorem pullLoop_straight_iff (hstart : start < mapCellsCount) :
    ∃ endCell, pullLoop s sourceCell dir distance.toNat start = some endCell ∧
      (StraightPull s sourceCell dir distance start endCell ↔
        ∀ d, LeavesTo (s.isFreeBut sourceCell) dir distance.toNat start d → s.isFreeBut sourceCell d = false) := by
  refine ⟨_, pullLoop_eq hstart, ?_⟩
  constructor
  · rintro ⟨k', -, hline', -⟩ d hleaves
    refine Bool.eq_false_iff.2 fun hd => ?_
    obtain ⟨k, c, hline, hend, -, hahead⟩ := walk_leaves hleaves hd
    rcases (hline.before hend hline').2 with hsame | hbefore
    · exact Ahead.irrefl (hsame ▸ hahead)
    · exact Ahead.irrefl (hahead.trans hbefore)
  · intro h
    have hline := walk_line h
    have hfree (v : Nat) (hv : s.isFreeBut sourceCell v = true) : s.isFree v = true := by
      rw [Fight.isFreeBut, Bool.and_eq_true] at hv
      exact hv.1
    rcases @walk_stops (s.isFreeBut sourceCell) dir distance.toNat start with hall | ⟨hlt, htaken⟩
    · exact ⟨_, Nat.le_of_eq hall, hline.mono hfree, fun hlt => absurd hall (Nat.ne_of_lt hlt)⟩
    · refine ⟨_, Nat.le_of_lt hlt, hline.mono hfree, fun _ => ?_⟩
      cases hnext : neighbourIn (walk (s.isFreeBut sourceCell) dir distance.toNat start).2 dir with
      | none =>
        refine .inl fun v hv => ?_
        rw [hv.neighbourIn] at hnext
        cases hnext
      | some v =>
        have hv := htaken v hnext
        rcases neighbourIn_spec hnext with ⟨-, hstep⟩ | ⟨-, hend⟩
        · refine .inr ⟨v, hstep, ?_⟩
          rw [Fight.isFreeBut, Bool.and_eq_false_iff] at hv
          exact hv.symm.imp_left fun hv => by simpa using hv
        · exact .inl hend

end

/-! ### Where the target ends -/

/-- The cell of a fighter. -/
def Fight.cellOf (id : Int) (s : Fight) : Option Int := (s.getFighter id).map Fighter.cellId

theorem cellOf_congr {s s' : Fight}
    (h : (s'.fighters.map fun f => (f.id, f.cellId)) = s.fighters.map fun f => (f.id, f.cellId)) (id : Int) :
    s'.cellOf id = s.cellOf id := by
  have hpairs (s : Fight) :
      s.cellOf id = ((s.fighters.map fun f => (f.id, f.cellId)).find? fun p => p.1 = id).map Prod.snd := by
    rw [List.find?_map, Option.map_map]
    rfl
  rw [hpairs s', hpairs s, h]

theorem cellOf_hit (id : Int) (s : Fight) (targetId damage : Int) :
    (s.apply (.hit targetId damage)).cellOf id = s.cellOf id :=
  cellOf_congr (s.map_modifyFighter (g := (·.hit damage)) (fun _ => rfl) targetId) id

theorem cellOf_slide {s : Fight} {id : Int} {f : Fighter} (hf : s.getFighter id = some f) (cellId : Int) :
    (s.apply (.slide id cellId)).cellOf id = some cellId := by
  have h := s.getFighter_modifyFighter (g := (·.onCell cellId)) (fun _ => rfl) id
  rw [hf] at h
  unfold Fight.cellOf
  rw [Fight.apply, h]
  rfl

section

variable {s : Fight} {sourceId targetId distance : Int} {source target : Fighter} {dir : Nat}

/-- A target slides to the end of its walk, unless it is there. -/
theorem slide_cell {targetCell endCell : Nat} (startCellId : Int) (htarget : s.getFighter targetId = some target)
    (hcell : (targetCell : Int) = target.cellId) :
    let slide : FightProgram Unit := when (endCell ≠ targetCell) do
      update (.slide targetId endCell)
      send (.slide sourceId targetId startCellId endCell)
    (slide s).ending = .value () ∧ (after s (slide s).trace).cellOf targetId = some (endCell : Int) := by
  dsimp only
  by_cases hmoved : endCell ≠ targetCell
  · rw [when, if_pos hmoved]
    exact ⟨rfl, cellOf_slide htarget endCell⟩
  · rw [when, if_neg hmoved]
    refine ⟨rfl, ?_⟩
    rw [not_not.1 hmoved, hcell]
    exact congrArg (Option.map Fighter.cellId) htarget

theorem asU16_of_validCell {cellId : Int} (h : ValidCell cellId) : (asU16 cellId : Int) = cellId := by
  unfold ValidCell at h
  unfold asU16
  omega

theorem applyPush_cell {r : PushResult} (hsource : s.getFighter sourceId = some source)
    (htarget : s.getFighter targetId = some target) (hcell : ValidCell target.cellId)
    (hgravity : target.hasGravity = false)
    (hdir : directionBetween (asU16 source.cellId) (asU16 target.cellId) = some (some dir))
    (hpush : computePush s (asU16 target.cellId) dir distance = some r) :
    (after s (applyPush sourceId targetId distance s).trace).cellOf targetId = some (r.endCell : Int) := by
  unfold applyPush
  rw [get_bind_run, if_neg (by simp [htarget, hgravity]), hsource, htarget]
  dsimp only
  rw [hdir, ofOption_some, pure_bind_run]
  dsimp only
  rw [hpush, ofOption_some, pure_bind_run]
  obtain ⟨hending, hslid⟩ := slide_cell target.cellId htarget
    (asU16_of_validCell hcell)
  refine (Keeps.after_bind hending ?_).trans hslid
  -- a collision moves nobody
  have hhit (s : Fight) (id damage : Int) : (s.apply (.hit id damage)).cellOf targetId = s.cellOf targetId :=
    cellOf_hit ..
  refine .when fun _ => .bind (applyDamage_keeps hhit ..) fun _ _ _ => ?_
  cases r.collidedWithFighter with
  | none => exact .pure _
  | some collidedId => exact .bind (applyDamage_keeps hhit ..) fun _ _ _ => .pure _

theorem applyPull_cell {endCell : Nat} (hsource : s.getFighter sourceId = some source)
    (htarget : s.getFighter targetId = some target) (hcell : ValidCell target.cellId)
    (hdir : directionBetween (asU16 target.cellId) (asU16 source.cellId) = some (some dir))
    (hpull : pullLoop s (asU16 source.cellId) dir distance.toNat (asU16 target.cellId) = some endCell) :
    (after s (applyPull sourceId targetId distance s).trace).cellOf targetId = some (endCell : Int) := by
  unfold applyPull
  rw [get_bind_run, hsource, htarget]
  dsimp only
  rw [hdir, ofOption_some, pure_bind_run]
  dsimp only
  rw [hpull, ofOption_some, pure_bind_run]
  exact (slide_cell target.cellId htarget (asU16_of_validCell hcell)).2

end

/-! ### Pushes and pulls -/

/-- The source pushes the target, which is free to move, from its cell in a direction. -/
def Fight.Pushes (s : Fight) (sourceId targetId : Int) (dir start : Nat) : Prop :=
  ∃ source target, s.getFighter sourceId = some source ∧ s.getFighter targetId = some target ∧
    target.hasGravity = false ∧ ValidCell target.cellId ∧ start = asU16 target.cellId ∧
    directionBetween (asU16 source.cellId) start = some (some dir)

/-- The source pulls the target from its cell in a direction. -/
def Fight.Pulls (s : Fight) (sourceId targetId : Int) (dir start sourceCell : Nat) : Prop :=
  ∃ source target, s.getFighter sourceId = some source ∧ s.getFighter targetId = some target ∧
    ValidCell target.cellId ∧ start = asU16 target.cellId ∧ sourceCell = asU16 source.cellId ∧
    directionBetween start sourceCell = some (some dir)

/-- A push moves its target to the end of a straight free line. -/
def Fight.PushIsStraight (s : Fight) (sourceId targetId distance : Int) : Prop :=
  ∀ dir start, s.Pushes sourceId targetId dir start →
    ∃ r, computePush s start dir distance = some r ∧ r.startCell = start ∧ r.Straight s dir distance ∧
      (after s (applyPush sourceId targetId distance s).trace).cellOf targetId = some (r.endCell : Int)

/-- A pull moves its target to the end of a straight free line. -/
def Fight.PullIsStraight (s : Fight) (sourceId targetId distance : Int) : Prop :=
  ∀ dir start sourceCell, s.Pulls sourceId targetId dir start sourceCell →
    ∃ endCell, StraightPull s sourceCell dir distance start endCell ∧
      (after s (applyPull sourceId targetId distance s).trace).cellOf targetId = some (endCell : Int)

section

variable (s : Fight) (sourceId targetId distance : Int)

theorem push_straight_iff : s.PushIsStraight sourceId targetId distance ↔
    ∀ dir start, s.Pushes sourceId targetId dir start → ∀ d, ¬LeavesTo s.isFree dir distance.toNat start d := by
  refine forall_congr' fun dir => forall_congr' fun start => ?_
  refine forall_congr' fun ⟨source, target, hsource, htarget, hgravity, hcell, hstart, hdir⟩ => ?_
  subst hstart
  obtain ⟨r, hpush, hr, hiff⟩ :=
    @computePush_straight_iff s dir _ distance (asU16_lt_of_validCell hcell)
  rw [← hiff]
  constructor
  · rintro ⟨r', hpush', -, hstraight, -⟩
    rw [hpush, Option.some.injEq] at hpush'
    exact hpush' ▸ hstraight
  · intro hstraight
    exact ⟨r, hpush, hr, hstraight, applyPush_cell hsource htarget hcell hgravity hdir hpush⟩

theorem pull_straight_iff : s.PullIsStraight sourceId targetId distance ↔
    ∀ dir start sourceCell, s.Pulls sourceId targetId dir start sourceCell →
      ∀ d, LeavesTo (s.isFreeBut sourceCell) dir distance.toNat start d → s.isFreeBut sourceCell d = false := by
  refine forall_congr' fun dir => forall_congr' fun start => forall_congr' fun sourceCell => ?_
  refine forall_congr' fun ⟨source, target, hsource, htarget, hcell, hstart, hsourceCell, hdir⟩ => ?_
  subst hstart hsourceCell
  obtain ⟨endCell, hpull, hiff⟩ :=
    @pullLoop_straight_iff s dir _ (asU16 source.cellId) distance (asU16_lt_of_validCell hcell)
  have hend := applyPull_cell hsource htarget hcell hdir hpull
  rw [← hiff]
  constructor
  · rintro ⟨endCell', hstraight, hend'⟩
    rw [hend, Option.some.injEq, Int.natCast_inj] at hend'
    exact hend' ▸ hstraight
  · exact fun hstraight => ⟨endCell, hstraight, hend⟩

/-- Pushes and pulls move along straight free lines, exactly if the line does not come to the side of the map with
steps left where the neighbour that is listed is on another row, and free to a pull. -/
theorem displacement_straight_iff :
    (s.PushIsStraight sourceId targetId distance ↔
      ∀ dir start, s.Pushes sourceId targetId dir start → ∀ d, ¬LeavesTo s.isFree dir distance.toNat start d) ∧
    (s.PullIsStraight sourceId targetId distance ↔
      ∀ dir start sourceCell, s.Pulls sourceId targetId dir start sourceCell →
        ∀ d, LeavesTo (s.isFreeBut sourceCell) dir distance.toNat start d → s.isFreeBut sourceCell d = false) :=
  ⟨push_straight_iff s sourceId targetId distance, pull_straight_iff s sourceId targetId distance⟩

end

/-- Two fighters side by side at the end of the first row of the map. -/
def Fight.atTheSide : Fight where
  mapId := 0
  phase := .fighting
  fighters := [playerFighter .novice 12, monsterFighter .novice 13]
  currentFighterIndex := 0
  round := 1
  challengerPositions := []
  defenderPositions := []
  marks := []
  nextMarkId := 0
  nextSummonId := -1000

/-- A push over the side of the map goes on with the first cell of the next row. -/
theorem push_leaves_line : ¬∀ (s : Fight) (sourceId targetId distance : Int),
    s.PushIsStraight sourceId targetId distance ∧ s.PullIsStraight sourceId targetId distance := by
  intro h
  have hstraight := (push_straight_iff ..).1 (h .atTheSide 1 (-1) 1).1
  have hpushes : Fight.atTheSide.Pushes 1 (-1) 0 13 :=
    ⟨playerFighter .novice 12, monsterFighter .novice 13, by decide +kernel⟩
  refine hstraight 0 13 hpushes 14 ⟨0, 13, by decide, .refl 13, by decide +kernel, by decide +kernel⟩

end Otomai.Combat
