import Otomai.Combat.Block
import Otomai.Trace.Keeps

/-!
# Damage and displacement

Damage and heals are computed in double precision and truncated.  A hit goes through the shields of its target, is
announced, and may kill.  A push or a pull moves its target from neighbour to neighbour while the next cell is free.
-/

namespace Otomai.Combat

open Machine Otomai.Common Trace Program

/-! ### Amounts -/

/-- `calculate_damage`. -/
def calculateDamage (effect : SpellEffect) (casterStats targetStats : FighterStats) (isCritical : Bool) : Int :=
  let base := if effect.diceSide > 0 then effect.meanDamage else effect.diceNum
  let elemStat := Float.ofInt (casterStats.statForElement effect.element)
  let elemBonus := (elemStat + Float.ofInt casterStats.power) / 100.0
  let critBonus := if isCritical then Float.ofInt casterStats.criticalDamageBonus else 0.0
  let total := Float.ofInt base * (1.0 + elemBonus) + critBonus
  let resistPct := Float.ofInt (targetStats.resistPercentForElement effect.element)
  let resistFlat := Float.ofInt (targetStats.resistFlatForElement effect.element)
  let afterResist := total * (1.0 - resistPct / 100.0) - resistFlat
  asI32 (max afterResist 0.0)

/-- `calculate_heal`. -/
def calculateHeal (effect : SpellEffect) (casterStats : FighterStats) : Int :=
  let base := if effect.diceSide > 0 then effect.meanDamage else effect.diceNum
  let intelBonus := Float.ofInt casterStats.intelligence / 100.0
  asI32 (max (Float.ofInt base * (1.0 + intelBonus)) 0.0)

/-- The part `percent` of a life total. -/
def percentOf (life percent : Int) : Int := asI32 (Float.ofInt life * Float.ofInt percent / 100.0)

/-- A range of dice does its average: 5 to 50 is 27. -/
example : calculateDamage ⟨96, 5, 10, 0, .earth⟩ {} {} false = 27 := by decide +kernel

example : calculateDamage ⟨96, 100, 0, 0, .earth⟩ {} { earthResistPercent := 50 } false = 50 := by decide +kernel

/-! ### Healing and hitting -/

/-- `apply_heal`. -/
def applyHeal (targetId heal : Int) : FightProgram Unit := do
  let s ← get
  match s.getFighter targetId with
  | none => pure ()
  | some target =>
    update (.heal targetId heal)
    when (0 < target.actualHeal heal) (send (.lifePointsGain targetId (target.actualHeal heal)))

/-- `apply_damage`; the value says whether the target died. -/
def applyDamage (sourceId targetId damage : Int) (element : Element) : FightProgram Bool := do
  let s ← get
  match s.getFighter targetId with
  | none => pure false
  | some target =>
    if target.isInvulnerable then pure false
    else do
      let clamped := max damage 0
      update (.hit targetId clamped)
      let s ← get
      let targetDied := (s.getFighter targetId).any (!·.isAlive)
      send (.lifePointsLost sourceId targetId clamped element)
      when targetDied (send (.death sourceId targetId))
      pure targetDied

/-- A cell outside of the grid is stored in the fight. -/
def Fault (s : Fight) : Prop := ¬s.CellsValid

theorem applyHeal_ensures (targetId heal : Int) (s : Fight) :
    Ensures Effect Fault (applyHeal targetId heal) s fun _ _ => True := by
  unfold applyHeal
  refine .get_bind ?_
  cases hf : s.getFighter targetId with
  | none => exact .pure trivial
  | some target =>
    refine .block ?_ ?_ fun _ _ => trivial
    · have h := @Effect.heal _ _ heal _ hf
      by_cases hheal : 0 < target.actualHeal heal
      · simpa [update, when, send, hheal] using h
      · simpa [update, when, send, hheal] using h
    · by_cases hheal : 0 < target.actualHeal heal <;> simp [update, when, send, hheal]

theorem applyDamage_ensures (sourceId targetId damage : Int) (element : Element) (s : Fight) :
    Ensures Effect Fault (applyDamage sourceId targetId damage element) s fun _ _ => True := by
  unfold applyDamage
  refine .get_bind ?_
  cases hf : s.getFighter targetId with
  | none => exact .pure trivial
  | some target =>
    by_cases hvulnerable : target.isInvulnerable
    · simp only [hvulnerable, if_true]
      exact .pure trivial
    · simp only [hvulnerable, Bool.false_eq_true, if_false]
      have hhit : (s.apply (.hit targetId (max damage 0))).getFighter targetId =
        some (target.hit (max damage 0)) := by
        have h := s.getFighter_modifyFighter (g := (·.hit (max damage 0))) (fun _ => rfl) targetId
        rwa [hf] at h
      refine .block ?_ ?_ fun _ _ => trivial
      · have h := @Effect.hit _ sourceId _ _ element _ hf (by simpa using hvulnerable)
          (le_max_right damage 0)
        cases halive : (target.hit (max damage 0)).isAlive <;>
          simpa [update, when, send, hhit, halive] using h
      · cases halive : (target.hit (max damage 0)).isAlive <;> simp [update, when, send, hhit, halive]

/-- Damage returns, and leaves alone whatever a hit leaves alone. -/
theorem applyDamage_keeps {κ : Type} {k : Fight → κ} (hhit : ∀ s id damage, k (s.apply (.hit id damage)) = k s)
    (sourceId targetId damage : Int) (element : Element) (s : Fight) :
    Keeps k (applyDamage sourceId targetId damage element) s := by
  unfold applyDamage
  refine .get_bind ?_
  cases s.getFighter targetId with
  | none => exact .pure _
  | some target =>
    dsimp only
    split
    · exact .pure _
    · refine .bind (.perform (hhit ..)) fun _ s' _ => .get_bind ?_
      exact .bind (.perform rfl) fun _ _ _ => .bind (.when fun _ => .perform rfl) fun _ _ _ => .pure _

/-! ### Displacement -/

/-- How far a push moves its target, and whom it collides with. -/
structure PushResult where
  startCell : Nat
  endCell : Nat
  cellsMoved : Int
  cellsRemaining : Int
  collidedWithFighter : Option Int
  deriving DecidableEq

/-- The loop of `compute_push`: the cell reached, the cells moved, and the fighter in the way.  `none` is an index out
of bounds. -/
def pushLoop (s : Fight) (dir : Nat) : Nat → Nat → Int → Option (Nat × Int × Option Int)
  | 0, current, moved => some (current, moved, none)
  | n + 1, current, moved => do
    let neighbours ← cellNeighbours current
    match neighbours.find? fun neighbour => neighbour.2 = dir with
    | none => some (current, moved, none)
    | some (next, _) =>
      match s.fighterOnCell next with
      | some blocker => some (current, moved, some blocker.id)
      | none => if mapCellsCount ≤ next then some (current, moved, none) else pushLoop s dir n next (moved + 1)

def computePush (s : Fight) (start dir : Nat) (distance : Int) : Option PushResult := do
  let (current, moved, collidedWith) ← pushLoop s dir distance.toNat start 0
  return ⟨start, current, moved, distance - moved, collidedWith⟩

/-- `apply_push`; a collision costs 8 life points for each cell that is left. -/
def applyPush (sourceId targetId distance : Int) : FightProgram Unit := do
  let s ← get
  if (s.getFighter targetId).any (·.hasGravity) then pure ()
  else match s.getFighter sourceId, s.getFighter targetId with
    | some source, some target =>
      let targetCell := asU16 target.cellId
      let direction ← ofOption (directionBetween (asU16 source.cellId) targetCell)
      match direction with
      | none => pure ()
      | some dir =>
        let result ← ofOption (computePush s targetCell dir distance)
        when (result.endCell ≠ targetCell) do
          update (.slide targetId result.endCell)
          send (.slide sourceId targetId target.cellId result.endCell)
        when (0 < result.cellsRemaining) do
          let collisionDmg := wrap32 (8 * result.cellsRemaining)
          let _ ← applyDamage sourceId targetId collisionDmg .neutral
          match result.collidedWithFighter with
          | none => pure ()
          | some collidedId =>
            let _ ← applyDamage sourceId collidedId (collisionDmg.tdiv 2) .neutral
            pure ()
    | _, _ => pure ()

/-- The loop of `apply_pull`. -/
def pullLoop (s : Fight) (sourceCell dir : Nat) : Nat → Nat → Option Nat
  | 0, current => some current
  | n + 1, current => do
    let neighbours ← cellNeighbours current
    match neighbours.find? fun neighbour => neighbour.2 = dir with
    | none => some current
    | some (next, _) =>
      if next ≠ sourceCell ∧ s.fighterOnCell next = none then pullLoop s sourceCell dir n next else some current

/-- `apply_pull`. -/
def applyPull (sourceId targetId distance : Int) : FightProgram Unit := do
  let s ← get
  match s.getFighter sourceId, s.getFighter targetId with
  | some source, some target =>
    let sourceCell := asU16 source.cellId
    let targetCell := asU16 target.cellId
    let direction ← ofOption (directionBetween targetCell sourceCell)
    match direction with
    | none => pure ()
    | some dir =>
      let current ← ofOption (pullLoop s sourceCell dir distance.toNat targetCell)
      when (current ≠ targetCell) do
        update (.slide targetId current)
        send (.slide sourceId targetId target.cellId current)
  | _, _ => pure ()

/-- `apply_teleport`. -/
def applyTeleport (sourceId targetId destCell : Int) : FightProgram Unit := do
  let s ← get
  when (s.fighterOnCell destCell = none) do
    update (.teleport targetId destCell)
    send (.teleportOnSameMap sourceId targetId destCell)

/-- `apply_exchange`. -/
def applyExchange (sourceId targetId : Int) : FightProgram Unit := do
  let s ← get
  match s.getFighter sourceId, s.getFighter targetId with
  | some a, some b =>
    update (.exchange sourceId targetId a.cellId b.cellId)
    send (.exchangePositions sourceId targetId b.cellId a.cellId)
  | _, _ => pure ()

/-- A push ends on a free cell of the grid, or where it started. -/
theorem pushLoop_spec {s : Fight} {dir n start : Nat} {moved : Int} (hstart : start < mapCellsCount) :
    ∃ result, pushLoop s dir n start moved = some result ∧
      (result.1 = start ∨ result.1 < mapCellsCount ∧ s.fighterOnCell result.1 = none) := by
  induction n generalizing start moved with
  | zero => exact ⟨_, rfl, .inl rfl⟩
  | succ n ih =>
    obtain ⟨neighbours, hneighbours⟩ := Option.isSome_iff_exists.1 (cellNeighbours_isSome.2 hstart)
    unfold pushLoop
    simp only [hneighbours, Option.bind_eq_bind, Option.bind_some]
    cases hfind : neighbours.find? fun neighbour => neighbour.2 = dir with
    | none => exact ⟨_, rfl, .inl rfl⟩
    | some found =>
      obtain ⟨next, d⟩ := found
      have hnext : next < mapCellsCount := cellNeighbours_lt hneighbours (List.mem_of_find?_eq_some hfind)
      cases hblocker : s.fighterOnCell next with
      | some blocker => exact ⟨(start, moved, some blocker.id), by simp only [hblocker], .inl rfl⟩
      | none =>
        obtain ⟨result, hrun, hend⟩ := @ih _ (moved + 1) hnext
        refine ⟨result, by simp only [hblocker, if_neg (Nat.not_le.2 hnext), hrun], .inr ?_⟩
        rcases hend with hend | hend
        · exact ⟨hend ▸ hnext, hend ▸ hblocker⟩
        · exact hend

theorem pullLoop_spec {s : Fight} {sourceCell dir n start : Nat} (hstart : start < mapCellsCount) :
    ∃ current, pullLoop s sourceCell dir n start = some current ∧
      (current = start ∨ current < mapCellsCount ∧ s.fighterOnCell current = none) := by
  induction n generalizing start with
  | zero => exact ⟨start, rfl, .inl rfl⟩
  | succ n ih =>
    obtain ⟨neighbours, hneighbours⟩ := Option.isSome_iff_exists.1 (cellNeighbours_isSome.2 hstart)
    unfold pullLoop
    simp only [hneighbours, Option.bind_eq_bind, Option.bind_some]
    cases hfind : neighbours.find? fun neighbour => neighbour.2 = dir with
    | none => exact ⟨start, rfl, .inl rfl⟩
    | some found =>
      obtain ⟨next, d⟩ := found
      have hnext : next < mapCellsCount := cellNeighbours_lt hneighbours (List.mem_of_find?_eq_some hfind)
      by_cases hfree : next ≠ sourceCell ∧ s.fighterOnCell next = none
      · obtain ⟨current, hrun, hend⟩ := ih hnext
        refine ⟨current, by simp only [if_pos hfree, hrun], .inr ?_⟩
        rcases hend with hend | hend
        · exact ⟨hend ▸ hnext, hend ▸ hfree.2⟩
        · exact hend
      · exact ⟨start, by simp only [if_neg hfree], .inl rfl⟩

theorem validCell_of_lt {cell : Nat} (h : cell < mapCellsCount) : ValidCell cell := by
  unfold ValidCell
  unfold mapCellsCount at h
  omega

/-- Two fighters of a fight without a fault are at a direction from each other, or at none; the index is in bounds. -/
private theorem fault_of_directionBetween {s : Fight} {a b : Fighter} {a' b' : Int} (ha : s.getFighter a' = some a)
    (hb : s.getFighter b' = some b) (h : directionBetween (asU16 a.cellId) (asU16 b.cellId) = none) : Fault s := by
  intro hvalid
  have hcell {f : Fighter} (hf : ValidCell f.cellId) : asU16 f.cellId < mapCellsCount := by
    unfold ValidCell at hf
    unfold asU16 mapCellsCount
    omega
  have hsome := directionBetween_isSome.2 ⟨hcell (hvalid.1 a (List.mem_of_find?_eq_some ha)),
    hcell (hvalid.1 b (List.mem_of_find?_eq_some hb))⟩
  rw [h] at hsome
  cases hsome

theorem applyPush_ensures (sourceId targetId distance : Int) (s : Fight) :
    Ensures Effect Fault (applyPush sourceId targetId distance) s fun _ _ => True := by
  unfold applyPush
  refine .get_bind ?_
  by_cases hgravity : (s.getFighter targetId).any (·.hasGravity)
  · rw [if_pos hgravity]
    exact .pure trivial
  rw [if_neg hgravity]
  cases hsource : s.getFighter sourceId with
  | none => exact .pure trivial
  | some source =>
    cases htarget : s.getFighter targetId with
    | none => exact .pure trivial
    | some target =>
      refine .bind (Q := fun direction s' => s' = s ∧
        directionBetween (asU16 source.cellId) (asU16 target.cellId) = some direction) ?_ ?_
      · exact .ofOption (fault_of_directionBetween hsource htarget) fun _ h => ⟨rfl, h⟩
      rintro direction s' ⟨hs', hdirection⟩
      subst s'
      cases direction with
      | none => exact .pure trivial
      | some dir =>
        have hcell := (directionBetween_isSome.1 (by rw [hdirection]; rfl)).2
        obtain ⟨⟨cell, moved, collided⟩, hrun, hend⟩ := @pushLoop_spec s dir distance.toNat _ 0 hcell
        have hpush : computePush s (asU16 target.cellId) dir distance =
            some ⟨asU16 target.cellId, cell, moved, distance - moved, collided⟩ := by
          unfold computePush
          rw [hrun]
          rfl
        simp only [hpush, ofOption_some]
        refine .bind (Q := fun result s' => s' = s ∧
          result = ⟨asU16 target.cellId, cell, moved, distance - moved, collided⟩) (.pure ⟨rfl, rfl⟩) ?_
        rintro result s' ⟨hs', rfl⟩
        subst s'
        refine .bind (Q := fun _ _ => True) (.when (fun hmoved => ?_) fun _ => trivial) fun _ s' _ => ?_
        · obtain ⟨hlt, hfree⟩ := hend.resolve_left hmoved
          exact .block (Effect.slide (validCell_of_lt hlt) hfree) nofun fun _ _ => trivial
        · refine .when (fun _ => ?_) fun _ => trivial
          refine .bind (applyDamage_ensures ..) fun _ s' _ => ?_
          cases collided with
          | none => exact .pure trivial
          | some collidedId => exact .bind (applyDamage_ensures ..) fun _ _ _ => .pure trivial

theorem applyPull_ensures (sourceId targetId distance : Int) (s : Fight) :
    Ensures Effect Fault (applyPull sourceId targetId distance) s fun _ _ => True := by
  unfold applyPull
  refine .get_bind ?_
  cases hsource : s.getFighter sourceId with
  | none => exact .pure trivial
  | some source =>
    cases htarget : s.getFighter targetId with
    | none => exact .pure trivial
    | some target =>
      refine .bind (Q := fun direction s' => s' = s ∧
        directionBetween (asU16 target.cellId) (asU16 source.cellId) = some direction) ?_ ?_
      · exact .ofOption (fault_of_directionBetween htarget hsource) fun _ h => ⟨rfl, h⟩
      rintro direction s' ⟨hs', hdirection⟩
      subst s'
      cases direction with
      | none => exact .pure trivial
      | some dir =>
        have hcell := (directionBetween_isSome.1 (by rw [hdirection]; rfl)).1
        obtain ⟨current, hrun, hend⟩ := @pullLoop_spec s (asU16 source.cellId) dir distance.toNat _ hcell
        simp only [hrun, ofOption_some]
        refine .bind (Q := fun result s' => s' = s ∧ result = current) (.pure ⟨rfl, rfl⟩) ?_
        rintro result s' ⟨hs', rfl⟩
        subst s'
        refine .when (fun hmoved => ?_) fun _ => trivial
        obtain ⟨hlt, hfree⟩ := hend.resolve_left hmoved
        exact .block (Effect.slide (validCell_of_lt hlt) hfree) nofun fun _ _ => trivial

theorem applyTeleport_ensures (sourceId targetId : Int) {destCell : Int} (hcell : ValidCell destCell) (s : Fight) :
    Ensures Effect Fault (applyTeleport sourceId targetId destCell) s fun _ _ => True := by
  unfold applyTeleport
  refine .get_bind (.when (fun hfree => ?_) fun _ => trivial)
  exact .block (Effect.teleport hcell hfree) nofun fun _ _ => trivial

theorem applyExchange_ensures (sourceId : Int) {cellId : Int} {s : Fight} {target : Fighter}
    (htarget : s.fighterOnCell cellId = some target) :
    Ensures Effect Fault (applyExchange sourceId target.id) s fun _ _ => True := by
  unfold applyExchange
  refine .get_bind ?_
  cases ha : s.getFighter sourceId with
  | none => exact .pure trivial
  | some a =>
    cases hb : s.getFighter target.id with
    | none => exact .pure trivial
    | some b => exact .block (Effect.exchange ha hb htarget rfl) nofun fun _ _ => trivial

end Otomai.Combat
