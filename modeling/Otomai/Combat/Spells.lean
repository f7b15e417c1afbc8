import Otomai.Combat.Damage

/-!
# Marks, summons and spells

A trap triggers its network, the traps connected to it; a glyph those who stand on it when its caster's turn starts.
A spell is validated, paid for, and then has its effects one after another.

* `connectedTraps_value`: the search of the network ends, on a board without a fault without an index out of bounds.
* `castSpell_ensures`: whatever the spell, what it does consists of the blocks of `SpellBlock`.
* `handleSpellCast_run`: a cast is refused, or it is paid for and has its effects.
-/

namespace Otomai.Combat

open Machine Otomai.Common Trace Program

/-! ### Trap networks -/

/-- Whether two marks overlap or are adjacent: the cells are compared in order until a pair of them is. -/
def zonesConnect (mark other : Mark) : Option Bool :=
  mark.zoneCells.anyM fun c1 => other.zoneCells.anyM fun c2 =>
    if c1 = c2 then some true else (distance (asU16 c1) (asU16 c2)).map fun d => decide (d ≤ 1)

/-- Push the unvisited traps connected to a mark onto the queue. -/
def pushConnected (mark : Mark) (visited : List Nat) (marks : List Mark) (queue : List Nat) : Option (List Nat) :=
  marks.foldlM (fun queue other =>
    if other.id ≠ mark.id ∧ other.markType = .trap ∧ other.casterId = mark.casterId ∧ ¬visited.contains other.id then
      (zonesConnect mark other).map fun connected => if connected then other.id :: queue else queue
    else some queue) queue

/-- The loop of `connected_traps`; the head of the queue is popped first. -/
def connectedLoop (marks : List Mark) : Nat → List Nat → List Nat → List Nat → Ending (List Nat)
  | 0, _, _, _ => .exhausted
  | _ + 1, _, [], result => .value result
  | n + 1, visited, id :: queue, result =>
    if visited.contains id then connectedLoop marks n visited queue result
    else match marks.find? (·.id = id) with
      | none => connectedLoop marks n (id :: visited) queue (result ++ [id])
      | some mark =>
        match pushConnected mark (id :: visited) marks queue with
        | none => .panic
        | some queue => connectedLoop marks n (id :: visited) queue (result ++ [id])

/-- `connected_traps`.  A visit pushes at most every mark, so the queue is empty after as many steps as there are
pairs of marks, and one for the start. -/
def Fight.connectedTraps (s : Fight) (startMarkId : Nat) : Ending (List Nat) :=
  connectedLoop s.marks (s.marks.length * s.marks.length + 2) [] [startMarkId] []

/-- The traps connected to any of the given ones, each once. -/
def Fight.trapNetwork (s : Fight) : List Nat → List Nat → Ending (List Nat)
  | [], all => .value all
  | id :: ids, all =>
    match s.connectedTraps id with
    | .value connected =>
      s.trapNetwork ids (connected.foldl (fun all id => if all.contains id then all else all ++ [id]) all)
    | .panic => .panic
    | .exhausted => .exhausted

theorem asU16_lt_of_validCell {cellId : Int} (h : ValidCell cellId) : asU16 cellId < mapCellsCount := by
  unfold ValidCell at h
  unfold asU16 mapCellsCount
  omega

theorem anyM_isSome {α : Type} {p : α → Option Bool} {l : List α} (h : ∀ a ∈ l, (p a).isSome) :
    (l.anyM p).isSome := by
  induction l with
  | nil => rfl
  | cons a l ih =>
    obtain ⟨b, hb⟩ := Option.isSome_iff_exists.1 (h a List.mem_cons_self)
    have hrest := ih fun a ha => h a (List.mem_cons_of_mem _ ha)
    cases b <;> simp [List.anyM, hb, hrest]

theorem zonesConnect_isSome {mark other : Mark} (hmark : ∀ c ∈ mark.zoneCells, ValidCell c)
    (hother : ∀ c ∈ other.zoneCells, ValidCell c) : (zonesConnect mark other).isSome := by
  refine anyM_isSome fun c1 hc1 => anyM_isSome fun c2 hc2 => ?_
  have hdistance := distance_isSome.2 ⟨asU16_lt_of_validCell (hmark c1 hc1), asU16_lt_of_validCell (hother c2 hc2)⟩
  split
  · rfl
  · rw [Option.isSome_map]
    exact hdistance

/-- A visit is never out of bounds, and pushes at most every mark. -/
theorem pushConnected_spec {mark : Mark} {visited : List Nat} (hmark : ∀ c ∈ mark.zoneCells, ValidCell c)
    {marks : List Mark} (hmarks : ∀ m ∈ marks, ∀ c ∈ m.zoneCells, ValidCell c) (queue : List Nat) :
    ∃ queue', pushConnected mark visited marks queue = some queue' ∧ queue'.length ≤ queue.length + marks.length := by
  induction marks generalizing queue with
  | nil => exact ⟨queue, rfl, le_rfl⟩
  | cons other marks ih =>
    have hrest := fun m hm => hmarks m (List.mem_cons_of_mem other hm)
    obtain ⟨connected, hconnected⟩ :=
      Option.isSome_iff_exists.1 (zonesConnect_isSome hmark (hmarks other List.mem_cons_self))
    unfold pushConnected at ih ⊢
    simp only [List.foldlM_cons, hconnected, Option.map_some, List.length_cons]
    split
    · cases connected with
      | true =>
        obtain ⟨queue', hrun, hlength⟩ := ih hrest (other.id :: queue)
        refine ⟨queue', hrun, ?_⟩
        rw [List.length_cons] at hlength
        omega
      | false =>
        obtain ⟨queue', hrun, hlength⟩ := ih hrest queue
        exact ⟨queue', hrun, by omega⟩
    · obtain ⟨queue', hrun, hlength⟩ := ih hrest queue
      exact ⟨queue', hrun, by omega⟩

/-- The marks that are left to visit. -/
private def unvisited (marks : List Mark) (visited : List Nat) : List Mark := marks.filter (!visited.contains ·.id)

private theorem unvisited_cons (marks : List Mark) (visited : List Nat) (id : Nat) :
    unvisited marks (id :: visited) = (unvisited marks visited).filter (! id == ·.id) := by
  unfold unvisited
  rw [List.filter_filter]
  refine List.filter_congr fun m _ => ?_
  rw [List.contains_cons, Bool.not_or, Bool.beq_comm]

private theorem unvisited_cons_le (marks : List Mark) (visited : List Nat) (id : Nat) :
    (unvisited marks (id :: visited)).length ≤ (unvisited marks visited).length := by
  rw [unvisited_cons]
  exact List.length_filter_le _ _

private theorem unvisited_cons_lt {marks : List Mark} {visited : List Nat} {mark : Mark} (hmem : mark ∈ marks)
    (hnew : visited.contains mark.id = false) :
    (unvisited marks (mark.id :: visited)).length < (unvisited marks visited).length := by
  rw [unvisited_cons]
  have hunvisited : mark ∈ unvisited marks visited := List.mem_filter.2 ⟨hmem, by rw [hnew]; rfl⟩
  exact List.length_filter_lt_length_iff_exists.2 ⟨mark, hunvisited, by simp⟩

/-- The search ends: each step visits a mark, pushing at most all others, or shortens the queue. -/
theorem connectedLoop_value {marks : List Mark} (hmarks : ∀ m ∈ marks, ∀ c ∈ m.zoneCells, ValidCell c) {n : Nat}
    {visited queue : List Nat} (hn : (unvisited marks visited).length * marks.length + queue.length < n)
    (result : List Nat) : ∃ ids, connectedLoop marks n visited queue result = .value ids := by
  induction n generalizing visited queue result with
  | zero => omega
  | succ n ih =>
    cases queue with
    | nil => exact ⟨result, rfl⟩
    | cons id queue =>
      rw [List.length_cons] at hn
      unfold connectedLoop
      by_cases hvisited : visited.contains id
      · rw [if_pos hvisited]
        exact ih (by omega) result
      rw [if_neg hvisited]
      cases hfind : marks.find? (·.id = id) with
      | none =>
        have hle := Nat.mul_le_mul_right marks.length (unvisited_cons_le marks visited id)
        exact ih (by omega) _
      | some mark =>
        have hmem := List.mem_of_find?_eq_some hfind
        have hid : mark.id = id := by simpa using List.find?_some hfind
        obtain ⟨queue', hpush, hlength⟩ := @pushConnected_spec _ (id :: visited) (hmarks mark hmem) _ hmarks queue
        have hlt := @unvisited_cons_lt marks visited mark hmem (by rw [hid]; simpa using hvisited)
        rw [hid] at hlt
        have hmul : ((unvisited marks (id :: visited)).length + 1) * marks.length ≤
            (unvisited marks visited).length * marks.length := Nat.mul_le_mul_right _ hlt
        rw [Nat.add_mul, Nat.one_mul] at hmul
        simp only [hpush]
        exact ih (by omega) _

/-- `connected_traps` ends, and with the zones on the grid without an index out of bounds. -/
theorem Fight.connectedTraps_value {s : Fight} (hs : ∀ m ∈ s.marks, ∀ c ∈ m.zoneCells, ValidCell c)
    (startMarkId : Nat) : ∃ ids, s.connectedTraps startMarkId = .value ids := by
  refine connectedLoop_value hs ?_ _
  have hle : (unvisited s.marks []).length ≤ s.marks.length := List.length_filter_le ..
  have hmul := Nat.mul_le_mul_right s.marks.length hle
  simp only [List.length_singleton]
  omega

theorem Fight.trapNetwork_value {s : Fight} (hs : ∀ m ∈ s.marks, ∀ c ∈ m.zoneCells, ValidCell c)
    (ids all : List Nat) : ∃ network, s.trapNetwork ids all = .value network := by
  induction ids generalizing all with
  | nil => exact ⟨all, rfl⟩
  | cons id ids ih =>
    obtain ⟨connected, hconnected⟩ := s.connectedTraps_value hs id
    unfold trapNetwork
    simp only [hconnected]
    exact ih _

/-! ### Triggers -/

/-- What an effect of a trap does to the fighter that triggered it; other effects of traps do nothing. -/
def trapEffect (casterId : Int) (casterStats : FighterStats) (triggerFighterId : Int) (effect : SpellEffect) :
    FightProgram Unit := do
  let s ← get
  match classify effect.effectId with
  | .damage elem =>
    let targetStats := ((s.getFighter triggerFighterId).map Fighter.stats).getD {}
    let _ ← applyDamage casterId triggerFighterId (calculateDamage effect casterStats targetStats false) elem
    pure ()
  | .poison elem =>
    when (s.getFighter triggerFighterId).isSome
      (update (.addBuff triggerFighterId ⟨casterId, .poison elem, effect.meanDamage, max effect.duration 1⟩))
  | _ => pure ()

/-- One trap of a network, if it is still there. -/
def triggerTrap (triggerFighterId : Int) (trapId : Nat) : FightProgram Unit := do
  let s ← get
  match s.findMark trapId with
  | none => pure ()
  | some mark =>
    let casterStats := ((s.getFighter mark.casterId).map Fighter.stats).getD {}
    mark.effects.forM (trapEffect mark.casterId casterStats triggerFighterId)

/-- `trigger_traps_on_cell`. -/
def triggerTrapsOnCell (cellId triggerFighterId : Int) : FightProgram Unit := do
  let s ← get
  let trapIds := s.trapsOnCell cellId
  when (trapIds ≠ []) do
    let allTrapIds ← ofEnding (s.trapNetwork trapIds [])
    allTrapIds.forM (triggerTrap triggerFighterId)
    allTrapIds.forM fun trapId => update (.removeMark trapId)

/-- What an effect of a glyph does to a fighter that stands on it. -/
def glyphEffect (casterId : Int) (casterStats : FighterStats) (fighterId : Int) (effect : SpellEffect) :
    FightProgram Unit := do
  let s ← get
  match classify effect.effectId with
  | .damage elem =>
    let targetStats := ((s.getFighter fighterId).map Fighter.stats).getD {}
    let _ ← applyDamage casterId fighterId (calculateDamage effect casterStats targetStats false) elem
    pure ()
  | _ => pure ()

/-- One glyph, if it is still there. -/
def triggerGlyph (casterId : Int) (glyphId : Nat) : FightProgram Unit := do
  let s ← get
  match s.findMark glyphId with
  | none => pure ()
  | some mark =>
    let casterStats := ((s.getFighter casterId).map Fighter.stats).getD {}
    let affected := (s.fighters.filter fun f => f.isAlive && mark.zoneCells.contains f.cellId).map Fighter.id
    affected.forM fun fighterId => mark.effects.forM (glyphEffect casterId casterStats fighterId)

/-- `trigger_glyphs_for_turn`. -/
def triggerGlyphsForTurn (casterId : Int) : FightProgram Unit := do
  let s ← get
  (s.glyphsByCaster casterId).forM (triggerGlyph casterId)

theorem trapEffect_ensures (casterId : Int) (casterStats : FighterStats) (triggerFighterId : Int)
    (effect : SpellEffect)
    (s : Fight) : Ensures Effect Fault (trapEffect casterId casterStats triggerFighterId effect) s
      fun _ _ => True := by
  unfold trapEffect
  refine .get_bind ?_
  cases classify effect.effectId with
  | damage elem => exact .bind (applyDamage_ensures ..) fun _ _ _ => .pure trivial
  | poison elem => exact .when (fun _ => .perform (.quiet rfl rfl rfl) trivial) fun _ => trivial
  | _ => exact .pure trivial

theorem triggerTrapsOnCell_ensures (cellId triggerFighterId : Int) (s : Fight) :
    Ensures Effect Fault (triggerTrapsOnCell cellId triggerFighterId) s fun _ _ => True := by
  unfold triggerTrapsOnCell
  refine .get_bind (.when (fun _ => ?_) fun _ => trivial)
  refine .bind (Q := fun _ _ => True) (.ofEnding (fun hpanic hvalid => ?_) fun _ _ => trivial)
    fun allTrapIds s' _ => ?_
  · obtain ⟨network, hnetwork⟩ := s.trapNetwork_value hvalid.2 (s.trapsOnCell cellId) []
    rw [hnetwork] at hpanic
    cases hpanic
  refine .bind (Q := fun _ _ => True) (.forM trivial fun trapId _ s _ => ?_) fun _ s' _ =>
    .forM trivial fun trapId _ s _ => .perform (.quiet rfl rfl rfl) trivial
  unfold triggerTrap
  refine .get_bind ?_
  cases s.findMark trapId with
  | none => exact .pure trivial
  | some mark => exact .forM trivial fun effect _ s _ => trapEffect_ensures ..

theorem glyphEffect_ensures (casterId : Int) (casterStats : FighterStats) (fighterId : Int) (effect : SpellEffect)
    (s : Fight) : Ensures Effect Fault (glyphEffect casterId casterStats fighterId effect) s fun _ _ => True := by
  unfold glyphEffect
  refine .get_bind ?_
  cases classify effect.effectId with
  | damage elem => exact .bind (applyDamage_ensures ..) fun _ _ _ => .pure trivial
  | _ => exact .pure trivial

theorem triggerGlyphsForTurn_ensures (casterId : Int) (s : Fight) :
    Ensures Effect Fault (triggerGlyphsForTurn casterId) s fun _ _ => True := by
  unfold triggerGlyphsForTurn
  refine .get_bind (.forM trivial fun glyphId _ s _ => ?_)
  unfold triggerGlyph
  refine .get_bind ?_
  cases s.findMark glyphId with
  | none => exact .pure trivial
  | some mark =>
    exact .forM trivial fun fighterId _ s _ => .forM trivial fun effect _ s _ => glyphEffect_ensures ..

/-! ### Summons -/

/-- The summons of a team that are alive; a power of -1 marks a summon. -/
def Fight.currentSummons (s : Fight) (team : Team) : Nat :=
  (s.fighters.filter fun f => f.stats.power = -1 ∧ f.team = team ∧ f.isAlive).length

def Fight.maxSummons (s : Fight) (casterId : Int) : Int :=
  ((s.getFighter casterId).map fun f => max (wrap16 (1 + BuffList.statBonus f.buffs .critical)) 1).getD 1

/-- `summon_creature`. -/
def summonCreature (casterId cellId monsterId level : Int) : FightProgram Unit := do
  let s ← get
  let casterTeam := ((s.getFighter casterId).map Fighter.team).getD .challengers
  when (¬s.maxSummons casterId ≤ s.currentSummons casterTeam ∧ s.fighterOnCell cellId = none) do
    let f := s.summoned casterId cellId monsterId level
    update (.summon casterId f)
    let s ← get
    send (.showFighter f.id f.cellId f.team true f.lifePoints f.maxLifePoints)
    send (.turnList s.turnOrder s.deadIds)

/-! ### Casting -/

/-- Whether the line of sight that a spell may ask for is clear; without map data it is not checked. -/
def sightIsClear (maps : Int → Option MapData) (s : Fight) (data : SpellData) (origin target : Nat) : Ending Bool :=
  if data.castTestLos then
    match maps s.mapId with
    | some map => hasLineOfSight map origin target
    | none => .value true
  else .value true

/-- `validate_cast`. -/
def validateCast (maps : Int → Option MapData) (s : Fight) (playerId spellId cellId : Int) (data : SpellData) :
    Ending (Except String Unit) :=
  match s.currentFighter with
  | none => .value (.error "not_your_turn")
  | some current =>
    if ¬(current.id = playerId ∧ current.isPlayer) then .value (.error "not_your_turn")
    else if current.actionPoints < data.apCost then .value (.error "not_enough_ap")
    else match distance (asU16 current.cellId) (asU16 cellId) with
      | none => .panic
      | some dist =>
        if wrap16 dist < data.minRange ∨ data.range < wrap16 dist then .value (.error "out_of_range")
        else match sightIsClear maps s data (asU16 current.cellId) (asU16 cellId) with
          | .panic => .panic
          | .exhausted => .exhausted
          | .value false => .value (.error "no_line_of_sight")
          | .value true =>
            if 0 < data.maxCastPerTurn ∧ data.maxCastPerTurn ≤ current.castCount spellId then
              .value (.error "max_cast_per_turn")
            else .value (.ok ())

/-- The buff of an effect; it lasts at least a turn. -/
def SpellEffect.buff (effect : SpellEffect) (sourceId : Int) (effectType : EffectType) (value : Int) : Buff :=
  ⟨sourceId, effectType, value, max effect.duration 1⟩

/-- `apply_effect`. -/
def applyEffect (playerId cellId : Int) (casterStats : FighterStats) (isCritical : Bool) (effect : SpellEffect) :
    FightProgram Unit := do
  let s ← get
  let effectType := classify effect.effectId
  let targetId := ((s.fighterOnCell cellId).map Fighter.id).getD playerId
  match effectType with
  | .damage elem =>
    match s.fighterOnCell cellId with
    | none => pure ()
    | some target =>
      let _ ← applyDamage playerId target.id (calculateDamage effect casterStats target.stats isCritical) elem
      pure ()
  | .lifeSteal elem =>
    match s.fighterOnCell cellId with
    | none => pure ()
    | some target =>
      let dmg := calculateDamage effect casterStats target.stats isCritical
      let _ ← applyDamage playerId target.id dmg elem
      applyHeal playerId (dmg.tdiv 2)
  | .heal => applyHeal targetId (calculateHeal effect casterStats)
  | .healPercent =>
    match s.getFighter targetId with
    | none => pure ()
    | some target => applyHeal targetId (percentOf target.maxLifePoints effect.diceNum)
  | .shield =>
    when (s.getFighter targetId).isSome do
      update (.addShield targetId effect.diceNum)
      update (.addBuff targetId (effect.buff playerId effectType effect.diceNum))
  | .boostStat _ | .malusStat _ =>
    when (s.getFighter targetId).isSome (update (.addBuff targetId (effect.buff playerId effectType effect.diceNum)))
  | .poison _ =>
    match s.fighterOnCell cellId with
    | none => pure ()
    | some target =>
      when (s.getFighter target.id).isSome
        (update (.addBuff target.id (effect.buff playerId effectType effect.meanDamage)))
  | .push =>
    match s.fighterOnCell cellId with
    | none => pure ()
    | some target =>
      applyPush playerId target.id effect.diceNum
      let s ← get
      triggerTrapsOnCell (((s.getFighter target.id).map Fighter.cellId).getD cellId) target.id
  | .pull =>
    match s.fighterOnCell cellId with
    | none => pure ()
    | some target =>
      applyPull playerId target.id effect.diceNum
      let s ← get
      triggerTrapsOnCell (((s.getFighter target.id).map Fighter.cellId).getD cellId) target.id
  | .teleport =>
    applyTeleport playerId playerId cellId
    triggerTrapsOnCell cellId playerId
  | .exchangePositions =>
    match s.fighterOnCell cellId with
    | none => pure ()
    | some target => applyExchange playerId target.id
  | .invisibility =>
    when (s.getFighter playerId).isSome (update (.vanish playerId))
    send (.invisibility playerId 1)
  | .placeGlyph =>
    update (.placeMark ⟨s.drawnMarkId, .glyph, playerId, [cellId], [effect], max effect.duration 1⟩)
  | .placeTrap =>
    update (.placeMark ⟨s.drawnMarkId, .trap, playerId, [cellId], [effect], max effect.duration 1⟩)
  | .summon | .bombCast =>
    summonCreature playerId cellId effect.diceNum (((s.getFighter playerId).map Fighter.level).getD 1)
  | .selfDamage =>
    let _ ← applyDamage playerId playerId (calculateDamage effect casterStats casterStats isCritical) effect.element
    pure ()
  | .addState => when (s.getFighter targetId).isSome (update (.addState targetId effect.diceNum))
  | .removeState => when (s.getFighter targetId).isSome (update (.removeState targetId effect.diceNum))
  | .damageReflect | .damageAbsorbPercent | .damageReduction | .damageModifier | .triggeredDamage
  | .spellModification | .stackingLimit =>
    when (s.getFighter targetId).isSome (update (.addBuff targetId (effect.buff playerId effectType effect.diceNum)))
  | .shieldPercent =>
    match s.getFighter targetId with
    | none => pure ()
    | some target =>
      let shieldVal := percentOf target.maxLifePoints effect.diceNum
      update (.addShield targetId shieldVal)
      update (.addBuff targetId (effect.buff playerId .shield shieldVal))
  | .portal => update (.placeMark ⟨s.drawnMarkId, .glyph, playerId, [cellId], [], max effect.duration 1⟩)
  | .unknown => pure ()

/-- What an accepted cast does once it is paid for. -/
def castSpell (playerId spellId cellId : Int) (data : SpellData) (roll : UInt16) : FightProgram Unit := do
  let s ← get
  when ((s.getFighter playerId).any (!·.invisible)) (send (.invisibility playerId 0))
  let isCritical := decide (0 < data.criticalHitProbability ∧ roll.toNat % 100 < data.criticalHitProbability)
  send (.sequenceStart 1 playerId)
  send (.spellCast playerId cellId spellId isCritical)
  let casterStats := ((s.getFighter playerId).map Fighter.stats).getD {}
  (if isCritical && !data.criticalEffects.isEmpty then data.criticalEffects else data.effects).forM
    (applyEffect playerId cellId casterStats isCritical)
  send (.pointsVariation 168 playerId (wrap16 (-data.apCost)))
  send (.sequenceEnd 300 playerId 1)

/-- `handle_spell_cast`, for the spell that was loaded, if one was, and the random number that is drawn. -/
def handleSpellCast (maps : Int → Option MapData) (playerId spellId cellId : Int) (loaded : Option SpellData)
    (roll : UInt16) : FightProgram Unit := do
  let data := loaded.getD .fallback
  let s ← get
  let verdict ← ofEnding (validateCast maps s playerId spellId cellId data)
  match verdict with
  | .error _ => pure ()
  | .ok () =>
    perform (.acceptCast playerId spellId cellId data)
    update (.payCast spellId data.apCost)
    castSpell playerId spellId cellId data roll

/-- If the action is a summon, it is one of the fighter of this id. -/
def Action.summonsFor (casterId : Int) : Action → Prop
  | .update (.summon id _) => id = casterId
  | _ => True

/-- The blocks of the spells of a fighter: who is summoned is summoned by it. -/
def CasterBlock (casterId : Int) (s : Fight) (b : List Action) : Prop :=
  SpellBlock s b ∧ Along (fun _ a => a.summonsFor casterId) s b

theorem Effect.summonsFor {s : Fight} {b : List Action} (h : Effect s b) (casterId : Int) :
    Along (fun _ a => a.summonsFor casterId) s b := by
  cases h with
  | @quiet u hu _ _ =>
    refine ⟨?_, trivial⟩
    cases u with
    | summon id f => cases hu
    | _ => trivial
  | hit _ _ _ => split <;> simp [Action.summonsFor]
  | heal _ => split <;> simp [Action.summonsFor]
  | _ => simp [Action.summonsFor]

theorem summonCreature_caster {casterId cellId level : Int} (monsterId : Int) {s : Fight} (hcell : ValidCell cellId)
    (hlevel : level = ((s.getFighter casterId).map Fighter.level).getD 1) :
    Ensures (CasterBlock casterId) Fault (summonCreature casterId cellId monsterId level) s fun _ _ => True := by
  unfold summonCreature
  refine .get_bind (.when (fun hfree => ?_) fun _ => trivial)
  exact .block ⟨.summon hcell hfree.2 hlevel rfl, rfl, trivial, trivial, trivial⟩ nofun fun _ _ => trivial

/-- The effects of a spell. -/
theorem applyEffect_caster (playerId : Int) {cellId : Int} (hcell : ValidCell cellId) (casterStats : FighterStats)
    (isCritical : Bool) (effect : SpellEffect) (s : Fight) :
    Ensures (CasterBlock playerId) Fault (applyEffect playerId cellId casterStats isCritical effect) s
      fun _ _ => True := by
  unfold applyEffect
  refine .get_bind ?_
  have hlift {p : FightProgram Unit} (h : Ensures Effect Fault p s fun _ _ => True) :
      Ensures (CasterBlock playerId) Fault p s fun _ _ => True :=
    h.mono_block fun _ _ hb => ⟨.effect hb, hb.summonsFor playerId⟩
  have hquiet {u : Update} (hu : u.isQuiet = true) (hshield : u.isShielding = false)
    (htick : u.isTick = false) {c : Prop}
      [Decidable c] (s : Fight) :
      Ensures Effect Fault (when c (update u)) s fun _ _ => True :=
    .when (fun _ => .perform (.quiet hu hshield htick) trivial) fun _ => trivial
  have hmark (markType : MarkType) {effects : List SpellEffect} (duration : Int)
      (hplaces : ∀ e ∈ effects, classify e.effectId = .placeGlyph ∨ classify e.effectId = .placeTrap) :
      Ensures Effect Fault (update (.placeMark ⟨s.drawnMarkId, markType, playerId, [cellId], effects, duration⟩)) s
        fun _ _ => True :=
    .perform (.placeMark rfl (fun c hc => by rw [List.mem_singleton.1 hc]; exact hcell) hplaces) trivial
  have hshield (targetId value : Int) : Ensures Effect Fault (do
      update (.addShield targetId value)
      update (.addBuff targetId (effect.buff playerId .shield value))) s fun _ _ => True :=
    .block (@Effect.shield s targetId (effect.buff playerId .shield value) rfl) nofun fun _ _ => trivial
  have hsummon := summonCreature_caster effect.diceNum (s := s) hcell
    (rfl : ((s.getFighter playerId).map Fighter.level).getD 1 = _)
  have hitself {P : SpellEffect → Prop} (heffect : P effect) : ∀ e ∈ [effect], P e :=
    fun e he => List.mem_singleton.1 he ▸ heffect
  cases hclass : classify effect.effectId with
  | summon => exact hsummon
  | bombCast => exact hsummon
  | damage elem =>
    cases s.fighterOnCell cellId with
    | none => exact .pure trivial
    | some target => exact hlift (.bind (applyDamage_ensures ..) fun _ _ _ => .pure trivial)
  | lifeSteal elem =>
    cases s.fighterOnCell cellId with
    | none => exact .pure trivial
    | some target => exact hlift (.bind (applyDamage_ensures ..) fun _ _ _ => applyHeal_ensures ..)
  | heal => exact hlift (applyHeal_ensures ..)
  | healPercent =>
    dsimp only
    cases s.getFighter (((s.fighterOnCell cellId).map Fighter.id).getD playerId) with
    | none => exact .pure trivial
    | some target => exact hlift (applyHeal_ensures ..)
  | shield =>
    exact hlift (.when (fun _ => hshield _ _) fun _ => trivial)
  | poison elem =>
    cases s.fighterOnCell cellId with
    | none => exact .pure trivial
    | some target => exact hlift (hquiet rfl rfl rfl s)
  | push =>
    cases s.fighterOnCell cellId with
    | none => exact .pure trivial
    | some target => exact hlift (.bind (applyPush_ensures ..) fun _ _ _ => .get_bind (triggerTrapsOnCell_ensures ..))
  | pull =>
    cases s.fighterOnCell cellId with
    | none => exact .pure trivial
    | some target => exact hlift (.bind (applyPull_ensures ..) fun _ _ _ => .get_bind (triggerTrapsOnCell_ensures ..))
  | teleport => exact hlift (.bind (applyTeleport_ensures _ _ hcell _) fun _ _ _ => triggerTrapsOnCell_ensures ..)
  | exchangePositions =>
    cases htarget : s.fighterOnCell cellId with
    | none => exact .pure trivial
    | some target => exact hlift (applyExchange_ensures _ htarget)
  | invisibility => exact hlift (.bind (hquiet rfl rfl rfl s) fun _ _ _ => .perform (.say rfl) trivial)
  | placeGlyph => exact hlift (hmark _ _ (hitself (.inl hclass)))
  | placeTrap => exact hlift (hmark _ _ (hitself (.inr hclass)))
  | portal => exact hlift (hmark _ _ nofun)
  | selfDamage => exact hlift (.bind (applyDamage_ensures ..) fun _ _ _ => .pure trivial)
  | shieldPercent =>
    dsimp only
    cases s.getFighter (((s.fighterOnCell cellId).map Fighter.id).getD playerId) with
    | none => exact .pure trivial
    | some target => exact hlift (hshield _ _)
  | unknown => exact .pure trivial
  | _ => exact hlift (hquiet rfl rfl rfl s)

/-- A cast that is accepted is the current fighter's, who is a player and can pay, on a cell of the grid. -/
theorem validateCast_ok {maps : Int → Option MapData} {s : Fight} {playerId spellId cellId : Int} {data : SpellData}
    (h : validateCast maps s playerId spellId cellId data = .value (.ok ())) :
    ∃ f, s.currentFighter = some f ∧ f.id = playerId ∧ f.isPlayer = true ∧ data.apCost ≤ f.actionPoints ∧
      asU16 cellId < mapCellsCount ∧ (0 < data.maxCastPerTurn → f.castCount spellId < data.maxCastPerTurn) := by
  unfold validateCast at h
  cases hf : s.currentFighter with
  | none => simp [hf] at h
  | some f =>
    simp only [hf] at h
    split at h
    · simp at h
    rename_i hturn
    split at h
    · simp at h
    rename_i hap
    cases hdist : distance (asU16 f.cellId) (asU16 cellId) with
    | none => simp [hdist] at h
    | some dist =>
      have hcell := (distance_isSome.1 (by rw [hdist]; rfl)).2
      simp only [hdist] at h
      split at h
      · simp at h
      split at h
      · simp at h
      · simp at h
      · simp at h
      split at h
      · simp at h
      rename_i hcasts
      simp only [not_not] at hturn
      exact ⟨f, rfl, hturn.1, hturn.2, by omega, hcell, fun hmax => by omega⟩

/-- A validation panics only on a stored cell outside of the grid, or on a cast outside of the grid that the player
could pay for. -/
theorem validateCast_panic {maps : Int → Option MapData} {s : Fight} {playerId spellId cellId : Int}
    {data : SpellData}
    (h : validateCast maps s playerId spellId cellId data = .panic) :
    Fault s ∨ ¬asU16 cellId < mapCellsCount ∧
      ∃ f, s.currentFighter = some f ∧ f.id = playerId ∧ f.isPlayer = true ∧ data.apCost ≤ f.actionPoints := by
  unfold validateCast at h
  cases hf : s.currentFighter with
  | none => simp [hf] at h
  | some f =>
    simp only [hf] at h
    split at h
    · simp at h
    rename_i hturn
    split at h
    · simp at h
    rename_i hap
    simp only [not_not] at hturn
    by_cases hcell : asU16 cellId < mapCellsCount
    · refine .inl fun hvalid => ?_
      have hcurrent : asU16 f.cellId < mapCellsCount :=
        asU16_lt_of_validCell (hvalid.1 f (List.mem_of_getElem? hf))
      obtain ⟨dist, hdist⟩ := Option.isSome_iff_exists.1 (distance_isSome.2 ⟨hcurrent, hcell⟩)
      have hsight : ∃ clear, sightIsClear maps s data (asU16 f.cellId) (asU16 cellId) = .value clear := by
        unfold sightIsClear
        split
        · split
          · exact hasLineOfSight_value _ hcurrent hcell
          · exact ⟨true, rfl⟩
        · exact ⟨true, rfl⟩
      obtain ⟨clear, hclear⟩ := hsight
      simp only [hdist, hclear] at h
      split at h
      · simp at h
      cases clear with
      | false => simp at h
      | true =>
        simp only at h
        split at h <;> simp at h
    · exact .inr ⟨hcell, f, rfl, hturn.1, hturn.2, by omega⟩

/-- The player can pay for a spell: it is its turn, and it has the action points. -/
def Fight.CanPay (s : Fight) (playerId : Int) (data : SpellData) : Prop :=
  ∃ f, s.currentFighter = some f ∧ f.id = playerId ∧ f.isPlayer = true ∧ data.apCost ≤ f.actionPoints

instance (s : Fight) (playerId : Int) (data : SpellData) : Decidable (s.CanPay playerId data) :=
  decidable_of_iff (s.currentFighter.any fun f => f.id = playerId ∧ f.isPlayer = true ∧
    data.apCost ≤ f.actionPoints) <| by
    cases hf : s.currentFighter <;> simp [Fight.CanPay, hf]

theorem castSpell_caster (playerId spellId : Int) {cellId : Int} (hcell : ValidCell cellId) (data : SpellData)
    (roll : UInt16) (s : Fight) :
    Ensures (CasterBlock playerId) Fault (castSpell playerId spellId cellId data roll) s fun _ _ => True := by
  unfold castSpell
  refine .get_bind ?_
  have hsay {m : ServerMessage} (hm : m.isPlain = true) (s : Fight) : CasterBlock playerId s [.send m] :=
    ⟨.effect (.say hm), trivial, trivial⟩
  refine .bind (Q := fun _ _ => True) (.when (fun _ => .perform (hsay rfl _) trivial) fun _ => trivial)
    fun _ _ _ => ?_
  refine .perform_bind (hsay rfl _) (.perform_bind (hsay rfl _) ?_)
  refine .bind (Q := fun _ _ => True) (.forM trivial fun effect _ s _ => applyEffect_caster _ hcell ..)
    fun _ _ _ => ?_
  exact .perform_bind (hsay rfl _) (.perform (hsay rfl _) trivial)

theorem castSpell_ensures (playerId spellId : Int) {cellId : Int} (hcell : ValidCell cellId) (data : SpellData)
    (roll : UInt16) (s : Fight) :
    Ensures SpellBlock Fault (castSpell playerId spellId cellId data roll) s fun _ _ => True :=
  (castSpell_caster playerId spellId hcell data roll s).mono_block fun _ _ hb => hb.1

/-- A cast is refused, with a panic only on a fault or on a payable cast outside of the grid; or it is paid for, and
has its effects. -/
theorem handleSpellCast_run (maps : Int → Option MapData) (playerId : Int) (spellId cellId : Int16)
    (loaded : Option SpellData) (roll : UInt16) (s : Fight) :
    (∃ ending, handleSpellCast maps playerId spellId.toInt cellId.toInt loaded roll s = ⟨[], ending⟩ ∧
      (ending = .panic → Fault s ∨ ¬ValidCell cellId.toInt ∧ s.CanPay playerId (loaded.getD .fallback))) ∨
    ∃ f data, data = loaded.getD .fallback ∧ s.currentFighter = some f ∧ f.isPlayer = true ∧
      data.apCost ≤ f.actionPoints ∧ ValidCell cellId.toInt ∧
      (0 < data.maxCastPerTurn → f.castCount spellId.toInt < data.maxCastPerTurn) ∧
      let rest := castSpell f.id spellId.toInt cellId.toInt data roll (s.apply (.payCast spellId.toInt data.apCost))
      handleSpellCast maps playerId spellId.toInt cellId.toInt loaded roll s =
        ⟨.acceptCast f.id spellId.toInt cellId.toInt data :: .update
          (.payCast spellId.toInt data.apCost) :: rest.trace,
          rest.ending⟩ := by
  unfold handleSpellCast
  cases hverdict : validateCast maps s playerId spellId.toInt cellId.toInt (loaded.getD .fallback) with
  | panic =>
    refine .inl ⟨.panic, by simp [hverdict, ofEnding, bind_run], fun _ => ?_⟩
    rcases validateCast_panic hverdict with h | ⟨hcell, hpay⟩
    · exact .inl h
    · exact .inr ⟨mt (validCell_iff cellId.le_toInt cellId.toInt_lt).1 hcell, hpay⟩
  | exhausted => exact .inl ⟨.exhausted, by simp [hverdict, ofEnding, bind_run], nofun⟩
  | value verdict =>
    cases verdict with
    | error reason => exact .inl ⟨.value (), by simp [hverdict, ofEnding, bind_run], nofun⟩
    | ok _ =>
      obtain ⟨f, hf, rfl, hplayer, hap, hcell, hcasts⟩ := validateCast_ok hverdict
      have hvalid := (validCell_iff cellId.le_toInt cellId.toInt_lt).2 hcell
      exact .inr ⟨f, _, rfl, hf, hplayer, hap, hvalid, hcasts, by simp [hverdict, ofEnding, bind_run, update]⟩

end Otomai.Combat
