import Otomai.Combat.Spells

/-!
# Turns and fights

A turn starts with the poisons and the glyphs of its fighter.  A fighter that is not a player plays by itself and ends
its turn, which starts the next one, and so on: `startNextTurn` is given the number of turns it may start.  `serve`
handles what reaches a session with a fight, and `history` what reaches it one after the other, until the check of the
end of the fight takes the fight away.

`serve_spec`: what a session does with a fight when it receives a request is `Served`, and it panics only where a cell
outside of the grid was stored, or was the target of a cast (`RequestFault`).
-/

namespace Otomai.Combat

open Machine Otomai.Common Trace Program

/-! ### Turns -/

/-- Keep the nearer of two fighters, the first one if they are equally near. -/
def nearer (cell : Nat) (best : Option (Fighter × Nat)) (f : Fighter) : Option (Option (Fighter × Nat)) :=
  (distance cell (asU16 f.cellId)).map fun d =>
    match best with
    | none => some (f, d)
    | some (g, e) => if d < e then some (f, d) else some (g, e)

/-- The nearest player alive; the outer `none` is an index out of bounds. -/
def Fight.nearestPlayer (s : Fight) (cell : Nat) : Option (Option Fighter) :=
  ((s.fighters.filter fun f => f.isPlayer && f.isAlive).foldlM (nearer cell) none).map fun best => best.map Prod.fst

/-- What `monster_auto_play` does before it ends the turn: spend movement points if the target is too far, and attack
it. -/
def monsterAttack : FightProgram Unit := do
  let s ← get
  match s.currentFighter with
  | none => pure ()
  | some monster =>
    if monster.isPlayer then pure ()
    else do
      let nearest ← ofOption (s.nearestPlayer (asU16 monster.cellId))
      match nearest with
      | none => pure ()
      | some target =>
        let dist ← ofOption (distance (asU16 monster.cellId) (asU16 target.cellId))
        when (1 < dist ∧ 0 < monster.movementPoints)
          (update (.spendMovement (min (wrap16 (wrap16 dist - 1)) monster.movementPoints)))
        let baseDamage := max (wrap32 (5 + monster.level)) 1
        send (.sequenceStart 1 monster.id)
        perform (.autoAttack monster.id target.id)
        let _ ← applyDamage monster.id target.id baseDamage .neutral
        send (.sequenceEnd 300 monster.id 1)

/-- `end_turn`, followed by `startNext`. -/
def endTurnThen (startNext : FightProgram Unit) : FightProgram Unit := do
  let s ← get
  send (.turnEnd ((s.currentFighter.map Fighter.id).getD 0))
  if s.shouldEnd then update (.setPhase .ended)
  else do
    update .advanceTurn
    when s.startsNewRound (do
      let s ← get
      send (.newRound s.round))
    startNext

/-- A poison takes effect. -/
def applyPoison (fighterId : Int) (b : Buff) : FightProgram Unit := do
  perform (.poison b.sourceId fighterId b.value)
  let _ ← applyDamage b.sourceId fighterId b.value (b.poisonElement.getD .neutral)
  pure ()

/-- `start_next_turn`, if at most so many turns are started.  `monster_auto_play` is an attack and the end of the
turn. -/
def startNextTurn : Nat → FightProgram Unit
  | 0 => exhausted
  | n + 1 => do
    let s ← get
    if s.shouldEnd ∨ s.phase = .ended then pure ()
    else do
      update .tickBuffs
      let s ← get
      let fighterId := (s.currentFighter.map Fighter.id).getD 0
      ((s.currentFighter.map fun f => f.buffs.activePoisons).getD []).forM (applyPoison fighterId)
      let s ← get
      if s.shouldEnd then update (.setPhase .ended)
      else do
        update .tickMarks
        let s ← get
        triggerGlyphsForTurn ((s.currentFighter.map Fighter.id).getD 0)
        let s ← get
        if s.shouldEnd then update (.setPhase .ended)
        else match s.currentFighter with
          | none => pure ()
          | some fighter =>
            update .resetTurn
            send (.turnStart fighter.id)
            if fighter.isPlayer then pure ()
            else do
              monsterAttack
              endTurnThen (startNextTurn n)

/-- `end_turn`. -/
def endTurn (n : Nat) : FightProgram Unit := endTurnThen (startNextTurn n)

/-! ### Requests -/

/-- `handle_turn_finish`. -/
def handleTurnFinish (n : Nat) : FightProgram Unit := do
  let s ← get
  if s.currentFighter.any (!·.isPlayer) then pure () else endTurn n

/-- `handle_fight_movement`; the cost is the number of steps, as a machine integer. -/
def handleFightMovement (playerId : Int) (keyMovements : List Int16) : FightProgram Unit := do
  let s ← get
  match s.currentFighter with
  | none => pure ()
  | some current =>
    if ¬(current.id = playerId ∧ current.isPlayer) then pure ()
    else match keyMovements.getLast? with
      | none => pure ()
      | some key =>
        let mpCost := max (wrap16 (wrap16 keyMovements.length - 1)) 0
        if current.isRooted ∨ current.movementPoints < mpCost then pure ()
        else do
          let destCell := key.toInt % 4096
          update (.move mpCost destCell)
          send (.sequenceStart 2 playerId)
          send (.mapMovement keyMovements playerId)
          send (.pointsVariation 129 playerId (-mpCost))
          send (.sequenceEnd 129 playerId 2)
          triggerTrapsOnCell destCell playerId

/-- `handle_fight_ready`; what the message says is not looked at. -/
def handleFightReady (n : Nat) : FightProgram Unit := do
  update (.setPhase .fighting)
  send .fightStart
  let s ← get
  send (.turnList s.turnOrder s.deadIds)
  startNextTurn n

/-- `handle_placement_position`. -/
def handlePlacementPosition (playerId cellId : Int) : FightProgram Unit := do
  let s ← get
  when (s.phase = .placement ∧ s.challengerPositions.contains cellId) do
    update (.place playerId cellId)
    send (.entityDisposition playerId cellId)

/-- What `combat::dispatch` does with a fight, for the player of the session. -/
def serve (maps : Int → Option MapData) (n : Nat) (playerId : Int) (r : Request) : FightProgram Unit := do
  perform (.receive r)
  match r with
  | .placement cellId => handlePlacementPosition playerId cellId.toInt
  | .ready _ => handleFightReady n
  | .turnFinish => handleTurnFinish n
  | .turnReady => pure ()
  | .cast spellId cellId loaded roll => handleSpellCast maps playerId spellId.toInt cellId.toInt loaded roll
  | .movement keyMovements => handleFightMovement playerId keyMovements
  | .elsewhere marks summons => update (.drawIds marks summons)

/-- The arms of the dispatch that check whether the fight is over. -/
def Request.checksEnd : Request → Bool
  | .turnFinish | .cast .. => true
  | _ => false

/-- The condition of `check_fight_end`. -/
def Fight.isOver (s : Fight) : Bool := s.phase = .ended || s.shouldEnd

/-- One request after the other, while the session holds the fight; the value says whether it still does. -/
def history (maps : Int → Option MapData) (n : Nat) (playerId : Int) : List Request → FightProgram Bool
  | [] => pure true
  | r :: rs => do
    serve maps n playerId r
    let s ← get
    if r.checksEnd && s.isOver then pure false else history maps n playerId rs

/-! ### The start of a fight -/

/-- What a fight needs of a character.  The stats are those of its creation; its level starts at 1 and rises to at
most 200. -/
structure Character where
  id : Int
  level : Int
  vitality : Int
  strength : Int
  intelligence : Int
  chance : Int
  agility : Int
  id_pos : 0 < id
  level_pos : 1 ≤ level
  level_le : level ≤ 200
  vitality_nonneg : 0 ≤ vitality
  vitality_lt : vitality < 1000000

/-- `base_hp`. -/
def Character.baseHp (c : Character) : Int := 50 + (c.level - 1) * 5 + c.vitality

def playerFighter (c : Character) (cellId : Int) : Fighter where
  id := c.id
  level := c.level
  cellId := cellId
  team := .challengers
  lifePoints := c.baseHp
  maxLifePoints := c.baseHp
  shieldPoints := 0
  actionPoints := 6
  maxActionPoints := 6
  movementPoints := 3
  maxMovementPoints := 3
  isPlayer := true
  isAlive := true
  monsterId := 0
  stats :=
    { strength := wrap16 c.strength, intelligence := wrap16 c.intelligence, chance := wrap16 c.chance
      agility := wrap16 c.agility }
  buffs := []
  invisible := false
  states := []
  spellCastsThisTurn := []

def monsterFighter (c : Character) (cellId : Int) : Fighter where
  id := -1
  level := max c.level 1
  cellId := cellId
  team := .defenders
  lifePoints := 30 + max c.level 1 * 15
  maxLifePoints := 30 + max c.level 1 * 15
  shieldPoints := 0
  actionPoints := 6
  maxActionPoints := 6
  movementPoints := 3
  maxMovementPoints := 3
  isPlayer := false
  isAlive := true
  monsterId := 0
  stats := {}
  buffs := []
  invisible := false
  states := []
  spellCastsThisTurn := []

/-- Up to eight walkable cells of a range; without map data, its first eight. -/
def placementPositions (map : Option MapData) (first count : Nat) : List Int :=
  match map with
  | some map =>
    (((List.range' first count).filter fun c => (map.cells[c]?).any (·.isWalkable)).take 8).map Int.ofNat
  | none => (List.range' first 8).map Int.ofNat

/-- The fight that `start_pve_fight` hands to the session; the counters are where other fights have left them. -/
def startPveFight (maps : Int → Option MapData) (c : Character) (mapId : Int) (nextMarkId : Nat) (drawn : Nat) :
    Fight where
  mapId := mapId
  phase := .placement
  fighters :=
    [playerFighter c ((placementPositions (maps mapId) 280 30).headD 300),
      monsterFighter c ((placementPositions (maps mapId) 400 30).headD 420)]
  currentFighterIndex := 0
  round := 1
  challengerPositions := placementPositions (maps mapId) 280 30
  defenderPositions := placementPositions (maps mapId) 400 30
  marks := []
  nextMarkId := nextMarkId
  nextSummonId := -1000 - drawn

/-! ### What a turn is made of -/

theorem Fight.nearestPlayer_isSome {s : Fight} (hs : s.CellsValid) {cell : Nat} (hcell : cell < mapCellsCount) :
    (s.nearestPlayer cell).isSome := by
  have hfold : ∀ (fs : List Fighter), (∀ f ∈ fs, ValidCell f.cellId) → ∀ best,
    (fs.foldlM (nearer cell) best).isSome := by
    intro fs
    induction fs with
    | nil => exact fun _ _ => rfl
    | cons f fs ih =>
      intro hfs best
      obtain ⟨d, hd⟩ := Option.isSome_iff_exists.1
        (distance_isSome.2 ⟨hcell, asU16_lt_of_validCell (hfs f List.mem_cons_self)⟩)
      rw [List.foldlM_cons, nearer, hd]
      exact ih (fun g hg => hfs g (List.mem_cons_of_mem f hg)) _
  rw [nearestPlayer, Option.isSome_map]
  exact hfold _ (fun f hf => hs.1 f (List.mem_of_mem_filter hf)) none

theorem foldlM_nearer_mem {cell : Nat} {fs : List Fighter} {best : Option (Fighter × Nat)} {f : Fighter} {d : Nat}
    (h : fs.foldlM (nearer cell) best = some (some (f, d))) : best = some (f, d) ∨ f ∈ fs := by
  induction fs generalizing best with
  | nil => exact .inl (Option.some.inj h)
  | cons g fs ih =>
    rw [List.foldlM_cons] at h
    obtain ⟨next, hnext, h⟩ := Option.bind_eq_some_iff.1 h
    rcases ih h with rfl | hmem
    · obtain ⟨e, -, hpick⟩ := Option.map_eq_some_iff.1 hnext
      cases best with
      | none =>
        simp only [Option.some.injEq, Prod.mk.injEq] at hpick
        exact .inr (hpick.1 ▸ List.mem_cons_self)
      | some best =>
        simp only at hpick
        split at hpick
        · simp only [Option.some.injEq, Prod.mk.injEq] at hpick
          exact .inr (hpick.1 ▸ List.mem_cons_self)
        · exact .inl hpick
    · exact .inr (List.mem_cons_of_mem g hmem)

/-- The nearest player is a player alive. -/
theorem Fight.nearestPlayer_mem {s : Fight} {cell : Nat} {f : Fighter} (h : s.nearestPlayer cell = some (some f)) :
    f ∈ s.fighters ∧ f.isPlayer = true ∧ f.isAlive = true := by
  obtain ⟨best, hbest, hmap⟩ := Option.map_eq_some_iff.1 h
  obtain ⟨⟨g, d⟩, rfl, rfl⟩ := Option.map_eq_some_iff.1 hmap
  have hmem := (foldlM_nearer_mem hbest).resolve_left nofun
  obtain ⟨hmem, hfilter⟩ := List.mem_filter.1 hmem
  simp only [Bool.and_eq_true] at hfilter
  exact ⟨hmem, hfilter⟩

/-- A fight that has ended has a dead team. -/
def Fight.Coherent (s : Fight) : Prop := s.phase = .ended → s.shouldEnd = true

theorem Fight.shouldEnd_hit {s : Fight} (targetId damage : Int) (h : s.shouldEnd = true) :
    (s.apply (.hit targetId damage)).shouldEnd = true := by
  refine Fight.shouldEnd_of_alive (fun f' hf' halive => ?_) h
  rcases origin_apply hf' with ⟨f, hf, hidentity, hback⟩ | ⟨casterId, hsummon⟩
  · simp only [Fighter.identity, Prod.mk.injEq] at hidentity
    exact ⟨f, hf, hidentity.2.1.symm, hback halive⟩
  · cases hsummon

theorem Update.keepsLives_of_isQuiet {u : Update} (hu : u.isQuiet = true) : u.keepsLives = true := by
  cases u <;> first | rfl | contradiction

/-- An effect leaves the phase and the turn as they are, and a dead team dead. -/
theorem Effect.keepsTurn {s : Fight} {b : List Action} (h : Effect s b) :
    (after s b).phase = s.phase ∧ (after s b).currentFighterIndex = s.currentFighterIndex ∧
      (s.shouldEnd = true → (after s b).shouldEnd = true) := by
  have hkeeps {u : Update} (hu : u.keepsLives = true) : s.shouldEnd = true → (s.apply u).shouldEnd = true :=
    (s.shouldEnd_apply hu).trans
  cases h with
  | say _ => exact ⟨rfl, rfl, id⟩
  | @quiet u hu _ _ =>
    refine ⟨?_, ?_, hkeeps (Update.keepsLives_of_isQuiet hu)⟩ <;> (cases u <;> first | rfl | cases hu)
  | shield _ =>
    exact ⟨rfl, rfl, fun h => (Fight.shouldEnd_apply _ (u := .addBuff ..) rfl).trans
      (hkeeps (u := .addShield ..) rfl h)⟩
  | placeMark _ _ => exact ⟨rfl, rfl, id⟩
  | hit _ _ _ => split <;> exact ⟨rfl, rfl, Fight.shouldEnd_hit _ _⟩
  | heal _ => split <;> exact ⟨rfl, rfl, hkeeps (u := .heal ..) rfl⟩
  | slide _ _ => exact ⟨rfl, rfl, hkeeps (u := .slide ..) rfl⟩
  | teleport _ _ => exact ⟨rfl, rfl, hkeeps (u := .teleport ..) rfl⟩
  | exchange _ _ _ _ => exact ⟨rfl, rfl, hkeeps (u := .exchange ..) rfl⟩

theorem Effect.coherent {s : Fight} {b : List Action} (h : Effect s b) (hs : s.Coherent) : (after s b).Coherent := by
  obtain ⟨hphase, -, hdead⟩ := h.keepsTurn
  exact fun hended => hdead (hs (hphase ▸ hended))

/-- A program of effects, as a part of a turn: the phase stays the same. -/
theorem Ensures.ofEffects {α : Type} {p : FightProgram α} {s : Fight} {Q : α → Fight → Prop}
    (h : Ensures Effect Fault p s Q) : Ensures TurnBlock Fault p s fun _ s' => s'.phase = s.phase :=
  ((h.frame (I := fun s' => s'.phase = s.phase) (fun _ _ hs' hb => hb.keepsTurn.1.trans hs') rfl).mono_block
    fun _ _ hb => .effect hb).mono fun _ _ h => h.2

theorem monsterAttack_ensures {s : Fight} (hphase : s.phase ≠ .ended) (hgoing : s.shouldEnd = false) :
    Ensures TurnBlock Fault monsterAttack s fun _ s' => s'.phase = s.phase := by
  unfold monsterAttack
  refine .get_bind ?_
  cases hf : s.currentFighter with
  | none => exact .pure rfl
  | some monster =>
    dsimp only
    split
    · exact .pure rfl
    rename_i hauto
    have hmem : monster ∈ s.fighters := List.mem_of_getElem? hf
    refine .bind (Q := fun nearest s' => s' = s ∧ s.nearestPlayer (asU16 monster.cellId) = some nearest) ?_ ?_
    · refine .ofOption (fun hnone hvalid => ?_) fun _ h => ⟨rfl, h⟩
      have hsome := s.nearestPlayer_isSome hvalid (asU16_lt_of_validCell (hvalid.1 monster hmem))
      rw [hnone] at hsome
      cases hsome
    rintro nearest s' ⟨hs', hnearest⟩
    subst s'
    cases nearest with
    | none => exact .pure rfl
    | some target =>
      refine .bind (Q := fun dist s' => s' = s ∧ dist < 66)
        (.ofOption (fun hnone hvalid => ?_) fun _ hdist => ⟨rfl, distance_lt hdist⟩) ?_
      · have hsome := distance_isSome.2 ⟨asU16_lt_of_validCell (hvalid.1 monster hmem),
          asU16_lt_of_validCell (hvalid.1 target (s.nearestPlayer_mem hnearest).1)⟩
        rw [hnone] at hsome
        cases hsome
      rintro dist s' ⟨hs', hdist⟩
      subst s'
      -- the fighter that attacks is the one whose turn it is, also after it has spent movement points
      refine .bind (Q := fun _ s' => s'.phase = s.phase ∧ s'.shouldEnd = false ∧
        ∃ f, s'.currentFighter = some f ∧ f.id = monster.id ∧ f.isPlayer = monster.isPlayer) ?_ ?_
      · refine .when (fun hfar => .perform (.spendMovement hphase hf ?_ (min_le_right _ _)) ?_) fun _ =>
          ⟨rfl, hgoing, monster, hf, rfl, rfl⟩
        · rw [wrap16_of_range (x := dist) (by omega) (by omega), wrap16_of_range (by omega) (by omega)]
          omega
        · refine ⟨rfl, ?_, monster.spend (min (wrap16 (wrap16 dist - 1)) monster.movementPoints), ?_, rfl, rfl⟩
          · exact (s.shouldEnd_apply (u := .spendMovement _) rfl).trans hgoing
          · have hcurrent := s.currentFighter_modifyCurrent fun f =>
              f.spend (min (wrap16 (wrap16 dist - 1)) monster.movementPoints)
            rwa [hf] at hcurrent
      rintro _ s' ⟨hphase', hgoing', f, hf', hid, hplayer⟩
      refine .perform_bind (.effect (.say rfl)) (.perform_bind ?_ ?_)
      · rw [← hid]
        exact .autoAttack hgoing' (by rwa [act_send, hphase']) hf' (by rw [hplayer]; simpa using hauto)
      · refine .bind (Ensures.ofEffects (applyDamage_ensures ..)) fun _ s'' hs'' => ?_
        exact .perform (.effect (.say rfl)) (hs''.trans hphase')

theorem endTurnThen_ensures {startNext : FightProgram Unit} {s : Fight} (hs : s.Coherent)
    (hnext : ∀ s : Fight, s.phase ≠ .ended → Ensures TurnBlock Fault startNext s fun _ s' => s'.Coherent) :
    Ensures TurnBlock Fault (endTurnThen startNext) s fun _ s' => s'.Coherent := by
  unfold endTurnThen
  refine .get_bind (.perform_bind (.effect (.say rfl)) ?_)
  cases hend : s.shouldEnd with
  | true => exact .perform (.finish hend) fun _ => hend
  | false =>
    have hphase : s.phase ≠ .ended := fun h => by simp [hs h] at hend
    refine .perform_bind (.advance hphase hend) ?_
    have hphase' : (s.apply .advanceTurn).phase ≠ .ended := by
      unfold Fight.apply Fight.advanceTurn
      dsimp only
      split <;> exact hphase
    refine .bind (Q := fun _ s' => s'.phase ≠ .ended) (.when (fun _ => ?_) fun _ => hphase') fun _ s' hs' =>
      hnext s' hs'
    exact .get_bind (.perform (.effect (.say rfl)) hphase')

theorem applyPoison_ensures (fighterId : Int) (b : Buff) {s : Fight} (hphase : s.phase ≠ .ended) :
    Ensures TurnBlock Fault (applyPoison fighterId b) s fun _ s' => s'.phase ≠ .ended := by
  unfold applyPoison
  refine .perform_bind (.poison hphase) ?_
  refine .bind (Ensures.ofEffects (applyDamage_ensures ..)) fun _ s' hs' => .pure ?_
  rw [hs']
  exact hphase

theorem startNextTurn_ensures (n : Nat) {s : Fight} (hs : s.Coherent) :
    Ensures TurnBlock Fault (startNextTurn n) s fun _ s' => s'.Coherent := by
  induction n generalizing s with
  | zero => exact .exhausted
  | succ n ih =>
    unfold startNextTurn
    refine .get_bind ?_
    by_cases hover : s.shouldEnd ∨ s.phase = .ended
    · rw [if_pos hover]
      exact .pure hs
    rw [if_neg hover]
    have hphase : s.phase ≠ .ended := fun h => hover (.inr h)
    refine .perform_bind (.tick rfl) (.get_bind ?_)
    refine .bind (Q := fun _ (s' : Fight) => s'.phase ≠ .ended)
      (.forM (J := fun s : Fight => s.phase ≠ .ended) hphase fun b _ s hs => applyPoison_ensures _ b hs) ?_
    intro _ s hphase
    refine .get_bind ?_
    cases hend : s.shouldEnd with
    | true => exact .perform (.finish hend) fun _ => hend
    | false =>
      refine .perform_bind (.tick rfl) (.get_bind ?_)
      refine .bind (Ensures.ofEffects (triggerGlyphsForTurn_ensures ..)) fun _ s' hs' => .get_bind ?_
      replace hphase : s'.phase ≠ .ended := by rw [hs']; exact hphase
      cases hend : s'.shouldEnd with
      | true => exact .perform (.finish hend) fun _ => hend
      | false =>
        cases hf : s'.currentFighter with
        | none => exact .pure fun h => absurd h hphase
        | some fighter =>
          refine .cons (.beginTurn hphase hend hf) rfl ?_
          cases fighter.isPlayer with
          | true => exact .pure fun h => absurd h hphase
          | false =>
            have hgoing : (s'.apply .resetTurn).shouldEnd = false :=
              (s'.shouldEnd_apply rfl).trans hend
            refine .bind (monsterAttack_ensures hphase hgoing) fun _ s'' hs'' => ?_
            have hphase'' : s''.phase ≠ .ended := by rw [hs'']; exact hphase
            exact endTurnThen_ensures (fun h => absurd h hphase'') fun s hs => ih fun h => absurd h hs

/-! ### What a fight is made of -/

theorem handleTurnFinish_ensures (n : Nat) {s : Fight} (hs : s.Coherent) :
    Ensures TurnBlock Fault (handleTurnFinish n) s fun _ s' => s'.Coherent := by
  unfold handleTurnFinish
  refine .get_bind ?_
  split
  · exact .pure hs
  · exact endTurnThen_ensures hs fun s hs => startNextTurn_ensures n fun h => absurd h hs

/-- A movement is refused, or it is executed and triggers traps. -/
theorem handleFightMovement_run (playerId : Int) (keyMovements : List Int16) (s : Fight) :
    handleFightMovement playerId keyMovements s = ⟨[], .value ()⟩ ∨
    ∃ f key mpCost, s.currentFighter = some f ∧ f.isPlayer = true ∧ keyMovements.getLast? = some key ∧ 0 ≤ mpCost ∧
      mpCost ≤ f.movementPoints ∧
      let cellId := key.toInt % 4096
      let rest := triggerTrapsOnCell cellId f.id (s.apply (.move mpCost cellId))
      handleFightMovement playerId keyMovements s =
        ⟨[.update (.move mpCost cellId), .send (.sequenceStart 2 f.id), .send (.mapMovement keyMovements f.id),
            .send (.pointsVariation 129 f.id (-mpCost)), .send (.sequenceEnd 129 f.id 2)] ++ rest.trace,
          rest.ending⟩ := by
  unfold handleFightMovement
  cases hf : s.currentFighter with
  | none => exact .inl (by simp [hf])
  | some current =>
    by_cases hturn : current.id = playerId ∧ current.isPlayer
    · cases hlast : keyMovements.getLast? with
      | none => exact .inl (by simp [hf])
      | some key =>
        by_cases hfree : current.isRooted ∨ current.movementPoints < max (wrap16 (wrap16 keyMovements.length - 1)) 0
        · exact .inl (by simp [hf, hturn, hfree, -lt_sup_iff])
        · obtain ⟨rfl, hplayer⟩ := hturn
          obtain ⟨-, hle⟩ := not_or.1 hfree
          refine .inr ⟨current, key, _, rfl, hplayer, rfl, le_max_right _ _, not_lt.1 hle, ?_⟩
          simp [hf, hplayer, if_neg hfree, update, send, -lt_sup_iff]
    · refine .inl ?_
      rw [get_bind_run, hf]
      simp only [hturn, not_false_eq_true, if_true]
      rfl

/-! ### What a request is made of -/

/-- What a session does with a fight when it receives a request. -/
inductive Served (s : Fight) : Request → List Action → Prop where
  | refused {r : Request} (hr : ∀ isReady, r ≠ .ready isReady) : Served s r [.receive r]
  | place {playerId : Int} {cellId : Int16} (hphase : s.phase = .placement)
    (hcell : cellId.toInt ∈ s.challengerPositions) :
    Served s (.placement cellId) [.receive (.placement cellId), .update (.place playerId cellId.toInt),
      .send (.entityDisposition playerId cellId.toInt)]
  | ready {isReady : Bool} {t : List Action} (ht : Composed TurnBlock (s.apply (.setPhase .fighting)) t) :
    Served s (.ready isReady) (.receive (.ready isReady) :: .update (.setPhase .fighting) :: t)
  | turnFinish {t : List Action} (ht : Composed TurnBlock s t) : Served s .turnFinish (.receive .turnFinish :: t)
  | cast {spellId cellId : Int16} {loaded : Option SpellData} {roll : UInt16} {f : Fighter} {data : SpellData}
      {t : List Action} (hdata : data = loaded.getD .fallback) (hf : s.currentFighter = some f)
      (hplayer : f.isPlayer = true) (hap : data.apCost ≤ f.actionPoints) (hcell : ValidCell cellId.toInt)
      (hcasts : 0 < data.maxCastPerTurn → f.castCount spellId.toInt < data.maxCastPerTurn)
      (ht : Composed SpellBlock (s.apply (.payCast spellId.toInt data.apCost)) t) :
    Served s (.cast spellId cellId loaded roll) ([.receive (.cast spellId cellId loaded roll),
      .acceptCast f.id spellId.toInt cellId.toInt data, .update (.payCast spellId.toInt data.apCost)] ++ t)
  | move {f : Fighter} {mpCost cellId : Int} {keyMovements : List Int16} {key : Int16} {t : List Action}
      (hf : s.currentFighter = some f) (hplayer : f.isPlayer = true) (hlast : keyMovements.getLast? = some key)
      (hcell : cellId = key.toInt % 4096) (hnonneg : 0 ≤ mpCost) (hle : mpCost ≤ f.movementPoints)
      (ht : Composed Effect (s.apply (.move mpCost cellId)) t) :
    Served s (.movement keyMovements) ([.receive (.movement keyMovements), .update (.move mpCost cellId),
      .send (.sequenceStart 2 f.id), .send (.mapMovement keyMovements f.id),
      .send (.pointsVariation 129 f.id (-mpCost)), .send (.sequenceEnd 129 f.id 2)] ++ t)
  | elsewhere {marks summons : Nat} :
    Served s (.elsewhere marks summons) [.receive (.elsewhere marks summons), .update (.drawIds marks summons)]

theorem Served.composed {s : Fight} {r : Request} {t : List Action} (h : Served s r t) : Composed Block s t := by
  have hturn {s : Fight} {t : List Action} (ht : Composed TurnBlock s t) : Composed Block s t :=
    ht.mono fun _ _ => .turn
  have hreceive := Block.receive (s := s)
  cases h with
  | refused _ => exact .single (hreceive r)
  | place hphase hcell => exact .cons (hreceive _) (.single (Block.place (s := s) hphase hcell))
  | ready ht =>
    have hstart := Composed.cons (Block.start (s := s)) (hturn ht)
    exact .cons (hreceive _) hstart
  | turnFinish ht => exact .cons (hreceive _) (show Composed Block s _ from hturn ht)
  | cast hdata hf hplayer hap hcell hcasts ht =>
    exact .cons (.cast hdata hf hplayer hap hcell hcasts) (ht.mono fun _ _ => .spell)
  | move hf hplayer hlast hcell hnonneg hle ht =>
    exact .cons (.move hf hplayer hlast hcell hnonneg hle) (ht.mono fun _ _ hb => .turn (.effect hb))
  | elsewhere => exact .cons (hreceive _) (.single (Block.turn (s := s) (.effect (.quiet rfl rfl rfl))))

/-- Where a request received in the fight `s` can panic: once a cell outside of the grid is stored, or on a cast
outside of the grid that the player could pay for. -/
def RequestFault (playerId : Int) (r : Request) (s s' : Fight) : Prop :=
  Fault s' ∨ ∃ spellId cellId loaded roll, r = .cast spellId cellId loaded roll ∧ ¬ValidCell cellId.toInt ∧
    s.CanPay playerId (loaded.getD .fallback)

/-- What is known of the handling of a request: what it is made of, where it may panic, and, if the dispatch does not
check the end of the fight after it, that a fight that has ended has a dead team afterwards too. -/
structure ServeSpec (s : Fight) (playerId : Int) (r : Request) (run : Run Action Unit) : Prop where
  served : Served s r run.trace
  fault : run.ending = .panic → RequestFault playerId r s (after s run.trace)
  coherent : run.ending = .value () → r.checksEnd = false → (after s run.trace).Coherent

theorem serve_spec (maps : Int → Option MapData) (n : Nat) (playerId : Int) (r : Request) {s : Fight}
    (hs : s.Coherent) :
    ServeSpec s playerId r (serve maps n playerId r s) := by
  unfold serve
  rw [perform_bind_run, act_receive]
  cases r with
  | placement cellId =>
    dsimp only
    unfold handlePlacementPosition
    rw [get_bind_run]
    by_cases h : s.phase = .placement ∧ s.challengerPositions.contains cellId.toInt
    · have hphase : s.phase ≠ .ended := by simp [h.1]
      have hmem : cellId.toInt ∈ s.challengerPositions := by simpa using h.2
      rw [when, if_pos h]
      exact ⟨.place h.1 hmem, (by rintro ⟨⟩), fun _ _ hended => absurd hended hphase⟩
    · rw [when, if_neg h]
      exact ⟨.refused (by rintro _ ⟨⟩), (by rintro ⟨⟩), fun _ _ => hs⟩
  | ready isReady =>
    -- after the start, two messages and the first turn
    have hrest : Ensures TurnBlock Fault (do
        send .fightStart
        let s ← get
        send (.turnList s.turnOrder s.deadIds)
        startNextTurn n) (s.apply (.setPhase .fighting)) fun _ s' => s'.Coherent :=
      .perform_bind (.effect (.say rfl)) (.get_bind (.perform_bind (.effect (.say rfl))
        (startNextTurn_ensures n (by rintro ⟨⟩))))
    exact ⟨.ready hrest.composed, fun h => .inl (hrest.fault h), fun h _ => hrest.post () h⟩
  | turnFinish =>
    have hrest := handleTurnFinish_ensures n hs
    exact ⟨.turnFinish hrest.composed, fun h => .inl (hrest.fault h), fun h _ => hrest.post () h⟩
  | turnReady => exact ⟨.refused (by rintro _ ⟨⟩), (by rintro ⟨⟩), fun _ _ => hs⟩
  | cast spellId cellId loaded roll =>
    rcases handleSpellCast_run maps playerId spellId cellId loaded roll s with
      ⟨ending, hrun, hfault⟩ | ⟨f, data, hdata, hf, hplayer, hap, hcell, hcasts, hrun⟩
    · dsimp only
      rw [hrun]
      refine ⟨.refused (by rintro _ ⟨⟩), fun h => ?_, fun _ h => by cases h⟩
      exact (hfault h).imp_right fun hpay => ⟨spellId, cellId, loaded, roll, rfl, hpay⟩
    · have hrest := castSpell_ensures f.id spellId.toInt hcell data roll
        (s.apply (.payCast spellId.toInt data.apCost))
      dsimp only
      rw [hrun]
      exact ⟨.cast hdata hf hplayer hap hcell hcasts hrest.composed, fun h => .inl (hrest.fault h),
        fun _ h => by cases h⟩
  | movement keyMovements =>
    rcases handleFightMovement_run playerId keyMovements s with
      hrun | ⟨f, key, mpCost, hf, hplayer, hlast, hnonneg, hle, hrun⟩
    · dsimp only
      rw [hrun]
      exact ⟨.refused (by rintro _ ⟨⟩), (by rintro ⟨⟩), fun _ _ => hs⟩
    · have hmoved : (s.apply (.move mpCost (key.toInt % 4096))).Coherent := fun hended =>
        (s.shouldEnd_apply (u := .move ..) rfl).trans (hs hended)
      have hrest :=
        (triggerTrapsOnCell_ensures (key.toInt % 4096) f.id (s.apply (.move mpCost (key.toInt % 4096)))).frame
        (fun _ _ hs hb => hb.coherent hs) hmoved
      dsimp only at hrun ⊢
      rw [hrun]
      exact ⟨.move hf hplayer hlast rfl hnonneg hle hrest.composed, fun h => .inl (hrest.fault h),
        fun h _ => (hrest.post () h).2⟩
  | elsewhere marks summons => exact ⟨.elsewhere, (by rintro ⟨⟩), fun _ _ => hs⟩

end Otomai.Combat
