import Otomai.Combat.Action

/-!
# What the handlers may do

A handler performs its actions in blocks: a write together with the messages that tell of it.  `Effect` lists the
blocks of damage, displacement, marks and buffs, `SpellBlock` those and the ones of summons, `TurnBlock` those and the
ones of turns, and `Block` all of them and the ones of requests, each with what the code has checked when it comes to
it.  Nothing here is assumed of the code: the modules of the handlers prove that their traces consist of such blocks.

An effect leaves the turn as it is (`Effect.keepsTurn`).
-/

namespace Otomai.Combat

open Machine Otomai.Common Trace

/-- A cell of the grid. -/
def ValidCell (cellId : Int) : Prop := 0 ≤ cellId ∧ cellId < 560

instance (cellId : Int) : Decidable (ValidCell cellId) := inferInstanceAs (Decidable (_ ∧ _))

theorem validCell_iff {cellId : Int} (h : -32768 ≤ cellId) (h' : cellId < 32768) :
    ValidCell cellId ↔ asU16 cellId < mapCellsCount := by
  unfold ValidCell asU16 mapCellsCount
  omega

/-- Every cell that the fight has stored is a cell of the grid. -/
def Fight.CellsValid (s : Fight) : Prop :=
  (∀ f ∈ s.fighters, ValidCell f.cellId) ∧ ∀ m ∈ s.marks, ∀ c ∈ m.zoneCells, ValidCell c

/-- The effects of the mark only place marks. -/
def Mark.OnlyPlaces (m : Mark) : Prop :=
  ∀ effect ∈ m.effects, classify effect.effectId = .placeGlyph ∨ classify effect.effectId = .placeTrap

/-- The fighter that a summon adds. -/
def Fight.summoned (s : Fight) (casterId cellId monsterId level : Int) : Fighter where
  id := s.nextSummonId
  level := level
  cellId := cellId
  team := ((s.getFighter casterId).map Fighter.team).getD .challengers
  lifePoints := wrap32 (20 + level * 8)
  maxLifePoints := wrap32 (20 + level * 8)
  shieldPoints := 0
  actionPoints := 4
  maxActionPoints := 4
  movementPoints := 3
  maxMovementPoints := 3
  isPlayer := false
  isAlive := true
  monsterId := monsterId
  stats := { power := -1 }
  buffs := []
  invisible := false
  states := []
  spellCastsThisTurn := []

namespace ServerMessage

/-- The message changes nothing in what the client shows of the fighters, and starts no turn. -/
def isPlain : ServerMessage → Bool
  | showFighter .. | entityDisposition .. | mapMovement .. | lifePointsLost .. | lifePointsGain .. | death ..
  | slide .. | teleportOnSameMap .. | exchangePositions .. | turnStart _ => false
  | _ => true

end ServerMessage

namespace Update

/-- The write concerns only buffs, states, marks or counters. -/
def isQuiet : Update → Bool
  | addShield .. | addBuff .. | addState .. | removeState .. | vanish _ | removeMark _ | tickBuffs | tickMarks
  | drawIds .. => true
  | _ => false

/-- The write adds to a shield. -/
def isShielding : Update → Bool
  | addShield .. => true
  | addBuff _ b => b.isShield
  | _ => false

/-- The write counts down. -/
def isTick : Update → Bool
  | tickBuffs | tickMarks => true
  | _ => false

/-- The write is an effect of a spell. -/
def isSpell : Update → Bool
  | placeMark _ | hit .. | heal .. | slide .. | teleport .. | exchange .. | summon .. => true
  | u => u.isQuiet

end Update

/-- The blocks of the effects. -/
inductive Effect (s : Fight) : List Action → Prop where
  | say {m : ServerMessage} (hm : m.isPlain = true) : Effect s [.send m]
  | quiet {u : Update} (hu : u.isQuiet = true) (hshield : u.isShielding = false) (htick : u.isTick = false) :
    Effect s [.update u]
  | shield {targetId : Int} {b : Buff} (hb : b.isShield = true) :
    Effect s [.update (.addShield targetId b.value), .update (.addBuff targetId b)]
  | placeMark {m : Mark} (hid : m.id = s.drawnMarkId) (hzone : ∀ c ∈ m.zoneCells, ValidCell c)
    (hplaces : m.OnlyPlaces) : Effect s [.update (.placeMark m)]
  | hit {sourceId targetId damage : Int} {element : Element} {f : Fighter} (hf : s.getFighter targetId = some f)
      (hvulnerable : f.isInvulnerable = false) (hdamage : 0 ≤ damage) :
    Effect s ([.update (.hit targetId damage), .send (.lifePointsLost sourceId targetId damage element)] ++
      if (f.hit damage).isAlive then [] else [.send (.death sourceId targetId)])
  | heal {targetId heal : Int} {f : Fighter} (hf : s.getFighter targetId = some f) :
    Effect s (.update (.heal targetId heal) ::
      if 0 < f.actualHeal heal then [.send (.lifePointsGain targetId (f.actualHeal heal))] else [])
  | slide {sourceId targetId startCellId cellId : Int} (hcell : ValidCell cellId)
      (hfree : s.fighterOnCell cellId = none) :
    Effect s [.update (.slide targetId cellId), .send (.slide sourceId targetId startCellId cellId)]
  | teleport {sourceId targetId cellId : Int} (hcell : ValidCell cellId) (hfree : s.fighterOnCell cellId = none) :
    Effect s [.update (.teleport targetId cellId), .send (.teleportOnSameMap sourceId targetId cellId)]
  | exchange {sourceId targetId cellId : Int} {a b t : Fighter} (ha : s.getFighter sourceId = some a)
      (hb : s.getFighter targetId = some b) (ht : s.fighterOnCell cellId = some t) (hid : t.id = targetId) :
    Effect s [.update (.exchange sourceId targetId a.cellId b.cellId),
      .send (.exchangePositions sourceId targetId b.cellId a.cellId)]

/-- The blocks of the effects of a spell, with its summons. -/
inductive SpellBlock (s : Fight) : List Action → Prop where
  | effect {b : List Action} (h : Effect s b) : SpellBlock s b
  | summon {casterId monsterId : Int} {f : Fighter} {cellId level : Int} (hcell : ValidCell cellId)
      (hfree : s.fighterOnCell cellId = none) (hlevel : level = ((s.getFighter casterId).map Fighter.level).getD 1)
      (hf : f = s.summoned casterId cellId monsterId level) :
    SpellBlock s [.update (.summon casterId f),
      .send (.showFighter f.id f.cellId f.team true f.lifePoints f.maxLifePoints),
      .send (.turnList (s.apply (.summon casterId f)).turnOrder (s.apply (.summon casterId f)).deadIds)]

/-- The blocks of turns. -/
inductive TurnBlock (s : Fight) : List Action → Prop where
  | effect {b : List Action} (h : Effect s b) : TurnBlock s b
  | tick {u : Update} (hu : u.isTick = true) : TurnBlock s [.update u]
  | finish (hend : s.shouldEnd = true) : TurnBlock s [.update (.setPhase .ended)]
  | poison {sourceId targetId damage : Int} (hphase : s.phase ≠ .ended) :
    TurnBlock s [.poison sourceId targetId damage]
  | beginTurn {f : Fighter} (hphase : s.phase ≠ .ended) (hgoing : s.shouldEnd = false)
      (hf : s.currentFighter = some f) : TurnBlock s [.update .resetTurn, .send (.turnStart f.id)]
  | autoAttack {f : Fighter} {targetId : Int} (hgoing : s.shouldEnd = false) (hphase : s.phase ≠ .ended)
      (hf : s.currentFighter = some f) (hauto : f.isPlayer = false) : TurnBlock s [.autoAttack f.id targetId]
  | spendMovement {f : Fighter} {mpUsed : Int} (hphase : s.phase ≠ .ended) (hf : s.currentFighter = some f)
      (hnonneg : 0 ≤ mpUsed) (hle : mpUsed ≤ f.movementPoints) : TurnBlock s [.update (.spendMovement mpUsed)]
  | advance (hphase : s.phase ≠ .ended) (hgoing : s.shouldEnd = false) : TurnBlock s [.update .advanceTurn]

/-- The blocks of all handlers: those of spells and turns, and those a request starts with. -/
inductive Block (s : Fight) : List Action → Prop where
  | spell {b : List Action} (h : SpellBlock s b) : Block s b
  | turn {b : List Action} (h : TurnBlock s b) : Block s b
  | receive (r : Request) : Block s [.receive r]
  | start : Block s [.update (.setPhase .fighting)]
  | cast {spellId cellId : Int16} {loaded : Option SpellData} {roll : UInt16} {f : Fighter} {data : SpellData}
      (hdata : data = loaded.getD .fallback) (hf : s.currentFighter = some f) (hplayer : f.isPlayer = true)
      (hap : data.apCost ≤ f.actionPoints) (hcell : ValidCell cellId.toInt)
      (hcasts : 0 < data.maxCastPerTurn → f.castCount spellId.toInt < data.maxCastPerTurn) :
    Block s [.receive (.cast spellId cellId loaded roll), .acceptCast f.id spellId.toInt cellId.toInt data,
      .update (.payCast spellId.toInt data.apCost)]
  | move {f : Fighter} {mpCost cellId : Int} {keyMovements : List Int16} {key : Int16}
      (hf : s.currentFighter = some f) (hplayer : f.isPlayer = true) (hlast : keyMovements.getLast? = some key)
      (hcell : cellId = key.toInt % 4096) (hnonneg : 0 ≤ mpCost) (hle : mpCost ≤ f.movementPoints) :
    Block s [.receive (.movement keyMovements), .update (.move mpCost cellId), .send (.sequenceStart 2 f.id),
      .send (.mapMovement keyMovements f.id), .send (.pointsVariation 129 f.id (-mpCost)),
      .send (.sequenceEnd 129 f.id 2)]
  | place {playerId cellId : Int} (hphase : s.phase = .placement) (hcell : cellId ∈ s.challengerPositions) :
    Block s [.update (.place playerId cellId), .send (.entityDisposition playerId cellId)]

/-- What is known of a write when it is made. -/
inductive Write (s : Fight) : Update → Prop where
  | quiet {u : Update} (hu : u.isQuiet = true) : Write s u
  | placeMark {m : Mark} (hzone : ∀ c ∈ m.zoneCells, ValidCell c) : Write s (.placeMark m)
  | hit {targetId damage : Int} {f : Fighter} (hf : s.getFighter targetId = some f) (hdamage : 0 ≤ damage) :
    Write s (.hit targetId damage)
  | heal {targetId heal : Int} {f : Fighter} (hf : s.getFighter targetId = some f) : Write s (.heal targetId heal)
  | slide {targetId cellId : Int} (hcell : ValidCell cellId) (hfree : s.fighterOnCell cellId = none) :
    Write s (.slide targetId cellId)
  | teleport {targetId cellId : Int} (hcell : ValidCell cellId) (hfree : s.fighterOnCell cellId = none) :
    Write s (.teleport targetId cellId)
  | exchange {sourceId targetId cellId : Int} {a b t : Fighter} (ha : s.getFighter sourceId = some a)
      (hb : s.getFighter targetId = some b) (ht : s.fighterOnCell cellId = some t) (hid : t.id = targetId) :
    Write s (.exchange sourceId targetId a.cellId b.cellId)
  | summon {casterId monsterId cellId level : Int} (hcell : ValidCell cellId) (hfree : s.fighterOnCell cellId = none)
      (hlevel : level = ((s.getFighter casterId).map Fighter.level).getD 1) :
    Write s (.summon casterId (s.summoned casterId cellId monsterId level))
  | start : Write s (.setPhase .fighting)
  | finish (hend : s.shouldEnd = true) : Write s (.setPhase .ended)
  | resetTurn : Write s .resetTurn
  | spendMovement (mpUsed : Int) : Write s (.spendMovement mpUsed)
  | advance (hgoing : s.shouldEnd = false) : Write s .advanceTurn
  | payCast (spellId apCost : Int) : Write s (.payCast spellId apCost)
  | move {f : Fighter} {mpCost cellId : Int} (hf : s.currentFighter = some f) (hplayer : f.isPlayer = true)
      (hcell : 0 ≤ cellId) (hlt : cellId < 4096) : Write s (.move mpCost cellId)
  | place {playerId cellId : Int} (hcell : cellId ∈ s.challengerPositions) : Write s (.place playerId cellId)

/-- What is known of an action when it is performed: of a write, that it may be made. -/
def MayWrite (s : Fight) : Action → Prop
  | .update u => Write s u
  | _ => True

theorem Update.eq_of_isTick {u : Update} (hu : u.isTick = true) : u = .tickBuffs ∨ u = .tickMarks := by
  cases u <;> simp_all [Update.isTick]

theorem Update.isQuiet_of_isTick {u : Update} (hu : u.isTick = true) : u.isQuiet = true := by
  cases u <;> first | rfl | cases hu

theorem Effect.mayWrite {s : Fight} {b : List Action} (h : Effect s b) : Along MayWrite s b := by
  cases h with
  | say _ => exact ⟨trivial, trivial⟩
  | quiet hu _ _ => exact ⟨.quiet hu, trivial⟩
  | shield _ => exact ⟨.quiet rfl, .quiet rfl, trivial⟩
  | placeMark _ hzone _ => exact ⟨.placeMark hzone, trivial⟩
  | hit hf _ hdamage =>
    split
    · exact ⟨.hit hf hdamage, trivial, trivial⟩
    · exact ⟨.hit hf hdamage, trivial, trivial, trivial⟩
  | heal hf =>
    split
    · exact ⟨.heal hf, trivial, trivial⟩
    · exact ⟨.heal hf, trivial⟩
  | slide hcell hfree => exact ⟨.slide hcell hfree, trivial, trivial⟩
  | teleport hcell hfree => exact ⟨.teleport hcell hfree, trivial, trivial⟩
  | exchange ha hb ht hid => exact ⟨.exchange ha hb ht hid, trivial, trivial⟩

theorem SpellBlock.mayWrite {s : Fight} {b : List Action} (h : SpellBlock s b) : Along MayWrite s b := by
  cases h with
  | effect h => exact h.mayWrite
  | summon hcell hfree hlevel hf => exact ⟨hf ▸ .summon hcell hfree hlevel, trivial, trivial, trivial⟩

theorem TurnBlock.mayWrite {s : Fight} {b : List Action} (h : TurnBlock s b) : Along MayWrite s b := by
  cases h with
  | effect h => exact h.mayWrite
  | tick hu => exact ⟨.quiet (Update.isQuiet_of_isTick hu), trivial⟩
  | finish hend => exact ⟨.finish hend, trivial⟩
  | poison _ => exact ⟨trivial, trivial⟩
  | beginTurn _ _ _ => exact ⟨.resetTurn, trivial, trivial⟩
  | autoAttack _ _ _ _ => exact ⟨trivial, trivial⟩
  | spendMovement _ _ _ _ => exact ⟨.spendMovement _, trivial⟩
  | advance _ hgoing => exact ⟨.advance hgoing, trivial⟩

theorem Block.mayWrite {s : Fight} {b : List Action} (h : Block s b) : Along MayWrite s b := by
  cases h with
  | spell h => exact h.mayWrite
  | turn h => exact h.mayWrite
  | receive r => exact ⟨trivial, trivial⟩
  | start => exact ⟨.start, trivial⟩
  | cast _ _ _ _ _ _ => exact ⟨trivial, trivial, .payCast .., trivial⟩
  | move hf hplayer _ hcell _ _ =>
    exact ⟨trivial, .move hf hplayer (by omega) (by omega), trivial, trivial, trivial, trivial, trivial⟩
  | place _ hcell => exact ⟨.place hcell, trivial, trivial⟩

/-- The actions of the effects of a spell, and of its summons. -/
def Action.isSpell : Action → Bool
  | .send (.turnStart _) => false
  | .send _ => true
  | .update u => u.isSpell
  | _ => false

theorem Effect.isSpell {s : Fight} {b : List Action} (h : Effect s b) : Along (fun _ a => a.isSpell = true) s b := by
  cases h with
  | @say m hm =>
    refine ⟨?_, trivial⟩
    cases m <;> first | rfl | cases hm
  | @quiet u hu _ _ =>
    refine ⟨?_, trivial⟩
    cases u <;> first | rfl | cases hu
  | shield _ => exact ⟨rfl, rfl, trivial⟩
  | hit _ _ _ => split <;> simp [Action.isSpell, Update.isSpell]
  | heal _ => split <;> simp [Action.isSpell, Update.isSpell]
  | _ => simp [Action.isSpell, Update.isSpell]

theorem SpellBlock.isSpell {s : Fight} {b : List Action} (h : SpellBlock s b) :
    Along (fun _ a => a.isSpell = true) s b := by
  cases h with
  | effect h => exact h.isSpell
  | summon _ _ _ _ => exact ⟨rfl, rfl, rfl, trivial⟩

/-- An invariant of a fight needs to be checked for its writes only: it then holds before every action and at the
end. -/
theorem writes_invariant {I : Fight → Prop} {C : Fight → Action → Prop} {s : Fight} {t : List Action}
    (hstep : ∀ s u, I s → Write s u → C s (.update u) → I (s.apply u)) (h : Composed Block s t) (hC : Along C s t)
    (hI : I s) : Along (fun s _ => I s) s t ∧ I (after s t) := by
  have hwrites : Along MayWrite s t := h.along fun _ _ => Block.mayWrite
  refine Along.invariant (fun s a hI hP => ?_) (hwrites.and hC) hI
  cases a with
  | update u => exact hstep s u hI hP.1 hP.2
  | _ => exact hI

end Otomai.Combat
