import Otomai.Combat.State
import Otomai.Trace.Program

/-!
# What happens in a fight

A handler reads the fight, writes to it and sends messages.  Its writes are data here (`Update`), and `Fight.apply` is
what each of them does, so that a handler leaves a trace of what it wrote and sent, in order.  Four actions neither
write nor send: they name the points where a request arrives, a cast is accepted, a poison takes effect and a fighter
attacks by itself.
-/

namespace Otomai.Combat

open Machine Otomai.Common Trace

/-- What reaches a session that holds a fight: a message of the client, or other fights drawing ids for marks and
summons.  A cast comes with the spell that was loaded for it, if one was, and with the random number drawn for it. -/
inductive Request where
  | placement (cellId : Int16)
  | ready (isReady : Bool)
  | turnFinish
  | turnReady
  | cast (spellId cellId : Int16) (loaded : Option SpellData) (roll : UInt16)
  | movement (keyMovements : List Int16)
  | elsewhere (marks summons : Nat)
  deriving DecidableEq

/-- The messages a fight sends to its client. -/
inductive ServerMessage where
  | placementPossiblePositions (challengers defenders : List Int)
  | showFighter (id cellId : Int) (team : Team) (isAlive : Bool) (lifePoints maxLifePoints : Int)
  | turnList (ids deadsIds : List Int)
  | entityDisposition (id cellId : Int)
  | fightStart
  | turnStart (id : Int)
  | turnEnd (id : Int)
  | newRound (roundNumber : Int)
  | sequenceStart (sequenceType authorId : Int)
  | sequenceEnd (actionId authorId sequenceType : Int)
  | mapMovement (keyMovements : List Int16) (actorId : Int)
  | pointsVariation (actionId targetId delta : Int)
  | spellCast (sourceId destinationCellId spellId : Int) (critical : Bool)
  | invisibility (targetId state : Int)
  | lifePointsLost (sourceId targetId loss : Int) (element : Element)
  | lifePointsGain (targetId delta : Int)
  | death (sourceId targetId : Int)
  | slide (sourceId targetId startCellId endCellId : Int)
  | teleportOnSameMap (sourceId targetId cellId : Int)
  | exchangePositions (sourceId targetId casterCellId targetCellId : Int)
  deriving DecidableEq

/-- The writes to a fight. -/
inductive Update where
  | place (playerId cellId : Int)
  | move (mpCost cellId : Int)
  | slide (targetId cellId : Int)
  | teleport (targetId cellId : Int)
  | exchange (sourceId targetId cellA cellB : Int)
  | hit (targetId damage : Int)
  | heal (targetId heal : Int)
  | summon (casterId : Int) (f : Fighter)
  | payCast (spellId apCost : Int)
  | spendMovement (mpUsed : Int)
  | addShield (targetId value : Int)
  | addBuff (targetId : Int) (b : Buff)
  | addState (targetId stateId : Int)
  | removeState (targetId stateId : Int)
  | vanish (playerId : Int)
  | placeMark (m : Mark)
  | removeMark (id : Nat)
  | tickBuffs
  | tickMarks
  | resetTurn
  | advanceTurn
  | setPhase (phase : FightPhase)
  | drawIds (marks summons : Nat)
  deriving DecidableEq

namespace Fighter

def onCell (f : Fighter) (cellId : Int) : Fighter := { f with cellId := cellId }

def spend (f : Fighter) (mp : Int) : Fighter := { f with movementPoints := wrap16 (f.movementPoints - mp) }

def addShield (f : Fighter) (value : Int) : Fighter := { f with shieldPoints := wrap32 (f.shieldPoints + value) }

def addBuff (f : Fighter) (b : Buff) : Fighter := { f with buffs := f.buffs ++ [b] }

/-- The states are a set. -/
def addState (f : Fighter) (stateId : Int) : Fighter :=
  { f with states := if f.states.contains stateId then f.states else stateId :: f.states }

def removeState (f : Fighter) (stateId : Int) : Fighter := { f with states := f.states.filter (· ≠ stateId) }

def vanish (f : Fighter) : Fighter := { f with invisible := true }

def tickBuffs (f : Fighter) : Fighter := { f with buffs := f.buffs.tick }

end Fighter

/-- What a write does to the fight. -/
def Fight.apply (s : Fight) : Update → Fight
  | .place playerId cellId => s.modifyFighter playerId (·.onCell cellId)
  | .move mpCost cellId => s.modifyCurrent fun f => (f.spend mpCost).onCell cellId
  | .slide targetId cellId => s.modifyFighter targetId (·.onCell cellId)
  | .teleport targetId cellId => s.modifyFighter targetId (·.onCell cellId)
  | .exchange sourceId targetId cellA cellB =>
    (s.modifyFighter sourceId (·.onCell cellB)).modifyFighter targetId (·.onCell cellA)
  | .hit targetId damage => s.modifyFighter targetId (·.hit damage)
  | .heal targetId heal => s.modifyFighter targetId (·.heal heal)
  | .summon _ f => { s with fighters := s.fighters ++ [f], nextSummonId := s.nextSummonId - 1 }
  | .payCast spellId apCost => s.modifyCurrent (·.payCast spellId apCost)
  | .spendMovement mpUsed => s.modifyCurrent (·.spend mpUsed)
  | .addShield targetId value => s.modifyFighter targetId (·.addShield value)
  | .addBuff targetId b => s.modifyFighter targetId (·.addBuff b)
  | .addState targetId stateId => s.modifyFighter targetId (·.addState stateId)
  | .removeState targetId stateId => s.modifyFighter targetId (·.removeState stateId)
  | .vanish playerId => s.modifyFighter playerId (·.vanish)
  | .placeMark m => { s with marks := s.marks ++ [m], nextMarkId := s.nextMarkId + 1 }
  | .removeMark id => { s with marks := s.marks.filter (·.id ≠ id) }
  | .tickBuffs => s.modifyCurrent (·.tickBuffs)
  | .tickMarks => { s with marks := s.tickMarks }
  | .resetTurn => s.modifyCurrent (·.resetTurn)
  | .advanceTurn => s.advanceTurn
  | .setPhase phase => { s with phase := phase }
  | .drawIds marks summons =>
    { s with nextMarkId := s.nextMarkId + marks, nextSummonId := s.nextSummonId - summons }

/-- The write kills nobody and adds nobody. -/
def Update.keepsLives : Update → Bool
  | .hit .. | .summon .. => false
  | _ => true

/-- The write adds nobody. -/
def Update.keepsRoster : Update → Bool
  | .summon .. => false
  | _ => true

/-- The write moves nobody and adds nobody. -/
def Update.keepsCells : Update → Bool
  | .place .. | .move .. | .slide .. | .teleport .. | .exchange .. | .summon .. => false
  | _ => true

theorem hit_isAlive {f : Fighter} {damage : Int} (h : (f.hit damage).isAlive = true) : f.isAlive = true := by
  unfold Fighter.hit at h
  dsimp only at h
  split at h
  · cases h
  · exact h

namespace Fight

variable (s : Fight)

/-- A write that leaves a feature of every fighter it may change. -/
private theorem map_apply {β : Type} {k : Fighter → β} (u : Update) (hsummon : u.keepsRoster = true)
    (hcell : u.keepsCells = false → ∀ (f : Fighter) (c : Int), k (f.onCell c) = k f)
    (hhit : u.keepsLives = false → ∀ (f : Fighter) (d : Int), k (f.hit d) = k f)
    (hrest : ∀ f g : Fighter, g.standing = f.standing → k g = k f) :
    (s.apply u).fighters.map k = s.fighters.map k := by
  cases u with
  | place _ _ => exact s.map_modifyFighter (fun f => hcell rfl f _) _
  | move _ _ => exact s.map_modifyCurrent fun f => (hcell rfl _ _).trans (hrest _ _ rfl)
  | slide _ _ => exact s.map_modifyFighter (fun f => hcell rfl f _) _
  | teleport _ _ => exact s.map_modifyFighter (fun f => hcell rfl f _) _
  | exchange _ _ _ _ =>
    exact (Fight.map_modifyFighter _ (fun f => hcell rfl f _) _).trans
      (s.map_modifyFighter (fun f => hcell rfl f _) _)
  | hit _ _ => exact s.map_modifyFighter (fun f => hhit rfl f _) _
  | heal _ _ => exact s.map_modifyFighter (fun f => hrest f (f.heal _) rfl) _
  | summon _ _ => cases hsummon
  | payCast _ _ => exact s.map_modifyCurrent fun _ => hrest _ _ rfl
  | spendMovement _ => exact s.map_modifyCurrent fun _ => hrest _ _ rfl
  | addShield _ _ => exact s.map_modifyFighter (fun f => hrest f (f.addShield _) rfl) _
  | addBuff _ _ => exact s.map_modifyFighter (fun f => hrest f (f.addBuff _) rfl) _
  | addState _ _ => exact s.map_modifyFighter (fun f => hrest f (f.addState _) rfl) _
  | removeState _ _ => exact s.map_modifyFighter (fun f => hrest f (f.removeState _) rfl) _
  | vanish _ => exact s.map_modifyFighter (fun f => hrest f (f.vanish) rfl) _
  | tickBuffs => exact s.map_modifyCurrent fun _ => hrest _ _ rfl
  | resetTurn => exact s.map_modifyCurrent fun _ => hrest _ _ rfl
  | advanceTurn =>
    simp only [Fight.apply, advanceTurn]
    split <;> rfl
  | _ => rfl

theorem map_identity_apply {u : Update} (hu : u.keepsRoster = true) :
    (s.apply u).fighters.map Fighter.identity = s.fighters.map Fighter.identity :=
  s.map_apply u hu (fun _ _ _ => rfl) (fun _ _ _ => rfl) fun _ _ h => (Prod.ext_iff.1 h).1

theorem map_life_apply {u : Update} (hu : u.keepsLives = true) :
    (s.apply u).fighters.map Fighter.life = s.fighters.map Fighter.life := by
  have hroster : u.keepsRoster = true := by cases u <;> first | rfl | exact hu
  refine s.map_apply u hroster (fun _ _ _ => rfl) (fun h => by rw [hu] at h; cases h) fun f g h => ?_
  simp only [Fighter.standing, Prod.mk.injEq] at h
  rw [Fighter.life, h.1, h.2.2, Fighter.life]

theorem map_cellId_apply {u : Update} (hu : u.keepsCells = true) :
    (s.apply u).fighters.map Fighter.cellId = s.fighters.map Fighter.cellId := by
  have hroster : u.keepsRoster = true := by cases u <;> first | rfl | exact hu
  refine s.map_apply u hroster (fun h => by rw [hu] at h; cases h) (fun _ _ _ => rfl) fun f g h => ?_
  simp only [Fighter.standing, Prod.mk.injEq] at h
  exact h.2.1

theorem map_standing_apply {u : Update} (hcells : u.keepsCells = true) (hlives : u.keepsLives = true) :
    (s.apply u).fighters.map Fighter.standing = s.fighters.map Fighter.standing := by
  have hroster : u.keepsRoster = true := by cases u <;> first | rfl | exact hlives
  refine s.map_apply u hroster (fun h => ?_) (fun h => ?_) fun f g h => h
  · rw [hcells] at h
    cases h
  · rw [hlives] at h
    cases h

/-- Everybody has been there before a write, and was alive if it is now, except for whom the write adds. -/
theorem origin_apply {s : Fight} {u : Update} {f' : Fighter} (hf' : f' ∈ (s.apply u).fighters) :
    (∃ f ∈ s.fighters, f'.identity = f.identity ∧ (f'.isAlive = true → f.isAlive = true)) ∨
      ∃ casterId, u = .summon casterId f' := by
  by_cases hlives : u.keepsLives = true
  · have hmem := List.mem_map_of_mem (f := Fighter.life) hf'
    rw [s.map_life_apply hlives] at hmem
    obtain ⟨f, hf, hsame⟩ := List.mem_map.1 hmem
    simp only [Fighter.life, Prod.mk.injEq] at hsame
    exact .inl ⟨f, hf, hsame.1.symm, hsame.2.trans⟩
  · cases u with
    | hit targetId damage =>
      rcases mem_modifyFirst hf' with hmem | ⟨f, hf, rfl⟩
      · exact .inl ⟨f', hmem, rfl, id⟩
      · exact .inl ⟨f, List.mem_of_find?_eq_some hf, rfl, hit_isAlive⟩
    | summon casterId f =>
      rcases List.mem_append.1 hf' with hmem | hmem
      · exact .inl ⟨f', hmem, rfl, id⟩
      · exact .inr ⟨casterId, by rw [List.mem_singleton.1 hmem]⟩
    | _ => exact absurd rfl hlives

/-- The turn changes with `advanceTurn` only. -/
theorem currentFighterIndex_apply {u : Update} (hu : u ≠ .advanceTurn) :
    (s.apply u).currentFighterIndex = s.currentFighterIndex := by
  cases u with
  | advanceTurn => exact absurd rfl hu
  | _ => rfl

theorem shouldEnd_apply {u : Update} (hu : u.keepsLives = true) : (s.apply u).shouldEnd = s.shouldEnd :=
  shouldEnd_congr (s.map_life_apply hu)

end Fight

inductive Action where
  | receive (r : Request)
  | send (m : ServerMessage)
  | update (u : Update)
  | acceptCast (playerId spellId cellId : Int) (data : SpellData)
  | poison (sourceId targetId damage : Int)
  | autoAttack (attackerId targetId : Int)
  deriving DecidableEq

instance : Acts Fight Action where
  act s
    | .update u => s.apply u
    | _ => s

/-- The handlers of a fight. -/
abbrev FightProgram := Program Fight Action

def send (m : ServerMessage) : FightProgram Unit := Program.perform (.send m)

def update (u : Update) : FightProgram Unit := Program.perform (.update u)

section

variable (s : Fight)

@[simp] theorem act_receive (r : Request) : act s (Action.receive r) = s := rfl
@[simp] theorem act_send (m : ServerMessage) : act s (Action.send m) = s := rfl
@[simp] theorem act_update (u : Update) : act s (Action.update u) = s.apply u := rfl
@[simp] theorem act_acceptCast (playerId spellId cellId : Int) (data : SpellData) :
    act s (.acceptCast playerId spellId cellId data) = s := rfl
@[simp] theorem act_poison (sourceId targetId damage : Int) : act s (.poison sourceId targetId damage) = s := rfl
@[simp] theorem act_autoAttack (attackerId targetId : Int) : act s (.autoAttack attackerId targetId) = s := rfl

end

end Otomai.Combat
