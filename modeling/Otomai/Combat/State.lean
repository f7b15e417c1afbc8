import Mathlib.Data.List.Basic
import Otomai.Common.Grid
import Otomai.Combat.Effects

/-!
# The state of a fight

Fighters, with their life, points, buffs and states; the marks on the board; whose turn it is.  A fighter is found by
its id, and the current fighter by its index.
-/

namespace Otomai.Combat

open Machine Otomai.Common

/-! ### Stats -/

structure FighterStats where
  strength : Int := 0
  intelligence : Int := 0
  chance : Int := 0
  agility : Int := 0
  power : Int := 0
  neutralResistPercent : Int := 0
  earthResistPercent : Int := 0
  fireResistPercent : Int := 0
  waterResistPercent : Int := 0
  airResistPercent : Int := 0
  neutralResistFlat : Int := 0
  earthResistFlat : Int := 0
  fireResistFlat : Int := 0
  waterResistFlat : Int := 0
  airResistFlat : Int := 0
  criticalDamageBonus : Int := 0
  deriving DecidableEq, Repr

namespace FighterStats

variable (stats : FighterStats)

def statForElement : Element → Int
  | .neutral | .earth => stats.strength
  | .fire => stats.intelligence
  | .water => stats.chance
  | .air => stats.agility

def resistPercentForElement : Element → Int
  | .neutral => stats.neutralResistPercent
  | .earth => stats.earthResistPercent
  | .fire => stats.fireResistPercent
  | .water => stats.waterResistPercent
  | .air => stats.airResistPercent

def resistFlatForElement : Element → Int
  | .neutral => stats.neutralResistFlat
  | .earth => stats.earthResistFlat
  | .fire => stats.fireResistFlat
  | .water => stats.waterResistFlat
  | .air => stats.airResistFlat

end FighterStats

/-! ### Buffs -/

structure Buff where
  sourceId : Int
  effectType : EffectType
  value : Int
  remainingTurns : Int
  deriving DecidableEq, Repr

namespace Buff

variable (b : Buff)

def isShield : Bool := b.effectType = .shield

/-- What the buff adds to a stat. -/
def statBonus (stat : StatType) : Int :=
  if b.effectType = .boostStat stat then b.value else if b.effectType = .malusStat stat then -b.value else 0

/-- The element of a poison. -/
def poisonElement : Option Element :=
  match b.effectType with
  | .poison e => some e
  | _ => none

end Buff

/-- `BuffList`. -/
abbrev BuffList := List Buff

namespace BuffList

variable (buffs : BuffList)

/-- Drop the buffs that expire and count the others down. -/
def tick : BuffList :=
  (buffs.filter fun b => 1 < b.remainingTurns).map fun b => { b with remainingTurns := b.remainingTurns - 1 }

def activePoisons : BuffList := buffs.filter fun b => b.poisonElement.isSome

def statBonus (stat : StatType) : Int := wrap16 (buffs.map fun b => b.statBonus stat).sum

def shieldPoints : Int := wrap32 ((buffs.filter Buff.isShield).map Buff.value).sum

/-- The loop of `absorb_shield`: each shield takes what is left of the damage, up to its value. -/
def absorbLoop : BuffList → Int → BuffList × Int
  | [], remaining => ([], remaining)
  | b :: bs, remaining =>
    if b.isShield ∧ 0 < remaining then
      let absorbed := min remaining b.value
      let rest := absorbLoop bs (wrap32 (remaining - absorbed))
      ({ b with value := wrap32 (b.value - absorbed) } :: rest.1, rest.2)
    else
      let rest := absorbLoop bs remaining
      (b :: rest.1, rest.2)

/-- The damage that is left after the shields. -/
def absorbShield (damage : Int) : Int := (absorbLoop buffs damage).2

/-- The buffs after the shields have absorbed; depleted shields are removed. -/
def afterShield (damage : Int) : BuffList :=
  (absorbLoop buffs damage).1.filter fun b => !b.isShield || 0 < b.value

end BuffList

/-! ### Fighters -/

structure Fighter where
  id : Int
  level : Int
  cellId : Int
  team : Team
  lifePoints : Int
  maxLifePoints : Int
  shieldPoints : Int
  actionPoints : Int
  maxActionPoints : Int
  movementPoints : Int
  maxMovementPoints : Int
  isPlayer : Bool
  isAlive : Bool
  monsterId : Int
  stats : FighterStats
  buffs : BuffList
  invisible : Bool
  states : List Int
  spellCastsThisTurn : List (Int × Int)
  deriving DecidableEq, Repr

namespace Fighter

variable (f : Fighter)

/-- What a fighter is throughout a fight. -/
def identity : Int × Team × Bool := (f.id, f.team, f.isPlayer)

/-- Who the fighter is, and whether it is alive. -/
def life : (Int × Team × Bool) × Bool := (f.identity, f.isAlive)

/-- Who the fighter is, where it stands and whether it is alive. -/
def standing : (Int × Team × Bool) × Int × Bool := (f.identity, f.cellId, f.isAlive)

def isRooted : Bool := f.states.contains 1

def hasGravity : Bool := f.states.contains 2

def isInvulnerable : Bool := f.states.contains 3

/-- How often the fighter has cast a spell in this turn. -/
def castCount (spellId : Int) : Int := (f.spellCastsThisTurn.lookup spellId).getD 0

def resetTurn : Fighter :=
  { f with
    actionPoints := wrap16 (f.maxActionPoints + f.buffs.statBonus .ap)
    movementPoints := wrap16 (f.maxMovementPoints + f.buffs.statBonus .mp)
    spellCastsThisTurn := [] }

/-- Pay for a spell and count it; an invisible fighter is revealed. -/
def payCast (spellId apCost : Int) : Fighter :=
  { f with
    actionPoints := wrap16 (f.actionPoints - apCost)
    spellCastsThisTurn :=
      (spellId, wrap16 (f.castCount spellId + 1)) :: f.spellCastsThisTurn.filter fun entry => entry.1 ≠ spellId
    invisible := false }

/-- The writes of `apply_damage`. -/
def hit (damage : Int) : Fighter :=
  let lifePoints := max (wrap32 (f.lifePoints - f.buffs.absorbShield damage)) 0
  { f with
    buffs := f.buffs.afterShield damage
    shieldPoints := BuffList.shieldPoints (f.buffs.afterShield damage)
    lifePoints := lifePoints
    isAlive := if lifePoints = 0 then false else f.isAlive }

/-- What a heal restores. -/
def actualHeal (heal : Int) : Int := max (min heal (wrap32 (f.maxLifePoints - f.lifePoints))) 0

def heal (heal : Int) : Fighter := { f with lifePoints := wrap32 (f.lifePoints + f.actualHeal heal) }

end Fighter

/-! ### Marks -/

inductive MarkType where
  | glyph | trap
  deriving DecidableEq, Repr

structure Mark where
  id : Nat
  markType : MarkType
  casterId : Int
  zoneCells : List Int
  effects : List SpellEffect
  remainingTurns : Int
  deriving DecidableEq, Repr

/-! ### Fights -/

/-- A fight.  The ids of marks and summons are drawn from counters that all fights share; `nextMarkId` is the counter
of the marks without its overflow. -/
structure Fight where
  mapId : Int
  phase : FightPhase
  fighters : List Fighter
  currentFighterIndex : Nat
  round : Int
  challengerPositions : List Int
  defenderPositions : List Int
  marks : List Mark
  nextMarkId : Nat
  nextSummonId : Int
  deriving DecidableEq, Repr

/-- Change the first element that satisfies `p`. -/
def modifyFirst {α : Type} (p : α → Bool) (g : α → α) : List α → List α
  | [] => []
  | a :: l => if p a then g a :: l else a :: modifyFirst p g l

section

variable {α β : Type} {p : α → Bool} {g : α → α} {l : List α}

theorem find?_modifyFirst (hg : ∀ a, p (g a) = p a) : (modifyFirst p g l).find? p = (l.find? p).map g := by
  induction l with
  | nil => rfl
  | cons a l ih =>
    cases ha : p a <;> simp [modifyFirst, ha, hg, ih]

/-- Whoever is not changed is still found. -/
theorem find?_modifyFirst_of_not {q : α → Bool} (hq : ∀ a, p a = true → q a = false ∧ q (g a) = false) :
    (modifyFirst p g l).find? q = l.find? q := by
  induction l with
  | nil => rfl
  | cons a l ih =>
    cases ha : p a with
    | true => simp [modifyFirst, ha, hq a ha]
    | false => simp [modifyFirst, ha, List.find?_cons, ih]

theorem map_modifyFirst {k : α → β} (hg : ∀ a, k (g a) = k a) : (modifyFirst p g l).map k = l.map k := by
  induction l with
  | nil => rfl
  | cons a l ih =>
    cases ha : p a <;> simp [modifyFirst, ha, hg, ih]

theorem mem_modifyFirst {b : α} (h : b ∈ modifyFirst p g l) :
    b ∈ l ∨ ∃ a, l.find? p = some a ∧ b = g a := by
  induction l with
  | nil => cases h
  | cons a l ih =>
    cases ha : p a with
    | true =>
      simp only [modifyFirst, ha, if_true, List.mem_cons] at h
      rcases h with rfl | h
      · exact .inr ⟨a, by simp [ha], rfl⟩
      · exact .inl (List.mem_cons_of_mem a h)
    | false =>
      simp only [modifyFirst, ha, Bool.false_eq_true, if_false, List.mem_cons] at h
      rcases h with rfl | h
      · exact .inl List.mem_cons_self
      · rcases ih h with h | ⟨c, hc, rfl⟩
        · exact .inl (List.mem_cons_of_mem a h)
        · exact .inr ⟨c, by simp [ha, hc], rfl⟩

/-- Two changes of the first element, one after the other. -/
theorem modifyFirst_modifyFirst {g' : α → α} (hg : ∀ a, p (g a) = p a) :
    modifyFirst p g' (modifyFirst p g l) = modifyFirst p (fun a => g' (g a)) l := by
  induction l with
  | nil => rfl
  | cons a l ih =>
    cases ha : p a <;> simp [modifyFirst, ha, hg, ih]

theorem mem_modify {i : Nat} {b : α} (h : b ∈ l.modify i g) : b ∈ l ∨ ∃ a, l[i]? = some a ∧ b = g a := by
  obtain ⟨j, hj⟩ := List.mem_iff_getElem?.1 h
  rw [List.getElem?_modify] at hj
  obtain ⟨a, ha, hb⟩ := Option.map_eq_some_iff.1 hj
  split at hb
  · rename_i hij
    exact .inr ⟨a, hij ▸ ha, hb.symm⟩
  · exact .inl (hb ▸ List.mem_of_getElem? ha)

theorem map_modify {k : α → β} {i : Nat} (hg : ∀ a, k (g a) = k a) : (l.modify i g).map k = l.map k := by
  refine List.ext_getElem? fun j => ?_
  rw [List.getElem?_map, List.getElem?_map, List.getElem?_modify]
  cases l[j]? with
  | none => rfl
  | some a =>
    by_cases hij : i = j
    · simp [hij, hg]
    · simp [hij]

end

namespace Fight

variable (s : Fight)

def currentFighter : Option Fighter := s.fighters[s.currentFighterIndex]?

/-- The counter has 32 bits. -/
def drawnMarkId : Nat := s.nextMarkId % 2 ^ 32

/-- Change the fighter whose turn it is. -/
def modifyCurrent (g : Fighter → Fighter) : Fight :=
  { s with fighters := s.fighters.modify s.currentFighterIndex g }

def getFighter (id : Int) : Option Fighter := s.fighters.find? (·.id = id)

/-- Change the fighter of an id. -/
def modifyFighter (id : Int) (g : Fighter → Fighter) : Fight :=
  { s with fighters := modifyFirst (·.id = id) g s.fighters }

def fighterOnCell (cellId : Int) : Option Fighter := s.fighters.find? fun f => f.cellId = cellId ∧ f.isAlive

def isTeamDead (team : Team) : Bool := (s.fighters.filter (·.team = team)).all (!·.isAlive)

def shouldEnd : Bool := s.isTeamDead .challengers || s.isTeamDead .defenders

def challengersWon : Bool := s.isTeamDead .defenders

def turnOrder : List Int := (s.fighters.filter (·.isAlive)).map Fighter.id

def deadIds : List Int := (s.fighters.filter (!·.isAlive)).map Fighter.id

/-- The index of the next fighter that is alive, from the one after the current fighter round to the current one. -/
def nextAlive : Option Nat :=
  ((List.range s.fighters.length).map fun i => (s.currentFighterIndex + (i + 1)) % s.fighters.length).find?
    fun idx => s.fighters[idx]?.any (·.isAlive)

/-- Whether the next turn starts a new round. -/
def startsNewRound : Bool := s.nextAlive.any (· ≤ s.currentFighterIndex)

def advanceTurn : Fight :=
  match s.nextAlive with
  | some idx =>
    { s with
      currentFighterIndex := idx
      round := if idx ≤ s.currentFighterIndex then wrap32 (s.round + 1) else s.round }
  | none => s

/-- Count the marks down. -/
def tickMarks : List Mark :=
  (s.marks.filter fun m => 1 < m.remainingTurns).map fun m => { m with remainingTurns := m.remainingTurns - 1 }

def trapsOnCell (cellId : Int) : List Nat :=
  (s.marks.filter fun m => m.markType = .trap ∧ m.zoneCells.contains cellId).map Mark.id

def glyphsByCaster (casterId : Int) : List Nat :=
  (s.marks.filter fun m => m.markType = .glyph ∧ m.casterId = casterId).map Mark.id

theorem map_modifyFighter {β : Type} {k : Fighter → β} {g : Fighter → Fighter} (hg : ∀ f, k (g f) = k f) (id : Int) :
    (s.modifyFighter id g).fighters.map k = s.fighters.map k :=
  map_modifyFirst hg

theorem map_modifyCurrent {β : Type} {k : Fighter → β} {g : Fighter → Fighter} (hg : ∀ f, k (g f) = k f) :
    (s.modifyCurrent g).fighters.map k = s.fighters.map k :=
  map_modify hg

theorem getFighter_modifyFighter {g : Fighter → Fighter} (hg : ∀ f, (g f).id = f.id) (id : Int) :
    (s.modifyFighter id g).getFighter id = (s.getFighter id).map g :=
  find?_modifyFirst fun f => by rw [hg f]

theorem getFighter_modifyFighter_of_ne {g : Fighter → Fighter} (hg : ∀ f, (g f).id = f.id) {id id' : Int}
    (hne : id' ≠ id) : (s.modifyFighter id g).getFighter id' = s.getFighter id' := by
  refine find?_modifyFirst_of_not fun f hf => ?_
  obtain rfl : f.id = id := by simpa using hf
  have hnot : f.id ≠ id' := fun h => hne h.symm
  simp [hg f, hnot]

theorem currentFighter_modifyCurrent (g : Fighter → Fighter) :
    (s.modifyCurrent g).currentFighter = s.currentFighter.map g :=
  List.getElem?_modify_eq ..

theorem isTeamDead_iff {team : Team} :
    s.isTeamDead team = true ↔ ∀ f ∈ s.fighters, f.team = team → f.isAlive = false := by
  rw [isTeamDead, List.all_eq_true]
  simp only [List.mem_filter, decide_eq_true_eq, and_imp, Bool.not_eq_true']

theorem shouldEnd_iff : s.shouldEnd = true ↔ ∃ team, s.isTeamDead team = true := by
  rw [shouldEnd, Bool.or_eq_true]
  constructor
  · rintro (h | h)
    · exact ⟨_, h⟩
    · exact ⟨_, h⟩
  · rintro ⟨team, h⟩
    cases team
    · exact .inl h
    · exact .inr h

/-- A team stays dead if nobody of it comes to life. -/
theorem shouldEnd_of_alive {s s' : Fight}
    (h : ∀ f' ∈ s'.fighters, f'.isAlive = true → ∃ f ∈ s.fighters, f.team = f'.team ∧ f.isAlive = true)
    (hend : s.shouldEnd = true) : s'.shouldEnd = true := by
  obtain ⟨team, hteam⟩ := s.shouldEnd_iff.1 hend
  refine s'.shouldEnd_iff.2 ⟨team, s'.isTeamDead_iff.2 fun f' hf' hteam' => ?_⟩
  refine Bool.eq_false_iff.2 fun halive => ?_
  obtain ⟨f, hf, hsame, hfalive⟩ := h f' hf' halive
  have hdead := s.isTeamDead_iff.1 hteam f hf (hsame.trans hteam')
  rw [hdead] at hfalive
  cases hfalive

/-- Whether the fight should end depends on who is alive in each team. -/
theorem isTeamDead_congr {s s' : Fight} (h : s'.fighters.map Fighter.life = s.fighters.map Fighter.life)
    (team : Team) :
    s'.isTeamDead team = s.isTeamDead team := by
  have hmap (s : Fight) :
      s.isTeamDead team = ((s.fighters.map Fighter.life).filter fun p => p.1.2.1 = team).all fun p => !p.2 := by
    rw [List.filter_map, List.all_map]
    rfl
  rw [hmap s', hmap s, h]

theorem shouldEnd_congr {s s' : Fight} (h : s'.fighters.map Fighter.life = s.fighters.map Fighter.life) :
    s'.shouldEnd = s.shouldEnd := by
  rw [shouldEnd, isTeamDead_congr h, isTeamDead_congr h, shouldEnd]

def findMark (id : Nat) : Option Mark := s.marks.find? (·.id = id)

end Fight

end Otomai.Combat
