import Otomai.Common.Machine

/-!
# Spells and their effects

`classify` says what an effect action id does.  The table has the arms of the source, in their order; the first one
that lists the id applies.
-/

namespace Otomai.Combat

open Machine

inductive FightPhase where
  | placement | fighting | ended
  deriving DecidableEq, Repr

inductive Team where
  | challengers | defenders
  deriving DecidableEq, Repr

inductive Element where
  | neutral | earth | fire | water | air
  deriving DecidableEq, Repr

inductive StatType where
  | strength | intelligence | chance | agility | ap | mp | range | damage | power | critical
  deriving DecidableEq, Repr

/-- What an effect does. -/
inductive EffectType where
  | damage (e : Element)
  | lifeSteal (e : Element)
  | heal
  | healPercent
  | boostStat (s : StatType)
  | malusStat (s : StatType)
  | shield
  | shieldPercent
  | poison (e : Element)
  | push
  | pull
  | teleport
  | exchangePositions
  | invisibility
  | placeGlyph
  | placeTrap
  | damageReflect
  | damageAbsorbPercent
  | damageReduction
  | damageModifier
  | triggeredDamage
  | summon
  | selfDamage
  | addState
  | removeState
  | spellModification
  | stackingLimit
  | portal
  | bombCast
  | unknown
  deriving DecidableEq, Repr

open EffectType in
def classification : List (List Int × EffectType) := [
  ([95, 100], damage .neutral), ([96, 92], damage .earth), ([97, 99], damage .fire), ([91, 98], damage .water),
  ([93, 94], damage .air),
  ([1092], lifeSteal .neutral), ([1093], lifeSteal .earth), ([1094], lifeSteal .fire), ([1091], lifeSteal .water),
  ([1095], lifeSteal .air),
  ([108], heal), ([143], healPercent),
  ([118], boostStat .strength), ([126], boostStat .intelligence), ([123], boostStat .chance),
  ([119], boostStat .agility), ([111], boostStat .ap), ([128], boostStat .mp), ([117], boostStat .range),
  ([112], boostStat .damage), ([138], boostStat .power), ([115], boostStat .critical),
  ([157], malusStat .strength), ([155], malusStat .intelligence), ([154], malusStat .chance),
  ([153], malusStat .agility), ([101], malusStat .ap), ([127], malusStat .mp), ([116], malusStat .range),
  ([1040], shield), ([1041], shieldPercent),
  ([131], poison .neutral), ([132], poison .earth), ([133], poison .fire), ([130], poison .water),
  ([134], poison .air),
  ([107], damageReflect), ([220], damageAbsorbPercent), ([265], damageReduction), ([792, 793], damageModifier),
  ([1163, 1164], triggeredDamage), ([1223, 1123], damageModifier),
  ([181], summon), ([90], selfDamage),
  ([950], addState), ([952], removeState), ([780, 782, 783, 1027, 1181], addState),
  ([283, 293], spellModification), ([1061], stackingLimit),
  ([1009], portal), ([1008], bombCast), ([1097, 2023], damageModifier),
  ([5], push), ([6], pull), ([4, 1100], teleport), ([8], exchangePositions), ([150], invisibility),
  ([401, 402], placeGlyph), ([400], placeTrap)]

def classify (effectId : Int) : EffectType :=
  ((classification.find? fun arm => arm.1.contains effectId).map Prod.snd).getD .unknown

structure SpellEffect where
  effectId : Int
  diceNum : Int
  diceSide : Int
  duration : Int
  element : Element
  deriving DecidableEq, Repr

namespace SpellEffect

variable (e : SpellEffect)

def minDamage : Int := e.diceNum

def maxDamage : Int := if e.diceSide > 0 then wrap32 (e.diceNum * e.diceSide) else e.diceNum

/-- `(min_damage + max_damage) / 2`. -/
def meanDamage : Int := (wrap32 (e.minDamage + e.maxDamage)).tdiv 2

end SpellEffect

/-- What is loaded of a spell. -/
structure SpellData where
  apCost : Int
  minRange : Int
  range : Int
  castInLine : Bool
  castInDiagonal : Bool
  castTestLos : Bool
  maxCastPerTurn : Int
  maxCastPerTarget : Int
  needFreeCell : Bool
  needTakenCell : Bool
  criticalHitProbability : Int
  effects : List SpellEffect
  criticalEffects : List SpellEffect
  deriving DecidableEq, Repr

/-- The spell that is cast when none can be loaded: 3 AP, 10 damage. -/
def SpellData.fallback : SpellData where
  apCost := 3
  minRange := 1
  range := 6
  castInLine := false
  castInDiagonal := false
  castTestLos := false
  maxCastPerTurn := 0
  maxCastPerTarget := 0
  needFreeCell := false
  needTakenCell := false
  criticalHitProbability := 0
  effects := [{ effectId := 96, diceNum := 5, diceSide := 8, duration := 0, element := .earth }]
  criticalEffects := []

end Otomai.Combat
