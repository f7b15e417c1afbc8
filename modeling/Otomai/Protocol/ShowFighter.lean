import Otomai.Combat.State
import Otomai.Protocol.Types

/-!
# Fighters in packets

A fighter is shown by a packet that is written by hand, in one way for a player and for a monster and once more for a
summon.  The client reads it with the generated codec of the type that the packet starts with.

* `writeMinimalStats_eq`: the block of statistics is what the codec writes.
* `readPlace_unknown`: the position in the middle of the packet has a type id that the codec does not know.
* `shown_never`: so no fighter comes back.
-/

namespace Otomai.Protocol

open Wire BigEndianReader BigEndianWriter

/-! ### Statistics -/

structure GameFightMinimalStats where
  (lifePoints maxLifePoints baseMaxLifePoints permanentDamagePercent shieldPoints : Int32)
  (actionPoints maxActionPoints movementPoints maxMovementPoints : Int16)
  summoner : UInt64
  summoned : Bool
  (neutralElementResistPercent earthElementResistPercent waterElementResistPercent : Int16)
  (airElementResistPercent fireElementResistPercent neutralElementReduction earthElementReduction : Int16)
  (waterElementReduction airElementReduction fireElementReduction criticalDamageFixedResist : Int16)
  (pushDamageFixedResist pvpNeutralElementResistPercent pvpEarthElementResistPercent : Int16)
  (pvpWaterElementResistPercent pvpAirElementResistPercent pvpFireElementResistPercent : Int16)
  (pvpNeutralElementReduction pvpEarthElementReduction pvpWaterElementReduction pvpAirElementReduction : Int16)
  (pvpFireElementReduction dodgePALostProbability dodgePMLostProbability tackleBlock tackleEvade : Int16)
  fixedDamageReflection : Int16
  invisibilityState : UInt8
  (meleeDamageReceivedPercent rangedDamageReceivedPercent weaponDamageReceivedPercent : Int16)
  spellDamageReceivedPercent : Int16
  deriving DecidableEq, Repr

structure GameFightMinimalStatsPreparation extends GameFightMinimalStats where
  initiative : Int32
  deriving DecidableEq, Repr

namespace GameFightMinimalStats

def serialize (v : GameFightMinimalStats) : List UInt8 :=
  [writeVarInt v.lifePoints, writeVarInt v.maxLifePoints, writeVarInt v.baseMaxLifePoints,
    writeVarInt v.permanentDamagePercent, writeVarInt v.shieldPoints, writeVarShort v.actionPoints,
    writeVarShort v.maxActionPoints, writeVarShort v.movementPoints, writeVarShort v.maxMovementPoints,
    writeDouble v.summoner, writeBoolean v.summoned, writeVarShort v.neutralElementResistPercent,
    writeVarShort v.earthElementResistPercent, writeVarShort v.waterElementResistPercent,
    writeVarShort v.airElementResistPercent, writeVarShort v.fireElementResistPercent,
    writeVarShort v.neutralElementReduction, writeVarShort v.earthElementReduction,
    writeVarShort v.waterElementReduction, writeVarShort v.airElementReduction,
    writeVarShort v.fireElementReduction, writeVarShort v.criticalDamageFixedResist,
    writeVarShort v.pushDamageFixedResist, writeVarShort v.pvpNeutralElementResistPercent,
    writeVarShort v.pvpEarthElementResistPercent, writeVarShort v.pvpWaterElementResistPercent,
    writeVarShort v.pvpAirElementResistPercent, writeVarShort v.pvpFireElementResistPercent,
    writeVarShort v.pvpNeutralElementReduction, writeVarShort v.pvpEarthElementReduction,
    writeVarShort v.pvpWaterElementReduction, writeVarShort v.pvpAirElementReduction,
    writeVarShort v.pvpFireElementReduction, writeVarShort v.dodgePALostProbability,
    writeVarShort v.dodgePMLostProbability, writeVarShort v.tackleBlock, writeVarShort v.tackleEvade,
    writeVarShort v.fixedDamageReflection, writeByte v.invisibilityState,
    writeVarShort v.meleeDamageReceivedPercent, writeVarShort v.rangedDamageReceivedPercent,
    writeVarShort v.weaponDamageReceivedPercent, writeVarShort v.spellDamageReceivedPercent].flatten

def deserialize : BigEndianReader GameFightMinimalStats := do
  let lifePoints ← readVarInt
  let maxLifePoints ← readVarInt
  let baseMaxLifePoints ← readVarInt
  let permanentDamagePercent ← readVarInt
  let shieldPoints ← readVarInt
  let actionPoints ← readVarShort
  let maxActionPoints ← readVarShort
  let movementPoints ← readVarShort
  let maxMovementPoints ← readVarShort
  let summoner ← readDouble
  let summoned ← readBoolean
  let neutralElementResistPercent ← readVarShort
  let earthElementResistPercent ← readVarShort
  let waterElementResistPercent ← readVarShort
  let airElementResistPercent ← readVarShort
  let fireElementResistPercent ← readVarShort
  let neutralElementReduction ← readVarShort
  let earthElementReduction ← readVarShort
  let waterElementReduction ← readVarShort
  let airElementReduction ← readVarShort
  let fireElementReduction ← readVarShort
  let criticalDamageFixedResist ← readVarShort
  let pushDamageFixedResist ← readVarShort
  let pvpNeutralElementResistPercent ← readVarShort
  let pvpEarthElementResistPercent ← readVarShort
  let pvpWaterElementResistPercent ← readVarShort
  let pvpAirElementResistPercent ← readVarShort
  let pvpFireElementResistPercent ← readVarShort
  let pvpNeutralElementReduction ← readVarShort
  let pvpEarthElementReduction ← readVarShort
  let pvpWaterElementReduction ← readVarShort
  let pvpAirElementReduction ← readVarShort
  let pvpFireElementReduction ← readVarShort
  let dodgePALostProbability ← readVarShort
  let dodgePMLostProbability ← readVarShort
  let tackleBlock ← readVarShort
  let tackleEvade ← readVarShort
  let fixedDamageReflection ← readVarShort
  let invisibilityState ← readByte
  let meleeDamageReceivedPercent ← readVarShort
  let rangedDamageReceivedPercent ← readVarShort
  let weaponDamageReceivedPercent ← readVarShort
  let spellDamageReceivedPercent ← readVarShort
  pure { lifePoints, maxLifePoints, baseMaxLifePoints, permanentDamagePercent, shieldPoints, actionPoints,
         maxActionPoints, movementPoints, maxMovementPoints, summoner, summoned, neutralElementResistPercent,
         earthElementResistPercent, waterElementResistPercent, airElementResistPercent, fireElementResistPercent,
         neutralElementReduction, earthElementReduction, waterElementReduction, airElementReduction,
         fireElementReduction, criticalDamageFixedResist, pushDamageFixedResist, pvpNeutralElementResistPercent,
         pvpEarthElementResistPercent, pvpWaterElementResistPercent, pvpAirElementResistPercent,
         pvpFireElementResistPercent, pvpNeutralElementReduction, pvpEarthElementReduction, pvpWaterElementReduction,
         pvpAirElementReduction, pvpFireElementReduction, dodgePALostProbability, dodgePMLostProbability, tackleBlock,
         tackleEvade, fixedDamageReflection, invisibilityState, meleeDamageReceivedPercent,
         rangedDamageReceivedPercent, weaponDamageReceivedPercent, spellDamageReceivedPercent }

end GameFightMinimalStats

inductive GameFightMinimalStatsVariant where
  | gameFightMinimalStats (v : GameFightMinimalStats)
  | gameFightMinimalStatsPreparation (v : GameFightMinimalStatsPreparation)
  deriving DecidableEq, Repr

namespace GameFightMinimalStatsVariant

def deserializeWithId (typeId : UInt16) : BigEndianReader GameFightMinimalStatsVariant :=
  if typeId = 8253 then gameFightMinimalStats <$> GameFightMinimalStats.deserialize
  else if typeId = 9464 then do
    let v ← GameFightMinimalStats.deserialize
    let initiative ← readVarInt
    pure (gameFightMinimalStatsPreparation { v with initiative })
  else Wire.Reader.fail (.unknownTypeId "GameFightMinimalStats" typeId)

def read : BigEndianReader GameFightMinimalStatsVariant := do
  let typeId ← readUshort
  deserializeWithId typeId

end GameFightMinimalStatsVariant

/-! ### Positions -/

/-- The type ids of `GameContextActorPositionInformationsVariant`. -/
def positionTypeIds : List UInt16 :=
  [9244, 424, 2333, 7, 3424, 4648, 7041, 5073, 5940, 1204, 2640, 5268, 8271, 4944, 6138, 8307, 5968, 8400,
    950, 6096, 1318,
    6975, 6665, 4633, 7807, 9631]

section

variable {Position : Type} (arms : UInt16 → BigEndianReader Position)

/-- `deserialize_with_id`: the arm of a type id that is known reads its type. -/
def deserializePosition (typeId : UInt16) : BigEndianReader Position :=
  if typeId ∈ positionTypeIds then arms typeId
  else Wire.Reader.fail (.unknownTypeId "GameContextActorPositionInformations" typeId)

structure GameContextBasicSpawnInformation (Position : Type) where
  teamId : UInt8
  alive : Bool
  informations : Position

def GameContextBasicSpawnInformation.deserialize : BigEndianReader (GameContextBasicSpawnInformation Position) := do
  let teamId ← readByte
  let alive ← readBoolean
  let typeId ← readUshort
  let informations ← deserializePosition arms typeId
  pure { teamId, alive, informations }

/-! ### Fighters -/

/-- What the types of fighters start with. -/
structure FightFighter (Position : Type) where
  contextualId : UInt64
  disposition : EntityDispositionInformationsVariant
  look : EntityLook
  spawnInfo : GameContextBasicSpawnInformation Position
  wave : UInt8
  stats : GameFightMinimalStatsVariant
  previousPositions : List Int16

def FightFighter.deserialize (n : Nat) : BigEndianReader (FightFighter Position) := do
  let contextualId ← readDouble
  let disposition ← EntityDispositionInformationsVariant.read
  let look ← EntityLook.deserialize n
  let spawnInfo ← GameContextBasicSpawnInformation.deserialize arms
  let wave ← readByte
  let stats ← GameFightMinimalStatsVariant.read
  let previousPositions ← readVec readVarShort
  pure { contextualId, disposition, look, spawnInfo, wave, stats, previousPositions }

structure GameFightCharacterInformations (Position : Type) extends FightFighter Position where
  name : String
  statusId : UInt8
  leagueId : Int16
  ladderPosition : Int32
  hiddenInPrefight : Bool
  level : Int16
  alignmentInfos : ActorAlignmentInformations
  breed : UInt8
  sex : Bool

def GameFightCharacterInformations.deserialize (n : Nat) :
    BigEndianReader (GameFightCharacterInformations Position) := do
  let fighter ← FightFighter.deserialize arms n
  let name ← readUtf
  let statusId ← readByte
  let leagueId ← readVarShort
  let ladderPosition ← readInt
  let hiddenInPrefight ← readBoolean
  let level ← readVarShort
  let alignmentInfos ← ActorAlignmentInformations.deserialize
  let breed ← readByte
  let sex ← readBoolean
  pure
    { fighter with
      name, statusId, leagueId, ladderPosition, hiddenInPrefight, level, alignmentInfos, breed, sex }

structure GameFightMonsterInformations (Position : Type) extends FightFighter Position where
  creatureGenericId : Int16
  creatureGrade : UInt8
  creatureLevel : Int16

/-- The level is a number of two bytes. -/
def GameFightMonsterInformations.deserialize (n : Nat) : BigEndianReader (GameFightMonsterInformations Position) := do
  let fighter ← FightFighter.deserialize arms n
  let creatureGenericId ← readVarShort
  let creatureGrade ← readByte
  let creatureLevel ← readShort
  pure { fighter with creatureGenericId, creatureGrade, creatureLevel }

end

/-! ### Packets -/

/-- A fighter, as far as it is shown; the id is a double. -/
structure Fighter where
  id : UInt64
  name : String
  level : Int16
  breed : UInt8
  look : EntityLook
  cellId : Int16
  direction : UInt8
  team : Combat.Team
  lifePoints : Int32
  maxLifePoints : Int32
  actionPoints : Int16
  maxActionPoints : Int16
  movementPoints : Int16
  maxMovementPoints : Int16
  isPlayer : Bool
  isAlive : Bool
  monsterId : Int32
  monsterGrade : UInt8

def teamByte : Combat.Team → UInt8
  | .challengers => 0
  | .defenders => 1

def writeMinimalStats (f : Fighter) : List UInt8 :=
  writeVarInt f.lifePoints ++ writeVarInt f.maxLifePoints ++ writeVarInt f.maxLifePoints ++ writeVarInt
    0 ++ writeVarInt 0 ++
    writeVarShort f.actionPoints ++ writeVarShort f.maxActionPoints ++ writeVarShort f.movementPoints ++
    writeVarShort f.maxMovementPoints ++ writeDouble 0 ++ writeBoolean false ++
    (List.replicate 10 (writeVarShort 0)).flatten ++ writeVarShort 0 ++ writeVarShort 0 ++
    (List.replicate 10 (writeVarShort 0)).flatten ++ writeVarShort 0 ++ writeVarShort 0 ++ writeVarShort 0 ++
    writeVarShort 0 ++ writeVarShort 0 ++ writeByte 0 ++ writeVarShort 0 ++ writeVarShort 0 ++ writeVarShort 0 ++
    writeVarShort 0

/-- What both packets write behind the type id; a summon is always told to be alive. -/
def writePlace (f : Fighter) (alive : Bool) : List UInt8 :=
  writeDouble f.id ++ (writeUshort 7114 ++ (writeShort f.cellId ++ writeByte f.direction)) ++ f.look.serialize ++
    writeByte (teamByte f.team) ++ writeBoolean alive ++ writeUshort 6271 ++ writeDouble f.id ++ writeUshort 7114 ++
    writeShort f.cellId ++ writeByte f.direction ++ f.look.serialize ++ writeByte 0 ++ writeUshort 8253 ++
    writeMinimalStats f ++ writeShort 0

/-- The payload of `send_show_fighter` behind its type id, which is 7807 for a player and 6096 for a monster. -/
def sendShowFighter (f : Fighter) : List UInt8 :=
  writePlace f f.isAlive ++
    if f.isPlayer then
      writeUtf f.name ++ writeByte 0 ++ writeVarShort 0 ++ writeInt 0 ++ writeBoolean
        false ++ writeVarShort f.level ++
        writeByte 0 ++ writeByte 0 ++ writeByte 0 ++ writeDouble 0 ++ writeByte f.breed ++ writeBoolean false
    else writeVarShort f.monsterId.toInt16 ++ writeByte f.monsterGrade ++ writeVarShort f.level

/-- The payload of `summon_creature` behind its type id 6096. -/
def summonCreature (f : Fighter) : List UInt8 :=
  writePlace f true ++ writeVarShort f.monsterId.toInt16 ++ writeByte f.monsterGrade ++ writeVarShort f.level

/-! ### What comes back -/

def minimalStats (f : Fighter) : GameFightMinimalStats where
  lifePoints := f.lifePoints
  maxLifePoints := f.maxLifePoints
  baseMaxLifePoints := f.maxLifePoints
  permanentDamagePercent := 0
  shieldPoints := 0
  actionPoints := f.actionPoints
  maxActionPoints := f.maxActionPoints
  movementPoints := f.movementPoints
  maxMovementPoints := f.maxMovementPoints
  summoner := 0
  summoned := false
  neutralElementResistPercent := 0
  earthElementResistPercent := 0
  waterElementResistPercent := 0
  airElementResistPercent := 0
  fireElementResistPercent := 0
  neutralElementReduction := 0
  earthElementReduction := 0
  waterElementReduction := 0
  airElementReduction := 0
  fireElementReduction := 0
  criticalDamageFixedResist := 0
  pushDamageFixedResist := 0
  pvpNeutralElementResistPercent := 0
  pvpEarthElementResistPercent := 0
  pvpWaterElementResistPercent := 0
  pvpAirElementResistPercent := 0
  pvpFireElementResistPercent := 0
  pvpNeutralElementReduction := 0
  pvpEarthElementReduction := 0
  pvpWaterElementReduction := 0
  pvpAirElementReduction := 0
  pvpFireElementReduction := 0
  dodgePALostProbability := 0
  dodgePMLostProbability := 0
  tackleBlock := 0
  tackleEvade := 0
  fixedDamageReflection := 0
  invisibilityState := 0
  meleeDamageReceivedPercent := 0
  rangedDamageReceivedPercent := 0
  weaponDamageReceivedPercent := 0
  spellDamageReceivedPercent := 0

private theorem flatten_replicate_ten {α : Type} (w : List α) :
    (List.replicate 10 w).flatten = w ++ (w ++ (w ++ (w ++ (w ++ (w ++ (w ++ (w ++ (w ++ w)))))))) := by
  simp only [List.replicate_succ, List.replicate_zero, List.flatten_cons, List.flatten_nil, List.append_nil]

theorem writeMinimalStats_eq (f : Fighter) : writeMinimalStats f = (minimalStats f).serialize := by
  unfold writeMinimalStats GameFightMinimalStats.serialize minimalStats
  generalize writeVarShort 0 = zero
  simp only [flatten_replicate_ten, List.flatten_cons, List.flatten_nil, List.append_assoc, List.append_nil]

section

variable {Position : Type} (arms : UInt16 → BigEndianReader Position) {f : Fighter} {n : Nat}

/-- What is read is the fighter. -/
structure FightFighter.Shows (v : FightFighter Position) (f : Fighter) : Prop where
  id : v.contextualId = f.id
  disposition : v.disposition = .entityDispositionInformations { cellId := f.cellId, direction := f.direction }
  team : v.spawnInfo.teamId = teamByte f.team
  alive : v.spawnInfo.alive = f.isAlive
  stats : v.stats = .gameFightMinimalStats (minimalStats f)

/-- The packet of a fighter comes back as the fighter. -/
def ComesBack (f : Fighter) : Prop :=
  if f.isPlayer then
    ∃ v, (GameFightCharacterInformations.deserialize arms (sendShowFighter f).length).decode
      (sendShowFighter f) = some v ∧
      v.toFightFighter.Shows f ∧ v.name = f.name ∧ v.level = f.level
  else
    ∃ v, (GameFightMonsterInformations.deserialize arms (sendShowFighter f).length).decode
      (sendShowFighter f) = some v ∧
      v.toFightFighter.Shows f ∧ v.creatureGenericId = f.monsterId.toInt16 ∧ v.creatureGrade = f.monsterGrade ∧
        v.creatureLevel = f.level

def SummonComesBack (f : Fighter) : Prop :=
  ∃ v, (GameFightMonsterInformations.deserialize arms (summonCreature f).length).decode (summonCreature f) = some v ∧
    v.toFightFighter.Shows f ∧ v.creatureGenericId = f.monsterId.toInt16 ∧ v.creatureGrade = f.monsterGrade ∧
      v.creatureLevel = f.level

/-- The type id of the position in the spawn information is none that is known. -/
theorem readPlace_unknown (hlook : f.look.Fits) (hdepth : f.look.depth ≤ n) (alive : Bool) (p : Nat)
    (rest : List UInt8) :
    FightFighter.deserialize arms n ⟨p, writePlace f alive ++ rest⟩ =
      .err (.unknownTypeId "GameContextActorPositionInformations" 6271) := by
  have hplace : ∃ tail, writePlace f alive ++ rest = writeDouble f.id ++
      (EntityDispositionInformationsVariant.write (.entityDispositionInformations ⟨f.cellId, f.direction⟩) ++
        (f.look.serialize ++ (writeByte (teamByte f.team) ++
          (writeBoolean alive ++ (writeUshort 6271 ++ tail))))) := by
    simp only [writePlace, EntityDispositionInformationsVariant.write, EntityDispositionInformationsVariant.serialize,
      EntityDispositionInformationsVariant.getTypeId, EntityDispositionInformations.serialize, List.append_assoc]
    exact ⟨_, rfl⟩
  obtain ⟨tail, htail⟩ := hplace
  have hspawn : ∀ q, GameContextBasicSpawnInformation.deserialize arms
      ⟨q, writeByte (teamByte f.team) ++ (writeBoolean alive ++ (writeUshort 6271 ++ tail))⟩ =
        .err (.unknownTypeId "GameContextActorPositionInformations" 6271) := by
    intro q
    unfold GameContextBasicSpawnInformation.deserialize
    rw [(reads_byte _).bind_eq, (reads_boolean _).bind_eq, (reads_ushort _).bind_eq, deserializePosition,
      if_neg (by decide)]
    rfl
  unfold FightFighter.deserialize
  have hid : Reads readDouble (writeDouble f.id) f.id := reads_ulong f.id
  rw [htail, hid.bind_eq, (codes_entityDispositionVariant.reads _ trivial).bind_eq,
    ((codes_entityLook n).reads f.look ⟨hlook, hdepth⟩).bind_eq, Wire.Reader.bind_apply, hspawn]
  rfl

private theorem decode_bind_err {α β : Type} {r : BigEndianReader α} {k : α → BigEndianReader β} {data : List UInt8}
    {e : IoError} (h : r (.ofBytes data) = .err e) : (r >>= k).decode data = none := by
  rw [Reader.decode, Wire.Reader.bind_apply, h]
  rfl

private theorem depth_le_writePlace (f : Fighter) (alive : Bool) (rest : List UInt8) :
    f.look.depth ≤ (writePlace f alive ++ rest).length := by
  have hdepth := f.look.depth_le
  simp only [writePlace, List.length_append]
  omega

/-- The position makes every packet unreadable, whatever stands around it. -/
theorem not_comesBack (hlook : f.look.Fits) : ¬ComesBack arms f := by
  have hunknown := fun rest => readPlace_unknown arms hlook (depth_le_writePlace f f.isAlive rest) f.isAlive 0 rest
  intro hback
  unfold ComesBack at hback
  split at hback
  · obtain ⟨v, hv, -⟩ := hback
    rw [sendShowFighter, GameFightCharacterInformations.deserialize, decode_bind_err (hunknown _)] at hv
    cases hv
  · obtain ⟨v, hv, -⟩ := hback
    rw [sendShowFighter, GameFightMonsterInformations.deserialize, decode_bind_err (hunknown _)] at hv
    cases hv

theorem not_summonComesBack (hlook : f.look.Fits) : ¬SummonComesBack arms f := by
  rintro ⟨v, hv, -⟩
  have hpayload : summonCreature f = writePlace f true ++
      (writeVarShort f.monsterId.toInt16 ++ (writeByte f.monsterGrade ++ writeVarShort f.level)) := by
    simp only [summonCreature, List.append_assoc]
  have hunknown := fun rest => readPlace_unknown arms hlook (depth_le_writePlace f true rest) true 0 rest
  rw [hpayload, GameFightMonsterInformations.deserialize, decode_bind_err (hunknown _)] at hv
  cases hv

/-- No fighter comes back, neither from the packet that shows it nor from the one of its summoning. -/
theorem shown_never (hlook : f.look.Fits) : ¬ComesBack arms f ∧ ¬SummonComesBack arms f :=
  ⟨not_comesBack arms hlook, not_summonComesBack arms hlook⟩

end

/-- A monster of level 1 with the look `{31}`. -/
def tofu : Fighter where
  id := 0xBFF0000000000000
  name := "Tofu"
  level := 1
  breed := 0
  look := .mk 31 [] [] [] []
  cellId := 300
  direction := 1
  team := .defenders
  lifePoints := 8
  maxLifePoints := 8
  actionPoints := 4
  maxActionPoints := 4
  movementPoints := 5
  maxMovementPoints := 5
  isPlayer := false
  isAlive := true
  monsterId := 43
  monsterGrade := 1

theorem fits_tofu : tofu.look.Fits := ⟨by decide, by decide, by decide, by decide, trivial⟩

/-- With the arms that read nothing. -/
theorem shown_never_tofu : ¬ComesBack (fun _ => pure ()) tofu ∧ ¬SummonComesBack (fun _ => pure ()) tofu :=
  shown_never (fun _ => pure ()) fits_tofu

theorem not_comesBack_tofu : ¬∀ (arms : UInt16 → BigEndianReader Unit) (f : Fighter), ComesBack arms f := fun h =>
  not_comesBack (fun _ => pure ()) fits_tofu (h (fun _ => pure ()) tofu)

end Otomai.Protocol
