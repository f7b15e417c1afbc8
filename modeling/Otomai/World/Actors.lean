import Otomai.DataReader.D2o
import Otomai.Protocol.Types

/-!
# Characters and actors in packets

The list of characters and the actors of a map are written by hand: a count of sixteen bits, each entry behind its
type id, and the generated codec for what follows it.

* `charactersListPayload_eq`: the two writers of the list of characters agree.
* `codes_charactersList`, `codes_mapComplementary`: what comes back from the two payloads.
* `payloads_decode_iff`: they come back if and only if what has a length of its own fits into sixteen bits.
-/

namespace Otomai.World

open Wire BigEndianReader BigEndianWriter Protocol
open DataReader (Value)

/-! ### Characters -/

/-- A row of the table of characters, as far as it is listed. -/
structure Character where
  id : Int64
  name : String
  breedId : Int32
  sex : Int32
  level : Int32
  colors : Value

/-- The male and the female skin of each breed. -/
def breedSkins : List (Int16 × Int16) :=
  [(10, 20), (30, 40), (50, 60), (70, 80), (90, 100), (110, 120), (130, 140), (150, 160), (170, 180), (190, 200),
    (210, 220), (230, 240), (250, 260), (270, 280), (290, 300), (310, 320), (330, 340), (350, 360)]

/-- The colours, each with its place in the upper byte; what is not a number is passed over. -/
def indexedColors (colors : Value) : List Int32 :=
  match colors.asArray with
  | some arr => arr.zipIdx.filterMap fun p =>
      p.1.asI64.map fun color => Int32.ofNat (p.2 + 1) <<< 24 ||| color.toInt32 &&& 0x00FFFFFF
  | none => []

/-- `breed_id as usize`, less one and at most the last index. -/
def breedIdx (breedId : Int32) : Nat := min (breedId.toInt64.toUInt64.toNat - 1) (breedSkins.length - 1)

def characterToBaseInfo (c : Character) : CharacterBaseInformations where
  id := c.id
  name := c.name
  level := c.level.toInt16
  entityLook :=
    let skins := breedSkins.getD (breedIdx c.breedId) (350, 360)
    .mk (if c.sex = 0 then 1 else 2) [if c.sex = 0 then skins.1 else skins.2] (indexedColors c.colors) [100] []
  breed := c.breedId.toUInt32.toUInt8
  sex := c.sex ≠ 0

/-- An entry of a polymorphic vector: its type id, and what is behind it. -/
def writeTyped (typeId : UInt16) (content : List UInt8) : List UInt8 := writeUshort typeId ++ content

def buildCharactersListPayload (characters : List CharacterBaseInformations) (hasStartupActions : Bool) :
    List UInt8 :=
  writeShort (Int16.ofNat characters.length) ++
    (characters.flatMap fun charInfo => writeTyped CharacterBaseInformations.typeId charInfo.serialize) ++
    writeBoolean hasStartupActions

/-- The payload that `handle_characters_list_request` writes field by field. -/
def charactersListPayload (dbCharacters : List Character) : List UInt8 :=
  let baseInfos := dbCharacters.map characterToBaseInfo
  writeShort (Int16.ofNat baseInfos.length) ++
    (baseInfos.flatMap fun charInfo =>
      writeUshort CharacterBaseInformations.typeId ++ writeVarLong charInfo.id ++ writeUtf charInfo.name ++
        writeVarShort charInfo.level ++ charInfo.entityLook.serialize ++ writeByte charInfo.breed ++
        writeBoolean charInfo.sex) ++
    writeBoolean false

theorem charactersListPayload_eq (dbCharacters : List Character) :
    charactersListPayload dbCharacters = buildCharactersListPayload (dbCharacters.map characterToBaseInfo) false := by
  have hentry : ∀ charInfo : CharacterBaseInformations,
      writeUshort CharacterBaseInformations.typeId ++ writeVarLong charInfo.id ++ writeUtf charInfo.name ++
        writeVarShort charInfo.level ++ charInfo.entityLook.serialize ++ writeByte charInfo.breed ++
        writeBoolean charInfo.sex = writeTyped CharacterBaseInformations.typeId charInfo.serialize := by
    intro charInfo
    simp only [writeTyped, CharacterBaseInformations.serialize, List.append_assoc]
  simp only [charactersListPayload, buildCharactersListPayload, hentry]

/-! ### Actors -/

/-- A player present on a map, as far as the others are told of it. -/
structure MapPlayer where
  characterId : Int64
  accountId : Int64
  name : String
  entityLook : EntityLook
  cellId : Int16
  direction : UInt8
  sex : Bool

def buildCharacterInformations (player : MapPlayer) : GameRolePlayCharacterInformations where
  contextualId := player.characterId.toFloat.toBits
  disposition := .entityDispositionInformations { cellId := player.cellId, direction := player.direction }
  look := player.entityLook
  name := player.name
  humanoidInfo := .humanInformations { restrictions := .default, sex := player.sex, options := [] }
  accountId := player.accountId.toInt32
  alignmentInfos := .default

structure NpcSpawn where
  id : Int32
  npcId : Int32
  cellId : Int32
  direction : Int32

def npcContextualId (spawnId : Int32) : Float := -spawnId.toFloat - 1000.0

def buildNpcActor (spawn : NpcSpawn) (npcLook : EntityLook) (questsToStart questsToValid : List Int16) :
    GameRolePlayNpcWithQuestInformations where
  contextualId := (npcContextualId spawn.id).toBits
  disposition :=
    .entityDispositionInformations { cellId := spawn.cellId.toInt16, direction := spawn.direction.toUInt32.toUInt8 }
  look := npcLook
  npcId := spawn.npcId.toInt16
  sex := false
  specialArtworkId := 0
  questFlag := { questsToValidId := questsToValid, questsToStartId := questsToStart }

def writeNpcActors (npcs : List GameRolePlayNpcWithQuestInformations) : List UInt8 :=
  npcs.flatMap fun npc => writeTyped GameRolePlayNpcWithQuestInformations.typeId npc.serialize

def buildMapComplementaryPayload (subAreaId : Int16) (mapId : UInt64) (players : List MapPlayer)
    (npcs : List GameRolePlayNpcWithQuestInformations) : List UInt8 :=
  writeVarShort subAreaId ++ writeDouble mapId ++ writeShort 0 ++
    writeShort (Int16.ofNat (players.length + npcs.length)) ++
    (players.flatMap fun player =>
      writeTyped GameRolePlayCharacterInformations.typeId (buildCharacterInformations player).serialize) ++
    writeNpcActors npcs ++
    writeShort 0 ++ writeShort 0 ++ writeShort 0 ++ writeShort 0 ++ writeBoolean false ++ writeShort 0 ++ writeShort 0

/-! ### How they are read -/

/-- Read an entry whose type id is known. -/
def readTyped {α : Type} (typeId : UInt16) (r : BigEndianReader α) : BigEndianReader α := do
  let id ← readUshort
  if id = typeId then r else Wire.Reader.fail (.unknownTypeId "" id)

def readCharactersList (n : Nat) : BigEndianReader (List CharacterBaseInformations × Bool) := do
  let characters ← readVec (readTyped CharacterBaseInformations.typeId (CharacterBaseInformations.deserialize n))
  let hasStartupActions ← readBoolean
  pure (characters, hasStartupActions)

inductive Actor where
  | character (v : GameRolePlayCharacterInformations)
  | npc (v : GameRolePlayNpcWithQuestInformations)

namespace Actor

def write : Actor → List UInt8
  | character v => writeTyped GameRolePlayCharacterInformations.typeId v.serialize
  | npc v => writeTyped GameRolePlayNpcWithQuestInformations.typeId v.serialize

def read (n : Nat) : BigEndianReader Actor := do
  let id ← readUshort
  if id = GameRolePlayCharacterInformations.typeId then character <$> GameRolePlayCharacterInformations.deserialize n
  else if id = GameRolePlayNpcWithQuestInformations.typeId then
    npc <$> GameRolePlayNpcWithQuestInformations.deserialize n
  else Wire.Reader.fail (.unknownTypeId "GameRolePlayActorInformations" id)

def look : Actor → EntityLook
  | character v => v.look
  | npc v => v.look

def Fits : Actor → Prop
  | character v => v.Fits
  | npc v => v.Fits

end Actor

/-- A list that is always empty. -/
def readNone : BigEndianReader Unit := do
  let count ← readUshort
  if count = 0 then pure () else Wire.Reader.fail (.unknownTypeId "" count)

structure MapComplementary where
  subAreaId : Int16
  mapId : UInt64
  actors : List Actor

/-- Houses, interactive and stated elements, obstacles, fights and positions are never sent. -/
def readMapComplementary (n : Nat) : BigEndianReader MapComplementary := do
  let subAreaId ← readVarShort
  let mapId ← readDouble
  readNone
  let actors ← readVec (Actor.read n)
  readNone
  readNone
  readNone
  readNone
  let _hasAggressiveMonsters ← readBoolean
  readNone
  readNone
  pure { subAreaId, mapId, actors }

section Codecs

variable {α : Type} {r : BigEndianReader α} {w : α → List UInt8} {P : α → Prop}

theorem codes_typed (typeId : UInt16) (h : Codes r w P) :
    Codes (readTyped typeId r) (fun v => writeTyped typeId (w v)) P where
  reads v hv := by
    refine (reads_ushort typeId).bind ?_
    rw [if_pos rfl]
    exact h.reads v hv
  holds c v c' hr := by
    obtain ⟨⟨id, d⟩, -, hr⟩ := Outcome.bind_eq_ok.1 hr
    dsimp only at hr
    by_cases hid : id = typeId
    · rw [if_pos hid] at hr
      exact h.holds d v c' hr
    · rw [if_neg hid] at hr
      cases hr

theorem reads_none : Reads readNone (writeShort 0) () := (reads_ushort 0).map (Reads.pure ())

theorem codes_charactersList (n : Nat) :
    Codes (readCharactersList n) (fun v => buildCharactersListPayload v.1 v.2)
      fun v => v.1.length < 2 ^ 16 ∧ ∀ c ∈ v.1, c.Fits ∧ c.entityLook.depth ≤ n := by
  have hfields : Codes (readCharactersList n) _ _ :=
    Codes.field (E := fun _ => True) Prod.fst
      (codes_vec (codes_typed CharacterBaseInformations.typeId (codes_characterBaseInformations n))) fun _ =>
        Codes.last Prod.snd codes_boolean fun _ v => by
          cases v
          simp
  refine (hfields.of_eq fun v => ?_).of_iff fun v => ?_
  · simp only [buildCharactersListPayload, writeVec]
  · simp only [true_and, and_true]

theorem codes_actor (n : Nat) :
    Codes (Actor.read n) Actor.write fun actor => actor.Fits ∧ actor.look.depth ≤ n where
  reads actor hactor := by
    cases actor with
    | character v =>
      refine (reads_ushort GameRolePlayCharacterInformations.typeId).bind ?_
      rw [if_pos rfl]
      exact ((codes_gameRolePlayCharacterInformations n).reads v hactor).map (Reads.pure _)
    | npc v =>
      refine (reads_ushort GameRolePlayNpcWithQuestInformations.typeId).bind ?_
      rw [if_neg (by decide), if_pos rfl]
      exact ((codes_gameRolePlayNpcWithQuestInformations n).reads v hactor).map (Reads.pure _)
  holds c actor c' hr := by
    obtain ⟨⟨id, d⟩, -, hr⟩ := Outcome.bind_eq_ok.1 hr
    dsimp only at hr
    by_cases hcharacter : id = GameRolePlayCharacterInformations.typeId
    · rw [if_pos hcharacter] at hr
      obtain ⟨⟨v, d'⟩, hv, hr⟩ := Outcome.bind_eq_ok.1 hr
      obtain ⟨rfl, -⟩ := Prod.mk.inj (Outcome.ok.inj hr)
      exact (codes_gameRolePlayCharacterInformations n).holds d v d' hv
    rw [if_neg hcharacter] at hr
    by_cases hnpc : id = GameRolePlayNpcWithQuestInformations.typeId
    · rw [if_pos hnpc] at hr
      obtain ⟨⟨v, d'⟩, hv, hr⟩ := Outcome.bind_eq_ok.1 hr
      obtain ⟨rfl, -⟩ := Prod.mk.inj (Outcome.ok.inj hr)
      exact (codes_gameRolePlayNpcWithQuestInformations n).holds d v d' hv
    · rw [if_neg hnpc] at hr
      cases hr

/-- What is written around the actors. -/
def MapComplementary.write (v : MapComplementary) : List UInt8 :=
  writeVarShort v.subAreaId ++ (writeDouble v.mapId ++ (writeShort 0 ++ (writeVec Actor.write v.actors ++
    (writeShort 0 ++ (writeShort 0 ++ (writeShort 0 ++ (writeShort 0 ++ (writeBoolean false ++ (writeShort 0 ++
      (writeShort 0 ++ []))))))))))

theorem codes_mapComplementary (n : Nat) :
    Codes (readMapComplementary n) MapComplementary.write
      fun v => v.actors.length < 2 ^ 16 ∧ ∀ actor ∈ v.actors, actor.Fits ∧ actor.look.depth ≤ n := by
  have hrest : ∀ v : MapComplementary, Codes (do
      readNone
      readNone
      readNone
      readNone
      let _hasAggressiveMonsters ← readBoolean
      readNone
      readNone
      pure v) _ (· = v) := fun v =>
    .skip reads_none <| .skip reads_none <| .skip reads_none <| .skip reads_none <| .skip (reads_boolean false) <|
      .skip reads_none <| .skip reads_none <| .known v
  have hfields : Codes (readMapComplementary n) MapComplementary.write _ :=
    Codes.field (E := fun _ => True) MapComplementary.subAreaId codes_varShort fun subAreaId =>
      Codes.field MapComplementary.mapId codes_double fun mapId =>
      .skip reads_none <|
      Codes.field (Q := fun _ => True) MapComplementary.actors (codes_vec (codes_actor n)) fun actors =>
      (hrest { subAreaId, mapId, actors }).of_iff fun v => by
        cases v
        simp [and_assoc]
  exact hfields.of_iff fun v => by simp only [true_and, and_true]

end Codecs

/-! ### What comes back -/

/-- The name and the colours that are numbers, of which sixteen bits tell how many there are. -/
def Character.Fits (c : Character) : Prop :=
  FitsUtf c.name ∧ (c.colors.asArray.getD []).countP (·.asI64.isSome) < 2 ^ 16

instance (c : Character) : Decidable c.Fits := inferInstanceAs (Decidable (_ ∧ _))

def MapPlayer.Fits (player : MapPlayer) : Prop := FitsUtf player.name ∧ player.entityLook.Fits

theorem length_indexedColors (colors : Value) :
    (indexedColors colors).length = (colors.asArray.getD []).countP (·.asI64.isSome) := by
  unfold indexedColors
  cases colors.asArray with
  | none => rfl
  | some arr =>
    have hfst : arr.zipIdx.map Prod.fst = arr := List.zipIdx_map_fst 0 arr
    rw [Option.getD_some, List.length_filterMap_eq_countP]
    conv_rhs => rw [← hfst, List.countP_map]
    refine List.countP_congr fun p _ => ?_
    simp only [Option.isSome_map, Function.comp_apply]

theorem fits_characterToBaseInfo {c : Character} : (characterToBaseInfo c).Fits ↔ c.Fits := by
  rw [CharacterBaseInformations.Fits, Character.Fits, ← length_indexedColors]
  refine and_congr_right fun _ => ?_
  simp [characterToBaseInfo, EntityLook.Fits, SubEntity.AllFit]

theorem fits_buildCharacterInformations {player : MapPlayer} :
    (buildCharacterInformations player).Fits ↔ player.Fits := by
  rw [GameRolePlayCharacterInformations.Fits, MapPlayer.Fits]
  simp [buildCharacterInformations, HumanInformationsVariant.Fits, HumanInformations.Fits, and_comm]

theorem fits_buildNpcActor {spawn : NpcSpawn} {npcLook : EntityLook} {questsToStart questsToValid : List Int16} :
    (buildNpcActor spawn npcLook questsToStart questsToValid).Fits ↔
      npcLook.Fits ∧ questsToValid.length < 2 ^ 16 ∧ questsToStart.length < 2 ^ 16 :=
  Iff.rfl

/-- The actors of a map, the players first. -/
def actorsOf (players : List MapPlayer) (npcs : List GameRolePlayNpcWithQuestInformations) : List Actor :=
  players.map (fun player => .character (buildCharacterInformations player)) ++ npcs.map .npc

theorem buildMapComplementaryPayload_eq (subAreaId : Int16) (mapId : UInt64) (players : List MapPlayer)
    (npcs : List GameRolePlayNpcWithQuestInformations) :
    buildMapComplementaryPayload subAreaId mapId players npcs =
      MapComplementary.write { subAreaId, mapId, actors := actorsOf players npcs } := by
  have hlen : (actorsOf players npcs).length = players.length + npcs.length := by
    simp only [actorsOf, List.length_append, List.length_map]
  have hflat : (actorsOf players npcs).flatMap Actor.write =
      (players.flatMap fun player =>
        writeTyped GameRolePlayCharacterInformations.typeId (buildCharacterInformations player).serialize) ++
      writeNpcActors npcs := by
    simp only [actorsOf, writeNpcActors, List.flatMap_append, List.flatMap_map, Actor.write]
  simp only [buildMapComplementaryPayload, MapComplementary.write, writeVec, hlen, hflat, List.append_assoc,
    List.append_nil]

theorem Actor.depth_le (actor : Actor) : actor.look.depth ≤ actor.write.length := by
  cases actor with
  | character v =>
    have hlook := v.look.depth_le
    rw [Actor.write, writeTyped, GameRolePlayCharacterInformations.serialize]
    simp only [Actor.look, List.length_append]
    omega
  | npc v =>
    have hlook := v.look.depth_le
    rw [Actor.write, writeTyped, GameRolePlayNpcWithQuestInformations.serialize]
    simp only [Actor.look, List.length_append]
    omega

theorem length_le_writeVec {α : Type} {w : α → List UInt8} {v : α} {vs : List α} (hv : v ∈ vs) :
    (w v).length ≤ (writeVec w vs).length := by
  have hsub : (w v).length ≤ (vs.flatMap w).length := by
    obtain ⟨before, behind, rfl⟩ := List.append_of_mem hv
    simp only [List.flatMap_append, List.flatMap_cons, List.length_append]
    omega
  rw [writeVec, List.length_append]
  omega

/-- The list of characters comes back if and only if each of them fits. -/
theorem decode_charactersList {dbCharacters : List Character} (hlen : dbCharacters.length < 2 ^ 16) :
    (readCharactersList (charactersListPayload dbCharacters).length).decode (charactersListPayload dbCharacters) =
        some (dbCharacters.map characterToBaseInfo, false) ↔ ∀ c ∈ dbCharacters, c.Fits := by
  have hpos : 1 ≤ (charactersListPayload dbCharacters).length := by
    rw [charactersListPayload_eq, buildCharactersListPayload, List.length_append]
    exact Nat.le_add_left 1 _
  have hdepth : ∀ c : Character, (characterToBaseInfo c).entityLook.depth ≤
    (charactersListPayload dbCharacters).length := by
    intro c
    simpa only [characterToBaseInfo, EntityLook.depth, SubEntity.depths] using hpos
  generalize (charactersListPayload dbCharacters).length = n at hdepth ⊢
  rw [charactersListPayload_eq]
  refine ((codes_charactersList n).decode_iff (v := (dbCharacters.map characterToBaseInfo, false))).trans ?_
  simp only [List.length_map, hlen, true_and, List.forall_mem_map, fits_characterToBaseInfo, hdepth, and_true]

/-- The actors of a map come back if and only if each of them fits. -/
theorem decode_mapComplementary {subAreaId : Int16} {mapId : UInt64} {players : List MapPlayer}
    {npcs : List GameRolePlayNpcWithQuestInformations} (hlen : players.length + npcs.length < 2 ^ 16) :
    (readMapComplementary (buildMapComplementaryPayload subAreaId mapId players npcs).length).decode
        (buildMapComplementaryPayload subAreaId mapId players npcs) =
      some { subAreaId, mapId, actors := actorsOf players npcs } ↔
        (∀ player ∈ players, player.Fits) ∧ ∀ npc ∈ npcs, npc.Fits := by
  have hdepth : ∀ actor ∈ actorsOf players npcs,
      actor.look.depth ≤ (buildMapComplementaryPayload subAreaId mapId players npcs).length := by
    intro actor hactor
    have hwrite := actor.depth_le
    have hvec := @length_le_writeVec _ Actor.write _ _ hactor
    rw [buildMapComplementaryPayload_eq, MapComplementary.write]
    simp only [List.length_append]
    omega
  generalize (buildMapComplementaryPayload subAreaId mapId players npcs).length = n at hdepth ⊢
  rw [buildMapComplementaryPayload_eq]
  refine (codes_mapComplementary n).decode_iff.trans ?_
  have hcount : (actorsOf players npcs).length < 2 ^ 16 := by
    simpa only [actorsOf, List.length_append, List.length_map] using hlen
  have hfits : (∀ actor ∈ actorsOf players npcs, actor.Fits) ↔
      (∀ player ∈ players, player.Fits) ∧ ∀ npc ∈ npcs, npc.Fits := by
    simp only [actorsOf, List.forall_mem_append, List.forall_mem_map, Actor.Fits, fits_buildCharacterInformations]
  rw [← hfits]
  constructor
  · exact fun h actor hactor => (h.2 actor hactor).1
  · exact fun h => ⟨hcount, fun actor hactor => ⟨h actor hactor, hdepth actor hactor⟩⟩

/-- Both writers of the list of characters agree, and the list and the actors of a map are found again in their
payloads if and only if each character, player and NPC fits. -/
theorem payloads_decode_iff (dbCharacters : List Character) (subAreaId : Int16) (mapId : UInt64)
    (players : List MapPlayer)
    (npcs : List GameRolePlayNpcWithQuestInformations) (hcharacters : dbCharacters.length ≤ 32767)
    (hactors : players.length + npcs.length ≤ 32767) :
    charactersListPayload dbCharacters = buildCharactersListPayload (dbCharacters.map characterToBaseInfo) false ∧
    ((readCharactersList (charactersListPayload dbCharacters).length).decode (charactersListPayload dbCharacters) =
        some (dbCharacters.map characterToBaseInfo, false) ↔ ∀ c ∈ dbCharacters, c.Fits) ∧
    ((readMapComplementary (buildMapComplementaryPayload subAreaId mapId players npcs).length).decode
        (buildMapComplementaryPayload subAreaId mapId players npcs) =
      some { subAreaId, mapId, actors := actorsOf players npcs } ↔
        (∀ player ∈ players, player.Fits) ∧ ∀ npc ∈ npcs, npc.Fits) :=
  ⟨charactersListPayload_eq dbCharacters, decode_charactersList (by omega), decode_mapComplementary (by omega)⟩

/-- A character with the colours of its creation. -/
def yugo : Character :=
  { id := 7, name := "Yugo", breedId := 16, sex := 0, level := 1
    colors := .array [.number (.posInt 0xFF0000), .number (.negInt (-1))] }

/-- One of its colours is not a number. -/
def amalia : Character :=
  { id := 8, name := "Amália", breedId := 10, sex := 1, level := 12,
    colors := .array [.null, .number (.posInt 0x00FF00)] }

/-- A character on a map, and what it rides. -/
def asPlayer (c : Character) (subentities : List SubEntity) : MapPlayer where
  characterId := c.id
  accountId := 1
  name := c.name
  entityLook :=
    let look := (characterToBaseInfo c).entityLook
    .mk look.bonesId look.skins look.indexedColors look.scales subentities
  cellId := 300
  direction := 1
  sex := c.sex ≠ 0

theorem fits_asPlayer {c : Character} (hc : c.Fits) {subentities : List SubEntity}
    (hlength : subentities.length < 2 ^ 16) (hfit : SubEntity.AllFit subentities) :
    (asPlayer c subentities).Fits := by
  obtain ⟨hname, hskins, hcolors, hscales, -⟩ := fits_characterToBaseInfo.2 hc
  exact ⟨hname, hskins, hcolors, hscales, hlength, hfit⟩

/-- A character with quests to start and to validate. -/
def guide : GameRolePlayNpcWithQuestInformations :=
  buildNpcActor { id := 3, npcId := 600, cellId := 200, direction := 3 } (.mk 1 [10] [] [100] []) [1, 2] [3]

theorem fits_guide : guide.Fits :=
  fits_buildNpcActor.2 ⟨by simp [EntityLook.Fits, SubEntity.AllFit], by decide, by decide⟩

theorem payloads_decode_iff_guide :
    let players := [asPlayer yugo [], asPlayer amalia [.mk 2 0 (.mk 639 [] [] [120] [])]]
    (readCharactersList (charactersListPayload [yugo, amalia]).length).decode (charactersListPayload [yugo, amalia]) =
        some ([characterToBaseInfo yugo, characterToBaseInfo amalia], false) ∧
    (readMapComplementary (buildMapComplementaryPayload 95 0 players [guide]).length).decode
        (buildMapComplementaryPayload 95 0 players [guide]) =
      some { subAreaId := 95, mapId := 0, actors := actorsOf players [guide] } := by
  intro players
  have hdecode := payloads_decode_iff [yugo, amalia] 95 0 players [guide] (by decide) (by decide)
  have hcharacters : ∀ c ∈ [yugo, amalia], c.Fits := by decide
  have hplayers : ∀ player ∈ players, player.Fits := by
    intro player hplayer
    rcases List.mem_pair.1 hplayer with rfl | rfl
    · exact fits_asPlayer (by decide) (by decide) trivial
    · exact fits_asPlayer (by decide) (by decide) (by simp [SubEntity.AllFit, SubEntity.Fits, EntityLook.Fits])
  have hnpcs : ∀ npc ∈ [guide], npc.Fits := List.forall_mem_singleton.2 fits_guide
  exact ⟨hdecode.2.1.2 hcharacters, hdecode.2.2.2 ⟨hplayers, hnpcs⟩⟩

/-- A character with as many colours as the count cannot tell from none. -/
def manyColors : Character := { yugo with colors := .array (List.replicate 65536 (.number (.posInt 0))) }

theorem charactersList_manyColors :
    (readCharactersList (charactersListPayload [manyColors]).length).decode (charactersListPayload [manyColors]) ≠
      some ([characterToBaseInfo manyColors], false) := by
  intro h
  have hlen : [manyColors].length < 2 ^ 16 := by decide
  have hfits := ((decode_charactersList hlen).1 h manyColors (List.mem_singleton.2 rfl)).2
  have hcolors : manyColors.colors.asArray = some (List.replicate 65536 (.number (.posInt 0))) := rfl
  rw [hcolors, Option.getD_some, List.countP_replicate] at hfits
  simp [Value.asI64] at hfits

end Otomai.World
