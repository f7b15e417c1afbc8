import Otomai.Io.Ends
import Otomai.Io.RoundTrip
import Otomai.Wire.Codec

/-!
# Generated types

The generated types that the world server sends of characters and actors, with their `serialize` and `deserialize`.
Each is a codec: a value comes back if and only if its vectors and strings are short enough for the sixteen bits of
their lengths.  A look holds the looks of its sub-entities, so it is read with a bound on how deep they are nested.

* `codes_entityLook`: looks.
* `codes_characterBaseInformations`, `codes_gameRolePlayCharacterInformations`,
  `codes_gameRolePlayNpcWithQuestInformations`: what is sent.
-/

namespace Otomai.Protocol

open Wire BigEndianReader BigEndianWriter BooleanByteWrapper

/-! ### Fields -/

theorem codes_of_reads {α : Type} {r : BigEndianReader α} {w : α → List UInt8} (h : ∀ v, Reads r (w v) v) :
    Codes r w fun _ => True :=
  ⟨fun v _ => h v, fun _ _ _ _ => trivial⟩

theorem codes_byte : Codes readByte writeByte fun _ => True := codes_of_reads reads_byte

theorem codes_boolean : Codes readBoolean writeBoolean fun _ => True := codes_of_reads reads_boolean

theorem codes_int : Codes readInt writeInt fun _ => True := codes_of_reads reads_int

theorem codes_double : Codes readDouble writeDouble fun _ => True := codes_of_reads reads_ulong

theorem codes_varShort : Codes readVarShort writeVarShort fun _ => True := codes_of_reads reads_varShort

theorem codes_varLong : Codes readVarLong writeVarLong fun _ => True := codes_of_reads reads_varLong

/-- The text has at most 65535 bytes. -/
def FitsUtf (s : String) : Prop := (asBytes s).length < 2 ^ 16

instance (s : String) : Decidable (FitsUtf s) := inferInstanceAs (Decidable (_ < _))

theorem codes_utf : Codes readUtf writeUtf FitsUtf where
  reads s hs := reads_utf hs
  holds c s c' hr := by
    obtain ⟨⟨length, d⟩, -, hr⟩ := Outcome.bind_eq_ok.1 hr
    obtain ⟨⟨buf, d'⟩, hbuf, hr⟩ := Outcome.bind_eq_ok.1 hr
    dsimp only at hbuf hr
    have hlt := length.toNat_lt
    rw [readBytes, if_neg (Nat.not_lt.2 (toNat_le_isizeMax length)), Reader.take] at hbuf
    by_cases hlong : length.toNat ≤ d.unread.length
    · rw [if_pos hlong, Outcome.ok.injEq, Prod.mk.injEq] at hbuf
      have hlen : buf.length = length.toNat := by rw [← hbuf.1, List.length_take_of_le hlong]
      unfold String.fromUTF8? at hr
      by_cases hvalid : (⟨buf.toArray⟩ : ByteArray).IsValidUTF8
      · rw [dif_pos hvalid] at hr
        obtain ⟨rfl, -⟩ := Prod.mk.inj (Outcome.ok.inj hr)
        show buf.length < _
        omega
      · rw [dif_neg hvalid] at hr
        cases hr
    · rw [if_neg hlong] at hbuf
      cases hbuf

/-- A vector with its length, cast to sixteen bits. -/
def writeVec {α : Type} (w : α → List UInt8) (vs : List α) : List UInt8 :=
  writeShort (Int16.ofNat vs.length) ++ vs.flatMap w

def readVec {α : Type} (r : BigEndianReader α) : BigEndianReader (List α) := do
  let count ← readUshort
  Wire.Reader.replicate r count.toNat

theorem codes_vec {α : Type} {r : BigEndianReader α} {w : α → List UInt8} {P : α → Prop} (h : Codes r w P) :
    Codes (readVec r) (writeVec w) fun vs => vs.length < 2 ^ 16 ∧ ∀ v ∈ vs, P v where
  reads vs hvs := by
    refine (reads_ushort (UInt16.ofNat vs.length)).bind ?_
    rw [UInt16.toNat_ofNat_of_lt' hvs.1]
    exact (h.replicate vs.length).reads vs ⟨rfl, hvs.2⟩
  holds c vs c' hr := by
    obtain ⟨⟨count, d⟩, -, hr⟩ := Outcome.bind_eq_ok.1 hr
    obtain ⟨hlen, hall⟩ := (h.replicate count.toNat).holds d vs c' hr
    exact ⟨hlen ▸ count.toNat_lt, hall⟩

/-! ### Looks -/

mutual

inductive EntityLook where
  | mk (bonesId : Int16) (skins : List Int16) (indexedColors : List Int32) (scales : List Int16)
      (subentities : List SubEntity)

inductive SubEntity where
  | mk (bindingPointCategory bindingPointIndex : UInt8) (subEntityLook : EntityLook)

end

namespace EntityLook

def bonesId : EntityLook → Int16
  | mk bonesId .. => bonesId

def skins : EntityLook → List Int16
  | mk _ skins .. => skins

def indexedColors : EntityLook → List Int32
  | mk _ _ indexedColors .. => indexedColors

def scales : EntityLook → List Int16
  | mk _ _ _ scales _ => scales

def subentities : EntityLook → List SubEntity
  | mk _ _ _ _ subentities => subentities

end EntityLook

namespace SubEntity

def bindingPointCategory : SubEntity → UInt8
  | mk bindingPointCategory .. => bindingPointCategory

def bindingPointIndex : SubEntity → UInt8
  | mk _ bindingPointIndex _ => bindingPointIndex

def subEntityLook : SubEntity → EntityLook
  | mk _ _ subEntityLook => subEntityLook

end SubEntity

mutual

def EntityLook.serialize : EntityLook → List UInt8
  | .mk bonesId skins indexedColors scales subentities =>
    writeVarShort bonesId ++ (writeVec writeVarShort skins ++ (writeVec writeInt indexedColors ++
      (writeVec writeVarShort scales ++
        (writeShort (Int16.ofNat subentities.length) ++ SubEntity.serializeAll subentities))))

def SubEntity.serialize : SubEntity → List UInt8
  | .mk bindingPointCategory bindingPointIndex subEntityLook =>
    writeByte bindingPointCategory ++ (writeByte bindingPointIndex ++ subEntityLook.serialize)

def SubEntity.serializeAll : List SubEntity → List UInt8
  | [] => []
  | item :: subentities => item.serialize ++ SubEntity.serializeAll subentities

end

mutual

/-- How deep the looks of sub-entities are nested. -/
def EntityLook.depth : EntityLook → Nat
  | .mk _ _ _ _ subentities => SubEntity.depths subentities + 1

def SubEntity.depth : SubEntity → Nat
  | .mk _ _ subEntityLook => subEntityLook.depth

def SubEntity.depths : List SubEntity → Nat
  | [] => 0
  | item :: subentities => max item.depth (SubEntity.depths subentities)

end

mutual

/-- All vectors have at most 65535 entries. -/
def EntityLook.Fits : EntityLook → Prop
  | .mk _ skins indexedColors scales subentities =>
    skins.length < 2 ^ 16 ∧ indexedColors.length < 2 ^ 16 ∧ scales.length < 2 ^ 16 ∧ subentities.length < 2 ^ 16 ∧
      SubEntity.AllFit subentities

def SubEntity.Fits : SubEntity → Prop
  | .mk _ _ subEntityLook => subEntityLook.Fits

def SubEntity.AllFit : List SubEntity → Prop
  | [] => True
  | item :: subentities => item.Fits ∧ SubEntity.AllFit subentities

end

def SubEntity.deserialize (look : BigEndianReader EntityLook) : BigEndianReader SubEntity := do
  let bindingPointCategory ← readByte
  let bindingPointIndex ← readByte
  let subEntityLook ← look
  pure (.mk bindingPointCategory bindingPointIndex subEntityLook)

/-- A look with at most the given number of looks one in the other. -/
def EntityLook.deserialize : Nat → BigEndianReader EntityLook
  | 0 => Wire.Reader.exhausted
  | n + 1 => do
    let bonesId ← readVarShort
    let skins ← readVec readVarShort
    let indexedColors ← readVec readInt
    let scales ← readVec readVarShort
    let subentities ← readVec (SubEntity.deserialize (deserialize n))
    pure (.mk bonesId skins indexedColors scales subentities)

theorem SubEntity.serializeAll_eq (subentities : List SubEntity) :
    SubEntity.serializeAll subentities = subentities.flatMap SubEntity.serialize := by
  induction subentities with
  | nil => rw [SubEntity.serializeAll, List.flatMap_nil]
  | cons item subentities ih => rw [SubEntity.serializeAll, List.flatMap_cons, ih]

theorem SubEntity.allFit_iff {subentities : List SubEntity} :
    SubEntity.AllFit subentities ↔ ∀ item ∈ subentities, item.Fits := by
  induction subentities with
  | nil => simp [SubEntity.AllFit]
  | cons item subentities ih => rw [SubEntity.AllFit, List.forall_mem_cons, ih]

theorem SubEntity.depths_le {subentities : List SubEntity} {n : Nat} :
    SubEntity.depths subentities ≤ n ↔ ∀ item ∈ subentities, item.depth ≤ n := by
  induction subentities with
  | nil => simp [SubEntity.depths]
  | cons item subentities ih => rw [SubEntity.depths, Nat.max_le, List.forall_mem_cons, ih]

theorem EntityLook.serialize_eq (look : EntityLook) :
    look.serialize = writeVarShort look.bonesId ++ (writeVec writeVarShort look.skins ++
      (writeVec writeInt look.indexedColors ++ (writeVec writeVarShort look.scales ++
        writeVec SubEntity.serialize look.subentities))) := by
  cases look
  rw [EntityLook.serialize, SubEntity.serializeAll_eq]
  rfl

theorem codes_subEntity {r : BigEndianReader EntityLook} {P : EntityLook → Prop}
    (h : Codes r EntityLook.serialize P) :
    Codes (SubEntity.deserialize r) SubEntity.serialize fun item => P item.subEntityLook := by
  have hfields : Codes (SubEntity.deserialize r) _ _ :=
    Codes.field (E := fun _ => True) SubEntity.bindingPointCategory codes_byte fun _ =>
      Codes.field SubEntity.bindingPointIndex codes_byte fun _ => Codes.last SubEntity.subEntityLook h fun _ v => by
        cases v
        simp [SubEntity.bindingPointCategory, SubEntity.bindingPointIndex, SubEntity.subEntityLook, and_assoc]
  refine (hfields.of_eq fun item => ?_).of_iff fun item => ?_
  · cases item
    rw [SubEntity.serialize]
    rfl
  · simp only [true_and]

theorem codes_entityLook (n : Nat) :
    Codes (EntityLook.deserialize n) EntityLook.serialize fun look => look.Fits ∧ look.depth ≤ n := by
  induction n with
  | zero =>
    refine ⟨fun look hlook => ?_, fun _ _ _ hr => by cases hr⟩
    cases look
    exact absurd hlook.2 (by rw [EntityLook.depth]; omega)
  | succ n ih =>
    have hfields : Codes (EntityLook.deserialize (n + 1)) _ _ :=
      Codes.field (E := fun _ => True) EntityLook.bonesId codes_varShort fun _ =>
        Codes.field EntityLook.skins (codes_vec codes_varShort) fun _ =>
        Codes.field EntityLook.indexedColors (codes_vec codes_int) fun _ =>
        Codes.field EntityLook.scales (codes_vec codes_varShort) fun _ =>
        Codes.last EntityLook.subentities (codes_vec (codes_subEntity ih)) fun _ v => by
          cases v
          simp [EntityLook.bonesId, EntityLook.skins, EntityLook.indexedColors, EntityLook.scales,
            EntityLook.subentities, and_assoc]
    refine (hfields.of_eq fun look => look.serialize_eq.symm).of_iff fun look => ?_
    cases look with
    | mk bonesId skins indexedColors scales subentities =>
      have hitem : (∀ item ∈ subentities, item.subEntityLook.Fits ∧ item.subEntityLook.depth ≤ n) ↔
          SubEntity.AllFit subentities ∧ SubEntity.depths subentities ≤ n := by
        rw [SubEntity.allFit_iff, SubEntity.depths_le, ← forall₂_and]
        refine forall₂_congr fun item _ => ?_
        cases item
        rw [SubEntity.Fits, SubEntity.depth, SubEntity.subEntityLook]
      simp only [EntityLook.skins, EntityLook.indexedColors, EntityLook.scales, EntityLook.subentities,
        EntityLook.Fits, EntityLook.depth, hitem, implies_true, and_true, true_and,
        Nat.add_le_add_iff_right, and_assoc]

mutual

/-- Each look that is nested is written. -/
theorem EntityLook.depth_le : ∀ look : EntityLook, look.depth ≤ look.serialize.length
  | .mk bonesId skins indexedColors scales subentities => by
    have hsubs := SubEntity.depths_le_length subentities
    have hcount : (writeShort (Int16.ofNat subentities.length)).length = 2 := rfl
    rw [EntityLook.depth, EntityLook.serialize]
    simp only [List.length_append, hcount]
    omega

theorem SubEntity.depth_le : ∀ item : SubEntity, item.depth ≤ item.serialize.length
  | .mk bindingPointCategory bindingPointIndex subEntityLook => by
    have hlook := subEntityLook.depth_le
    rw [SubEntity.depth, SubEntity.serialize]
    simp only [List.length_append]
    omega

theorem SubEntity.depths_le_length :
    ∀ subentities : List SubEntity, SubEntity.depths subentities ≤ (SubEntity.serializeAll subentities).length
  | [] => Nat.zero_le _
  | item :: subentities => by
    have hitem := item.depth_le
    have hsubs := SubEntity.depths_le_length subentities
    rw [SubEntity.depths, SubEntity.serializeAll, List.length_append]
    omega

end

/-! ### Dispositions -/

structure EntityDispositionInformations where
  cellId : Int16
  direction : UInt8
  deriving DecidableEq, Repr

structure IdentifiedEntityDispositionInformations where
  cellId : Int16
  direction : UInt8
  id : UInt64
  deriving DecidableEq, Repr

structure FightEntityDispositionInformations where
  cellId : Int16
  direction : UInt8
  carryingCharacterId : UInt64
  deriving DecidableEq, Repr

def EntityDispositionInformations.serialize (v : EntityDispositionInformations) : List UInt8 :=
  writeShort v.cellId ++ writeByte v.direction

def EntityDispositionInformations.deserialize : BigEndianReader EntityDispositionInformations := do
  let cellId ← readShort
  let direction ← readByte
  pure { cellId, direction }

def IdentifiedEntityDispositionInformations.serialize (v : IdentifiedEntityDispositionInformations) : List UInt8 :=
  writeShort v.cellId ++ (writeByte v.direction ++ writeDouble v.id)

def IdentifiedEntityDispositionInformations.deserialize :
    BigEndianReader IdentifiedEntityDispositionInformations := do
  let cellId ← readShort
  let direction ← readByte
  let id ← readDouble
  pure { cellId, direction, id }

def FightEntityDispositionInformations.serialize (v : FightEntityDispositionInformations) : List UInt8 :=
  writeShort v.cellId ++ (writeByte v.direction ++ writeDouble v.carryingCharacterId)

def FightEntityDispositionInformations.deserialize : BigEndianReader FightEntityDispositionInformations := do
  let cellId ← readShort
  let direction ← readByte
  let carryingCharacterId ← readDouble
  pure { cellId, direction, carryingCharacterId }

theorem reads_entityDisposition (v : EntityDispositionInformations) :
    Reads EntityDispositionInformations.deserialize v.serialize v :=
  (reads_short v.cellId).bind ((reads_byte v.direction).map (Reads.pure v))

theorem reads_identifiedEntityDisposition (v : IdentifiedEntityDispositionInformations) :
    Reads IdentifiedEntityDispositionInformations.deserialize v.serialize v :=
  (reads_short v.cellId).bind ((reads_byte v.direction).bind ((reads_ulong v.id).map (Reads.pure v)))

theorem reads_fightEntityDisposition (v : FightEntityDispositionInformations) :
    Reads FightEntityDispositionInformations.deserialize v.serialize v :=
  (reads_short v.cellId).bind ((reads_byte v.direction).bind ((reads_ulong v.carryingCharacterId).map (Reads.pure v)))

inductive EntityDispositionInformationsVariant where
  | entityDispositionInformations (v : EntityDispositionInformations)
  | identifiedEntityDispositionInformations (v : IdentifiedEntityDispositionInformations)
  | fightEntityDispositionInformations (v : FightEntityDispositionInformations)
  deriving DecidableEq, Repr

namespace EntityDispositionInformationsVariant

def getTypeId : EntityDispositionInformationsVariant → UInt16
  | entityDispositionInformations _ => 7114
  | identifiedEntityDispositionInformations _ => 4029
  | fightEntityDispositionInformations _ => 4954

def serialize : EntityDispositionInformationsVariant → List UInt8
  | entityDispositionInformations v => v.serialize
  | identifiedEntityDispositionInformations v => v.serialize
  | fightEntityDispositionInformations v => v.serialize

def deserializeWithId (typeId : UInt16) : BigEndianReader EntityDispositionInformationsVariant :=
  if typeId = 7114 then entityDispositionInformations <$> EntityDispositionInformations.deserialize
  else if typeId = 4029 then
    identifiedEntityDispositionInformations <$> IdentifiedEntityDispositionInformations.deserialize
  else if typeId = 4954 then fightEntityDispositionInformations <$> FightEntityDispositionInformations.deserialize
  else Wire.Reader.fail (.unknownTypeId "EntityDispositionInformations" typeId)

/-- A variant is written behind its type id. -/
def write (v : EntityDispositionInformationsVariant) : List UInt8 := writeUshort v.getTypeId ++ v.serialize

def read : BigEndianReader EntityDispositionInformationsVariant := do
  let typeId ← readUshort
  deserializeWithId typeId

end EntityDispositionInformationsVariant

theorem codes_entityDispositionVariant :
    Codes EntityDispositionInformationsVariant.read EntityDispositionInformationsVariant.write fun _ => True := by
  refine codes_of_reads fun v => (reads_ushort v.getTypeId).bind ?_
  cases v with
  | entityDispositionInformations v => exact (reads_entityDisposition v).map (Reads.pure _)
  | identifiedEntityDispositionInformations v => exact (reads_identifiedEntityDisposition v).map (Reads.pure _)
  | fightEntityDispositionInformations v => exact (reads_fightEntityDisposition v).map (Reads.pure _)

/-! ### Humans -/

structure ActorRestrictionsInformations where
  cantBeAggressed : Bool
  cantBeChallenged : Bool
  cantTrade : Bool
  cantBeAttackedByMutant : Bool
  cantRun : Bool
  forceSlowWalk : Bool
  cantMinimize : Bool
  cantMove : Bool
  cantAggress : Bool
  cantChallenge : Bool
  cantExchange : Bool
  cantAttack : Bool
  cantChat : Bool
  cantBeMerchant : Bool
  cantUseObject : Bool
  cantUseTaxCollector : Bool
  cantUseInteractive : Bool
  cantSpeakToNPC : Bool
  cantChangeZone : Bool
  cantAttackMonster : Bool
  cantWalk8Directions : Bool
  deriving DecidableEq, Repr

/-- The flags of one byte, set one after the other. -/
def setFlags : UInt8 → Nat → List Bool → Outcome IoError UInt8
  | flag, _, [] => .ok flag
  | flag, offset, value :: values => do
    let flag ← setFlag flag offset value
    setFlags flag (offset + 1) values

/-- The byte of at most eight flags; there is no offset for which `unwrap` could fail. -/
def flagByte (values : List Bool) : UInt8 := ((setFlags 0 0 values).toOption).getD 0

def readFlag (flag : UInt8) (offset : Nat) : BigEndianReader Bool :=
  fun c => getFlag flag offset >>= fun b => .ok (b, c)

namespace ActorRestrictionsInformations

def serialize (v : ActorRestrictionsInformations) : List UInt8 :=
  writeByte (flagByte [v.cantBeAggressed, v.cantBeChallenged, v.cantTrade, v.cantBeAttackedByMutant, v.cantRun,
    v.forceSlowWalk, v.cantMinimize, v.cantMove]) ++
  (writeByte (flagByte [v.cantAggress, v.cantChallenge, v.cantExchange, v.cantAttack, v.cantChat, v.cantBeMerchant,
    v.cantUseObject, v.cantUseTaxCollector]) ++
  writeByte (flagByte [v.cantUseInteractive, v.cantSpeakToNPC, v.cantChangeZone, v.cantAttackMonster,
    v.cantWalk8Directions]))

def deserialize : BigEndianReader ActorRestrictionsInformations := do
  let flag0 ← readByte
  let flag1 ← readByte
  let flag2 ← readByte
  let cantBeAggressed ← readFlag flag0 0
  let cantBeChallenged ← readFlag flag0 1
  let cantTrade ← readFlag flag0 2
  let cantBeAttackedByMutant ← readFlag flag0 3
  let cantRun ← readFlag flag0 4
  let forceSlowWalk ← readFlag flag0 5
  let cantMinimize ← readFlag flag0 6
  let cantMove ← readFlag flag0 7
  let cantAggress ← readFlag flag1 0
  let cantChallenge ← readFlag flag1 1
  let cantExchange ← readFlag flag1 2
  let cantAttack ← readFlag flag1 3
  let cantChat ← readFlag flag1 4
  let cantBeMerchant ← readFlag flag1 5
  let cantUseObject ← readFlag flag1 6
  let cantUseTaxCollector ← readFlag flag1 7
  let cantUseInteractive ← readFlag flag2 0
  let cantSpeakToNPC ← readFlag flag2 1
  let cantChangeZone ← readFlag flag2 2
  let cantAttackMonster ← readFlag flag2 3
  let cantWalk8Directions ← readFlag flag2 4
  pure { cantBeAggressed, cantBeChallenged, cantTrade, cantBeAttackedByMutant, cantRun, forceSlowWalk,
         cantMinimize, cantMove, cantAggress, cantChallenge, cantExchange, cantAttack, cantChat,
         cantBeMerchant, cantUseObject, cantUseTaxCollector,
         cantUseInteractive, cantSpeakToNPC, cantChangeZone, cantAttackMonster, cantWalk8Directions }

def default : ActorRestrictionsInformations where
  cantBeAggressed := false
  cantBeChallenged := false
  cantTrade := false
  cantBeAttackedByMutant := false
  cantRun := false
  forceSlowWalk := false
  cantMinimize := false
  cantMove := false
  cantAggress := false
  cantChallenge := false
  cantExchange := false
  cantAttack := false
  cantChat := false
  cantBeMerchant := false
  cantUseObject := false
  cantUseTaxCollector := false
  cantUseInteractive := false
  cantSpeakToNPC := false
  cantChangeZone := false
  cantAttackMonster := false
  cantWalk8Directions := false

end ActorRestrictionsInformations

/-- A flag is found where it was set. -/
theorem setFlags_testBit {values : List Bool} : ∀ {flag : UInt8} {offset : Nat}, offset + values.length ≤ 8 →
    ∃ flag', setFlags flag offset values = .ok flag' ∧ ∀ j < 8,
      flag'.toNat.testBit j =
        if offset ≤ j then values.getD (j - offset) (flag.toNat.testBit j) else flag.toNat.testBit j := by
  induction values with
  | nil =>
    intro flag offset _
    refine ⟨flag, rfl, fun j _ => ?_⟩
    simp
  | cons value values ih =>
    intro flag offset hlen
    rw [List.length_cons] at hlen
    obtain ⟨flag₁, hset, hbits⟩ := setFlag_eq flag (show offset < 8 by omega) value
    obtain ⟨flag₂, hrest, hrestBits⟩ := @ih flag₁ (offset + 1) (by omega)
    refine ⟨flag₂, by rw [setFlags, hset, Outcome.ok_bind, hrest], fun j hj => ?_⟩
    rw [hrestBits j hj, hbits j hj]
    rcases Nat.lt_trichotomy j offset with hlt | rfl | hgt
    · rw [if_neg (by omega), if_neg (by omega), if_neg (by omega)]
    · simp
    · obtain ⟨k, rfl⟩ := Nat.exists_eq_add_of_lt hgt
      have hsub : offset + k + 1 - (offset + 1) = k := by omega
      have hsub' : offset + k + 1 - offset = k + 1 := by omega
      rw [if_pos (show offset + 1 ≤ offset + k + 1 by omega), if_pos (show offset ≤ offset + k + 1 by omega),
        if_neg (show ¬offset + k + 1 = offset by omega), hsub, hsub', List.getD_cons_succ]

theorem readFlag_flagByte {values : List Bool} {j : Nat} (hlen : values.length ≤ 8) (hj : j < values.length) :
    readFlag (flagByte values) j = pure (values.getD j false) := by
  obtain ⟨flag, hset, hbits⟩ := @setFlags_testBit values 0 0 (by omega)
  have hbyte : flagByte values = flag := by rw [flagByte, hset]; rfl
  funext c
  rw [readFlag, getFlag_eq (by omega), Outcome.ok_bind, hbyte, hbits j (by omega),
    if_pos (Nat.zero_le j), Nat.sub_zero,
    List.getD_eq_getElem _ _ hj, List.getD_eq_getElem _ _ hj]
  rfl

theorem reads_actorRestrictions (v : ActorRestrictionsInformations) :
    Reads ActorRestrictionsInformations.deserialize v.serialize v := by
  refine (reads_byte _).bind ((reads_byte _).bind ((reads_byte _).map ?_))
  simp (disch := simp) only [readFlag_flagByte, pure_bind]
  exact Reads.pure v

/-- The base type of the options was not resolved, so their bytes are neither written nor read. -/
structure HumanInformations where
  restrictions : ActorRestrictionsInformations
  sex : Bool
  options : List (List UInt8)
  deriving DecidableEq, Repr

def HumanInformations.serialize (v : HumanInformations) : List UInt8 :=
  v.restrictions.serialize ++ (writeBoolean v.sex ++ writeShort (Int16.ofNat v.options.length))

def HumanInformations.deserialize : BigEndianReader HumanInformations := do
  let restrictions ← ActorRestrictionsInformations.deserialize
  let sex ← readBoolean
  let options ← readVec (pure [])
  pure { restrictions, sex, options }

/-- What of it comes back. -/
def HumanInformations.Fits (v : HumanInformations) : Prop :=
  v.options.length < 2 ^ 16 ∧ ∀ option ∈ v.options, option = []

instance (v : HumanInformations) : Decidable v.Fits := inferInstanceAs (Decidable (_ ∧ _))

theorem codes_humanInformations :
    Codes HumanInformations.deserialize HumanInformations.serialize HumanInformations.Fits := by
  have hfields : Codes HumanInformations.deserialize _ _ :=
    Codes.field (E := fun _ => True) HumanInformations.restrictions (codes_of_reads reads_actorRestrictions) fun _ =>
      Codes.field HumanInformations.sex codes_boolean fun _ =>
      Codes.last HumanInformations.options (codes_vec (.known [])) fun _ v => by
        cases v
        simp [and_assoc]
  refine (hfields.of_eq fun v => ?_).of_iff fun v => ?_
  · simp [HumanInformations.serialize, writeVec]
  · simp [HumanInformations.Fits]

inductive HumanInformationsVariant where
  | humanInformations (v : HumanInformations)
  deriving DecidableEq, Repr

namespace HumanInformationsVariant

def getTypeId : HumanInformationsVariant → UInt16
  | humanInformations _ => 5831

def serialize : HumanInformationsVariant → List UInt8
  | humanInformations v => v.serialize

def deserializeWithId (typeId : UInt16) : BigEndianReader HumanInformationsVariant :=
  if typeId = 5831 then do
    let v ← HumanInformations.deserialize
    pure (humanInformations v)
  else Wire.Reader.fail (.unknownTypeId "HumanInformations" typeId)

def write (v : HumanInformationsVariant) : List UInt8 := writeUshort v.getTypeId ++ v.serialize

def read : BigEndianReader HumanInformationsVariant := do
  let typeId ← readUshort
  deserializeWithId typeId

def Fits : HumanInformationsVariant → Prop
  | humanInformations v => v.Fits

instance : (v : HumanInformationsVariant) → Decidable v.Fits
  | humanInformations v => inferInstanceAs (Decidable v.Fits)

end HumanInformationsVariant

theorem codes_humanInformationsVariant :
    Codes HumanInformationsVariant.read HumanInformationsVariant.write HumanInformationsVariant.Fits where
  reads v hv := by
    refine (reads_ushort v.getTypeId).bind ?_
    cases v with
    | humanInformations v => exact (codes_humanInformations.reads v hv).map (Reads.pure _)
  holds c v c' hr := by
    obtain ⟨⟨typeId, d⟩, -, hr⟩ := Outcome.bind_eq_ok.1 hr
    dsimp only at hr
    unfold HumanInformationsVariant.deserializeWithId at hr
    by_cases hid : typeId = 5831
    · rw [if_pos hid] at hr
      obtain ⟨⟨u, d'⟩, hu, hr⟩ := Outcome.bind_eq_ok.1 hr
      obtain ⟨rfl, -⟩ := Prod.mk.inj (Outcome.ok.inj hr)
      exact codes_humanInformations.holds d u d' hu
    · rw [if_neg hid] at hr
      cases hr

structure ActorAlignmentInformations where
  alignmentSide : UInt8
  alignmentValue : UInt8
  alignmentGrade : UInt8
  characterPower : UInt64
  deriving DecidableEq, Repr

def ActorAlignmentInformations.default : ActorAlignmentInformations := ⟨0, 0, 0, 0⟩

def ActorAlignmentInformations.serialize (v : ActorAlignmentInformations) : List UInt8 :=
  writeByte v.alignmentSide ++ (writeByte v.alignmentValue ++
    (writeByte v.alignmentGrade ++ writeDouble v.characterPower))

def ActorAlignmentInformations.deserialize : BigEndianReader ActorAlignmentInformations := do
  let alignmentSide ← readByte
  let alignmentValue ← readByte
  let alignmentGrade ← readByte
  let characterPower ← readDouble
  pure { alignmentSide, alignmentValue, alignmentGrade, characterPower }

theorem reads_actorAlignment (v : ActorAlignmentInformations) :
    Reads ActorAlignmentInformations.deserialize v.serialize v :=
  (reads_byte v.alignmentSide).bind ((reads_byte v.alignmentValue).bind ((reads_byte v.alignmentGrade).bind
    ((reads_ulong v.characterPower).map (Reads.pure v))))

structure GameRolePlayNpcQuestFlag where
  questsToValidId : List Int16
  questsToStartId : List Int16
  deriving DecidableEq, Repr

def GameRolePlayNpcQuestFlag.serialize (v : GameRolePlayNpcQuestFlag) : List UInt8 :=
  writeVec writeVarShort v.questsToValidId ++ writeVec writeVarShort v.questsToStartId

def GameRolePlayNpcQuestFlag.deserialize : BigEndianReader GameRolePlayNpcQuestFlag := do
  let questsToValidId ← readVec readVarShort
  let questsToStartId ← readVec readVarShort
  pure { questsToValidId, questsToStartId }

def GameRolePlayNpcQuestFlag.Fits (v : GameRolePlayNpcQuestFlag) : Prop :=
  v.questsToValidId.length < 2 ^ 16 ∧ v.questsToStartId.length < 2 ^ 16

theorem codes_gameRolePlayNpcQuestFlag :
    Codes GameRolePlayNpcQuestFlag.deserialize GameRolePlayNpcQuestFlag.serialize GameRolePlayNpcQuestFlag.Fits := by
  have hfields : Codes GameRolePlayNpcQuestFlag.deserialize _ _ :=
    Codes.field (E := fun _ => True) GameRolePlayNpcQuestFlag.questsToValidId (codes_vec codes_varShort) fun _ =>
      Codes.last GameRolePlayNpcQuestFlag.questsToStartId (codes_vec codes_varShort) fun _ v => by
        cases v
        simp
  exact hfields.of_iff fun v => by simp [GameRolePlayNpcQuestFlag.Fits]

/-! ### Characters and actors -/

structure CharacterBaseInformations where
  id : Int64
  name : String
  level : Int16
  entityLook : EntityLook
  breed : UInt8
  sex : Bool

namespace CharacterBaseInformations

def typeId : UInt16 := 6238

def serialize (v : CharacterBaseInformations) : List UInt8 :=
  writeVarLong v.id ++ (writeUtf v.name ++ (writeVarShort v.level ++ (v.entityLook.serialize ++
    (writeByte v.breed ++ writeBoolean v.sex))))

/-- The number bounds how many looks are one in the other, here and in what follows. -/
def deserialize (n : Nat) : BigEndianReader CharacterBaseInformations := do
  let id ← readVarLong
  let name ← readUtf
  let level ← readVarShort
  let entityLook ← EntityLook.deserialize n
  let breed ← readByte
  let sex ← readBoolean
  pure { id, name, level, entityLook, breed, sex }

def Fits (v : CharacterBaseInformations) : Prop := FitsUtf v.name ∧ v.entityLook.Fits

end CharacterBaseInformations

theorem codes_characterBaseInformations (n : Nat) :
    Codes (CharacterBaseInformations.deserialize n) CharacterBaseInformations.serialize
      fun v => v.Fits ∧ v.entityLook.depth ≤ n := by
  have hfields : Codes (CharacterBaseInformations.deserialize n) _ _ :=
    Codes.field (E := fun _ => True) CharacterBaseInformations.id codes_varLong fun _ =>
      Codes.field CharacterBaseInformations.name codes_utf fun _ =>
      Codes.field CharacterBaseInformations.level codes_varShort fun _ =>
      Codes.field CharacterBaseInformations.entityLook (codes_entityLook n) fun _ =>
      Codes.field CharacterBaseInformations.breed codes_byte fun _ =>
      Codes.last CharacterBaseInformations.sex codes_boolean fun _ v => by
        cases v
        simp [and_assoc]
  exact hfields.of_iff fun v => by simp [CharacterBaseInformations.Fits, and_assoc]

structure GameRolePlayCharacterInformations where
  contextualId : UInt64
  disposition : EntityDispositionInformationsVariant
  look : EntityLook
  name : String
  humanoidInfo : HumanInformationsVariant
  accountId : Int32
  alignmentInfos : ActorAlignmentInformations

namespace GameRolePlayCharacterInformations

def typeId : UInt16 := 5268

def serialize (v : GameRolePlayCharacterInformations) : List UInt8 :=
  writeDouble v.contextualId ++ (v.disposition.write ++
    (v.look.serialize ++ (writeUtf v.name ++ (v.humanoidInfo.write ++
    (writeInt v.accountId ++ v.alignmentInfos.serialize)))))

def deserialize (n : Nat) : BigEndianReader GameRolePlayCharacterInformations := do
  let contextualId ← readDouble
  let disposition ← EntityDispositionInformationsVariant.read
  let look ← EntityLook.deserialize n
  let name ← readUtf
  let humanoidInfo ← HumanInformationsVariant.read
  let accountId ← readInt
  let alignmentInfos ← ActorAlignmentInformations.deserialize
  pure { contextualId, disposition, look, name, humanoidInfo, accountId, alignmentInfos }

def Fits (v : GameRolePlayCharacterInformations) : Prop := v.look.Fits ∧ FitsUtf v.name ∧ v.humanoidInfo.Fits

end GameRolePlayCharacterInformations

theorem codes_gameRolePlayCharacterInformations (n : Nat) :
    Codes (GameRolePlayCharacterInformations.deserialize n) GameRolePlayCharacterInformations.serialize
      fun v => v.Fits ∧ v.look.depth ≤ n := by
  have hfields : Codes (GameRolePlayCharacterInformations.deserialize n) _ _ :=
    Codes.field (E := fun _ => True) GameRolePlayCharacterInformations.contextualId codes_double fun _ =>
      Codes.field GameRolePlayCharacterInformations.disposition codes_entityDispositionVariant fun _ =>
      Codes.field GameRolePlayCharacterInformations.look (codes_entityLook n) fun _ =>
      Codes.field GameRolePlayCharacterInformations.name codes_utf fun _ =>
      Codes.field GameRolePlayCharacterInformations.humanoidInfo codes_humanInformationsVariant fun _ =>
      Codes.field GameRolePlayCharacterInformations.accountId codes_int fun _ =>
      Codes.last GameRolePlayCharacterInformations.alignmentInfos (codes_of_reads reads_actorAlignment) fun _ v => by
        cases v
        simp [and_assoc]
  refine hfields.of_iff fun v => ?_
  simp only [GameRolePlayCharacterInformations.Fits, true_and, and_true]
  tauto

structure GameRolePlayNpcWithQuestInformations where
  contextualId : UInt64
  disposition : EntityDispositionInformationsVariant
  look : EntityLook
  npcId : Int16
  sex : Bool
  specialArtworkId : Int16
  questFlag : GameRolePlayNpcQuestFlag

namespace GameRolePlayNpcWithQuestInformations

def typeId : UInt16 := 5968

def serialize (v : GameRolePlayNpcWithQuestInformations) : List UInt8 :=
  writeDouble v.contextualId ++ (v.disposition.write ++
    (v.look.serialize ++ (writeVarShort v.npcId ++ (writeBoolean v.sex ++
    (writeVarShort v.specialArtworkId ++ v.questFlag.serialize)))))

def deserialize (n : Nat) : BigEndianReader GameRolePlayNpcWithQuestInformations := do
  let contextualId ← readDouble
  let disposition ← EntityDispositionInformationsVariant.read
  let look ← EntityLook.deserialize n
  let npcId ← readVarShort
  let sex ← readBoolean
  let specialArtworkId ← readVarShort
  let questFlag ← GameRolePlayNpcQuestFlag.deserialize
  pure { contextualId, disposition, look, npcId, sex, specialArtworkId, questFlag }

def Fits (v : GameRolePlayNpcWithQuestInformations) : Prop := v.look.Fits ∧ v.questFlag.Fits

end GameRolePlayNpcWithQuestInformations

theorem codes_gameRolePlayNpcWithQuestInformations (n : Nat) :
    Codes (GameRolePlayNpcWithQuestInformations.deserialize n) GameRolePlayNpcWithQuestInformations.serialize
      fun v => v.Fits ∧ v.look.depth ≤ n := by
  have hfields : Codes (GameRolePlayNpcWithQuestInformations.deserialize n) _ _ :=
    Codes.field (E := fun _ => True) GameRolePlayNpcWithQuestInformations.contextualId codes_double fun _ =>
      Codes.field GameRolePlayNpcWithQuestInformations.disposition codes_entityDispositionVariant fun _ =>
      Codes.field GameRolePlayNpcWithQuestInformations.look (codes_entityLook n) fun _ =>
      Codes.field GameRolePlayNpcWithQuestInformations.npcId codes_varShort fun _ =>
      Codes.field GameRolePlayNpcWithQuestInformations.sex codes_boolean fun _ =>
      Codes.field GameRolePlayNpcWithQuestInformations.specialArtworkId codes_varShort fun _ =>
      Codes.last GameRolePlayNpcWithQuestInformations.questFlag codes_gameRolePlayNpcQuestFlag fun _ v => by
        cases v
        simp [and_assoc]
  refine hfields.of_iff fun v => ?_
  simp only [GameRolePlayNpcWithQuestInformations.Fits, true_and]
  tauto

end Otomai.Protocol
