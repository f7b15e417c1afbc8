import Otomai.Protocol.Registry
import Otomai.ProtocolGen.Lengths
import Otomai.ProtocolGen.Totality

/-!
# `from_raw` on arbitrary payloads

Every registered message but three reads its lengths as unsigned numbers of two bytes, so no payload makes its
deserializer panic.  The other three read the length of a byte vector with `read_var_int` and cast it to `usize`: a
negative length asks `Vec::with_capacity` for more than the address space.

A length that no bytes can satisfy is refused when they run out, unless what it counts takes no bytes: the elements of
a vector whose base is unresolved are default values, of which a payload of a few bytes asks for thousands.

* `fromRaw_returns_iff`: `from_raw` ends with a value or an error unless a length is negative.
* `robust_iff`: besides, every length fits the bytes behind it or is refused if and only if the counts of default
  values fit.
-/

namespace Otomai.Protocol

open Wire BigEndianReader ProtocolGen

/-- The messages with a vector whose length is a signed `VarInt`. -/
def varIntMessages : List ClassName := [.helloConnectMessage, .identificationMessage, .selectedServerDataMessage]

/-- How deep a class nests others without a length or an id before them. -/
def inlineDepth : ClassName → Nat
  | .identificationMessage | .setCharacterRestrictionsMessage | .gameMapChangeOrientationMessage
  | .gameEntityDispositionMessage | .characterSpellModification | .characterCharacteristicsInformations
  | .namedPartyTeamWithOutcome | .subEntity | .gameContextActorInformations | .gameRolePlayActorInformations
  | .allianceInformations | .gameRolePlayPrismInformations | .guildInformations
  | .gameRolePlayTaxCollectorInformations | .monsterInGroupInformations | .groupMonsterStaticInformations
  | .groupMonsterStaticInformationsWithAlternatives | .gameRolePlayGroupMonsterInformations
  | .gameRolePlayGroupMonsterWaveInformations | .gameRolePlayTreasureHintInformations
  | .gameRolePlayNamedActorInformations | .gameRolePlayMerchantInformations | .humanInformations
  | .gameRolePlayHumanoidInformations | .gameRolePlayCharacterInformations | .gameRolePlayMutantInformations
  | .gameRolePlayMountInformations | .gameRolePlayPortalInformations | .gameRolePlayNpcInformations
  | .gameRolePlayNpcWithQuestInformations | .gameFightAIInformations | .gameFightMonsterInformations
  | .gameFightMonsterWithAlignmentInformations | .gameFightTaxCollectorInformations
  | .gameFightFighterNamedInformations | .gameFightMutantInformations | .gameFightCharacterInformations
  | .gameFightEntityInformation | .gameFightFighterInformations => 1
  | .characterStatsListMessage | .alliancePrismInformation | .taxCollectorStaticInformations
  | .taxCollectorStaticExtendedInformations => 2
  | _ => 0

/-- Reads the fields before the vector that is counted by a `VarInt`, then the count. -/
def readCount : ClassName → Option (BigEndianReader Int32)
  | .helloConnectMessage => some do
    let _salt ← readUtf
    readVarInt
  | .identificationMessage => some do
    let _flag ← readByte
    let _major ← readByte
    let _minor ← readByte
    let _code ← readByte
    let _build ← readInt
    let _buildType ← readByte
    let _lang ← readUtf
    readVarInt
  | .selectedServerDataMessage => some do
    let _serverId ← readVarShort
    let _address ← readUtf
    let ports ← readUshort
    let _ports ← Wire.Reader.replicate readVarShort ports.toNat
    let _canCreateNewCharacter ← readBoolean
    readVarInt
  | _ => none

/-- The message has a vector counted by a `VarInt`, and where its count stands the payload holds a negative one. -/
def NegativeLength (messageId : UInt16) (payload : List UInt8) : Prop :=
  ∃ name read x c, messages.lookup messageId = some name ∧ readCount name = some read ∧
    read (Cursor.ofBytes payload) = .ok (x, c) ∧ x < 0

/-- The lengths that `from_raw` reads in the payload. -/
def lengths (fuel : Nat) (messageId : UInt16) (payload : List UInt8) : List (LengthPrefix ClassName) :=
  match messages.lookup messageId with
  | some name => (protocol.deserializeLogged (fun n => some (body n)) fuel name (Cursor.ofBytes payload)).1
  | none => []

/-- `from_raw` ends with a value or an error, and every length that it reads is at most the number of bytes left, or
is the reason why the payload is refused. -/
def Robust (messageId : UInt16) (payload : List UInt8) : Prop :=
  ∃ fuel, ∀ n ≥ fuel, (fromRaw n messageId payload).Returns (fun _ => True) ∧
    ∀ p ∈ lengths n messageId payload, p.count ≤ p.unread ∨
      ∃ e, p.ending = .err e ∧ fromRaw n messageId payload = .err e

/-- Where the payload says how many elements of an unresolved base there are, it has as many bytes left. -/
def UnresolvedFit (messageId : UInt16) (payload : List UInt8) : Prop :=
  ∃ fuel, ∀ n ≥ fuel, ∀ p ∈ lengths n messageId payload, p.counted = .elements .default → p.count ≤ p.unread

/-! ### The bodies -/

private abbrev Safe (name : ClassName) : Prop := name ∉ varIntMessages

private instance (r : Nat) (i : Initializer ClassName) : Decidable (SafeInitializer Safe inlineDepth r i) := by
  unfold SafeInitializer
  split <;> infer_instance

private theorem body_safe (name : ClassName) : name ∈ varIntMessages ∨
    ∀ i ∈ (body name).initializers, SafeInitializer Safe inlineDepth (inlineDepth name) i := by
  cases name <;> decide

private theorem inlineDepth_le (name : ClassName) : inlineDepth name ≤ 2 := by
  cases name <;> decide

private theorem safeBodies : SafeBodies protocol (fun n => some (body n)) Safe inlineDepth 2 where
  rank_le name _ := inlineDepth_le name
  body_safe name hs := ⟨body name, rfl, (body_safe name).resolve_left hs⟩
  variants_safe base x hx := by
    have all : ∀ h ∈ hierarchies, ∀ x ∈ h.variants, Safe x.1 := by decide
    unfold ProtocolGen.Protocol.variants at hx
    split at hx
    · rename_i h hfind
      exact all h (List.mem_of_find?_eq_some hfind) x hx
    · exact absurd hx List.not_mem_nil

/-- The classes of the elements of vectors, and one that such an element begins with. -/
private def sizedClasses : List ClassName :=
  [.gameServerInformations, .objectItem, .spellItem, .idol, .namedPartyTeamWithOutcome, .namedPartyTeam,
    .characterSpellModification, .subEntity, .monsterInGroupInformations, .monsterInGroupLightInformations,
    .alternativeMonstersInGroupLightInformations]

private abbrev Sized (name : ClassName) : Prop := name ∈ sizedClasses

private instance (i : Initializer ClassName) : Decidable (i.Sized Sized) := by
  unfold Initializer.Sized
  split <;> infer_instance

private instance (i : Initializer ClassName) : Decidable (i.SizedElements Sized) := by
  unfold Initializer.SizedElements
  split <;> infer_instance

private theorem body_takes (name : ClassName) : name ∉ sizedClasses ∨
    0 < (body name).flagReads ∨ ∃ i ∈ (body name).initializers, i.Sized Sized := by
  cases name <;> decide

private theorem body_elements (name : ClassName) : ∀ i ∈ (body name).initializers, i.SizedElements Sized := by
  cases name <;> decide

private theorem sizedBodies : SizedBodies (fun n => some (body n)) Sized where
  takes name b hname hb := by
    obtain rfl := Option.some.inj hb
    exact (body_takes name).resolve_left (not_not_intro hname)
  elements name b hb := by
    obtain rfl := Option.some.inj hb
    exact body_elements name

/-! ### Counts -/

/-- Of the inputs of at most `k` bytes, `d` panics on those where `r` reads a negative count. -/
private def PanicsOnNegative {α : Type} (k : Nat) (r : BigEndianReader Int32) (d : BigEndianReader α) : Prop :=
  ∀ c, Unread k c → ((d c).Returns (fun _ => True) ↔ ∀ x c', r c = .ok (x, c') → 0 ≤ x)

private theorem asUsize_of_nonneg {x : Int32} (h : 0 ≤ x) : asUsize x ≤ isizeMax := by
  have h0 : (0 : Int32).toInt ≤ x.toInt := Int32.le_iff_toInt_le.1 h
  have h1 := x.toInt_lt
  unfold asUsize isizeMax
  simp only [Int32.toInt_zero] at h0
  omega

private theorem asUsize_of_neg {x : Int32} (h : x < 0) : isizeMax < asUsize x := by
  have h0 : x.toInt < (0 : Int32).toInt := Int32.lt_iff_toInt_lt.1 h
  have h1 := x.le_toInt
  unfold asUsize isizeMax
  simp only [Int32.toInt_zero] at h0
  omega

private theorem PanicsOnNegative.count {α : Type} {k : Nat} {tail : Int32 → BigEndianReader α}
    (h : ∀ x, Returns (Unread k) (tail x) fun _ => Unread k) :
    PanicsOnNegative k readVarInt (readVarInt >>= fun x => withCapacity (asUsize x) >>= fun _ => tail x) := by
  intro c hc
  have hr := returns_varInt k c hc
  rw [Wire.Reader.bind_apply]
  cases hx : readVarInt c with
  | ok y =>
    rw [hx] at hr
    simp only [Outcome.ok_bind, Outcome.ok.injEq]
    constructor
    · rintro hret x c' rfl
      by_contra hneg
      rw [withCapacity, if_pos (asUsize_of_neg (Int32.not_le.1 hneg))] at hret
      exact hret
    · intro hpos
      rw [withCapacity, if_neg (Nat.not_lt.2 (asUsize_of_nonneg (hpos y.1 y.2 rfl)))]
      exact ((h y.1).mono (fun _ h => h) fun _ _ _ => trivial) y.2 hr
  | err e => simp [Outcome.Returns]
  | panic => rw [hx] at hr; exact hr.elim
  | exhausted => rw [hx] at hr; exact hr.elim

private theorem PanicsOnNegative.bind {α β : Type} {k : Nat} {head : BigEndianReader β}
    {r : β → BigEndianReader Int32} {d : β → BigEndianReader α} (h : Returns (Unread k) head fun _ => Unread k)
    (h' : ∀ a, PanicsOnNegative k (r a) (d a)) : PanicsOnNegative k (head >>= r) (head >>= d) := by
  intro c hc
  have hr := h c hc
  simp only [Wire.Reader.bind_apply]
  cases hx : head c with
  | ok y =>
    rw [hx] at hr
    exact h' y.1 y.2 hr
  | err e => simp [Outcome.Returns]
  | panic => rw [hx] at hr; exact hr.elim
  | exhausted => rw [hx] at hr; exact hr.elim

/-! ### The three messages -/

private theorem withCapacity_ushort (n : UInt16) : withCapacity n.toNat = pure () := by
  have h := n.toNat_lt
  unfold withCapacity isizeMax
  rw [if_neg (by omega)]

/-- The bytes of a counted vector, and what follows it. -/
private theorem returns_counted {α : Type} {k : Nat} {tail : List (Value ClassName) → BigEndianReader α}
    (h : ∀ vs, Returns (Unread k) (tail vs) fun _ => Unread k) (n : Nat) :
    Returns (Unread k) (Wire.Reader.replicate Method.byte.read n >>= tail) fun _ => Unread k :=
  (Returns.replicate (Method.byte.returns k) n).bind h

private theorem panicsOnNegative_helloConnect (k n : Nat) :
    PanicsOnNegative k (do let _ ← readUtf; readVarInt) (deserialize (n + 1) .helloConnectMessage) := by
  have h : deserialize (n + 1) .helloConnectMessage = readUtf >>= fun salt => readVarInt >>= fun x =>
      withCapacity (asUsize x) >>= fun _ => Wire.Reader.replicate Method.byte.read (asUsize x) >>= fun key =>
      pure (.struct .helloConnectMessage [.string salt, .vec key]) := by
    simp [deserialize, Protocol.deserializeWith, body, DeserializeBody.run, Wire.Reader.replicate,
      Wire.Reader.forEach, Initializer.run, Method.read, Method.readLength, ElementRead.run]
  rw [h]
  exact PanicsOnNegative.bind (returns_utf k) fun _ => PanicsOnNegative.count fun x =>
    returns_counted (fun _ => Returns.pure fun _ hc => hc) _

private theorem panicsOnNegative_selectedServerData (k n : Nat) :
    PanicsOnNegative k (do
      let _ ← readVarShort
      let _ ← readUtf
      let ports ← readUshort
      let _ ← Wire.Reader.replicate readVarShort ports.toNat
      let _ ← readBoolean
      readVarInt) (deserialize (n + 1) .selectedServerDataMessage) := by
  have h : deserialize (n + 1) .selectedServerDataMessage = readVarShort >>= fun serverId =>
    readUtf >>= fun address =>
      readUshort >>= fun count => Wire.Reader.replicate readVarShort count.toNat >>= fun ports =>
      readBoolean >>= fun canCreate => readVarInt >>= fun x =>
      withCapacity (asUsize x) >>= fun _ => Wire.Reader.replicate Method.byte.read (asUsize x) >>= fun ticket =>
      pure (.struct .selectedServerDataMessage [.i16 serverId, .string address, .vec (ports.map .i16),
        .bool canCreate, .vec ticket]) := by
    simp [deserialize, Protocol.deserializeWith, body, DeserializeBody.run, Wire.Reader.replicate,
      Wire.Reader.forEach, Initializer.run, Method.read, Method.readLength, ElementRead.run, withCapacity_ushort,
      Wire.Reader.replicate_map]
  rw [h]
  exact PanicsOnNegative.bind (returns_varShort k) fun _ => PanicsOnNegative.bind (returns_utf k) fun _ =>
    PanicsOnNegative.bind (returns_ushort_le k) fun _ =>
    PanicsOnNegative.bind (Returns.replicate (returns_varShort k) _) fun _ =>
    PanicsOnNegative.bind (returns_boolean k) fun _ => PanicsOnNegative.count fun x =>
    returns_counted (fun _ => Returns.pure fun _ hc => hc) _

private theorem panicsOnNegative_identification (k n : Nat) :
    PanicsOnNegative k (do
      let _ ← readByte
      let _ ← readByte
      let _ ← readByte
      let _ ← readByte
      let _ ← readInt
      let _ ← readByte
      let _ ← readUtf
      readVarInt) (deserialize (n + 2) .identificationMessage) := by
  have h : deserialize (n + 2) .identificationMessage = readByte >>= fun flag => readByte >>= fun major =>
      readByte >>= fun minor => readByte >>= fun code => readInt >>= fun build => readByte >>= fun buildType =>
      readUtf >>= fun lang => readVarInt >>= fun x =>
      withCapacity (asUsize x) >>= fun _ => Wire.Reader.replicate Method.byte.read (asUsize x) >>= fun credentials =>
      Method.short.read >>= fun serverId => Method.varLong.read >>= fun salt =>
      readUshort >>= fun count => Wire.Reader.replicate Method.varShort.read count.toNat >>= fun attempts =>
      pure (.struct .identificationMessage [.bool (flag.toNat.testBit 0), .bool (flag.toNat.testBit 1),
        .bool (flag.toNat.testBit 2), .struct .version [.u8 major, .u8 minor, .u8 code, .i32 build, .u8 buildType],
        .string lang, .vec credentials, serverId, salt, .vec attempts]) := by
    simp [deserialize, Protocol.deserializeWith, body, DeserializeBody.run, Wire.Reader.replicate,
      Wire.Reader.forEach, Initializer.run, Method.read, Method.readLength, ElementRead.run, withCapacity_ushort,
      Wire.Reader.replicate_map, BooleanByteWrapper.getFlag_eq]
  rw [h]
  refine PanicsOnNegative.bind (returns_byte k) fun _ => PanicsOnNegative.bind (returns_byte k) fun _ =>
    PanicsOnNegative.bind (returns_byte k) fun _ => PanicsOnNegative.bind (returns_byte k) fun _ =>
    PanicsOnNegative.bind (returns_int k) fun _ => PanicsOnNegative.bind (returns_byte k) fun _ =>
    PanicsOnNegative.bind (returns_utf k) fun _ => PanicsOnNegative.count fun x => returns_counted (fun _ => ?_) _
  exact (Method.short.returns k).bind fun _ => (Method.varLong.returns k).bind fun _ =>
    (returns_ushort_le k).bind fun _ => (Returns.replicate (Method.varShort.returns k) _).bind fun _ =>
    Returns.pure fun _ hc => hc

/-- The messages that count a vector with a `VarInt` panic exactly on the payloads with a negative count. -/
private theorem panicsOnNegative {name : ClassName} {read : BigEndianReader Int32} (h : readCount name = some read)
    (k n : Nat) : PanicsOnNegative k read (deserialize (n + 2) name) := by
  unfold readCount at h
  split at h
  · obtain rfl := Option.some.inj h
    exact panicsOnNegative_helloConnect k (n + 1)
  · obtain rfl := Option.some.inj h
    exact panicsOnNegative_identification k n
  · obtain rfl := Option.some.inj h
    exact panicsOnNegative_selectedServerData k (n + 1)
  · cases h

private theorem readCount_eq_none {name : ClassName} (h : readCount name = none) : Safe name := by
  cases name <;> first | decide | cases h

/-! ### `from_raw` -/

private theorem fromRaw_returns_known {messageId : UInt16} {name : ClassName}
    (h : messages.lookup messageId = some name) (n : Nat) (payload : List UInt8) :
    (fromRaw n messageId payload).Returns (fun _ => True) ↔
      (deserialize n name (Cursor.ofBytes payload)).Returns fun _ => True := by
  simp only [fromRaw, h]
  cases deserialize n name (Cursor.ofBytes payload) <;> rfl

/-- Two nested calls reach the count; more of them change nothing. -/
private theorem fromRaw_returns_counted {messageId : UInt16} {name : ClassName} {read : BigEndianReader Int32}
    (hid : messages.lookup messageId = some name) (hread : readCount name = some read) (n : Nat)
    (payload : List UInt8) :
    (fromRaw (n + 2) messageId payload).Returns (fun _ => True) ↔
      ∀ x c, read (Cursor.ofBytes payload) = .ok (x, c) → 0 ≤ x :=
  (fromRaw_returns_known hid _ _).trans (panicsOnNegative hread payload.length n _ (Nat.le_refl _))

private theorem not_returns_of_negative {messageId : UInt16} {payload : List UInt8}
    (h : NegativeLength messageId payload) :
    ¬∃ fuel, ∀ n ≥ fuel, (fromRaw n messageId payload).Returns fun _ => True := by
  obtain ⟨name, read, x, c, hid, hread, hx, hneg⟩ := h
  rintro ⟨fuel, h⟩
  have hpos := (fromRaw_returns_counted hid hread fuel payload).1 (h (fuel + 2) (by omega)) x c hx
  exact absurd hneg (Int32.not_lt.2 hpos)

/-- For every message id and payload, `from_raw` ends with a value or an error if and only if the payload has no
negative length. -/
theorem fromRaw_returns_iff (messageId : UInt16) (payload : List UInt8) :
    (∃ fuel, ∀ n ≥ fuel, (fromRaw n messageId payload).Returns fun _ => True) ↔
    ¬NegativeLength messageId payload := by
  cases hid : messages.lookup messageId with
  | none =>
    refine iff_of_true ⟨0, fun n _ => ?_⟩ ?_
    · simp only [fromRaw, hid]
      trivial
    · rintro ⟨name, _, _, _, hname, -⟩
      rw [hid] at hname
      cases hname
  | some name =>
    cases hread : readCount name with
    | none =>
      refine iff_of_true ⟨payload.length * 3 + 3, fun n hn => ?_⟩ ?_
      · have hrank := inlineDepth_le name
        exact (fromRaw_returns_known hid n payload).2
          (((returns_deserialize safeBodies n payload.length name (readCount_eq_none hread) (by omega)).mono
            (fun _ h => h) fun _ _ _ => trivial) (Cursor.ofBytes payload) (Nat.le_refl _))
      · rintro ⟨name', _, _, _, hname, hread', -⟩
        obtain rfl := Option.some.inj (hid.symm.trans hname)
        rw [hread] at hread'
        cases hread'
    | some read =>
      refine ⟨fun h hneg => not_returns_of_negative hneg h, fun hneg => ⟨2, fun n hn => ?_⟩⟩
      obtain ⟨n, rfl⟩ : ∃ m, n = m + 2 := ⟨n - 2, by omega⟩
      exact (fromRaw_returns_counted hid hread n payload).2 fun x c hx =>
        Int32.not_lt.1 fun hlt => hneg ⟨name, read, x, c, hid, hread, hx, hlt⟩

/-- A length is accounted for by the way in which `from_raw` ends. -/
private theorem accounted_of_mem_lengths {n : Nat} {messageId : UInt16} {payload : List UInt8}
    {p : LengthPrefix ClassName} (hp : p ∈ lengths n messageId payload) :
    Accounted p (fromRaw n messageId payload).ending := by
  unfold lengths at hp
  unfold fromRaw
  cases hid : messages.lookup messageId with
  | none =>
    rw [hid] at hp
    exact absurd hp List.not_mem_nil
  | some name =>
    rw [hid] at hp
    have h := explains_deserializeLogged (P := protocol) sizedBodies n name (Cursor.ofBytes payload) p hp
    have hsame := congrFun (unlogged_deserializeLogged protocol (fun n => some (body n)) n name)
      (Cursor.ofBytes payload)
    rw [LogReader.unlogged] at hsame
    rw [hsame] at h
    dsimp only
    rw [deserialize]
    cases hread : protocol.deserializeWith (fun n => some (body n)) n name (Cursor.ofBytes payload) <;>
      rwa [hread] at h

/-- For every message id and payload, `from_raw` ends with a value or an error and accepts no length beyond the bytes
left if and only if no length is negative and the counts of default values fit. -/
theorem robust_iff (messageId : UInt16) (payload : List UInt8) :
    Robust messageId payload ↔ ¬NegativeLength messageId payload ∧ UnresolvedFit messageId payload := by
  rw [← fromRaw_returns_iff]
  constructor
  · rintro ⟨fuel, h⟩
    refine ⟨⟨fuel, fun n hn => (h n hn).1⟩, fuel, fun n hn p hp hcounted => ?_⟩
    rcases (h n hn).2 p hp with hle | ⟨e, he, -⟩
    · exact hle
    · exact absurd he ((accounted_of_mem_lengths hp).unresolved hcounted e)
  · rintro ⟨⟨fuel, hreturns⟩, fuel', hfit⟩
    refine ⟨max fuel fuel', fun n hn => ?_⟩
    have hret := hreturns n (le_of_max_le_left hn)
    refine ⟨hret, fun p hp => ?_⟩
    have haccounted := accounted_of_mem_lengths hp
    by_cases hcounted : p.counted = .elements .default
    · exact .inl (hfit n (le_of_max_le_right hn) p hp hcounted)
    · by_cases hok : p.ending = .ok ()
      · exact .inl (haccounted.fits hok hcounted)
      · -- what was not read is the end of the whole reading, which is no panic
        have hend := haccounted.passesOn hok
        right
        cases hraw : fromRaw n messageId payload with
        | ok m =>
          rw [hraw] at hend
          exact absurd hend.symm hok
        | err e =>
          rw [hraw] at hend
          exact ⟨e, hend.symm, rfl⟩
        | panic =>
          rw [hraw] at hret
          exact hret.elim
        | exhausted =>
          rw [hraw] at hret
          exact hret.elim

/-- An identification whose credentials have length -1. -/
def negativeCredentials : List UInt8 := [0, 2, 0, 0, 0, 0, 0, 0, 0, 0, 0, 0xff, 0xff, 0xff, 0xff, 0x0f]

private theorem readCount_negativeCredentials {read : BigEndianReader Int32}
    (h : readCount .identificationMessage = some read) :
    read (Cursor.ofBytes negativeCredentials) = .ok (-1, ⟨16, []⟩) := by
  obtain rfl := Option.some.inj h
  decide +kernel

/-- A list of quests that counts three active ones and holds none. -/
def threeQuests : List UInt8 := [0, 0, 0, 0, 0, 3, 0, 0]

private theorem mem_lengths_threeQuests (n : Nat) :
    ⟨.elements .default, 3, 2, .ok ()⟩ ∈ lengths (n + 1) 7788 threeQuests := by
  have hid : messages.lookup 7788 = some .questListMessage := by decide +kernel
  rw [lengths, hid]
  have hthird : ((protocol.deserializeLogged (fun n => some (body n)) (n + 1) .questListMessage
      (Cursor.ofBytes threeQuests)).1[2]?) = some ⟨.elements .default, 3, 2, .ok ()⟩ := rfl
  exact List.mem_of_getElem? hthird

/-- For one payload `Vec::with_capacity` is asked for `usize::MAX` bytes; from two bytes of another three quests
are made. -/
theorem not_robust : ¬Robust 8050 negativeCredentials ∧ ¬Robust 7788 threeQuests := by
  constructor
  · rintro ⟨fuel, h⟩
    refine not_returns_of_negative ⟨.identificationMessage, _, -1, ⟨16, []⟩, by decide +kernel, rfl,
      readCount_negativeCredentials rfl, by decide⟩ ⟨fuel, fun n hn => (h n hn).1⟩
  · rintro ⟨fuel, h⟩
    rcases (h (fuel + 1) (Nat.le_succ fuel)).2 _ (mem_lengths_threeQuests fuel) with hle | ⟨e, he, -⟩
    · exact absurd hle (by decide)
    · cases he

end Otomai.Protocol
