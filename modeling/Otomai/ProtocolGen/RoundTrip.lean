import Mathlib.Data.List.Forall2
import Otomai.ProtocolGen.Generated

/-!
# Round trips of generated codecs

When does the deserializer the generator emits read back what the serializer wrote?

The read side hoists the flag bytes of a class before its fields, the write side emits them in place, so the two
agree when nothing is written before a group of flags but flags and fields that write nothing (`FlagsFirst`).  A
group of more than eight flags panics on the write side (`set_flag(.., 8, ..).unwrap()`).  The results:

* `roundTrips_of_layout`: under these two conditions every value of the class reads back.
* `roundTrips_iff`: no class of a protocol that can have a value reads back otherwise.
-/

namespace Otomai.ProtocolGen

open Wire BigEndianWriter BigEndianReader

variable {ν : Type}

/-! ### Values that can be sent -/

/-- A value of a primitive type; a string must fit its two-byte length. -/
def Scalar : RustType ν → Value ν → Prop
  | .bool, v => ∃ b, v = .bool b
  | .u8, v => ∃ n, v = .u8 n
  | .i16, v => ∃ n, v = .i16 n
  | .u16, v => ∃ n, v = .u16 n
  | .i32, v => ∃ n, v = .i32 n
  | .u32, v => ∃ n, v = .u32 n
  | .i64, v => ∃ n, v = .i64 n
  | .u64, v => ∃ n, v = .u64 n
  | .f32, v => ∃ bits, v = .f32 bits
  | .f64, v => ∃ bits, v = .f64 bits
  | .string, v => ∃ s, v = .string s ∧ (asBytes s).length < 2 ^ 16
  | _, _ => False

/-- The length of a vector fits the prefix it is written with. -/
def FitsLength (lengthType : String) (n : Nat) : Prop :=
  match lengthWriteMethod lengthType with
  | .varInt => n < 2 ^ 31
  | .byte => n < 2 ^ 8
  | _ => n < 2 ^ 16

/-! ### One value -/

theorem base128_ne_nil (v : Nat) : base128 v ≠ [] := by
  rw [base128]
  split <;> simp

/-- A primitive value is written as at least one byte and read back. -/
theorem Method.reads {m : Method} {v : Value ν} (h : Scalar m.rustType v) :
    ∃ w, m.write v = .ok w ∧ w ≠ [] ∧ Reads m.read w v := by
  cases m with
  | boolean =>
    obtain ⟨b, rfl⟩ := h
    exact ⟨_, rfl, by simp [writeBoolean, writeByte], (reads_boolean b).map (Reads.pure _)⟩
  | byte =>
    obtain ⟨n, rfl⟩ := h
    exact ⟨_, rfl, by simp [writeByte], (reads_byte n).map (Reads.pure _)⟩
  | short =>
    obtain ⟨n, rfl⟩ := h
    exact ⟨_, rfl, by simp [writeShort, writeUshort, bigEndian], (reads_short n).map (Reads.pure _)⟩
  | ushort =>
    obtain ⟨n, rfl⟩ := h
    exact ⟨_, rfl, by simp [writeUshort, bigEndian], (reads_ushort n).map (Reads.pure _)⟩
  | int =>
    obtain ⟨n, rfl⟩ := h
    exact ⟨_, rfl, by simp [writeInt, writeUint, bigEndian], (reads_int n).map (Reads.pure _)⟩
  | uint =>
    obtain ⟨n, rfl⟩ := h
    exact ⟨_, rfl, by simp [writeUint, bigEndian], (reads_uint n).map (Reads.pure _)⟩
  | float =>
    obtain ⟨n, rfl⟩ := h
    exact ⟨_, rfl, by simp [writeFloat, writeUint, bigEndian], (reads_uint n).map (Reads.pure _)⟩
  | double =>
    obtain ⟨n, rfl⟩ := h
    exact ⟨_, rfl, by simp [writeDouble, writeUlong, bigEndian], (reads_ulong n).map (Reads.pure _)⟩
  | utf =>
    obtain ⟨s, rfl, hs⟩ := h
    exact ⟨_, rfl, by simp [writeUtf, writeUshort, bigEndian], (reads_utf hs).map (Reads.pure _)⟩
  | varInt =>
    obtain ⟨n, rfl⟩ := h
    exact ⟨_, rfl, by rw [writeVarInt, writeVarUint_eq]; exact base128_ne_nil _,
      (reads_varInt n).map (Reads.pure _)⟩
  | varUint =>
    obtain ⟨n, rfl⟩ := h
    exact ⟨_, rfl, by rw [writeVarUint_eq]; exact base128_ne_nil _, (reads_varUint n).map (Reads.pure _)⟩
  | varShort =>
    obtain ⟨n, rfl⟩ := h
    exact ⟨_, rfl, by rw [writeVarShort, writeVarUshort_eq]; exact base128_ne_nil _,
      (reads_varShort n).map (Reads.pure _)⟩
  | varUshort =>
    obtain ⟨n, rfl⟩ := h
    exact ⟨_, rfl, by rw [writeVarUshort_eq]; exact base128_ne_nil _, (reads_varUshort n).map (Reads.pure _)⟩
  | varLong =>
    obtain ⟨n, rfl⟩ := h
    exact ⟨_, rfl, by rw [writeVarLong, writeVarUlong_eq]; exact base128_ne_nil _,
      (reads_varLong n).map (Reads.pure _)⟩
  | varUlong =>
    obtain ⟨n, rfl⟩ := h
    exact ⟨_, rfl, by rw [writeVarUlong_eq]; exact base128_ne_nil _, (reads_varUlong n).map (Reads.pure _)⟩

theorem asUsize_ofNat {n : Nat} (h : n < 2 ^ 31) : asUsize (Int32.ofNat n) = n := by
  have e : (Int32.ofNat n).toInt = n := Int32.toInt_ofNat_of_lt h
  rw [asUsize, e]
  omega

/-- The method that reads a length reads what the method that writes it wrote. -/
private theorem length_methods (lengthType : String) :
    (lengthWriteMethod lengthType = .varInt ∧ lengthReadMethod lengthType = .varInt) ∨
    (lengthWriteMethod lengthType = .byte ∧ lengthReadMethod lengthType = .byte) ∨
    ((lengthWriteMethod lengthType = .ushort ∨ lengthWriteMethod lengthType = .short) ∧
      lengthReadMethod lengthType = .ushort) := by
  unfold lengthWriteMethod lengthReadMethod
  split <;> simp

/-- A length prefix is read back when the length fits it. -/
theorem reads_length {lengthType : String} {n : Nat} (h : FitsLength lengthType n) :
    ∃ w, (lengthWriteMethod lengthType).write ((lengthWriteMethod lengthType).ofLength n : Value ν) = .ok w ∧
      w ≠ [] ∧ Reads (lengthReadMethod lengthType).readLength w n ∧ n ≤ isizeMax := by
  unfold FitsLength at h
  rcases length_methods lengthType with ⟨hw, hr⟩ | ⟨hw, hr⟩ | ⟨hw, hr⟩
  · rw [hw] at h ⊢
    rw [hr]
    refine ⟨_, rfl, by rw [writeVarInt, writeVarUint_eq]; exact base128_ne_nil _, ?_, ?_⟩
    · refine (reads_varInt _).map ?_
      rw [asUsize_ofNat h]
      exact Reads.pure n
    · exact Nat.le_trans (Nat.le_of_lt h) (by decide)
  · rw [hw] at h ⊢
    rw [hr]
    refine ⟨_, rfl, by simp [writeByte], ?_, Nat.le_trans (Nat.le_of_lt h) (by decide)⟩
    refine (reads_byte _).map ?_
    rw [UInt8.toNat_ofNat_of_lt' h]
    exact Reads.pure n
  · have h' : n < 2 ^ 16 := by rcases hw with hw | hw <;> rw [hw] at h <;> exact h
    have hread : Reads (Method.ushort).readLength (writeUshort (UInt16.ofNat n)) n := by
      refine (reads_ushort _).map ?_
      rw [UInt16.toNat_ofNat_of_lt' h']
      exact Reads.pure n
    have hne : writeUshort (UInt16.ofNat n) ≠ [] := by simp [writeUshort, bigEndian]
    rw [hr]
    rcases hw with hw | hw <;> rw [hw]
    · exact ⟨_, rfl, hne, hread, Nat.le_trans (Nat.le_of_lt h') (by decide)⟩
    · exact ⟨_, rfl, hne, hread, Nat.le_trans (Nat.le_of_lt h') (by decide)⟩

/-! ### Lists of values -/

theorem getElem?_of_drop_eq_cons {vs us : List (Value ν)} {i : Nat} {u : Value ν} (h : vs.drop i = u :: us) :
    vs[i]? = some u ∧ vs.drop (i + 1) = us := by
  constructor
  · rw [← Nat.add_zero i, ← List.getElem?_drop, h]
    rfl
  · rw [← List.drop_drop, h]
    rfl

theorem find?_snd_of_mem {l : List (ν × UInt32)} (h : (l.map Prod.snd).Nodup) {x : ν × UInt32} (hx : x ∈ l) :
    l.find? (·.2.toNat = x.2.toNat) = some x := by
  induction l with
  | nil => cases hx
  | cons y l ih =>
    rw [List.map_cons, List.nodup_cons] at h
    rcases List.mem_cons.1 hx with rfl | hx
    · simp
    · have hne : y.2.toNat ≠ x.2.toNat := fun e =>
        h.1 (by rw [UInt32.toNat_inj.1 e]; exact List.mem_map_of_mem hx)
      rw [List.find?_cons_of_neg (by simpa using hne)]
      exact ih h.2 hx

theorem writeEach_reads {write : Value ν → Outcome IoError (List UInt8)} {read : BigEndianReader (Value ν)}
    {vs : List (Value ν)} (h : ∀ v ∈ vs, ∃ w, write v = .ok w ∧ Reads read w v) :
    ∃ w, writeEach write vs = .ok w ∧ Reads (Wire.Reader.replicate read vs.length) w vs := by
  induction vs with
  | nil => exact ⟨[], rfl, Reads.pure []⟩
  | cons v vs ih =>
    obtain ⟨w, hw, hr⟩ := h v (by simp)
    obtain ⟨ws, hws, hrs⟩ := ih fun x hx => h x (by simp [hx])
    exact ⟨w ++ ws, by rw [writeEach, hw, hws]; rfl, hr.bind (hrs.map (Reads.pure _))⟩

/-- The bits a group of flags is read back as. -/
theorem packFlags_eq {vs : List (Value ν)} (bs : List Bool) : ∀ (i bit : Nat) (flag : UInt8) (rest : List (Value ν)),
    bit + bs.length ≤ 8 → vs.drop i = bs.map .bool ++ rest →
    ∃ flag', packFlags vs flag bit (List.range' i bs.length) = .ok flag' ∧
      (∀ j < bit, flag'.toNat.testBit j = flag.toNat.testBit j) ∧
      ∀ j (hj : j < bs.length), flag'.toNat.testBit (bit + j) = bs[j] := by
  induction bs with
  | nil => exact fun i bit flag rest _ _ => ⟨flag, rfl, fun _ _ => rfl, fun j hj => absurd hj (Nat.not_lt_zero j)⟩
  | cons b bs ih =>
    intro i bit flag rest hlen hvs
    rw [List.length_cons] at hlen
    obtain ⟨flag₁, h₁, hb⟩ := BooleanByteWrapper.setFlag_eq flag (show bit < 8 by omega) b
    obtain ⟨hget, hvs'⟩ := getElem?_of_drop_eq_cons hvs
    obtain ⟨flag₂, h₂, hlow, hhigh⟩ := ih (i + 1) (bit + 1) flag₁ rest (by omega) hvs'
    refine ⟨flag₂, ?_, fun j hj => ?_, fun j hj => ?_⟩
    · simp only [List.length_cons, List.range'_succ, packFlags, hget, h₁, h₂]
    · rw [hlow j (by omega), hb j (by omega), if_neg (by omega)]
    · cases j with
      | zero => rw [Nat.add_zero, hlow bit (Nat.lt_succ_self _), hb bit (by omega), if_pos rfl]; rfl
      | succ j =>
        have := hhigh j (by simpa using hj)
        rwa [show bit + 1 + j = bit + (j + 1) by omega] at this

/-- More than eight flags cannot be packed into a byte. -/
theorem packFlags_panic {vs : List (Value ν)} (bs : List Bool) : ∀ (i bit : Nat) (flag : UInt8)
    (rest : List (Value ν)), 8 < bit + bs.length → bit ≤ 8 → vs.drop i = bs.map .bool ++ rest →
    packFlags vs flag bit (List.range' i bs.length) = .panic := by
  induction bs with
  | nil => exact fun i bit flag rest h h' => absurd h (by simp; omega)
  | cons b bs ih =>
    intro i bit flag rest hlen hbit hvs
    rw [List.length_cons] at hlen
    obtain ⟨hget, hvs'⟩ := getElem?_of_drop_eq_cons hvs
    rw [List.length_cons, List.range'_succ, packFlags, hget]
    rcases Nat.lt_or_ge bit 8 with hlt | hge
    · obtain ⟨flag₁, h₁, -⟩ := BooleanByteWrapper.setFlag_eq flag hlt b
      simp only [h₁]
      exact ih (i + 1) (bit + 1) flag₁ rest (by omega) (by omega) hvs'
    · simp only [BooleanByteWrapper.setFlag, if_pos hge]

/-! ### Layouts -/

/-- No more than eight flags stand in a row. -/
def GroupsFit (fields : List (ProtocolField ν)) : Prop :=
  ∀ before group after, fields = before ++ group ++ after → (∀ f ∈ group, f.isFlag = true) → group.length ≤ 8

/-- The element types for which the loops of a vector type check. -/
def ElementSupported : FieldType ν → Prop
  | .long => False
  | .ulong => False
  | .byteArray => False
  | .vector _ _ => False
  | .typeManager _ => False
  | _ => True

/-- The field types whose statements type check. -/
def Supported : FieldType ν → Prop
  | .vector inner _ => ElementSupported inner
  | _ => True

/-- The emitted statements of every field type check: flags are booleans, and vectors have supported elements. -/
def FieldsSupported (fields : List (ProtocolField ν)) : Prop :=
  ∀ f ∈ fields, (f.isFlag = true → f.fieldType = .bool) ∧ (f.isFlag = false → Supported f.fieldType)

/-- The parser found the names of all types. -/
def Resolved (fields : List (ProtocolField ν)) : Prop :=
  ∀ f ∈ fields, f.fieldType ≠ .type none ∧ f.fieldType ≠ .typeManager none ∧
    ∀ l, f.fieldType ≠ .vector (.type none) l ∧ f.fieldType ≠ .vector (.typeManager none) l

theorem GroupsFit.append_right (fs : List (ProtocolField ν)) {gs : List (ProtocolField ν)}
    (h : GroupsFit (fs ++ gs)) :
    GroupsFit gs := by
  rintro before group after rfl hg
  exact h (fs ++ before) group after (by simp) hg

theorem groupsFit_of_countP {fields : List (ProtocolField ν)} (h : fields.countP ProtocolField.isFlag ≤ 8) :
    GroupsFit fields := by
  intro before group after he hg
  have hgroup : group.countP ProtocolField.isFlag = group.length := List.countP_eq_length.2 hg
  rw [he, List.countP_append, List.countP_append] at h
  omega

theorem exists_flag_of_groups {fields : List (ProtocolField ν)} :
    ∀ {i : Nat}, collectBooleanGroups i 0 fields ≠ [] → ∃ f ∈ fields, f.isFlag = true := by
  induction fields using groupInduction with
  | nil => exact fun h => absurd (collectBooleanGroups_nil _ _) h
  | field f fs hf ih =>
    intro i h
    rw [collectBooleanGroups_field hf] at h
    obtain ⟨x, hx, hxf⟩ := ih h
    exact ⟨x, by simp [hx], hxf⟩
  | group g fs hne hg hfs ih =>
    obtain ⟨f, g, rfl⟩ := List.exists_cons_of_ne_nil hne
    exact fun _ => ⟨f, by simp, hg f (by simp)⟩

/-! ### Values of a class -/

variable [DecidableEq ν] (P : Protocol ν)

/-- A value of the type of a field all of whose lengths fit, given the values of the classes it names. -/
def EncodableField (values : ν → Value ν → Prop) : FieldType ν → Value ν → Prop
  | .byteArray, v => ∃ data, v = .bytes data ∧ data.length < 2 ^ 31
  | .type (some name), v => values name v
  | .vector inner lengthType, v =>
    ∃ vs, v = .vec vs ∧ FitsLength lengthType vs.length ∧ ∀ x ∈ vs, EncodableField values inner x
  | .typeManager (some base), v =>
    ∃ name id content, v = .variant base name content ∧ (name, id) ∈ P.variants base ∧ values name content
  | .type none, _ => False
  | .typeManager none, _ => False
  | primitive, v => Scalar (fieldTypeToRust primitive) v

/-- A value of a class, nested at most `n` deep. -/
def Encodable : Nat → ν → Value ν → Prop
  | 0, _, _ => False
  | n + 1, name, v =>
    ∃ c vs, P.find name = some c ∧ v = .struct name vs ∧
      List.Forall₂ (EncodableField P (Encodable n)) (c.fields.map ProtocolField.fieldType) vs

/-- What the nested calls have to achieve: a value of a class is written, and read back as this class. -/
def SubRoundTrip (values : ν → Value ν → Prop) (ser : Value ν → Outcome IoError (List UInt8))
    (de : ν → BigEndianReader (Value ν)) : Prop :=
  ∀ name v, values name v → ∃ w, ser v = .ok w ∧ Reads (de name) w v

/-- What the data of a protocol promises: the ids of a hierarchy are sixteen bits and tell its variants apart,
and the parser found the names of all types. -/
structure Protocol.WellFormed (P : Protocol ν) : Prop where
  id_lt : ∀ base, ∀ x ∈ P.variants base, x.2.toNat < 2 ^ 16
  ids_nodup : ∀ base, ((P.variants base).map Prod.snd).Nodup
  resolved : ∀ c ∈ P.classes, Resolved c.fields

/-- A class that writes nothing, seen within `n` levels: all its fields are nested types that write nothing. -/
def SilentWithin : Nat → ν → Prop
  | 0, _ => False
  | n + 1, name => ∃ c, P.find name = some c ∧
    ∀ f ∈ c.fields, f.isFlag = false ∧ ∃ m, f.fieldType = .type (some m) ∧ SilentWithin n m

/-- A field that writes nothing. -/
def Silent (f : ProtocolField ν) : Prop :=
  f.isFlag = false ∧ ∃ m n, f.fieldType = .type (some m) ∧ SilentWithin P n m

/-- Nothing is written before a flag but flags. -/
def FlagsFirst (fields : List (ProtocolField ν)) : Prop :=
  ∀ before f after, fields = before ++ f :: after → f.isFlag = true → ∀ g ∈ before, g.isFlag = true ∨ Silent P g

variable {P}

theorem FlagsFirst.append_right (fs : List (ProtocolField ν)) {gs : List (ProtocolField ν)}
    (h : FlagsFirst P (fs ++ gs)) :
    FlagsFirst P gs := by
  rintro before f after rfl hf g hg
  exact h (fs ++ before) f after (by simp) hf g (by simp [hg])

/-- Flags and fields that write nothing may stand before fields that are no flags. -/
theorem flagsFirst_append (fs : List (ProtocolField ν)) {gs : List (ProtocolField ν)}
    (hfs : ∀ f ∈ fs, f.isFlag = true ∨ Silent P f) (hgs : ∀ g ∈ gs, g.isFlag = false) :
    FlagsFirst P (fs ++ gs) := by
  intro before f after he hf g hg
  rcases List.append_eq_append_iff.1 he with ⟨s, rfl, hs⟩ | ⟨s, hs, -⟩
  · have hmem : f ∈ gs := by
      rw [hs]
      exact List.mem_append_right _ (List.mem_cons_self ..)
    rw [hgs f hmem] at hf
    cases hf
  · refine hfs g ?_
    rw [hs]
    exact List.mem_append_left _ hg

variable {values : ν → Value ν → Prop} {ser : Value ν → Outcome IoError (List UInt8)}

theorem bools_of_forall₂ {g : List (ProtocolField ν)} {us : List (Value ν)}
    (hg : ∀ f ∈ g, f.fieldType = .bool)
    (h : List.Forall₂ (EncodableField P values) (g.map ProtocolField.fieldType) us) :
    ∃ bs : List Bool, us = bs.map .bool ∧ bs.length = g.length := by
  induction g generalizing us with
  | nil =>
    cases h
    exact ⟨[], rfl, rfl⟩
  | cons f g ih =>
    rcases h with _ | ⟨hu, h⟩
    rw [hg f (by simp)] at hu
    obtain ⟨b, rfl⟩ := hu
    obtain ⟨bs, rfl, hl⟩ := ih (fun x hx => hg x (by simp [hx])) h
    exact ⟨b :: bs, rfl, by simp [hl]⟩

theorem forall₂_append_split {ts ts' : List (FieldType ν)} {us : List (Value ν)}
    (h : List.Forall₂ (EncodableField P values) (ts ++ ts') us) : ∃ us₁ us₂,
      List.Forall₂ (EncodableField P values) ts us₁ ∧ List.Forall₂ (EncodableField P values) ts' us₂ ∧
        us = us₁ ++ us₂ := by
  have h₁ := List.forall₂_take ts.length h
  have h₂ := List.forall₂_drop ts.length h
  rw [List.take_left] at h₁
  rw [List.drop_left] at h₂
  exact ⟨_, _, h₁, h₂, (List.take_append_drop ..).symm⟩

/-- Silent fields write nothing. -/
private theorem runStatements_silent {n : Nat}
    (hsub : ∀ name v w, SilentWithin P n name → values name v → ser v = .ok w → w = [])
    {G : List (Nat × List Nat)} {vs : List (Value ν)} (fields : List (ProtocolField ν)) :
    ∀ (i : Nat) (us : List (Value ν)) (w : List UInt8), GroupsFrom G i fields →
      (∀ f ∈ fields, f.isFlag = false ∧ ∃ m, f.fieldType = .type (some m) ∧ SilentWithin P n m) →
      List.Forall₂ (EncodableField P values) (fields.map ProtocolField.fieldType) us → vs.drop i = us →
      runStatements P ser vs (writeSerializeBody G i 0 fields) = .ok w → w = [] := by
  induction fields with
  | nil =>
    intro i us w _ _ _ _ hw
    exact (Outcome.ok.inj hw).symm
  | cons f fs ih =>
    intro i us w hG hs h hus hw
    rcases h with _ | ⟨hu, h⟩
    obtain ⟨hf, m, hm, hsil⟩ := hs f (by simp)
    obtain ⟨hget, hus'⟩ := getElem?_of_drop_eq_cons hus
    rw [writeSerializeBody_field hG hf, runStatements] at hw
    obtain ⟨wf, hwf, hw⟩ := Outcome.bind_eq_ok.1 hw
    obtain ⟨ws, hws, hw⟩ := Outcome.bind_eq_ok.1 hw
    rw [hm] at hu hwf
    simp only [writeStatement, WriteStatement.run, hget] at hwf
    have h1 := hsub m _ wf hsil hu hwf
    have h2 := ih (i + 1) _ ws (hG.field hf).2 (fun g hg => hs g (by simp [hg])) h hus' hws
    rw [← Outcome.ok.inj hw, h1, h2]
    rfl

theorem serialize_silent (n : Nat) : ∀ (name : ν), SilentWithin P n name →
    ∀ (k m : Nat) (v : Value ν) (w : List UInt8),
    Encodable P k name v → P.serialize m v = .ok w → w = [] := by
  induction n with
  | zero => exact fun _ h => h.elim
  | succ n ih =>
    rintro name ⟨c, hc, hs⟩ k m v w hv hw
    cases k with
    | zero => exact hv.elim
    | succ k =>
      obtain ⟨c', vs, hc', rfl, hvs⟩ := hv
      obtain rfl := Option.some.inj (hc.symm.trans hc')
      cases m with
      | zero => cases hw
      | succ m =>
        simp only [Protocol.serialize, hc] at hw
        exact runStatements_silent (fun name v w h (hv : Encodable P k name v) => ih name h k m v w hv)
          c.fields 0 vs w
          (groupsFrom_zero _) hs hvs rfl hw

/-! ### Reading back -/

variable [ToString ν] {de : ν → BigEndianReader (Value ν)}

/-- An enum of variants is written under the id of its variant, which selects the variant again. -/
theorem reads_variant (hP : P.WellFormed) (hsub : SubRoundTrip values ser de) {base : ν} {v : Value ν}
    (h : EncodableField P values (.typeManager (some base)) v) :
    ∃ w, writeVariant P ser v = .ok w ∧ w ≠ [] ∧ Reads (readVariant P de base) w v := by
  obtain ⟨name, id, content, rfl, hid, hc⟩ := h
  obtain ⟨x, hx⟩ : ∃ x, (P.variants base).find? (·.1 = name) = some x :=
    Option.isSome_iff_exists.1 (List.find?_isSome.2 ⟨_, hid, by simp⟩)
  have hmem := List.mem_of_find?_eq_some hx
  obtain ⟨n, id⟩ := x
  obtain rfl : n = name := by simpa using List.find?_some hx
  obtain ⟨w, hw, hr⟩ := hsub n content hc
  have hlt := hP.id_lt base _ hmem
  refine ⟨writeUshort id.toUInt16 ++ w, by simp only [writeVariant, hx, hw]; rfl,
    by simp [writeUshort, bigEndian], (reads_ushort _).bind ?_⟩
  have hn : id.toUInt16.toNat = id.toNat := by rw [UInt32.toNat_toUInt16, Nat.mod_eq_of_lt hlt]
  have hf := find?_snd_of_mem (hP.ids_nodup base) hmem
  rw [deserializeWithId, hn, hf]
  exact hr.map (Reads.pure _)

/-- The loop over a vector reads back every element. -/
theorem reads_element (hsub : SubRoundTrip values ser de) {inner : FieldType ν} (hs : ElementSupported inner)
    {v : Value ν} (h : EncodableField P values inner v) :
    ∃ w, (elementWrite inner).run P ser v = .ok w ∧ Reads ((elementRead inner).run P de) w v := by
  have scalar : ∀ m : Method, Scalar m.rustType v → ∃ w, m.write v = .ok w ∧ Reads m.read w v := fun m hm =>
    (Method.reads hm).imp fun _ hw => ⟨hw.1, hw.2.2⟩
  cases inner with
  | type name =>
    cases name with
    | none => exact h.elim
    | some name => exact hsub name v h
  | typeManager name => exact hs.elim
  | vector inner lengthType => exact hs.elim
  | byteArray => exact hs.elim
  | long => exact hs.elim
  | ulong => exact hs.elim
  | _ => exact scalar (primitiveMethod _) h

/-- A field outside the groups of flags is written and read back, whatever flags were read before. -/
theorem reads_field (hP : P.WellFormed) (hsub : SubRoundTrip values ser de) {t : FieldType ν} (hs : Supported t)
    {v : Value ν} (h : EncodableField P values t v) {vs : List (Value ν)} {i : Nat} (hv : vs[i]? = some v) :
    ∃ w, (writeStatement t i).run P ser vs = .ok w ∧ ∀ flags, Reads ((initializer t).run P de flags) w v := by
  have scalar : ∀ m : Method, Scalar m.rustType v → ∃ w, (WriteStatement.call m i).run P ser vs = .ok w ∧
      ∀ flags, Reads ((Initializer.call m).run P de flags) w v := fun m hm =>
    (Method.reads hm).imp fun _ hw => ⟨by simp only [WriteStatement.run, hv]; exact hw.1, fun _ => hw.2.2⟩
  cases t with
  | byteArray =>
    obtain ⟨data, rfl, hd⟩ := h
    refine ⟨writeVarInt (Int32.ofNat data.length) ++ writeBytes data,
      by simp only [writeStatement, WriteStatement.run, hv], fun _ => ?_⟩
    -- the length is written as a variable-length `i32`, which holds it
    refine (reads_varInt _).bind ?_
    rw [asUsize_ofNat hd]
    exact (reads_bytes (Nat.le_trans (Nat.le_of_lt hd) (by decide))).map (Reads.pure _)
  | type name =>
    cases name with
    | none => exact h.elim
    | some name =>
      obtain ⟨w, hw, hr⟩ := hsub name v h
      exact ⟨w, by simp only [writeStatement, WriteStatement.run, hv]; exact hw, fun _ => hr⟩
  | vector inner lengthType =>
    obtain ⟨xs, rfl, hlen, hxs⟩ := h
    obtain ⟨n, hn, -, hrn, hcap⟩ := reads_length (ν := ν) hlen
    obtain ⟨w, hw, hr⟩ := writeEach_reads fun x hx => reads_element hsub hs (hxs x hx)
    refine ⟨n ++ w, ?_, fun _ => hrn.bind ?_⟩
    · simp only [writeStatement, WriteStatement.run, hv, hn, hw]
      rfl
    · rw [withCapacity, if_neg (Nat.not_lt.2 hcap)]
      exact Reads.bind (w := []) (Reads.pure ()) (hr.map (Reads.pure _))
  | typeManager name =>
    cases name with
    | none => exact h.elim
    | some base =>
      obtain ⟨w, hw, -, hr⟩ := reads_variant hP hsub h
      exact ⟨w, by simp only [writeStatement, WriteStatement.run, hv]; exact hw, fun _ => hr⟩
  | long => exact scalar .varLong h
  | ulong => exact scalar .varUlong h
  | _ => exact scalar (primitiveMethod _) h

/-! ### A group of flags -/

/-- The initializers of a group take the bits of its flag byte and consume nothing. -/
theorem reads_flags (de : ν → BigEndianReader (Value ν)) (flags : List UInt8) (k : Nat) (bs : List Bool)
    (hlen : bs.length ≤ 8)
    (hbits : ∀ j (hj : j < bs.length), (flags.getD k 0).toNat.testBit j = bs[j]) :
    Reads (Wire.Reader.forEach (Initializer.run P de flags) ((List.range bs.length).map (.flag k))) []
      (bs.map .bool) := by
  have step : ∀ (cs : List Bool) (s : Nat), bs = bs.take s ++ cs → s + cs.length = bs.length →
      Reads (Wire.Reader.forEach (Initializer.run P de flags) ((List.range' s cs.length).map (.flag k))) []
        (cs.map .bool) := by
    intro cs
    -- over the flags that are still to be read, the first of which is at bit `s`
    induction cs with
    | nil => exact fun _ _ _ => Reads.pure []
    | cons c cs ih =>
      intro s hs hl
      rw [List.length_cons] at hl
      have hlt : s < bs.length := by omega
      have hc : bs[s] = c := by
        have := congrArg (·[s]?) hs
        simp only [List.getElem?_eq_getElem (show s < bs.length by omega)] at this
        rw [List.getElem?_append_right (by simp)] at this
        simpa [Nat.min_eq_left (show s ≤ bs.length by omega)] using this
      have hflag : Reads (Initializer.run P de flags (.flag k s)) [] (.bool c) := by
        rw [Initializer.run, BooleanByteWrapper.getFlag_eq (by omega), hbits s (by omega), hc]
        exact Reads.pure _
      have hs' : bs = bs.take (s + 1) ++ cs := by
        conv_lhs => rw [hs]
        rw [List.take_succ_eq_append_getElem (show s < bs.length by omega), hc, List.append_assoc]
        rfl
      rw [List.length_cons, List.range'_succ, List.map_cons, List.map_cons]
      exact Reads.forEach_cons hflag (ih (s + 1) hs' (by omega))
  have := step bs 0 rfl (by simp)
  rwa [← List.range_eq_range'] at this

/-! ### A class -/

/-- Writing the fields of a class and reading them back, from position `i` and flag byte `k` on.  The bytes start
with the flag bytes `fl`, which the reader took off before. -/
theorem reads_fields (hP : P.WellFormed) (hsub : SubRoundTrip values ser de)
    (hsilent : ∀ n name v w, SilentWithin P n name → values name v → ser v = .ok w → w = [])
    {G : List (Nat × List Nat)} {vs : List (Value ν)} (fields : List (ProtocolField ν)) :
    ∀ (i k : Nat) (us : List (Value ν)), GroupsFrom G i fields → FieldsSupported fields → FlagsFirst P fields →
      GroupsFit fields → List.Forall₂ (EncodableField P values) (fields.map ProtocolField.fieldType) us →
      vs.drop i = us →
      ∃ fl w, runStatements P ser vs (writeSerializeBody G i 0 fields) = .ok (fl ++ w) ∧
        fl.length = (collectBooleanGroups i 0 fields).length ∧
        ∀ flags : List UInt8, flags.drop k = fl →
          Reads (Wire.Reader.forEach (Initializer.run P de flags) (writeInitializers G k i 0 fields)) w us := by
  induction fields using groupInduction with
  | nil =>
    intro i k us _ _ _ _ h _
    cases h
    exact ⟨[], [], rfl, rfl, fun _ _ => Reads.pure []⟩
  | field f fs hf ih =>
    intro i k us hG hs hff hfit h hus
    rcases h with _ | ⟨hu, h⟩
    rename_i u us
    obtain ⟨hget, hus'⟩ := getElem?_of_drop_eq_cons hus
    obtain ⟨wf, hwf, hrf⟩ := reads_field hP hsub ((hs f (by simp)).2 hf) hu hget
    obtain ⟨fl, w, hw, hlen, hr⟩ := ih (i + 1) k us (hG.field hf).2 (fun g hg => hs g (by simp [hg]))
      (FlagsFirst.append_right [f] hff) (GroupsFit.append_right [f] hfit) h hus'
    rw [writeSerializeBody_field hG hf, writeInitializers_field hG hf, collectBooleanGroups_field hf]
    -- A field before a flag byte writes nothing, so the flag bytes stay in front.
    have hcomm : wf ++ fl = fl ++ wf := by
      by_cases hnil : fl = []
      · simp [hnil]
      · have hgroups : collectBooleanGroups (i + 1) 0 fs ≠ [] := by
          intro h0
          rw [h0] at hlen
          exact hnil (List.length_eq_zero_iff.1 hlen)
        obtain ⟨x, hx, hxf⟩ := exists_flag_of_groups hgroups
        obtain ⟨pre, post, rfl⟩ := List.append_of_mem hx
        rcases hff (f :: pre) x post rfl hxf f (by simp) with hf' | ⟨-, m, n, hm, hsil⟩
        · rw [hf] at hf'
          cases hf'
        · rw [hm] at hu hwf
          have : wf = [] := by
            simp only [writeStatement, WriteStatement.run, hget] at hwf
            exact hsilent n m u wf hsil hu hwf
          simp [this]
    refine ⟨fl, wf ++ w, ?_, hlen, fun flags hflags => Reads.forEach_cons (hrf flags) (hr flags hflags)⟩
    rw [runStatements, hwf, Outcome.ok_bind, hw, ← List.append_assoc, ← hcomm, List.append_assoc]
    rfl
  | group g fs hne hg hfs ih =>
    intro i k us hG hs hff hfit h hus
    rw [List.map_append] at h
    obtain ⟨us₁, us₂, h₁, h₂, rfl⟩ := forall₂_append_split h
    obtain ⟨bs, rfl, hbs⟩ := bools_of_forall₂ (fun f hf => (hs f (by simp [hf])).1 (hg f hf)) h₁
    have hfit8 : g.length ≤ 8 := hfit [] g fs rfl hg
    obtain ⟨byte, hbyte, -, hbits⟩ := packFlags_eq bs i 0 0 us₂ (by omega) hus
    have hus' : vs.drop (i + g.length) = us₂ := by
      rw [← List.drop_drop, hus, ← hbs, List.drop_append_of_le_length (by simp), List.drop_of_length_le (by simp)]
      rfl
    obtain ⟨fl, w, hw, hlen, hr⟩ := ih (i + g.length) (k + 1) us₂ (hG.group hne hg hfs).2
      (fun f hf => hs f (by simp [hf])) (hff.append_right _) (hfit.append_right _) h₂ hus'
    rw [writeSerializeBody_group hG hne hg hfs, writeInitializers_group hG hne hg hfs,
      collectBooleanGroups_group hne hg hfs]
    refine ⟨byte :: fl, w, ?_, by simp [hlen], fun flags hflags => ?_⟩
    · rw [← hbs, runStatements, WriteStatement.run, hbyte, Outcome.ok_bind, hbs, hw]
      rfl
    · have hk : flags.getD k 0 = byte := by
        have := congrArg (·[0]?) hflags
        simp only [List.getElem?_drop, Nat.add_zero, List.getElem?_cons_zero] at this
        rw [List.getD_eq_getElem?_getD, this]
        rfl
      have hk' : flags.drop (k + 1) = fl := by rw [← List.drop_drop, hflags]; rfl
      have hfl := reads_flags (P := P) de flags k bs (by omega) (by
        intro j hj
        rw [hk, ← hbits j hj, Nat.zero_add])
      rw [hbs] at hfl
      exact Reads.forEach_append hfl (hr flags hk')

/-! ### A protocol -/

/-- Under the layout conditions every value of every class is written without a panic and read back. -/
theorem roundTrips_of_layout (hP : P.WellFormed)
    (hc : ∀ name c, P.find name = some c → (∃ n v, Encodable P n name v) →
      FieldsSupported c.fields ∧ FlagsFirst P c.fields ∧ GroupsFit c.fields) (n : Nat) :
    ∀ (name : ν) (v : Value ν), Encodable P n name v → ∀ m, n ≤ m →
      ∃ w, P.serialize m v = .ok w ∧ Reads (P.deserialize m name) w v := by
  induction n with
  | zero => exact fun _ _ h => h.elim
  | succ n ih =>
    intro name v hv m hm
    obtain ⟨m, rfl⟩ : ∃ k, m = k + 1 := ⟨m - 1, by omega⟩
    have hv' := hv
    obtain ⟨c, vs, hfind, rfl, hvs⟩ := hv'
    obtain ⟨hs, hff, hfit⟩ := hc name c hfind ⟨n + 1, _, hv⟩
    obtain ⟨fl, w, hw, hlen, hr⟩ := reads_fields hP (fun name v h => ih name v h m (by omega))
      (fun k name v w hk h hw => serialize_silent k name hk n m v w h hw) c.fields 0 0 vs (groupsFrom_zero _) hs hff
      hfit hvs rfl
    refine ⟨fl ++ w, by simp only [Protocol.serialize, hfind]; exact hw, ?_⟩
    have hflags : Reads (Wire.Reader.replicate readByte (deserializeBody c.fields).flagReads) fl fl := by
      have := Reads.replicate (r := readByte) (w := fun b => [b]) fl fun b _ => reads_byte b
      rwa [List.flatMap_singleton', hlen] at this
    rw [Protocol.deserialize_succ hfind]
    exact (hflags.bind (hr fl rfl)).map (Reads.pure _)

end Otomai.ProtocolGen
