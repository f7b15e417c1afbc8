import Otomai.DataReader.D2o

/-!
# What a game data file says

The content of a field is what its bytes mean, before they become JSON.  The reader of the data tool reads the content
and turns it into JSON on the way (`readFieldValue_eq`); the content of a field has its type
(`hasType_of_readContent`), and is read back from the bytes `Content.encode` writes for it (`reads_content`).
-/

namespace Otomai.DataReader

open Wire BigEndianReader BigEndianWriter

inductive Content where
  | int (n : Int32)
  | bool (b : Bool)
  | string (bytes : List UInt8)
  | number (bits : UInt64)
  | i18n (n : Int32)
  | uint (n : UInt32)
  | vector (items : List Content)
  | null
  | object (classId : Int32) (fields : List Content)
  deriving Repr

/-! ### Reading contents -/

mutual

def readContentFields (classes : HashMap Int32 D2OClassDef) : Nat → Int32 → D2OCursor Content
  | 0, _ => Wire.Reader.exhausted
  | fuel + 1, classId =>
    match classes.lookup classId with
    | none => Wire.Reader.fail (.unknownClassId classId)
    | some classDef => do
      let fields ← Wire.Reader.forEach (fun field => readContent classes fuel field.fieldType) classDef.fields
      pure (.object classId fields)

def readContent (classes : HashMap Int32 D2OClassDef) : Nat → D2OFieldType → D2OCursor Content
  | 0, _ => Wire.Reader.exhausted
  | fuel + 1, fieldType =>
    match fieldType with
    | .int => do
      let n ← io readInt
      pure (.int n)
    | .bool => do
      let b ← io readBoolean
      pure (.bool b)
    | .string => do
      let len ← io readUshort
      let buf ← io (readBytes len.toNat)
      pure (.string buf)
    | .number => do
      let bits ← io readDouble
      pure (.number bits)
    | .i18n => do
      let n ← io readInt
      pure (.i18n n)
    | .uint => do
      let n ← io readUint
      pure (.uint n)
    | .vector _ inner => do
      let count ← io readInt
      let items ← Wire.Reader.replicate (readContent classes fuel inner) count.toInt.toNat
      pure (.vector items)
    | .object _ => do
      let actualClassId ← io readInt
      if actualClassId = nullObjectMarker then pure .null else readContentFields classes fuel actualClassId

end

/-- The content of an object of a file. -/
def D2OReader.content (reader : D2OReader) (objectId : Int32) : Outcome D2OError Content := do
  let c ← reader.seekObject objectId
  let (classId, c) ← io readInt c
  let (content, _) ← readContentFields reader.classes (reader.data.length + 1) classId c
  .ok content

namespace Content

mutual

/-- The content as JSON. -/
def value (classes : HashMap Int32 D2OClassDef) : Content → Value
  | int n => .ofI32 n
  | bool b => .bool b
  | string bytes => D2OReader.stringValue bytes
  | number bits => .ofF64 bits
  | i18n n => .ofI32 n
  | uint n => .ofU32 n
  | vector items => .array (values classes items)
  | null => .null
  | object classId fields =>
    match classes.lookup classId with
    | none => .null
    | some classDef =>
      D2OReader.fillObject classDef.name ((classDef.fields.map D2OFieldDef.name).zip (values classes fields))

def values (classes : HashMap Int32 D2OClassDef) : List Content → List Value
  | [] => []
  | c :: cs => value classes c :: values classes cs

end

mutual

/-- The bytes of a content. -/
def encode : Content → List UInt8
  | int n => writeInt n
  | bool b => writeBoolean b
  | string bytes => writeUshort (UInt16.ofNat bytes.length) ++ bytes
  | number bits => writeDouble bits
  | i18n n => writeInt n
  | uint n => writeUint n
  | vector items => writeInt (Int32.ofNat items.length) ++ encodes items
  | null => writeInt nullObjectMarker
  | object classId fields => writeInt classId ++ encodes fields

def encodes : List Content → List UInt8
  | [] => []
  | c :: cs => encode c ++ encodes cs

end

theorem values_eq_map (classes : HashMap Int32 D2OClassDef) (cs : List Content) :
    values classes cs = cs.map (value classes) := by
  induction cs with
  | nil => rfl
  | cons c cs ih => rw [values, ih, List.map_cons]

theorem encodes_eq_flatMap (cs : List Content) : encodes cs = cs.flatMap encode := by
  induction cs with
  | nil => rfl
  | cons c cs ih => rw [encodes, ih, List.flatMap_cons]

end Content

/-! ### The reader reads the content -/

section

variable {classes : HashMap Int32 D2OClassDef}

/-- The reader reads the content of a field and turns it into JSON. -/
theorem readFieldValue_eq (classes : HashMap Int32 D2OClassDef) (fuel : Nat) :
    (∀ classId, D2OReader.readObjectFields classes fuel classId =
      Content.value classes <$> readContentFields classes fuel classId) ∧
    ∀ fieldType, D2OReader.readFieldValue classes fuel fieldType =
      Content.value classes <$> readContent classes fuel fieldType := by
  induction fuel with
  | zero => exact ⟨fun _ => rfl, fun _ => rfl⟩
  | succ fuel ih =>
    refine ⟨fun classId => ?_, fun fieldType => ?_⟩
    · rw [D2OReader.readObjectFields, readContentFields]
      cases hclass : classes.lookup classId with
      | none => rfl
      | some classDef =>
        simp only [ih.2, Wire.Reader.forEach_map, map_bind, map_pure, bind_map_left, Content.value, hclass,
          Content.values_eq_map]
    · cases fieldType with
      | vector name inner =>
        simp only [D2OReader.readFieldValue, readContent, ih.2, Wire.Reader.replicate_map, map_bind, map_pure,
          bind_map_left, Content.value, Content.values_eq_map]
      | object classId =>
        simp only [D2OReader.readFieldValue, readContent, ih.1, map_bind]
        congr 1
        funext actualClassId
        split
        · simp only [map_pure, Content.value]
        · rfl
      | _ => simp only [D2OReader.readFieldValue, readContent, map_bind, map_pure, Content.value]

/-- An object is read where its content is. -/
theorem readObject_eq (reader : D2OReader) (id : Int32) :
    reader.readObject id = reader.content id >>= fun content => .ok (content.value reader.classes) := by
  unfold D2OReader.readObject D2OReader.content
  cases reader.seekObject id with
  | ok c =>
    simp only [Outcome.ok_bind]
    cases io readInt c with
    | ok x =>
      simp only [Outcome.ok_bind, (readFieldValue_eq reader.classes _).1]
      rw [map_eq_pure_bind, Wire.Reader.bind_apply]
      cases readContentFields reader.classes (reader.data.length + 1) x.1 x.2 <;> rfl
    | _ => rfl
  | _ => rfl

end

/-- Reading depends on the classes that are found, not on their order. -/
theorem readContent_congr {classes classes' : HashMap Int32 D2OClassDef}
    (h : ∀ classId, classes'.lookup classId = classes.lookup classId) (fuel : Nat) :
    (∀ classId, readContentFields classes' fuel classId = readContentFields classes fuel classId) ∧
      ∀ fieldType, readContent classes' fuel fieldType = readContent classes fuel fieldType := by
  induction fuel with
  | zero => exact ⟨fun _ => rfl, fun _ => rfl⟩
  | succ fuel ih =>
    refine ⟨fun classId => ?_, fun fieldType => ?_⟩
    · rw [readContentFields, readContentFields, h]
      simp only [ih.2]
    · cases fieldType with
      | vector name inner => simp only [readContent, ih.2]
      | object classId => simp only [readContent, ih.1]
      | _ => simp only [readContent]

/-! ### Types -/

/-- The content is one that a field of the type can have. -/
inductive HasType (classes : HashMap Int32 D2OClassDef) : D2OFieldType → Content → Prop where
  | int (n : Int32) : HasType classes .int (.int n)
  | bool (b : Bool) : HasType classes .bool (.bool b)
  | string {bytes : List UInt8} (h : bytes.length < 2 ^ 16) : HasType classes .string (.string bytes)
  | number (bits : UInt64) : HasType classes .number (.number bits)
  | i18n (n : Int32) : HasType classes .i18n (.i18n n)
  | uint (n : UInt32) : HasType classes .uint (.uint n)
  | vector {typeName : String} {inner : D2OFieldType} {items : List Content} (hlength : items.length < 2 ^ 31)
      (h : ∀ c ∈ items, HasType classes inner c) : HasType classes (.vector typeName inner) (.vector items)
  | null (declared : Int32) : HasType classes (.object declared) .null
  | object {declared classId : Int32} {classDef : D2OClassDef} {fields : List Content}
      (hmarker : classId ≠ nullObjectMarker) (hclass : classes.lookup classId = some classDef)
      (hlength : classDef.fields.length = fields.length)
      (h : ∀ p ∈ classDef.fields.zip fields, HasType classes p.1.fieldType p.2) :
      HasType classes (.object declared) (.object classId fields)

/-- The content is an object of the class, with a content of its type for each field. -/
def IsObject (classes : HashMap Int32 D2OClassDef) (classId : Int32) (content : Content) : Prop :=
  ∃ classDef fields, classes.lookup classId = some classDef ∧ content = .object classId fields ∧
    classDef.fields.length = fields.length ∧ ∀ p ∈ classDef.fields.zip fields, HasType classes p.1.fieldType p.2

/-- What is known of each value is known of a list of values with their descriptions. -/
theorem forall_forEach {ε α β : Type} {r : β → Wire.Reader ε α} {Q : β → α → Prop}
    (h : ∀ b c a c', r b c = .ok (a, c') → Q b a) {bs : List β} : ∀ {c c' : Cursor} {as : List α},
    Wire.Reader.forEach r bs c = .ok (as, c') → bs.length = as.length ∧ ∀ p ∈ bs.zip as, Q p.1 p.2 := by
  induction bs with
  | nil =>
    intro c c' as has
    obtain ⟨rfl, -⟩ := Prod.mk.inj (Outcome.ok.inj has)
    exact ⟨rfl, fun p hp => absurd hp List.not_mem_nil⟩
  | cons b bs ih =>
    intro c c' as has
    obtain ⟨⟨a, d⟩, ha, has⟩ := Outcome.bind_eq_ok.1 has
    obtain ⟨⟨as', d'⟩, has', has⟩ := Outcome.bind_eq_ok.1 has
    obtain ⟨rfl, -⟩ := Prod.mk.inj (Outcome.ok.inj has)
    obtain ⟨hlength, hall⟩ := ih has'
    refine ⟨congrArg Nat.succ hlength, fun p hp => ?_⟩
    rcases List.mem_cons.1 hp with rfl | hp
    · exact h b c a d ha
    · exact hall p hp

theorem forall_replicate {ε α : Type} {r : Wire.Reader ε α} {Q : α → Prop} (h : ∀ c a c', r c = .ok (a, c') → Q a)
    {n : Nat} : ∀ {c c' : Cursor} {as : List α}, Wire.Reader.replicate r n c = .ok (as, c') →
    as.length = n ∧ ∀ a ∈ as, Q a := by
  induction n with
  | zero =>
    intro c c' as has
    obtain ⟨rfl, -⟩ := Prod.mk.inj (Outcome.ok.inj has)
    exact ⟨rfl, fun a ha => absurd ha List.not_mem_nil⟩
  | succ n ih =>
    intro c c' as has
    obtain ⟨⟨a, d⟩, ha, has⟩ := Outcome.bind_eq_ok.1 has
    obtain ⟨⟨as', d'⟩, has', has⟩ := Outcome.bind_eq_ok.1 has
    obtain ⟨rfl, -⟩ := Prod.mk.inj (Outcome.ok.inj has)
    obtain ⟨hlength, hall⟩ := ih has'
    exact ⟨congrArg Nat.succ hlength, List.forall_mem_cons.2 ⟨h c a d ha, hall⟩⟩

theorem length_of_readBytes {n : Nat} {c c' : Cursor} {buf : List UInt8} (h : readBytes n c = .ok (buf, c')) :
    buf.length = n := by
  unfold readBytes at h
  split at h
  · cases h
  · unfold Wire.Reader.take at h
    split at h
    · rename_i hle
      obtain ⟨rfl, -⟩ := Prod.mk.inj (Outcome.ok.inj h)
      rw [List.length_take]
      exact Nat.min_eq_left hle
    · cases h

theorem io_eq_ok {α : Type} {r : BigEndianReader α} {c : Cursor} {x : α × Cursor} : io r c = .ok x ↔ r c = .ok x :=
  Outcome.mapErr_eq_ok

section

variable {classes : HashMap Int32 D2OClassDef}

/-- What is read has the type it was read with. -/
theorem hasType_of_readContent (fuel : Nat) :
    (∀ classId c content c', readContentFields classes fuel classId c = .ok (content, c') →
      IsObject classes classId content) ∧
    ∀ fieldType c content c', readContent classes fuel fieldType c = .ok (content, c') →
      HasType classes fieldType content := by
  induction fuel with
  | zero => exact ⟨fun _ _ _ _ h => absurd h (by simp [readContentFields, Wire.Reader.exhausted]),
      fun _ _ _ _ h => absurd h (by simp [readContent, Wire.Reader.exhausted])⟩
  | succ fuel ih =>
    refine ⟨fun classId c content c' h => ?_, fun fieldType c content c' h => ?_⟩
    · unfold readContentFields at h
      cases hclass : classes.lookup classId with
      | none =>
        rw [hclass] at h
        cases h
      | some classDef =>
        rw [hclass] at h
        obtain ⟨⟨fields, d⟩, hfields, h⟩ := Outcome.bind_eq_ok.1 h
        obtain ⟨rfl, -⟩ := Prod.mk.inj (Outcome.ok.inj h)
        obtain ⟨hlength, hall⟩ := forall_forEach (fun field c a c' => ih.2 field.fieldType c a c') hfields
        exact ⟨classDef, fields, hclass, rfl, hlength, hall⟩
    · cases fieldType with
      | string =>
        obtain ⟨⟨len, d⟩, -, h⟩ := Outcome.bind_eq_ok.1 h
        obtain ⟨⟨buf, d'⟩, hbuf, h⟩ := Outcome.bind_eq_ok.1 h
        obtain ⟨rfl, -⟩ := Prod.mk.inj (Outcome.ok.inj h)
        refine .string ?_
        rw [length_of_readBytes (io_eq_ok.1 hbuf)]
        exact len.toNat_lt
      | vector typeName inner =>
        obtain ⟨⟨count, d⟩, -, h⟩ := Outcome.bind_eq_ok.1 h
        obtain ⟨⟨items, d'⟩, hitems, h⟩ := Outcome.bind_eq_ok.1 h
        obtain ⟨rfl, -⟩ := Prod.mk.inj (Outcome.ok.inj h)
        obtain ⟨hlength, hall⟩ := forall_replicate (fun c a c' => ih.2 inner c a c') hitems
        refine .vector ?_ hall
        have hlt := count.toInt_lt
        dsimp only at hlength ⊢
        omega
      | object declared =>
        obtain ⟨⟨actualClassId, d⟩, -, h⟩ := Outcome.bind_eq_ok.1 h
        dsimp only at h
        split at h
        · obtain ⟨rfl, -⟩ := Prod.mk.inj (Outcome.ok.inj h)
          exact .null declared
        · rename_i hmarker
          obtain ⟨classDef, fields, hclass, rfl, hlength, hall⟩ := ih.1 actualClassId d content c' h
          exact .object hmarker hclass hlength hall
      | _ =>
        obtain ⟨⟨n, d⟩, -, h⟩ := Outcome.bind_eq_ok.1 h
        obtain ⟨rfl, -⟩ := Prod.mk.inj (Outcome.ok.inj h)
        constructor

/-! ### Reading back what a content writes -/

theorem reads_io {α : Type} {r : BigEndianReader α} {w : List UInt8} {a : α} (h : Reads r w a) : Reads (io r) w a :=
  fun p rest => io_eq_ok.2 (h p rest)

theorem length_encode_le {cs : List Content} {c : Content} (h : c ∈ cs) :
    c.encode.length ≤ (Content.encodes cs).length := by
  induction cs with
  | nil => exact absurd h List.not_mem_nil
  | cons b cs ih =>
    rw [Content.encodes, List.length_append]
    rcases List.mem_cons.1 h with rfl | h
    · exact Nat.le_add_right _ _
    · exact Nat.le_add_left_of_le (ih h)

/-- The fields of an object are read back if each of them is. -/
theorem reads_contentFields {classId : Int32} {classDef : D2OClassDef} {fields : List Content} {fuel : Nat}
    (hclass : classes.lookup classId = some classDef) (hlength : classDef.fields.length = fields.length)
    (h : ∀ p ∈ classDef.fields.zip fields, Reads (readContent classes fuel p.1.fieldType) p.2.encode p.2) :
    Reads (readContentFields classes (fuel + 1) classId) (Content.encodes fields) (.object classId fields) := by
  rw [readContentFields, hclass, Content.encodes_eq_flatMap]
  exact (Reads.forEach_zip hlength h).map (Reads.pure _)

/-- A content is read back from its bytes, with more fuel than bytes. -/
theorem reads_content {fieldType : D2OFieldType} {content : Content} (h : HasType classes fieldType content) :
    ∀ {fuel : Nat}, content.encode.length < fuel →
      Reads (readContent classes fuel fieldType) content.encode content := by
  induction h with
  | string hlength =>
    rename_i bytes
    intro fuel hfuel
    obtain ⟨n, rfl⟩ := Nat.exists_eq_add_one_of_ne_zero (Nat.ne_of_gt (Nat.zero_lt_of_lt hfuel))
    refine (reads_io (reads_ushort _)).bind ?_
    rw [UInt16.toNat_ofNat_of_lt' hlength]
    exact (reads_io (reads_bytes (by unfold isizeMax; omega))).map (Reads.pure _)
  | vector hlength hitems ih =>
    rename_i typeName inner items
    intro fuel hfuel
    obtain ⟨n, rfl⟩ := Nat.exists_eq_add_one_of_ne_zero (Nat.ne_of_gt (Nat.zero_lt_of_lt hfuel))
    rw [Content.encode, List.length_append, length_writeInt] at hfuel
    rw [Content.encode, Content.encodes_eq_flatMap]
    refine (reads_io (reads_int _)).bind ?_
    rw [Int32.toInt_ofNat_of_lt hlength]
    refine (Reads.replicate items fun c hc => ih c hc ?_).map (Reads.pure _)
    have hle := length_encode_le hc
    omega
  | null declared =>
    intro fuel hfuel
    obtain ⟨n, rfl⟩ := Nat.exists_eq_add_one_of_ne_zero (Nat.ne_of_gt (Nat.zero_lt_of_lt hfuel))
    exact (reads_io (reads_int _)).map (Reads.pure _)
  | object hmarker hclass hlength hfields ih =>
    rename_i declared classId classDef fields
    intro fuel hfuel
    rw [Content.encode, List.length_append, length_writeInt] at hfuel
    obtain ⟨n, rfl⟩ : ∃ n, fuel = n + 2 := ⟨fuel - 2, by omega⟩
    rw [Content.encode]
    refine (reads_io (reads_int _)).bind ?_
    rw [if_neg hmarker]
    refine reads_contentFields hclass hlength fun p hp => ih p hp ?_
    have hle := length_encode_le (List.of_mem_zip hp).2
    omega
  | bool b =>
    intro fuel hfuel
    obtain ⟨n, rfl⟩ := Nat.exists_eq_add_one_of_ne_zero (Nat.ne_of_gt (Nat.zero_lt_of_lt hfuel))
    exact (reads_io (reads_boolean _)).map (Reads.pure _)
  | number bits =>
    intro fuel hfuel
    obtain ⟨n, rfl⟩ := Nat.exists_eq_add_one_of_ne_zero (Nat.ne_of_gt (Nat.zero_lt_of_lt hfuel))
    exact (reads_io (reads_ulong _)).map (Reads.pure _)
  | uint u =>
    intro fuel hfuel
    obtain ⟨n, rfl⟩ := Nat.exists_eq_add_one_of_ne_zero (Nat.ne_of_gt (Nat.zero_lt_of_lt hfuel))
    exact (reads_io (reads_uint _)).map (Reads.pure _)
  | _ i =>
    intro fuel hfuel
    obtain ⟨n, rfl⟩ := Nat.exists_eq_add_one_of_ne_zero (Nat.ne_of_gt (Nat.zero_lt_of_lt hfuel))
    exact (reads_io (reads_int _)).map (Reads.pure _)

end

end Otomai.DataReader
