import Otomai.Io.RoundTrip
import Otomai.ProtocolGen.Codegen

/-!
# Generated code

Running the emitted statements: `serialize` and `deserialize` of a class of a protocol, for a number of nested calls
given as fuel.  The static types of the emitted code are modelled as far as the generator decides them: the type
`field_type_to_rust` gives a field, against the types the emitted calls take and return.
-/

namespace Otomai.ProtocolGen

open Wire BigEndianWriter BigEndianReader

variable {ν : Type}

/-! ### Types and values -/

inductive RustType (ν : Type) where
  | bool
  | u8
  | i16
  | u16
  | i32
  | u32
  | i64
  | u64
  | f32
  | f64
  | string
  | vec (element : RustType ν)
  | struct (name : ν)
  | variant (base : ν)
  | boxed (contents : RustType ν)
  deriving DecidableEq, Repr

def fieldTypeToRust : FieldType ν → RustType ν
  | .bool => .bool
  | .byte => .u8
  | .ubyte => .u8
  | .short => .i16
  | .ushort => .u16
  | .int => .i32
  | .varInt => .i32
  | .uint => .u32
  | .varUint => .u32
  | .long => .i64
  | .varLong => .i64
  | .ulong => .u64
  | .varUlong => .u64
  | .float => .f32
  | .double => .f64
  | .string => .string
  | .varShort => .i16
  | .varUshort => .u16
  | .byteArray => .vec .u8
  | .type none => .vec .u8
  | .type (some name) => .struct name
  | .vector inner _ => .vec (fieldTypeToRust inner)
  | .typeManager none => .vec .u8
  | .typeManager (some base) => .boxed (.variant base)

/-- A value of a Rust type.  A struct carries its class and the values of its fields, an enum of variants its base,
the variant and the variant's content; a boxed value is the value. -/
inductive Value (ν : Type) where
  | bool (b : Bool)
  | u8 (n : UInt8)
  | i16 (n : Int16)
  | u16 (n : UInt16)
  | i32 (n : Int32)
  | u32 (n : UInt32)
  | i64 (n : Int64)
  | u64 (n : UInt64)
  | f32 (bits : UInt32)
  | f64 (bits : UInt64)
  | string (s : String)
  | bytes (data : List UInt8)
  | vec (elements : List (Value ν))
  | struct (name : ν) (fields : List (Value ν))
  | variant (base name : ν) (content : Value ν)
  deriving Repr

namespace Method

/-- The type of the argument of `write_*`, which is the type `read_*` returns. -/
def rustType : Method → RustType ν
  | boolean => .bool
  | byte => .u8
  | short => .i16
  | ushort => .u16
  | int => .i32
  | uint => .u32
  | float => .f32
  | double => .f64
  | utf => .string
  | varInt => .i32
  | varUint => .u32
  | varShort => .i16
  | varUshort => .u16
  | varLong => .i64
  | varUlong => .u64

/-- The bytes `writer.m(v)` appends.  A call with an argument of another type does not compile; it is a panic here. -/
def write : Method → Value ν → Outcome IoError (List UInt8)
  | boolean, .bool b => .ok (writeBoolean b)
  | byte, .u8 n => .ok (writeByte n)
  | short, .i16 n => .ok (writeShort n)
  | ushort, .u16 n => .ok (writeUshort n)
  | int, .i32 n => .ok (writeInt n)
  | uint, .u32 n => .ok (writeUint n)
  | float, .f32 bits => .ok (writeFloat bits)
  | double, .f64 bits => .ok (writeDouble bits)
  | utf, .string s => .ok (writeUtf s)
  | varInt, .i32 n => .ok (writeVarInt n)
  | varUint, .u32 n => .ok (writeVarUint n)
  | varShort, .i16 n => .ok (writeVarShort n)
  | varUshort, .u16 n => .ok (writeVarUshort n)
  | varLong, .i64 n => .ok (writeVarLong n)
  | varUlong, .u64 n => .ok (writeVarUlong n)
  | _, _ => .panic

def read : Method → BigEndianReader (Value ν)
  | boolean => do let b ← readBoolean; pure (.bool b)
  | byte => do let n ← readByte; pure (.u8 n)
  | short => do let n ← readShort; pure (.i16 n)
  | ushort => do let n ← readUshort; pure (.u16 n)
  | int => do let n ← readInt; pure (.i32 n)
  | uint => do let n ← readUint; pure (.u32 n)
  | float => do let bits ← readFloat; pure (.f32 bits)
  | double => do let bits ← readDouble; pure (.f64 bits)
  | utf => do let s ← readUtf; pure (.string s)
  | varInt => do let n ← readVarInt; pure (.i32 n)
  | varUint => do let n ← readVarUint; pure (.u32 n)
  | varShort => do let n ← readVarShort; pure (.i16 n)
  | varUshort => do let n ← readVarUshort; pure (.u16 n)
  | varLong => do let n ← readVarLong; pure (.i64 n)
  | varUlong => do let n ← readVarUlong; pure (.u64 n)

/-- `len as _`, the length of a vector as an argument of `write_*`. -/
def ofLength : Method → Nat → Value ν
  | varInt, n => .i32 (Int32.ofNat n)
  | ushort, n => .u16 (UInt16.ofNat n)
  | byte, n => .u8 (UInt8.ofNat n)
  | _, n => .i16 (Int16.ofNat n)

end Method

/-- `x as usize` of an `i32`: a negative number becomes a huge one. -/
def asUsize (x : Int32) : Nat := (x.toInt % 2 ^ 64).toNat

/-- `reader.m()? as usize`, for the methods that read lengths. -/
def Method.readLength : Method → BigEndianReader Nat
  | .varInt => do let n ← readVarInt; pure (asUsize n)
  | .byte => do let n ← readByte; pure n.toNat
  | _ => do let n ← readUshort; pure n.toNat

/-- `Vec::with_capacity(count)`, which panics beyond the largest allocation. -/
def withCapacity (count : Nat) : BigEndianReader Unit :=
  if isizeMax < count then Wire.Reader.panic else pure ()

/-! ### Protocols -/

/-- The classes the generator was given, and the hierarchies of its polymorphic types. -/
structure Protocol (ν : Type) where
  classes : List (ProtocolClass ν)
  hierarchies : List (TypeHierarchy ν)

namespace Protocol

variable [DecidableEq ν] (P : Protocol ν)

def find (name : ν) : Option (ProtocolClass ν) := P.classes.find? (·.name = name)

/-- The variants of the enum generated for a base; none when there is no such enum. -/
def variants (base : ν) : List (ν × UInt32) :=
  match P.hierarchies.find? (·.baseName = base) with
  | some h => h.variants
  | none => []

end Protocol

/-! ### Serializing -/

section Serialize

/-- `_flag = set_flag(_flag, bit, self.g).unwrap()` for each field of a group. -/
def packFlags (vs : List (Value ν)) (flag : UInt8) (bit : Nat) : List Nat → Outcome IoError UInt8
  | [] => .ok flag
  | f :: group =>
    match vs[f]? with
    | some (.bool b) =>
      match BooleanByteWrapper.setFlag flag bit b with
      | .ok flag => packFlags vs flag (bit + 1) group
      | _ => .panic
    | _ => .panic

/-- One after the other, the bytes of the elements. -/
def writeEach (write : Value ν → Outcome IoError (List UInt8)) : List (Value ν) → Outcome IoError (List UInt8)
  | [] => .ok []
  | v :: vs => do
    let w ← write v
    let ws ← writeEach write vs
    pure (w ++ ws)

variable [DecidableEq ν] (P : Protocol ν) (serialize : Value ν → Outcome IoError (List UInt8))

/-- `writer.write_ushort(v.get_type_id()); v.serialize(writer)` for an enum of variants. -/
def writeVariant : Value ν → Outcome IoError (List UInt8)
  | .variant base name content =>
    match (P.variants base).find? (·.1 = name) with
    | some (_, id) => do
      let w ← serialize content
      pure (writeUshort id.toUInt16 ++ w)
    | none => .panic
  | _ => .panic

def ElementWrite.run : ElementWrite → Value ν → Outcome IoError (List UInt8)
  | .variant, v => writeVariant P serialize v
  | .serialize, v => serialize v
  | .call m, v => m.write v
  | .nothing, _ => .ok []

def WriteStatement.run (vs : List (Value ν)) : WriteStatement → Outcome IoError (List UInt8)
  | .flags group => do
    let flag ← packFlags vs 0 0 group
    pure (writeByte flag)
  | .call m f =>
    match vs[f]? with
    | some v => m.write v
    | none => .panic
  | .byteArray f =>
    match vs[f]? with
    | some (.bytes data) => .ok (writeVarInt (Int32.ofNat data.length) ++ writeBytes data)
    | _ => .panic
  | .serialize f =>
    match vs[f]? with
    | some v => serialize v
    | none => .panic
  | .vector length f element =>
    match vs[f]? with
    | some (.vec elements) => do
      let n ← length.write (length.ofLength elements.length : Value ν)
      let w ← writeEach (element.run P serialize) elements
      pure (n ++ w)
    | _ => .panic
  | .bytes f =>
    match vs[f]? with
    | some (.bytes data) => .ok (writeBytes data)
    | _ => .panic
  | .variant f =>
    match vs[f]? with
    | some v => writeVariant P serialize v
    | none => .panic

def runStatements (vs : List (Value ν)) : List WriteStatement → Outcome IoError (List UInt8)
  | [] => .ok []
  | s :: statements => do
    let w ← s.run P serialize vs
    let ws ← runStatements vs statements
    pure (w ++ ws)

end Serialize

/-- `DofusSerialize::serialize` of a struct, with at most the given number of nested calls. -/
def Protocol.serialize [DecidableEq ν] (P : Protocol ν) : Nat → Value ν → Outcome IoError (List UInt8)
  | 0, _ => .exhausted
  | n + 1, .struct name vs =>
    match P.find name with
    | some c => runStatements P (P.serialize n) vs (serializeBody c.fields)
    | none => .panic
  | _, _ => .panic

/-! ### Deserializing -/

section Deserialize

variable [DecidableEq ν] [ToString ν] (P : Protocol ν) (deserialize : ν → BigEndianReader (Value ν))

/-- `{base}Variant::deserialize_with_id(type_id, reader)?` -/
def deserializeWithId (base : ν) (typeId : UInt16) : BigEndianReader (Value ν) :=
  match (P.variants base).find? (·.2.toNat = typeId.toNat) with
  | some (name, _) => do
    let content ← deserialize name
    pure (.variant base name content)
  | none => Wire.Reader.fail (.unknownTypeId (toString base) typeId)

def readVariant (base : ν) : BigEndianReader (Value ν) := do
  let typeId ← readUshort
  deserializeWithId P deserialize base typeId

def ElementRead.run : ElementRead ν → BigEndianReader (Value ν)
  | .deserialize (some name) => deserialize name
  | .deserialize none => Wire.Reader.panic
  | .default => pure (.bytes [])
  | .variant base => readVariant P deserialize base
  | .call m => m.read

def Initializer.run (flags : List UInt8) : Initializer ν → BigEndianReader (Value ν)
  | .flag flagIdx bit =>
    match BooleanByteWrapper.getFlag (flags.getD flagIdx 0) bit with
    | .ok b => pure (.bool b)
    | .err e => Wire.Reader.fail e
    | _ => Wire.Reader.panic
  | .call m => m.read
  | .byteArray => do
    let len ← readVarInt
    let data ← readBytes (asUsize len)
    pure (.bytes data)
  | .deserialize (some name) => deserialize name
  | .deserialize none => Wire.Reader.panic
  | .vector length element => do
    let count ← length.readLength
    withCapacity count
    let elements ← Wire.Reader.replicate (element.run P deserialize) count
    pure (.vec elements)
  | .variant base => readVariant P deserialize base
  | .default => pure (.bytes [])

def DeserializeBody.run (body : DeserializeBody ν) : BigEndianReader (List (Value ν)) := do
  let flags ← Wire.Reader.replicate readByte body.flagReads
  Wire.Reader.forEach (Initializer.run P deserialize flags) body.initializers

end Deserialize

/-- `DofusDeserialize::deserialize` of a class, with at most the given number of nested calls, for given bodies. -/
def Protocol.deserializeWith [DecidableEq ν] [ToString ν] (P : Protocol ν) (body : ν → Option (DeserializeBody ν)) :
    Nat → ν → BigEndianReader (Value ν)
  | 0, _ => Wire.Reader.exhausted
  | n + 1, name =>
    match body name with
    | some b => do
      let vs ← b.run P (P.deserializeWith body n)
      pure (.struct name vs)
    | none => Wire.Reader.panic

/-- `DofusDeserialize::deserialize` with the bodies the generator emits. -/
def Protocol.deserialize [DecidableEq ν] [ToString ν] (P : Protocol ν) : Nat → ν → BigEndianReader (Value ν) :=
  P.deserializeWith fun name => (P.find name).map fun c => deserializeBody c.fields

theorem Protocol.deserialize_succ [DecidableEq ν] [ToString ν] {P : Protocol ν} {name : ν} {c : ProtocolClass ν}
    (h : P.find name = some c) (n : Nat) :
    P.deserialize (n + 1) name =
      (deserializeBody c.fields).run P (P.deserialize n) >>= fun vs => pure (.struct name vs) := by
  simp only [Protocol.deserialize, Protocol.deserializeWith, h, Option.map_some]

/-! ### More fuel -/

section Fuel

variable [DecidableEq ν] [ToString ν] {P : Protocol ν} {de de' : ν → BigEndianReader (Value ν)}

private theorem readVariant_extends (h : ∀ name, Extends (de name) (de' name)) (base : ν) :
    Extends (readVariant P de base) (readVariant P de' base) := by
  refine (Extends.refl _).bind fun typeId => ?_
  unfold deserializeWithId
  split
  · exact (h _).bind fun _ => Extends.refl _
  · exact Extends.refl _

theorem Initializer.run_extends (h : ∀ name, Extends (de name) (de' name)) (flags : List UInt8) (i : Initializer ν) :
    Extends (i.run P de flags) (i.run P de' flags) := by
  cases i with
  | deserialize name =>
    cases name with
    | none => exact Extends.refl _
    | some name => exact h name
  | variant base => exact readVariant_extends h base
  | vector length element =>
    refine (Extends.refl _).bind fun count => (Extends.refl _).bind fun _ =>
      Extends.bind (Extends.replicate ?_ count) fun _ => Extends.refl _
    cases element with
    | deserialize name =>
      cases name with
      | none => exact Extends.refl _
      | some name => exact h name
    | variant base => exact readVariant_extends h base
    | _ => exact Extends.refl _
  | _ => exact Extends.refl _

/-- More nested calls do not change how a deserializer ends. -/
theorem Protocol.deserializeWith_extends (body : ν → Option (DeserializeBody ν)) {n m : Nat} (h : n ≤ m) :
    ∀ name, Extends (P.deserializeWith body n name) (P.deserializeWith body m name) := by
  induction n generalizing m with
  | zero => exact fun _ => Extends.exhausted _
  | succ n ih =>
    obtain ⟨m, rfl⟩ : ∃ k, m = k + 1 := ⟨m - 1, by omega⟩
    intro name
    unfold Protocol.deserializeWith
    cases body name with
    | none => exact Extends.refl _
    | some b =>
      exact ((Extends.refl _).bind fun flags =>
        Extends.forEach (Initializer.run_extends (ih (by omega)) flags) _).bind fun _ => Extends.refl _

end Fuel

/-! ### Type checking the emitted code -/

section Compiles

variable [DecidableEq ν]

def ElementWrite.compiles (element : RustType ν) : ElementWrite → Bool
  | .variant => match element with
    | .variant _ => true
    | .boxed (.variant _) => true
    | _ => false
  | .serialize => match element with
    | .struct _ => true
    | _ => false
  | .call m => m.rustType == element
  | .nothing => true

def ElementRead.compiles (element : RustType ν) : ElementRead ν → Bool
  | .deserialize (some name) => element == .struct name
  | .deserialize none => false
  | .default => true
  | .variant base => element == .variant base
  | .call m => m.rustType == element

/-- The statement accepts the field it names, of the type the struct declares. -/
def WriteStatement.compiles (types : List (RustType ν)) : WriteStatement → Bool
  | .flags group => group.all fun f => types[f]? == some .bool
  | .call m f => types[f]? == some m.rustType
  | .byteArray f => types[f]? == some (.vec .u8)
  | .serialize f => match types[f]? with
    | some (.struct _) => true
    | _ => false
  | .vector _ f element => match types[f]? with
    | some (.vec t) => element.compiles t
    | _ => false
  | .bytes f => types[f]? == some (.vec .u8)
  | .variant f => match types[f]? with
    | some (.boxed (.variant _)) => true
    | _ => false

/-- The initializer has the type the struct declares for its field. -/
def Initializer.compiles (type : RustType ν) : Initializer ν → Bool
  | .flag _ _ => type == .bool
  | .call m => m.rustType == type
  | .byteArray => type == .vec .u8
  | .deserialize (some name) => type == .struct name
  | .deserialize none => false
  | .vector _ element => match type with
    | .vec t => element.compiles t
    | _ => false
  | .variant base => type == .boxed (.variant base)
  | .default => true

/-- The emitted bodies of a class type check against the struct emitted for it. -/
def ProtocolClass.compiles (c : ProtocolClass ν) : Bool :=
  let types := c.fields.map fun f => fieldTypeToRust f.fieldType
  (serializeBody c.fields).all (WriteStatement.compiles types) &&
    (List.zipWith Initializer.compiles types (deserializeBody c.fields).initializers).all id

end Compiles

end Otomai.ProtocolGen
