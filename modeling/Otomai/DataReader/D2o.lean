import Otomai.DataReader.File

/-!
# Game data objects

`D2OReader` and `write_d2o` of the data tool.  A file holds objects, an index that tells where each of them begins,
and a table of classes; objects pass through JSON values on their way in and out.
-/

namespace Otomai.DataReader

open Wire BigEndianReader BigEndianWriter

/-! ### JSON -/

/-- A number of `serde_json`; the double is given by its bits and is finite. -/
inductive Number where
  | posInt (n : UInt64)
  | negInt (n : Int64)
  | float (bits : UInt64)
  deriving DecidableEq, Repr

/-- A value of `serde_json`; the fields of an object have distinct names. -/
inductive Value where
  | null
  | bool (b : Bool)
  | number (n : Number)
  | string (s : String)
  | array (items : List Value)
  | object (fields : List (String × Value))
  deriving Repr

namespace Value

mutual

/-- How deep arrays and objects are nested. -/
def depth : Value → Nat
  | array items => depths items + 1
  | object fields => fieldDepths fields + 1
  | _ => 1

def depths : List Value → Nat
  | [] => 0
  | v :: items => max v.depth (depths items)

def fieldDepths : List (String × Value) → Nat
  | [] => 0
  | (_, v) :: fields => max v.depth (fieldDepths fields)

end

/-- `Value::get` with a name. -/
def get? : Value → String → Option Value
  | object fields, name => fields.lookup name
  | _, _ => none

def asStr : Value → Option String
  | string s => some s
  | _ => none

def asBool : Value → Option Bool
  | bool b => some b
  | _ => none

def asArray : Value → Option (List Value)
  | array items => some items
  | _ => none

def asI64 : Value → Option Int64
  | number (.posInt n) => if n.toNat < 2 ^ 63 then some n.toInt64 else none
  | number (.negInt n) => some n
  | _ => none

def asU64 : Value → Option UInt64
  | number (.posInt n) => some n
  | _ => none

/-- The bits of the number as a double. -/
def asF64 : Value → Option UInt64
  | number (.posInt n) => some n.toFloat.toBits
  | number (.negInt n) => some n.toFloat.toBits
  | number (.float bits) => some bits
  | _ => none

/-- `Map::insert`: a field of the same name is replaced. -/
def insertField (fields : List (String × Value)) (name : String) (v : Value) : List (String × Value) :=
  (name, v) :: fields.filter fun p => p.1 ≠ name

def ofI32 (n : Int32) : Value := number (if 0 ≤ n then .posInt n.toInt64.toUInt64 else .negInt n.toInt64)

def ofU32 (n : UInt32) : Value := number (.posInt n.toUInt64)

/-- A double that is not finite has its exponent bits set, and no JSON number. -/
def isFinite (bits : UInt64) : Bool := bits >>> 52 &&& 0x7ff != 0x7ff

def ofF64 (bits : UInt64) : Value := if isFinite bits then number (.float bits) else null

end Value

/-! ### Classes -/

inductive D2OFieldType where
  | int
  | bool
  | string
  | number
  | i18n
  | uint
  | vector (typeName : String) (inner : D2OFieldType)
  | object (classId : Int32)
  deriving DecidableEq, Repr

structure D2OFieldDef where
  name : String
  fieldType : D2OFieldType
  deriving DecidableEq, Repr

structure D2OClassDef where
  classId : Int32
  name : String
  package : String
  fields : List D2OFieldDef
  deriving DecidableEq, Repr

/-- `NULL_OBJECT_MARKER`, 0xAAAAAAAA. -/
def nullObjectMarker : Int32 := -1431655766

inductive D2OError where
  | io (e : IoError)
  | invalidSeek
  | badMagic (magic : List UInt8)
  | expectedMagic
  | unknownFieldType (typeId : Int32)
  | objectIdNotFound
  | unknownClassId (classId : Int32)
  | missingClass
  | unknownClass (name : String)
  | embeddedMissingClass
  | unknownEmbeddedClass (name : String)
  | stringTooLong (length : Nat)
  deriving DecidableEq, Repr

def D2OError.message : D2OError → String
  | io e => e.message
  | invalidSeek => "invalid seek to a negative or overflowing position"
  | badMagic magic => "Invalid D2O file: bad magic " ++ toString magic
  | expectedMagic => "Expected D2O magic after AKSF header"
  | unknownFieldType typeId => "Unknown D2O field type: " ++ toString typeId.toInt
  | objectIdNotFound => "Object ID not found"
  | unknownClassId classId => "Unknown class ID: " ++ toString classId.toInt
  | missingClass => "Object missing _class field"
  | unknownClass name => "Unknown class: " ++ name
  | embeddedMissingClass => "Embedded object missing _class"
  | unknownEmbeddedClass name => "Unknown embedded class: " ++ name
  | stringTooLong length => "String too long for D2O UTF: " ++ toString length ++ " bytes"

/-! ### Reading -/

abbrev D2OCursor := Wire.Reader D2OError

/-- A reader of the cursor, with its errors as errors of the file. -/
def io {α : Type} (r : BigEndianReader α) : D2OCursor α := fun c => (r c).mapErr .io

/-- `read_field_type`, one unit of fuel for each type in the other. -/
def readFieldTypeFrom : Nat → D2OCursor D2OFieldType
  | 0 => Wire.Reader.exhausted
  | fuel + 1 => do
    let typeId ← io readInt
    if typeId = -1 then pure .int
    else if typeId = -2 then pure .bool
    else if typeId = -3 then pure .string
    else if typeId = -4 then pure .number
    else if typeId = -5 then pure .i18n
    else if typeId = -6 then pure .uint
    else if typeId = -99 then do
      let innerTypeName ← io readUtf
      let inner ← readFieldTypeFrom fuel
      pure (.vector innerTypeName inner)
    else if 0 < typeId then pure (.object typeId)
    else Wire.Reader.fail (.unknownFieldType typeId)

def readFieldType : D2OCursor D2OFieldType := fun c => readFieldTypeFrom (c.unread.length + 1) c

def readFieldDef : D2OCursor D2OFieldDef := do
  let name ← io readUtf
  let fieldType ← readFieldType
  pure { name, fieldType }

/-- Entries with a count before them; `Vec::with_capacity` panics on a negative count. -/
def readCounted {α : Type} (count : Int) (r : D2OCursor α) : D2OCursor (List α) :=
  if count < 0 then Wire.Reader.panic else Wire.Reader.replicate r count.toNat

def readClassDef : D2OCursor D2OClassDef := do
  let classId ← io readInt
  let name ← io readUtf
  let package ← io readUtf
  let fieldCount ← io readInt
  let fields ← readCounted fieldCount.toInt readFieldDef
  pure { classId, name, package, fields }

def readIndex : D2OCursor (Int32 × Int32) := do
  let key ← io readInt
  let pointer ← io readInt
  pure (key, pointer)

structure D2OReader where
  classes : HashMap Int32 D2OClassDef
  indexes : List (Int32 × Int32)
  contentOffset : Nat
  data : List UInt8

namespace D2OReader

def magic : List UInt8 := [68, 50, 79]

def signedMagic : List UInt8 := [65, 75, 83]

/-- The offset of the content of a file, and the cursor behind its magic. -/
def readMagic (data : List UInt8) : Outcome D2OError (Nat × Cursor) := do
  let (start, c) ← io (Wire.Reader.take .unexpectedEof 3) (.ofBytes data)
  if start = signedMagic then
    let (_, c) ← io readByte c
    let (_, c) ← io readShort c
    let (sigLen, c) ← io readInt c
    let position := c.position + sigLen.toInt
    if position < 0 then .err .invalidSeek
    else
      let contentOffset := position.toNat
      let (start, c) ← io (Wire.Reader.take .unexpectedEof 3) (.seek data contentOffset)
      if start = magic then .ok (contentOffset, c) else .err .expectedMagic
  else if start = magic then .ok (0, c)
  else .err (.badMagic start)

def fromBytes (data : List UInt8) : Outcome D2OError D2OReader := do
  let (contentOffset, c) ← readMagic data
  let (indexesPointer, _) ← io readInt c
  let c := Cursor.seek data ((contentOffset + asU64 indexesPointer) % 2 ^ 64)
  let (indexesLength, c) ← io readInt c
  let (indexes, c) ← readCounted (indexesLength.toInt.tdiv 8) readIndex c
  let (classCount, c) ← io readInt c
  let (classes, _) ← Wire.Reader.replicate readClassDef classCount.toInt.toNat c
  .ok { classes := .ofPairs (classes.map fun d => (d.classId, d)), indexes, contentOffset, data }

def objectIds (reader : D2OReader) : List Int32 := reader.indexes.map Prod.fst

/-- A string field as JSON: the text `null` is read as null, and bytes that are not UTF-8 as a note of their
number. -/
def stringValue (buf : List UInt8) : Value :=
  if buf = [] then .string ""
  else
    match String.fromUTF8? ⟨buf.toArray⟩ with
    | some s => if s = "null" then .null else .string s
    | none => .string ("<invalid utf8: " ++ toString buf.length ++ " bytes>")

/-- The object with some fields, filled one after the other. -/
def fillObject (className : String) (fields : List (String × Value)) : Value :=
  .object (fields.foldl (fun m p => Value.insertField m p.1 p.2) [("_class", .string className)])

mutual

def readObjectFields (classes : HashMap Int32 D2OClassDef) : Nat → Int32 → D2OCursor Value
  | 0, _ => Wire.Reader.exhausted
  | fuel + 1, classId =>
    match classes.lookup classId with
    | none => Wire.Reader.fail (.unknownClassId classId)
    | some classDef => do
      let values ← Wire.Reader.forEach (fun field => readFieldValue classes fuel field.fieldType) classDef.fields
      pure (fillObject classDef.name ((classDef.fields.map D2OFieldDef.name).zip values))

/-- One unit of fuel for each field value in another. -/
def readFieldValue (classes : HashMap Int32 D2OClassDef) : Nat → D2OFieldType → D2OCursor Value
  | 0, _ => Wire.Reader.exhausted
  | fuel + 1, fieldType =>
    match fieldType with
    | .int => do
      let n ← io readInt
      pure (.ofI32 n)
    | .bool => do
      let b ← io readBoolean
      pure (.bool b)
    | .string => do
      let len ← io readUshort
      let buf ← io (readBytes len.toNat)
      pure (stringValue buf)
    | .number => do
      let bits ← io readDouble
      pure (.ofF64 bits)
    | .i18n => do
      let n ← io readInt
      pure (.ofI32 n)
    | .uint => do
      let n ← io readUint
      pure (.ofU32 n)
    | .vector _ inner => do
      let count ← io readInt
      let items ← Wire.Reader.replicate (readFieldValue classes fuel inner) count.toInt.toNat
      pure (.array items)
    | .object _ => do
      let actualClassId ← io readInt
      if actualClassId = nullObjectMarker then pure .null else readObjectFields classes fuel actualClassId

end

/-- The cursor at the content of an object. -/
def seekObject (reader : D2OReader) (objectId : Int32) : Outcome D2OError Cursor :=
  match reader.indexes.lookup objectId with
  | none => .err .objectIdNotFound
  | some offset => .ok (.seek reader.data ((reader.contentOffset + asU64 offset) % 2 ^ 64))

def readObject (reader : D2OReader) (objectId : Int32) : Outcome D2OError Value := do
  let c ← reader.seekObject objectId
  let (classId, c) ← io readInt c
  let (value, _) ← readObjectFields reader.classes (reader.data.length + 1) classId c
  .ok value

end D2OReader

/-! ### Writing -/

/-- The bytes of some values, one after the other. -/
def writeEach {α : Type} (write : α → Outcome D2OError (List UInt8)) : List α → Outcome D2OError (List UInt8)
  | [] => .ok []
  | a :: as => do
    let w ← write a
    let ws ← writeEach write as
    .ok (w ++ ws)

/-- `write_utf` of the writer, which refuses strings that do not fit. -/
def writeUtfChecked (s : String) : Outcome D2OError (List UInt8) :=
  if 65535 < (asBytes s).length then .err (.stringTooLong (asBytes s).length) else .ok (writeUtf s)

/-- The classes in the order in which their map is iterated. -/
abbrev ClassTable := List (Int32 × D2OClassDef)

def findClass (classes : ClassTable) (name : String) : Option (Int32 × D2OClassDef) :=
  classes.find? fun p => p.2.name = name

mutual

def writeObjectFields (classes : ClassTable) : Nat → D2OClassDef → Value → Outcome D2OError (List UInt8)
  | 0, _, _ => .exhausted
  | fuel + 1, classDef, value =>
    writeEach (fun field => writeFieldValue classes fuel field.fieldType ((value.get? field.name).getD .null))
      classDef.fields

/-- One unit of fuel for each value in another. -/
def writeFieldValue (classes : ClassTable) : Nat → D2OFieldType → Value → Outcome D2OError (List UInt8)
  | 0, _, _ => .exhausted
  | fuel + 1, fieldType, value =>
    match fieldType with
    | .int => .ok (writeInt (value.asI64.getD 0).toInt32)
    | .bool => .ok (writeBoolean (value.asBool.getD false))
    | .string =>
      match value with
      | .null => writeUtfChecked "null"
      | value => writeUtfChecked (value.asStr.getD "")
    | .number => .ok (writeDouble (value.asF64.getD 0))
    | .i18n => .ok (writeInt (value.asI64.getD 0).toInt32)
    | .uint => .ok (writeUint (value.asU64.getD 0).toUInt32)
    | .vector _ inner => do
      let items := value.asArray.getD []
      let ws ← writeEach (writeFieldValue classes fuel inner) items
      .ok (writeInt (Int32.ofNat items.length) ++ ws)
    | .object _ =>
      match value with
      | .null => .ok (writeInt nullObjectMarker)
      | value =>
        match (value.get? "_class").bind Value.asStr with
        | none => .err .embeddedMissingClass
        | some className =>
          match findClass classes className with
          | none => .err (.unknownEmbeddedClass className)
          | some (classId, classDef) => do
            let ws ← writeObjectFields classes fuel classDef value
            .ok (writeInt classId ++ ws)

end

/-- The bytes of an object of a file. -/
def writeObject (classes : ClassTable) (value : Value) : Outcome D2OError (List UInt8) :=
  match (value.get? "_class").bind Value.asStr with
  | none => .err .missingClass
  | some className =>
    match findClass classes className with
    | none => .err (.unknownClass className)
    | some (classId, classDef) => do
      let ws ← writeObjectFields classes (2 * value.depth + 2) classDef value
      .ok (writeInt classId ++ ws)

def writeFieldType : D2OFieldType → Outcome D2OError (List UInt8)
  | .int => .ok (writeInt (-1))
  | .bool => .ok (writeInt (-2))
  | .string => .ok (writeInt (-3))
  | .number => .ok (writeInt (-4))
  | .i18n => .ok (writeInt (-5))
  | .uint => .ok (writeInt (-6))
  | .vector typeName inner => do
    let name ← writeUtfChecked typeName
    let inner ← writeFieldType inner
    .ok (writeInt (-99) ++ (name ++ inner))
  | .object classId => .ok (writeInt classId)

def writeFieldDef (field : D2OFieldDef) : Outcome D2OError (List UInt8) := do
  let name ← writeUtfChecked field.name
  let fieldType ← writeFieldType field.fieldType
  .ok (name ++ fieldType)

def writeClassDef (p : Int32 × D2OClassDef) : Outcome D2OError (List UInt8) := do
  let name ← writeUtfChecked p.2.name
  let package ← writeUtfChecked p.2.package
  let fields ← writeEach writeFieldDef p.2.fields
  .ok (writeInt p.1 ++ (name ++ (package ++ (writeInt (Int32.ofNat p.2.fields.length) ++ fields))))

/-- The objects one after the other from a position on, and the index that tells where each begins. -/
def writeObjects (classes : ClassTable) : Nat → List (Int32 × Value) →
    Outcome D2OError (List UInt8 × List (Int32 × Int32))
  | _, [] => .ok ([], [])
  | position, (id, value) :: objects => do
    let w ← writeObject classes value
    let (ws, index) ← writeObjects classes (position + w.length) objects
    .ok (w ++ ws, (id, Int32.ofNat position) :: index)

def writeD2o (classes : ClassTable) (objects : List (Int32 × Value)) : Outcome D2OError (List UInt8) := do
  let buf := D2OReader.magic ++ writeInt 0
  let (ws, index) ← writeObjects classes buf.length objects
  let buf := buf ++ ws
  let indexesPointer := Int32.ofNat buf.length
  let indexesLength := Int32.ofNat index.length * 8
  let buf := buf ++ (writeInt indexesLength ++ index.flatMap fun e => writeInt e.1 ++ writeInt e.2)
  let table ← writeEach writeClassDef classes
  let buf := buf ++ (writeInt (Int32.ofNat classes.length) ++ table)
  let buf := buf.take 3 ++ (writeInt indexesPointer ++ buf.drop 7)
  if isizeMax < buf.length then .panic else .ok buf

end Otomai.DataReader
