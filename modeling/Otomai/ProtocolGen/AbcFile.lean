import Otomai.ProtocolGen.Abc
import Otomai.Wire.Codec

/-!
# Class files

The methods, classes, scripts and bodies of an ABC file, behind its constant pool: how they are parsed, and what would
be written of them.
-/

namespace Otomai.ProtocolGen.Abc

open Wire

inductive AbcFileError where
  | abc (e : AbcError)
  | eofU16 (position : Nat)
  | unknownTraitKind (kind : UInt8)
  deriving DecidableEq, Repr

def AbcFileError.message : AbcFileError → String
  | abc e => e.message
  | eofU16 position => s!"EOF reading u16 at position {position}"
  | unknownTraitKind kind => s!"Unknown trait kind: {kind}"

/-- A cursor of `AbcReader` behind the constant pool. -/
abbrev FileReader := Reader AbcFileError

namespace FileReader

def lift {α : Type} (r : AbcReader α) : FileReader α := fun c => (r c).mapErr .abc

def readU8 : FileReader UInt8 := lift AbcReader.readU8

def readU30 : FileReader UInt32 := lift AbcReader.readU30

def readBytes (len : Nat) : FileReader (List UInt8) := lift (AbcReader.readBytes len)

/-- Two bytes, the lowest first. -/
def readU16 : FileReader UInt16 := fun c => do
  let (bytes, c') ← Reader.take (.eofU16 c.position) 2 c
  .ok (UInt16.ofNat (ofBigEndian bytes.reverse), c')

end FileReader

open FileReader

/-! ### The parts of a file -/

structure OptionValue where
  val : UInt32
  kind : UInt8
  deriving DecidableEq, Repr

structure MethodInfo where
  paramCount : UInt32
  returnType : UInt32
  paramTypes : List UInt32
  name : UInt32
  flags : UInt8
  options : List OptionValue
  paramNames : List UInt32
  deriving DecidableEq, Repr

structure MetadataInfo where
  name : UInt32
  items : List (UInt32 × UInt32)
  deriving DecidableEq, Repr

inductive TraitData where
  | slot (slotId typeName vindex : UInt32) (vkind : UInt8)
  | method (dispId method : UInt32)
  | getter (dispId method : UInt32)
  | setter (dispId method : UInt32)
  | class (slotId classi : UInt32)
  | function (slotId function : UInt32)
  | const (slotId typeName vindex : UInt32) (vkind : UInt8)
  deriving DecidableEq, Repr

structure Trait where
  name : UInt32
  kind : UInt8
  data : TraitData
  metadata : List UInt32
  deriving DecidableEq, Repr

structure InstanceInfo where
  name : UInt32
  superName : UInt32
  flags : UInt8
  protectedNs : UInt32
  interfaces : List UInt32
  iinit : UInt32
  traits : List Trait
  deriving DecidableEq, Repr

structure ClassInfo where
  cinit : UInt32
  traits : List Trait
  deriving DecidableEq, Repr

structure ScriptInfo where
  init : UInt32
  traits : List Trait
  deriving DecidableEq, Repr

structure ExceptionInfo where
  from_ : UInt32
  to_ : UInt32
  target : UInt32
  excType : UInt32
  varName : UInt32
  deriving DecidableEq, Repr

structure MethodBody where
  method : UInt32
  maxStack : UInt32
  localCount : UInt32
  initScopeDepth : UInt32
  maxScopeDepth : UInt32
  code : List UInt8
  exceptions : List ExceptionInfo
  traits : List Trait
  deriving DecidableEq, Repr

structure AbcFile where
  minorVersion : UInt16
  majorVersion : UInt16
  constantPool : ConstantPool
  methods : List MethodInfo
  metadata : List MetadataInfo
  instances : List InstanceInfo
  classes : List ClassInfo
  scripts : List ScriptInfo
  methodBodies : List MethodBody
  deriving DecidableEq, Repr

/-- `METHOD_HAS_OPTIONAL`. -/
def hasOptional (flags : UInt8) : Prop := flags &&& 0x08 ≠ 0

/-- `METHOD_HAS_PARAM_NAMES`. -/
def hasParamNames (flags : UInt8) : Prop := flags &&& 0x80 ≠ 0

/-- `CLASS_PROTECTED_NS`. -/
def hasProtectedNs (flags : UInt8) : Prop := flags &&& 0x08 ≠ 0

/-- `TRAIT_ATTR_METADATA`. -/
def hasMetadata (kindByte : UInt8) : Prop := kindByte &&& 0x40 ≠ 0

instance : DecidablePred hasOptional := fun _ => inferInstanceAs (Decidable (_ ≠ _))
instance : DecidablePred hasParamNames := fun _ => inferInstanceAs (Decidable (_ ≠ _))
instance : DecidablePred hasProtectedNs := fun _ => inferInstanceAs (Decidable (_ ≠ _))
instance : DecidablePred hasMetadata := fun _ => inferInstanceAs (Decidable (_ ≠ _))

/-! ### Parsing -/

/-- A count and as many entries. -/
def parseList {α : Type} (entry : FileReader α) : FileReader (List α) := do
  let count ← readU30
  Reader.replicate entry count.toNat

/-- A part that is there under some condition, and has a value that is implied otherwise. -/
def parseIf {α : Type} (c : Prop) [Decidable c] (implied : α) (r : FileReader α) : FileReader α :=
  if c then r else pure implied

def parseOptionValue : FileReader OptionValue := do
  let val ← readU30
  let kind ← readU8
  pure { val, kind }

def parseMethodInfo : FileReader MethodInfo := do
  let paramCount ← readU30
  let returnType ← readU30
  let paramTypes ← Reader.replicate readU30 paramCount.toNat
  let name ← readU30
  let flags ← readU8
  let options ← parseIf (hasOptional flags) [] (parseList parseOptionValue)
  let paramNames ← parseIf (hasParamNames flags) [] (Reader.replicate readU30 paramCount.toNat)
  pure { paramCount, returnType, paramTypes, name, flags, options, paramNames }

def parseItem : FileReader (UInt32 × UInt32) := do
  let key ← readU30
  let val ← readU30
  pure (key, val)

def parseMetadata : FileReader MetadataInfo := do
  let name ← readU30
  let items ← parseList parseItem
  pure { name, items }

/-- The value of a slot has a kind if there is one. -/
def parseValue (make : UInt32 → UInt32 → UInt32 → UInt8 → TraitData) : FileReader TraitData := do
  let slotId ← readU30
  let typeName ← readU30
  let vindex ← readU30
  let vkind ← parseIf (vindex ≠ 0) 0 readU8
  pure (make slotId typeName vindex vkind)

def parsePair (make : UInt32 → UInt32 → TraitData) : FileReader TraitData := do
  let id ← readU30
  let index ← readU30
  pure (make id index)

def parseTraitData (kind : UInt8) : FileReader TraitData :=
  if kind = 0 then parseValue .slot
  else if kind = 6 then parseValue .const
  else if kind = 1 then parsePair .method
  else if kind = 2 then parsePair .getter
  else if kind = 3 then parsePair .setter
  else if kind = 4 then parsePair .class
  else if kind = 5 then parsePair .function
  else Reader.fail (.unknownTraitKind kind)

def parseTrait : FileReader Trait := do
  let name ← readU30
  let kindByte ← readU8
  let kind := kindByte &&& 0x0F
  let data ← parseTraitData kind
  let metadata ← parseIf (hasMetadata kindByte) [] (parseList readU30)
  pure { name, kind, data, metadata }

def parseInstanceInfo : FileReader InstanceInfo := do
  let name ← readU30
  let superName ← readU30
  let flags ← readU8
  let protectedNs ← parseIf (hasProtectedNs flags) 0 readU30
  let interfaces ← parseList readU30
  let iinit ← readU30
  let traits ← parseList parseTrait
  pure { name, superName, flags, protectedNs, interfaces, iinit, traits }

def parseClassInfo : FileReader ClassInfo := do
  let cinit ← readU30
  let traits ← parseList parseTrait
  pure { cinit, traits }

def parseScriptInfo : FileReader ScriptInfo := do
  let init ← readU30
  let traits ← parseList parseTrait
  pure { init, traits }

def parseExceptionInfo : FileReader ExceptionInfo := do
  let from_ ← readU30
  let to_ ← readU30
  let target ← readU30
  let excType ← readU30
  let varName ← readU30
  pure { from_, to_, target, excType, varName }

def parseCode : FileReader (List UInt8) := do
  let codeLength ← readU30
  readBytes codeLength.toNat

def parseMethodBody : FileReader MethodBody := do
  let method ← readU30
  let maxStack ← readU30
  let localCount ← readU30
  let initScopeDepth ← readU30
  let maxScopeDepth ← readU30
  let code ← parseCode
  let exceptions ← parseList parseExceptionInfo
  let traits ← parseList parseTrait
  pure { method, maxStack, localCount, initScopeDepth, maxScopeDepth, code, exceptions, traits }

/-- What comes behind the pool; the classes are as many as the instances. -/
def parseParts (minorVersion majorVersion : UInt16) (constantPool : ConstantPool) : FileReader AbcFile := do
  let methods ← parseList parseMethodInfo
  let metadata ← parseList parseMetadata
  let instances ← parseList parseInstanceInfo
  let classes ← Reader.replicate parseClassInfo instances.length
  let scripts ← parseList parseScriptInfo
  let methodBodies ← parseList parseMethodBody
  pure { minorVersion, majorVersion, constantPool, methods, metadata, instances, classes, scripts, methodBodies }

def parseAbc : FileReader AbcFile := do
  let minorVersion ← readU16
  let majorVersion ← readU16
  let constantPool ← lift parseConstantPool
  parseParts minorVersion majorVersion constantPool

/-! ### What is written of a file -/

def writeU30 (v : UInt32) : List UInt8 := base128 v.toNat

def writeU16 (v : UInt16) : List UInt8 := (bigEndian 2 v.toNat).reverse

def writeList {α : Type} (write : α → List UInt8) (vs : List α) : List UInt8 :=
  writeU30 (UInt32.ofNat vs.length) ++ vs.flatMap write

/-- Nothing is written of what is implied. -/
def writeIf {α : Type} (c : Prop) [Decidable c] (write : α → List UInt8) (v : α) : List UInt8 :=
  if c then write v else []

def OptionValue.write (v : OptionValue) : List UInt8 := writeU30 v.val ++ [v.kind]

def MethodInfo.write (m : MethodInfo) : List UInt8 :=
  writeU30 m.paramCount ++ (writeU30 m.returnType ++ (m.paramTypes.flatMap writeU30 ++ (writeU30 m.name ++
    ([m.flags] ++ (writeIf (hasOptional m.flags) (writeList OptionValue.write) m.options ++
      writeIf (hasParamNames m.flags) (List.flatMap writeU30) m.paramNames)))))

def writeItem (item : UInt32 × UInt32) : List UInt8 := writeU30 item.1 ++ writeU30 item.2

def MetadataInfo.write (m : MetadataInfo) : List UInt8 := writeU30 m.name ++ writeList writeItem m.items

namespace TraitData

/-- The constant that tells the kinds of traits apart. -/
def kind : TraitData → UInt8
  | slot .. => 0
  | method .. => 1
  | getter .. => 2
  | setter .. => 3
  | «class» .. => 4
  | function .. => 5
  | const .. => 6

def writeValue (slotId typeName vindex : UInt32) (vkind : UInt8) : List UInt8 :=
  writeU30 slotId ++ (writeU30 typeName ++ (writeU30 vindex ++ writeIf (vindex ≠ 0) (fun b => [b]) vkind))

def writePair (id index : UInt32) : List UInt8 := writeU30 id ++ writeU30 index

def write : TraitData → List UInt8
  | slot slotId typeName vindex vkind => writeValue slotId typeName vindex vkind
  | method dispId index => writePair dispId index
  | getter dispId index => writePair dispId index
  | setter dispId index => writePair dispId index
  | «class» slotId classi => writePair slotId classi
  | function slotId index => writePair slotId index
  | const slotId typeName vindex vkind => writeValue slotId typeName vindex vkind

/-- A slot without a value has no kind of value. -/
def Sound : TraitData → Prop
  | slot _ _ vindex vkind => vindex = 0 → vkind = 0
  | const _ _ vindex vkind => vindex = 0 → vkind = 0
  | _ => True

end TraitData

/-- The kind with its attributes. -/
def Trait.kindByte (t : Trait) : UInt8 := if t.metadata = [] then t.kind else t.kind ||| 0x40

def Trait.write (t : Trait) : List UInt8 :=
  writeU30 t.name ++ ([t.kindByte] ++ (t.data.write ++ writeIf (t.metadata ≠ []) (writeList writeU30) t.metadata))

def InstanceInfo.write (i : InstanceInfo) : List UInt8 :=
  writeU30 i.name ++ (writeU30 i.superName ++ ([i.flags] ++
    (writeIf (hasProtectedNs i.flags) writeU30 i.protectedNs ++ (writeList writeU30 i.interfaces ++
      (writeU30 i.iinit ++ writeList Trait.write i.traits)))))

def ClassInfo.write (c : ClassInfo) : List UInt8 := writeU30 c.cinit ++ writeList Trait.write c.traits

def ScriptInfo.write (s : ScriptInfo) : List UInt8 := writeU30 s.init ++ writeList Trait.write s.traits

def ExceptionInfo.write (e : ExceptionInfo) : List UInt8 :=
  writeU30 e.from_ ++ (writeU30 e.to_ ++ (writeU30 e.target ++ (writeU30 e.excType ++ writeU30 e.varName)))

def writeCode (code : List UInt8) : List UInt8 := writeU30 (UInt32.ofNat code.length) ++ code

def MethodBody.write (b : MethodBody) : List UInt8 :=
  writeU30 b.method ++ (writeU30 b.maxStack ++ (writeU30 b.localCount ++ (writeU30 b.initScopeDepth ++
    (writeU30 b.maxScopeDepth ++ (writeCode b.code ++ (writeList ExceptionInfo.write b.exceptions ++
      writeList Trait.write b.traits))))))

/-! ### What is written of the pool -/

/-- The first entry is counted unless it is alone. -/
def tableCount (n : Nat) : Nat := if n = 1 then 0 else n

/-- The first entry is implied. -/
def writeTable {α : Type} (write : α → List UInt8) (vs : List α) : List UInt8 :=
  writeU30 (UInt32.ofNat (tableCount vs.length)) ++ vs.tail.flatMap write

def writeS32 (v : Int32) : List UInt8 := writeU30 v.toUInt32

def writeD64 (v : UInt64) : List UInt8 := (bigEndian 8 v.toNat).reverse

def writeString (s : String) : List UInt8 :=
  writeU30 (UInt32.ofNat (BigEndianWriter.asBytes s).length) ++ BigEndianWriter.asBytes s

def Namespace.write (ns : Namespace) : List UInt8 := [ns.kind] ++ writeU30 ns.name

/-- The entry that is implied is never written. -/
def Multiname.write : Multiname → List UInt8
  | qName ns name => [0x07] ++ (writeU30 ns ++ writeU30 name)
  | qNameA ns name => [0x0D] ++ (writeU30 ns ++ writeU30 name)
  | rtQName name => [0x0F] ++ writeU30 name
  | rtQNameA name => [0x10] ++ writeU30 name
  | rtQNameL => [0x11]
  | rtQNameLA => [0x12]
  | multiname name nsSet => [0x09] ++ (writeU30 name ++ writeU30 nsSet)
  | multinameA name nsSet => [0x0E] ++ (writeU30 name ++ writeU30 nsSet)
  | multinameL nsSet => [0x1B] ++ writeU30 nsSet
  | multinameLA nsSet => [0x1C] ++ writeU30 nsSet
  | typeName qname params => [0x1D] ++ (writeU30 qname ++ writeList writeU30 params)
  | void => []

def ConstantPool.write (pool : ConstantPool) : List UInt8 :=
  writeTable writeS32 pool.integers ++ (writeTable writeU30 pool.uintegers ++ (writeTable writeD64 pool.doubles ++
    (writeTable writeString pool.strings ++ (writeTable Namespace.write pool.namespaces ++
      (writeTable (writeList writeU30) pool.nsSets ++ writeTable Multiname.write pool.multinames)))))

def AbcFile.writeParts (f : AbcFile) : List UInt8 :=
  writeList MethodInfo.write f.methods ++ (writeList MetadataInfo.write f.metadata ++
    (writeList InstanceInfo.write f.instances ++ (f.classes.flatMap ClassInfo.write ++
      (writeList ScriptInfo.write f.scripts ++ writeList MethodBody.write f.methodBodies))))

def AbcFile.write (f : AbcFile) : List UInt8 :=
  writeU16 f.minorVersion ++ (writeU16 f.majorVersion ++ (f.constantPool.write ++ f.writeParts))

end Otomai.ProtocolGen.Abc
