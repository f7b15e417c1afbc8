import Otomai.Text.Lines
import Otomai.ProtocolGen.Extractor

/-!
# The parser of decompiled classes

`extract_fields` reads the body of a method `serializeAs_C` line by line.  A parser of one line returns `some none`
when the line has another shape and `none` when a slice of it ends before it starts, which is a panic.  The lines the
source skips by an index are counted: `skip` lines belong to the pattern that was just read.
-/

namespace Otomai.ProtocolGen

open Text

/-- A name as the generator sees it: the empty text is no name. -/
def typeName (name : List Char) : Option String := if name = [] then none else some (String.ofList name)

def writerToFieldType (method : List Char) : FieldType String :=
  match String.ofList method with
  | "writeBoolean" => .bool
  | "writeByte" => .byte
  | "writeUnsignedByte" => .ubyte
  | "writeShort" => .short
  | "writeUnsignedShort" => .ushort
  | "writeInt" => .int
  | "writeUnsignedInt" | "writeUInt" => .uint
  | "writeFloat" => .float
  | "writeDouble" => .double
  | "writeUTF" => .string
  | "writeVarInt" => .varInt
  | "writeVarUhInt" | "writeVarUInt" => .varUint
  | "writeVarShort" => .varShort
  | "writeVarUhShort" | "writeVarUShort" => .varUshort
  | "writeVarLong" => .varLong
  | "writeVarUhLong" | "writeVarULong" => .varUlong
  | "writeBytes" => .byteArray
  | _ => .byte

/-! ### Boolean blocks -/

def isSetFlag (line : List Char) : Bool := contains "BooleanByteWrapper.setFlag".toList line

/-- `BooleanByteWrapper.setFlag(_box0,N,this.field)`: the bit and the field. -/
def parseSetFlag (line : List Char) : Option (UInt8 × String) := do
  let (_, rest) ← cut "setFlag(".toList line
  let (args, _) ← cut [')'] rest
  match (split ',' args).map trim with
  | [_, bit, field] => do
    let bit ← parseUnsigned 256 bit
    let field ← stripPrefix "this.".toList field
    pure (UInt8.ofNat bit, String.ofList field)
  | _ => none

/-- The flags of a block with their bits, and the number of lines of the block. -/
def parseBooleanBlock : List (List Char) → List (UInt8 × String) × Nat
  | [] => ([], 0)
  | line :: rest =>
    if isSetFlag line then
      let (bits, consumed) := parseBooleanBlock rest
      ((parseSetFlag line).toList ++ bits, consumed + 1)
    else ([], if contains "writeByte".toList line && contains "_box".toList line then 1 else 0)

/-- The field of a flag; its bit is not part of it. -/
def flagField (name : String) : ProtocolField String := ⟨name, .bool, "BooleanByteWrapper"⟩

/-! ### Single lines -/

/-- What stands before the first opening parenthesis, and what stands between it and the last closing one. -/
def callArguments (line : List Char) : Option (Option (List Char × List Char)) :=
  match cut ['('] line with
  | none => some none
  | some (callee, rest) =>
    match cutLast ')' rest with
    | some (args, _) => some (some (callee, args))
    | none => if ')' ∈ callee then none else some none

/-- `output.writeXxx(this.arr.length)`: the array and the method. -/
def parseLengthWrite (line : List Char) : Option (Option (List Char × List Char)) := do
  match ← callArguments line with
  | none => pure none
  | some (callee, args) => pure do
    let fieldExpr ← stripPrefix "this.".toList args
    let (arr, _) ← cut ".length".toList fieldExpr
    pure (arr, callee.drop "output.".toList.length)

/-- `output.writeXxx(this.field)`: the field and the method. -/
def parseSimpleWrite (line : List Char) : Option (Option (List Char × List Char)) := do
  match ← callArguments line with
  | none => pure none
  | some (callee, args) => pure do
    let field ← stripPrefix "this.".toList args
    if '.' ∈ field ∨ '[' ∈ field then none else pure (field, callee.drop "output.".toList.length)

/-- The `T` of `serializeAs_T(`. -/
def extractSerializeAsType (line : List Char) : Option (List Char) := do
  let (_, rest) ← cut ".serializeAs_".toList line
  let (type, _) ← cut ['('] rest
  pure type

/-- The field of `output.writeShort(this.field.getTypeId())`. -/
def extractTypeIdField (line : List Char) : Option (List Char) := do
  let (_, rest) ← cut "(this.".toList line
  let (field, _) ← cut ".getTypeId()".toList rest
  pure field

/-- The type in the call that serializes the field, within the next `n` lines. -/
def findSerializeAfter (fieldName : List Char) : Nat → List (List Char) → Option (List Char)
  | 0, _ => none
  | _, [] => none
  | n + 1, line :: rest =>
    if "this.".toList ++ fieldName ++ ['.'] <+: line then
      match extractSerializeAsType line with
      | some type => some type
      | none => if contains ".serialize(".toList line then none else findSerializeAfter fieldName n rest
    else findSerializeAfter fieldName n rest

/-- `this.field.serializeAs_Type(output)`: the field and the type. -/
def parseDirectSerialize (line : List Char) : Option (Option (List Char × List Char)) :=
  if '[' ∈ line then some none
  else match cut ".serializeAs_".toList line with
    | none => some none
    | some (before, rest) =>
      if before.length < "this.".toList.length then none
      else some ((cut ['('] rest).map fun x => (before.drop "this.".toList.length, x.1))

/-! ### Loops -/

def isFor (line : List Char) : Bool := "for(".toList <+: line || "for (".toList <+: line

/-- `output.writeXxx(this.arr[...])`: a primitive element. -/
def writtenElement (elem : FieldType String) (line : List Char) : Option (FieldType String) :=
  if "output.write".toList <+: line ∧ '[' ∈ line then
    match cut ['('] line with
    | some (callee, _) => some (writerToFieldType (callee.drop "output.".toList.length))
    | none => none
  else some elem

/-- `.serializeAs_Type(output)` on a line that has the shape of an element. -/
def calledElement (isElement : Bool) (line : List Char) (elem : FieldType String) : FieldType String :=
  if isElement ∧ contains ".serializeAs_".toList line then
    match extractSerializeAsType line with
    | some type => .type (typeName type)
    | none => elem
  else elem

/-- `output.writeShort(this.arr[i].getTypeId())`: a polymorphic element, of the type the next line shows. -/
def polymorphicElement (line : List Char) (rest : List (List Char)) (elem : FieldType String) : FieldType String :=
  if "output.write".toList <+: line ∧ contains ".getTypeId()".toList line then
    match rest with
    | next :: _ => .typeManager ((extractSerializeAsType next).bind typeName)
    | [] => elem
  else elem

/-- The type of the elements after a line of the body of a loop that is not a brace. -/
def elementAt (elem : FieldType String) (line : List Char) (rest : List (List Char)) : Option (FieldType String) :=
  (writtenElement elem line).map fun elem =>
    polymorphicElement line rest
      (calledElement ("this.".toList <+: line ∧ '[' ∈ line) line (calledElement ("(this.".toList <+: line) line elem))

/-- The type of the element that the body of a loop writes, and the number of lines up to the brace that closes it. -/
def scanLoop (depth : Nat) (elem : FieldType String) : List (List Char) → Option (FieldType String × Nat)
  | [] => some (elem, 0)
  | line :: rest =>
    let depth := if line = ['{'] then depth + 1 else depth
    if line = ['}'] ∧ depth - 1 = 0 then some (elem, 1)
    else do
      let elem ← elementAt elem line rest
      let (elem, consumed) ← scanLoop (if line = ['}'] then depth - 1 else depth) elem rest
      pure (elem, consumed + 1)

/-- Lines of a validation that may stand between a length and its loop. -/
def isValidation (line : List Char) : Bool :=
  "if(".toList <+: line || "throw ".toList <+: line || line = ['{'] || line = ['}']

/-- The type of the elements of an array, and the number of lines of its loop. -/
def parseForLoop (lines : List (List Char)) : Option (FieldType String × Nat) :=
  match lines.dropWhile isValidation with
  | [] => some (.byte, 0)
  | line :: body =>
    if isFor line then
      match body with
      | ['{'] :: body => (scanLoop 1 .byte body).map fun x => (x.1, x.2 + 2)
      | body => (scanLoop 1 .byte body).map fun x => (x.1, x.2 + 1)
    else some (.byte, 0)

/-! ### Fields -/

/-- The first attempt that recognises the line decides; a panic ends the run. -/
def orTry {α : Type} (attempt : Option (Option α)) (next : Option (Option α)) : Option (Option α) :=
  match attempt with
  | none => none
  | some (some a) => some (some a)
  | some none => next

/-- `output.writeXxx(this.field.length)`: the start of an array. -/
def vectorAt (line : List Char) (rest : List (List Char)) : Option (Option (ProtocolField String × Nat)) :=
  if "output.write".toList <+: line ∧ contains ".length)".toList line then do
    match ← parseLengthWrite line with
    | none => pure none
    | some (arr, lenMethod) => do
      let (elem, consumed) ← parseForLoop rest
      pure (some (⟨String.ofList arr, .vector elem (String.ofList lenMethod), "vector"⟩, 1 + consumed))
  else some none

/-- `output.writeShort(this.field.getTypeId())`: a polymorphic type, serialized on the next line. -/
def polymorphicAt (line : List Char) (rest : List (List Char)) : Option (Option (ProtocolField String × Nat)) :=
  if "output.write".toList <+: line ∧ contains ".getTypeId()".toList line then
    match extractTypeIdField line with
    | none => some none
    | some field =>
      let type := (findSerializeAfter field 5 rest).getD []
      some (some (⟨String.ofList field, .typeManager (typeName type), "TypeManager"⟩, 2))
  else some none

/-- `this.field.serializeAs_Type(output)` -/
def directAt (line : List Char) : Option (Option (ProtocolField String × Nat)) :=
  if "this.".toList <+: line ∧ contains ".serializeAs_".toList line then do
    match ← parseDirectSerialize line with
    | none => pure none
    | some (field, type) =>
      pure (some (⟨String.ofList field, .type (typeName type), String.ofList ("serializeAs_".toList ++ type)⟩, 1))
  else some none

/-- `this.field.serialize(output);` -/
def plainAt (line : List Char) : Option (Option (ProtocolField String × Nat)) :=
  let suffix := ".serialize(output);".toList
  if "this.".toList <+: line ∧ suffix <:+ line then
    if line.length - suffix.length < "this.".toList.length then none
    else
      let field := (line.take (line.length - suffix.length)).drop "this.".toList.length
      if '[' ∈ field then some none else some (some (⟨String.ofList field, .type none, "serialize"⟩, 1))
  else some none

/-- `output.writeXxx(this.field)`: a primitive. -/
def primitiveAt (line : List Char) : Option (Option (ProtocolField String × Nat)) :=
  if "output.write".toList <+: line then do
    match ← parseSimpleWrite line with
    | none => pure none
    | some (field, method) => pure (some (⟨String.ofList field, writerToFieldType method, String.ofList method⟩, 1))
  else some none

/-- The field that a line and those after it serialize, and the number of lines it takes. -/
def fieldAt (line : List Char) (rest : List (List Char)) : Option (Option (ProtocolField String × Nat)) :=
  orTry (vectorAt line rest) <| orTry (polymorphicAt line rest) <| orTry (directAt line) <| orTry (plainAt line) <|
    primitiveAt line

/-- Empty lines, braces, variable declarations, `if` and `throw`. -/
def isSkipped (line : List Char) : Bool :=
  line = [] || line = ['{'] || line = ['}'] || "var ".toList <+: line || "if(".toList <+: line ||
    "throw ".toList <+: line || "//".toList <+: line || "else".toList <+: line

def isSuperCall (line : List Char) : Bool :=
  contains "super.serializeAs_".toList line || contains "super.serialize(".toList line

/-- The fields and boxes of the lines, of which `skip` are already read. -/
def extractFrom (boxCount : Nat) : Nat → List (List Char) → Option (List (ProtocolField String) × List BooleanWrapper)
  | _, [] => some ([], [])
  | skip + 1, _ :: rest => extractFrom boxCount skip rest
  | 0, line :: rest =>
    if isSkipped line then extractFrom boxCount 0 rest
    else if isSetFlag line then do
      let (bits, consumed) := parseBooleanBlock (line :: rest)
      let (fields, wrappers) ← extractFrom (boxCount + 1) (consumed - 1) rest
      pure (bits.map (fun x => flagField x.2) ++ fields, ⟨boxCount, bits⟩ :: wrappers)
    else if isSuperCall line then extractFrom boxCount 0 rest
    else do
      match ← fieldAt line rest with
      | some (field, consumed) =>
        let (fields, wrappers) ← extractFrom boxCount (consumed - 1) rest
        pure (field :: fields, wrappers)
      | none => extractFrom boxCount 0 rest

/-! ### Declarations -/

/-- `public var fieldName:TypeName = ...;` -/
def parseDeclaration (line : List Char) : Option (String × List Char) := do
  let rest ← stripPrefix "public var ".toList (trim line)
  let (name, afterColon) ← cut [':'] rest
  pure (String.ofList name, trim (afterColon.takeWhile fun c => c != '=' && c != ';'))

/-- The declared types; of two declarations of a name the last one counts. -/
def varTypes (source : List Char) : List (String × List Char) := ((lines source).filterMap parseDeclaration).reverse

def extractVectorInnerType (type : List Char) : Option (List Char) := do
  let (_, rest) ← cut "Vector.<".toList type
  let (inner, _) ← cut ['>'] rest
  pure inner

/-- The declared type stands in for an empty name. -/
def resolveFieldType (types : List (String × List Char)) (f : ProtocolField String) : ProtocolField String :=
  match f.fieldType with
  | .type none =>
    match types.lookup f.name with
    | some type => { f with fieldType := .type (typeName type) }
    | none => f
  | .typeManager none =>
    match types.lookup f.name with
    | some type => { f with fieldType := .typeManager (typeName type) }
    | none => f
  | .vector (.type none) lengthType =>
    match (types.lookup f.name).bind extractVectorInnerType with
    | some inner => { f with fieldType := .vector (.type (typeName inner)) lengthType }
    | none => f
  | _ => f

/-! ### Methods -/

/-- The text up to the brace that closes the last of `depth` open ones. -/
def matchBraces (depth : Nat) : List Char → Option (List Char)
  | [] => none
  | c :: s =>
    let depth := if c = '{' then depth + 1 else if c = '}' then depth - 1 else depth
    if depth = 0 then some [] else (matchBraces depth s).map (c :: ·)

def extractMethodBody (source methodName : List Char) : Option (List Char) := do
  let pattern := "function ".toList ++ methodName ++ ['(']
  let (_, rest) ← cut pattern source
  let (_, body) ← cut ['{'] (pattern ++ rest)
  matchBraces 1 body

/-- The fields the method serializes, in order, and its flag bytes. -/
def extractFields (source methodName : List Char) : Option (List (ProtocolField String) × List BooleanWrapper) :=
  match extractMethodBody source methodName with
  | none => some ([], [])
  | some body => do
    let (fields, wrappers) ← extractFrom 0 0 ((lines body).map trim)
    pure (fields.map (resolveFieldType (varTypes source)), wrappers)

end Otomai.ProtocolGen
