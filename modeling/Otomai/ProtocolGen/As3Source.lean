import Otomai.ProtocolGen.As3Parser

/-!
# Decompiled classes

The classes the parser is given: what a method `serializeAs_C` serializes, as a list of statements of the seven
patterns that `extract_fields` documents, and the text of the class file, one statement a line.  `Statement.declared`
is the field a statement serializes, with the type its declaration gives it.
-/

namespace Otomai.ProtocolGen

open Text

/-! ### Names -/

def isIdentChar (c : Char) : Bool := c.isAlphanum || c == '_' || c == '$'

structure Identifier where
  chars : List Char
  ne_nil : chars ≠ []
  valid : ∀ c ∈ chars, isIdentChar c = true

namespace Identifier

def name (x : Identifier) : String := String.ofList x.chars

theorem not_mem (x : Identifier) {c : Char} (h : isIdentChar c = false) : c ∉ x.chars := by
  intro hc
  rw [x.valid c hc] at h
  cases h

end Identifier

/-- The declared type of a variable. -/
inductive VarType where
  | simple (type : Identifier)
  | vector (element : Identifier)

def VarType.text : VarType → List Char
  | simple type => type.chars
  | vector element => "Vector.<".toList ++ element.chars ++ ['>']

/-! ### Statements -/

def thisField (field : Identifier) : List Char := "this.".toList ++ field.chars

theorem thisField_eq (field : Identifier) : thisField field = "this.".toList ++ field.chars := rfl

/-- How a loop names the element it writes: `this.arr[index]`, or `(this.arr[index] as T)`. -/
inductive ElementExpr where
  | plain
  | cast (type : Identifier)

def ElementExpr.text (arr index : Identifier) : ElementExpr → List Char
  | plain => thisField arr ++ ['['] ++ index.chars ++ [']']
  | cast type => ['('] ++ thisField arr ++ ['['] ++ index.chars ++ "] as ".toList ++ type.chars ++ [')']

/-- One of the documented patterns.  A method `writeXxx` is given by its `Xxx`. -/
inductive Statement where
  /-- `output.writeXxx(this.field)` -/
  | primitive (method field : Identifier) (type : VarType)
  /-- `BooleanByteWrapper.setFlag(_box,bit,this.field)` for each flag, then `output.writeByte(_box)`. -/
  | booleans (box : Identifier) (first : Fin 8 × Identifier) (others : List (Fin 8 × Identifier))
  /-- `output.writeXxx(this.arr.length)`, then `output.writeYyy(this.arr[index])` in a loop. -/
  | primitives (lengthMethod arr index method : Identifier) (type : Identifier)
  /-- `output.writeXxx(this.arr.length)`, then `this.arr[index].serializeAs_T(output)` in a loop. -/
  | types (lengthMethod arr index : Identifier) (expr : ElementExpr) (type : Identifier)
  /-- `this.field.serializeAs_T(output)` -/
  | nested (field type : Identifier)
  /-- `output.writeShort(this.field.getTypeId())`, then `this.field.serialize(output)`. -/
  | polymorphic (field type : Identifier)
  /-- `output.writeXxx(this.arr.length)`, then in a loop `output.writeShort(this.arr[index].getTypeId())` and
  `this.arr[index].serialize(output)`. -/
  | polymorphics (lengthMethod arr index : Identifier) (expr : ElementExpr) (type : Identifier)
  /-- `super.serializeAs_Parent(output)` -/
  | superCall (parent : Identifier)

namespace Statement

/-- `output.writeXxx(expr);` -/
def writeLine (method expr : List Char) : List Char := "output.write".toList ++ method ++ ['('] ++ expr ++ ");".toList

/-- `expr.serializeAs_T(output);` -/
def serializeAsLine (expr : List Char) (type : Identifier) : List Char :=
  expr ++ ".serializeAs_".toList ++ type.chars ++ "(output);".toList

/-- `expr.serialize(output);` -/
def serializeLine (expr : List Char) : List Char := expr ++ ".serialize(output);".toList

def typeIdLine (expr : List Char) : List Char := writeLine "Short".toList (expr ++ ".getTypeId()".toList)

def varLine (box : Identifier) : List Char := "var _box".toList ++ box.chars ++ ":uint = 0;".toList

def setFlagLine (box : Identifier) (flag : Fin 8 × Identifier) : List Char :=
  "_box".toList ++ box.chars ++ " = BooleanByteWrapper.setFlag(_box".toList ++ box.chars ++ [','] ++
    [Char.ofNat ('0'.toNat + flag.1.val)] ++ [','] ++ thisField flag.2 ++ ");".toList

def boxLine (box : Identifier) : List Char := writeLine "Byte".toList ("_box".toList ++ box.chars)

def lengthLine (lengthMethod arr : Identifier) : List Char :=
  writeLine lengthMethod.chars (thisField arr ++ ".length".toList)

def forLine (arr index : Identifier) : List Char :=
  "for(var ".toList ++ index.chars ++ ":uint = 0; ".toList ++ index.chars ++ " < ".toList ++ thisField arr ++
    ".length; ".toList ++ index.chars ++ "++)".toList

/-- The length of a vector, and the loop over its elements. -/
def vectorLines (lengthMethod arr index : Identifier) (body : List (List Char)) : List (List Char) :=
  lengthLine lengthMethod arr :: forLine arr index :: ['{'] :: body ++ [['}']]

/-- The lines of a statement, without their indentation. -/
def lines : Statement → List (List Char)
  | primitive method field _ => [writeLine method.chars (thisField field)]
  | booleans box first others => varLine box :: (first :: others).map (setFlagLine box) ++ [boxLine box]
  | primitives lengthMethod arr index method _ =>
    vectorLines lengthMethod arr index [writeLine method.chars (ElementExpr.plain.text arr index)]
  | types lengthMethod arr index expr type =>
    vectorLines lengthMethod arr index [serializeAsLine (expr.text arr index) type]
  | nested field type => [serializeAsLine (thisField field) type]
  | polymorphic field _ => [typeIdLine (thisField field), serializeLine (thisField field)]
  | polymorphics lengthMethod arr index expr _ =>
    vectorLines lengthMethod arr index [typeIdLine (expr.text arr index), serializeLine (expr.text arr index)]
  | superCall parent => [serializeAsLine "super".toList parent]

/-- The type of a flag. -/
def booleanType : VarType := .simple ⟨"Boolean".toList, by decide, by decide⟩

/-- The method that writes the length of a vector. -/
def shortMethod : Identifier := ⟨"Short".toList, by decide, by decide⟩

/-- The variables a statement uses, with the types its declaration must give them. -/
def uses : Statement → List (Identifier × VarType)
  | primitive _ field type => [(field, type)]
  | booleans _ first others => (first :: others).map fun flag => (flag.2, booleanType)
  | primitives _ arr _ _ type => [(arr, .vector type)]
  | types _ arr _ _ type => [(arr, .vector type)]
  | nested field type => [(field, .simple type)]
  | polymorphic field type => [(field, .simple type)]
  | polymorphics _ arr _ _ type => [(arr, .vector type)]
  | superCall _ => []

def vectorField (lengthMethod arr : Identifier) (element : FieldType String) : ProtocolField String :=
  ⟨arr.name, .vector element (String.ofList ("write".toList ++ lengthMethod.chars)), "vector"⟩

/-- The fields a statement serializes. -/
def declared : Statement → List (ProtocolField String)
  | primitive method field _ =>
    [⟨field.name, writerToFieldType ("write".toList ++ method.chars), String.ofList ("write".toList ++ method.chars)⟩]
  | booleans _ first others => (first :: others).map fun flag => flagField flag.2.name
  | primitives lengthMethod arr _ method _ =>
    [vectorField lengthMethod arr (writerToFieldType ("write".toList ++ method.chars))]
  | types lengthMethod arr _ _ type => [vectorField lengthMethod arr (.type (some type.name))]
  | nested field type =>
    [⟨field.name, .type (some type.name), String.ofList ("serializeAs_".toList ++ type.chars)⟩]
  | polymorphic field type => [⟨field.name, .typeManager (some type.name), "TypeManager"⟩]
  | polymorphics lengthMethod arr _ _ type => [vectorField lengthMethod arr (.typeManager (some type.name))]
  | superCall _ => []

end Statement

/-! ### Class files -/

/-- `public var name:type = value;` -/
structure Declaration where
  name : Identifier
  type : VarType
  value : Option (List Char)

def Declaration.line (d : Declaration) : List Char :=
  "public var ".toList ++ d.name.chars ++ [':'] ++ d.type.text ++
    (match d.value with
    | some value => " = ".toList ++ value
    | none => []) ++ [';']

/-- The text of a class file: declarations of variables and, among other lines, the method that serializes them. -/
structure ClassText where
  name : Identifier
  indent : List Char
  header : List (List Char)
  declarations : List Declaration
  members : List (List Char)
  statements : List Statement
  footer : List (List Char)

namespace ClassText

variable (c : ClassText)

def methodName : List Char := "serializeAs_".toList ++ c.name.chars

def signature : List Char := "public function ".toList ++ c.methodName ++ "(output:ICustomDataOutput) : void".toList

/-- The lines before the method. -/
def before : List (List Char) := c.header ++ c.declarations.map (fun d => c.indent ++ d.line) ++ c.members

def body : List (List Char) := (c.statements.flatMap Statement.lines).map (c.indent ++ ·)

def text : List Char :=
  joinLines (c.before ++ [c.indent ++ c.signature, c.indent ++ ['{']] ++ c.body ++ [c.indent ++ ['}']] ++ c.footer)

end ClassText

theorem spaces_blank : ∀ ch ∈ "  ".toList, ch = ' ' ∨ ch = '\t' := by decide

/-- A class file whose lines are lines, with a declaration for every variable the statements use. -/
structure As3Class extends ClassText where
  indent_blank : ∀ ch ∈ indent, ch = ' ' ∨ ch = '\t'
  lines_plain : ∀ l ∈ header ++ members ++ footer, '\n' ∉ l ∧ ¬"public var ".toList <+: Text.trim l
  values_plain : ∀ d ∈ declarations, ∀ value, d.value = some value → '\n' ∉ value
  declarations_nodup : (declarations.map fun d => d.name.chars).Nodup
  declared : ∀ s ∈ statements, ∀ v ∈ s.uses, ∃ d ∈ declarations, d.name = v.1 ∧ d.type = v.2
  /-- The method stands behind the first header of its name. -/
  method_first : ∀ l ∈ toClassText.before, contains ("function ".toList ++ toClassText.methodName ++ ['(']) l = false

end Otomai.ProtocolGen
