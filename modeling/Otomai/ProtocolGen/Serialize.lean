import Otomai.ProtocolGen.AbcFormat
import Otomai.ProtocolGen.Extractor

/-!
# The fields in the code of `serialize`

The extractor walks through the bytecode of a method.  It remembers the last property that was read, and takes it for
the name of a field when a method of the writer is called.  Errors of the reader are passed over: the walk goes on
where the reader stopped.

* `analyzeFrom_flatMap`: on instructions, the walk sees the properties and calls among them.
* `fields_foldl`: a field is a property directly before a call.
* `analyzeSerialize_spec`: what is found in any code, and in the statements of a method.
-/

namespace Otomai.ProtocolGen

open Abc Wire

/-! ### Opcodes -/

inductive OperandType where
  | byte
  | u30
  | s24
  deriving DecidableEq, Repr

/-- The jumps. -/
def s24Opcodes : List UInt8 := [0x10, 0x11, 0x12, 0x13, 0x14, 0x15, 0x16, 0x17, 0x18, 0x19, 0x1A]

def u30Opcodes : List UInt8 :=
  [0x04, 0x05, 0x08, 0x25, 0x2C, 0x2D, 0x2E, 0x2F, 0x40, 0x41, 0x42, 0x49, 0x55, 0x56, 0x58, 0x59, 0x5A, 0x5D, 0x5E,
    0x60, 0x61, 0x62, 0x63, 0x65, 0x66, 0x68, 0x6A, 0x6C, 0x6D, 0x80, 0x86, 0xB2, 0xC5, 0xC6, 0xF0, 0xF1]

def u30PairOpcodes : List UInt8 := [0x32, 0x43, 0x44, 0x45, 0x46, 0x4A, 0x4C, 0x4E, 0x4F]

/-- The operands of an opcode; those that are not listed have none. -/
def opcodeOperands (op : UInt8) : List OperandType :=
  if op ∈ s24Opcodes then [.s24]
  else if op = 0x24 then [.byte]
  else if op ∈ u30Opcodes then [.u30]
  else if op ∈ u30PairOpcodes then [.u30, .u30]
  else if op = 0xEF then [.byte, .u30, .byte, .u30]
  else []

/-! ### Reading past errors -/

/-- The loop of `read_u30`, and the bytes it leaves whether it fails or not. -/
def u30From : Nat → UInt32 → UInt32 → List UInt8 → Option UInt32 × List UInt8
  | 0, _, _, code => (none, code)
  | _ + 1, _, _, [] => (none, [])
  | n + 1, result, shift, byte :: code =>
    let result := result ||| ((byte &&& 0x7f).toUInt32 <<< shift)
    if byte &&& 0x80 = 0 then (some result, code) else u30From n result (shift + 7) code

def u30 (code : List UInt8) : Option UInt32 × List UInt8 := u30From 5 0 0 code

/-- Three bytes are read if there are as many. -/
def s24 (code : List UInt8) : List UInt8 := if 3 ≤ code.length then code.drop 3 else code

def skipOperand (code : List UInt8) : OperandType → List UInt8
  | .byte => code.drop 1
  | .u30 => (u30 code).2
  | .s24 => s24 code

def skipCases : Nat → List UInt8 → List UInt8
  | 0, code => code
  | n + 1, code => skipCases n (s24 code)

/-! ### The walk -/

def writerMethodToFieldType (method : String) : Option (FieldType String) := match method with
  | "writeBoolean" => some .bool
  | "writeByte" => some .byte
  | "writeUnsignedByte" => some .ubyte
  | "writeShort" => some .short
  | "writeUShort" => some .ushort
  | "writeInt" => some .int
  | "writeUInt" => some .uint
  | "writeUnsignedInt" => some .uint
  | "writeFloat" => some .float
  | "writeDouble" => some .double
  | "writeUTF" => some .string
  | "writeVarInt" => some .varInt
  | "writeVarUInt" => some .varUint
  | "writeVarShort" => some .varShort
  | "writeVarUhShort" => some .varUshort
  | "writeVarUShort" => some .varUshort
  | "writeVarLong" => some .varLong
  | "writeVarUhLong" => some .varUlong
  | "writeVarULong" => some .varUlong
  | "writeBytes" => some .byteArray
  | _ => none

/-- What a call with a value is taken for; the type of a nested one is not known here. -/
def callFieldType (method : String) : Option (FieldType String) :=
  if method = "serialize" then some (.type none) else writerMethodToFieldType method

/-- The property may be a field. -/
def IsField (name : String) : Prop := name ≠ "" ∧ name ≠ "length" ∧ name.toList.head? ≠ some '_'

instance : DecidablePred IsField := fun _ => inferInstanceAs (Decidable (_ ∧ _))

structure Analysis where
  lastProperty : Option String
  fields : List (ProtocolField String)
  deriving DecidableEq, Repr

namespace Analysis

def property (a : Analysis) (name : String) : Analysis :=
  if IsField name then { a with lastProperty := some name } else a

/-- The last property is taken, whether the method is known or not. -/
def call (a : Analysis) (method : String) (fieldType : Option (FieldType String)) : Analysis :=
  match a.lastProperty with
  | none => a
  | some name => match fieldType with
    | none => { a with lastProperty := none }
    | some fieldType => ⟨none, a.fields ++ [⟨name, fieldType, method⟩]⟩

end Analysis

section

variable (names : UInt32 → Option String)

def walkProperty (code : List UInt8) (a : Analysis) : Option (Analysis × List UInt8) :=
  match u30 code with
  | (some index, code) => do
    let name ← names index
    some (a.property name, code)
  | (none, code) => some (a, code)

def walkCall (fieldType : String → Option (FieldType String)) (code : List UInt8) (a : Analysis) :
    Option (Analysis × List UInt8) :=
  match u30 code with
  | (some index, code) => do
    let methodName ← names index
    some (a.call methodName (fieldType methodName), (u30 code).2)
  | (none, code) => some (a, code)

def walkSwitch (code : List UInt8) : List UInt8 :=
  let (caseCount, code) := u30 (s24 code)
  skipCases ((caseCount.getD 0).toNat + 1) code

/-- One opcode, and the bytes behind it. -/
def walk (op : UInt8) (code : List UInt8) (a : Analysis) : Option (Analysis × List UInt8) :=
  if op = 0x66 then walkProperty names code a
  else if op = 0x4F then walkCall names writerMethodToFieldType code a
  else if op = 0x46 then walkCall names callFieldType code a
  else if op = 0x1B then some (a, walkSwitch code)
  else some (a, (opcodeOperands op).foldl skipOperand code)

/-- The loop over the code, within a number of opcodes. -/
def analyzeFrom : Nat → List UInt8 → Analysis → Option Analysis
  | _, [], a => some a
  | 0, _ :: _, _ => none
  | n + 1, op :: code, a => do
    let (a, code) ← walk names op code a
    analyzeFrom n code a

/-- `analyze_serialize`, where `names` gives the names of the multinames. -/
def analyzeSerialize (body : MethodBody) : Option (List (ProtocolField String)) :=
  (analyzeFrom names body.code.length body.code ⟨none, []⟩).map Analysis.fields

end

/-! ### The walk ends -/

theorem length_u30From_le (n : Nat) (result shift : UInt32) (code : List UInt8) :
    (u30From n result shift code).2.length ≤ code.length := by
  induction n generalizing result shift code with
  | zero => exact Nat.le_refl _
  | succ n ih =>
    cases code with
    | nil => exact Nat.le_refl _
    | cons byte code =>
      unfold u30From
      dsimp only
      split_ifs
      · exact Nat.le_succ _
      · exact Nat.le_succ_of_le (ih _ _ code)

theorem length_u30_le (code : List UInt8) : (u30 code).2.length ≤ code.length := length_u30From_le 5 0 0 code

theorem length_s24_le (code : List UInt8) : (s24 code).length ≤ code.length := by
  unfold s24
  split_ifs
  · rw [List.length_drop]
    omega
  · exact Nat.le_refl _

theorem length_skipOperand_le (code : List UInt8) (t : OperandType) : (skipOperand code t).length ≤ code.length := by
  cases t with
  | byte =>
    rw [skipOperand, List.length_drop]
    omega
  | u30 => exact length_u30_le code
  | s24 => exact length_s24_le code

theorem length_skipCases_le (n : Nat) (code : List UInt8) : (skipCases n code).length ≤ code.length := by
  induction n generalizing code with
  | zero => exact Nat.le_refl _
  | succ n ih => exact Nat.le_trans (ih _) (length_s24_le code)

theorem length_foldl_skipOperand_le (ts : List OperandType) (code : List UInt8) :
    (ts.foldl skipOperand code).length ≤ code.length := by
  induction ts generalizing code with
  | nil => exact Nat.le_refl _
  | cons t ts ih => exact Nat.le_trans (ih _) (length_skipOperand_le code t)

section

variable {names : UInt32 → Option String} (hnames : ∀ index, ∃ name, names index = some name)
include hnames

theorem exists_walk (op : UInt8) (code : List UInt8) (a : Analysis) :
    ∃ a' code', walk names op code a = some (a', code') ∧ code'.length ≤ code.length := by
  obtain ⟨index, rest, hread, hle⟩ : ∃ index rest, u30 code = (index, rest) ∧ rest.length ≤ code.length :=
    ⟨_, _, rfl, length_u30_le code⟩
  have hcall (fieldType : String → Option (FieldType String)) :
      ∃ a' code', walkCall names fieldType code a = some (a', code') ∧ code'.length ≤ code.length := by
    rw [walkCall, hread]
    cases index with
    | none => exact ⟨a, rest, rfl, hle⟩
    | some index =>
      obtain ⟨name, hname⟩ := hnames index
      dsimp only
      rw [hname]
      exact ⟨_, _, rfl, Nat.le_trans (length_u30_le rest) hle⟩
  unfold walk
  split_ifs
  · rw [walkProperty, hread]
    cases index with
    | none => exact ⟨a, rest, rfl, hle⟩
    | some index =>
      obtain ⟨name, hname⟩ := hnames index
      dsimp only
      rw [hname]
      exact ⟨_, _, rfl, hle⟩
  · exact hcall _
  · exact hcall _
  · refine ⟨a, walkSwitch code, rfl, ?_⟩
    have hcases := length_skipCases_le (((u30 (s24 code)).1.getD 0).toNat + 1) (u30 (s24 code)).2
    exact Nat.le_trans hcases (Nat.le_trans (length_u30_le _) (length_s24_le code))
  · exact ⟨a, _, rfl, length_foldl_skipOperand_le _ code⟩

/-- Every opcode takes a byte at least. -/
theorem exists_analyzeFrom {n : Nat} {code : List UInt8} (hn : code.length ≤ n) (a : Analysis) :
    ∃ a', analyzeFrom names n code a = some a' := by
  induction n generalizing code a with
  | zero =>
    obtain rfl := List.length_eq_zero_iff.1 (Nat.le_zero.1 hn)
    exact ⟨a, rfl⟩
  | succ n ih =>
    cases code with
    | nil => exact ⟨a, rfl⟩
    | cons op code =>
      obtain ⟨a', code', hwalk, hle⟩ := exists_walk hnames op code a
      obtain ⟨a'', h⟩ := ih (Nat.le_trans hle (Nat.le_of_succ_le_succ hn)) a'
      refine ⟨a'', ?_⟩
      rw [analyzeFrom, hwalk]
      exact h

end

/-! ### Instructions -/

/-- A jump's distance. -/
structure Offset where
  b₀ : UInt8
  b₁ : UInt8
  b₂ : UInt8
  deriving DecidableEq, Repr

def Offset.write (o : Offset) : List UInt8 := [o.b₀, o.b₁, o.b₂]

inductive Operand where
  | byte (b : UInt8)
  | u30 (v : UInt32)
  | s24 (o : Offset)
  deriving DecidableEq, Repr

namespace Operand

def type : Operand → OperandType
  | byte _ => .byte
  | u30 _ => .u30
  | s24 _ => .s24

def write : Operand → List UInt8
  | byte b => [b]
  | u30 v => writeU30 v
  | s24 o => o.write

end Operand

/-- An instruction.  Those the walk looks at, and a switch, have opcodes of their own. -/
inductive Instr where
  | getProperty (index : UInt32)
  | callPropVoid (index argCount : UInt32)
  | callProperty (index argCount : UInt32)
  | lookupSwitch (default first : Offset) (cases : List Offset) (hcases : cases.length < 2 ^ 32)
  | plain (op : UInt8) (operands : List Operand) (hop : op ∉ [0x66, 0x4F, 0x46, 0x1B])
      (hoperands : operands.map Operand.type = opcodeOperands op)

/-- What the walk sees. -/
inductive Event where
  | property (name : String)
  | call (method : String) (fieldType : Option (FieldType String))
  deriving DecidableEq, Repr

namespace Instr

def write : Instr → List UInt8
  | getProperty index => 0x66 :: writeU30 index
  | callPropVoid index argCount => 0x4F :: (writeU30 index ++ writeU30 argCount)
  | callProperty index argCount => 0x46 :: (writeU30 index ++ writeU30 argCount)
  | lookupSwitch default first cases _ =>
    0x1B :: (default.write ++ (writeU30 (UInt32.ofNat cases.length) ++ (first :: cases).flatMap Offset.write))
  | plain op operands _ _ => op :: operands.flatMap Operand.write

def event (name : UInt32 → String) : Instr → Option Event
  | getProperty index => if IsField (name index) then some (.property (name index)) else none
  | callPropVoid index _ => some (.call (name index) (writerMethodToFieldType (name index)))
  | callProperty index _ => some (.call (name index) (callFieldType (name index)))
  | lookupSwitch .. => none
  | plain .. => none

end Instr

def Analysis.see (a : Analysis) : Event → Analysis
  | .property name => { a with lastProperty := some name }
  | .call method fieldType => a.call method fieldType

/-- The field that a property and what comes next stand for. -/
def fieldOf : Event × Event → Option (ProtocolField String)
  | (.property name, .call method (some fieldType)) => some ⟨name, fieldType, method⟩
  | _ => none

/-- The fields: the properties that are directly before a call of the writer. -/
def fieldsOf (events : List Event) : List (ProtocolField String) := (events.zip events.tail).filterMap fieldOf

theorem u30From_of_readU30From {n : Nat} {result shift v : UInt32} {code rest : List UInt8} {p p' : Nat}
    (h : AbcReader.readU30From n result shift ⟨p, code⟩ = .ok (v, ⟨p', rest⟩)) :
    u30From n result shift code = (some v, rest) := by
  induction n generalizing result shift code p with
  | zero => cases h
  | succ n ih =>
    cases code with
    | nil => cases h
    | cons byte code =>
      obtain ⟨⟨b, c⟩, hbyte, h⟩ := Outcome.bind_eq_ok.1 h
      obtain ⟨rfl, rfl⟩ := Prod.mk.inj (Outcome.ok.inj hbyte)
      unfold u30From
      dsimp only at h ⊢
      by_cases hlast : byte &&& 0x80 = 0
      · rw [if_pos hlast] at h ⊢
        cases h
        rfl
      · rw [if_neg hlast] at h ⊢
        exact ih h

@[simp] theorem u30_writeU30 (v : UInt32) (rest : List UInt8) : u30 (writeU30 v ++ rest) = (some v, rest) :=
  u30From_of_readU30From (reads_abcU30 v 0 rest)

@[simp] theorem s24_write (o : Offset) (rest : List UInt8) : s24 (o.write ++ rest) = rest := by
  rw [s24, if_pos (by simp [Offset.write])]
  rfl

theorem skipOperand_write (o : Operand) (rest : List UInt8) : skipOperand (o.write ++ rest) o.type = rest := by
  cases o with
  | byte b => rfl
  | u30 v => rw [Operand.write, Operand.type, skipOperand, u30_writeU30]
  | s24 o => exact s24_write o rest

theorem foldl_skipOperand (operands : List Operand) (rest : List UInt8) :
    (operands.map Operand.type).foldl skipOperand (operands.flatMap Operand.write ++ rest) = rest := by
  induction operands with
  | nil => rfl
  | cons o operands ih =>
    rw [List.map_cons, List.foldl_cons, List.flatMap_cons, List.append_assoc, skipOperand_write]
    exact ih

theorem skipCases_write (offsets : List Offset) (rest : List UInt8) :
    skipCases offsets.length (offsets.flatMap Offset.write ++ rest) = rest := by
  induction offsets with
  | nil => rfl
  | cons o offsets ih =>
    rw [List.length_cons, skipCases, List.flatMap_cons, List.append_assoc, s24_write]
    exact ih

section

variable {names : UInt32 → Option String} {name : UInt32 → String} (hnames : ∀ index, names index = some (name index))
include hnames

theorem walk_write (i : Instr) (rest : List UInt8) (a : Analysis) :
    ∃ op bytes, i.write = op :: bytes ∧
      walk names op (bytes ++ rest) a = some ((i.event name).toList.foldl Analysis.see a, rest) := by
  have hcall (fieldType : String → Option (FieldType String)) (index argCount : UInt32) :
      walkCall names fieldType (writeU30 index ++ writeU30 argCount ++ rest) a =
        some (a.call (name index) (fieldType (name index)), rest) := by
    rw [walkCall, List.append_assoc, u30_writeU30]
    dsimp only
    rw [hnames, u30_writeU30]
    rfl
  cases i with
  | getProperty index =>
    refine ⟨_, _, rfl, ?_⟩
    rw [walk, if_pos rfl, walkProperty, u30_writeU30]
    dsimp only
    rw [hnames, Instr.event]
    by_cases hfield : IsField (name index)
    · rw [if_pos hfield]
      simp [Analysis.property, hfield, Analysis.see]
    · rw [if_neg hfield]
      simp [Analysis.property, hfield]
  | callPropVoid index argCount => exact ⟨_, _, rfl, hcall writerMethodToFieldType index argCount⟩
  | callProperty index argCount => exact ⟨_, _, rfl, hcall callFieldType index argCount⟩
  | lookupSwitch default first cases hcases =>
    refine ⟨_, _, rfl, ?_⟩
    have hcount : (UInt32.ofNat cases.length).toNat + 1 = (first :: cases).length := by
      rw [UInt32.toNat_ofNat_of_lt' hcases, List.length_cons]
    rw [walk, if_neg (by decide), if_neg (by decide), if_neg (by decide), if_pos rfl, walkSwitch, List.append_assoc,
      s24_write, List.append_assoc, u30_writeU30]
    dsimp only [Option.getD_some]
    rw [hcount, skipCases_write]
    rfl
  | plain op operands hop hoperands =>
    refine ⟨_, _, rfl, ?_⟩
    simp only [List.mem_cons, List.not_mem_nil, not_or, or_false] at hop
    obtain ⟨hget, hvoid, hvalue, hswitch⟩ := hop
    rw [walk, if_neg hget, if_neg hvoid, if_neg hvalue, if_neg hswitch, ← hoperands, foldl_skipOperand]
    rfl

theorem analyzeFrom_flatMap (instrs : List Instr) {n : Nat} (hn : instrs.length ≤ n) (a : Analysis) :
    analyzeFrom names n (instrs.flatMap Instr.write) a =
      some ((instrs.filterMap (Instr.event name)).foldl Analysis.see a) := by
  induction instrs generalizing n a with
  | nil =>
    rw [List.flatMap_nil, analyzeFrom]
    rfl
  | cons i instrs ih =>
    obtain ⟨n, rfl⟩ := Nat.exists_eq_succ_of_ne_zero (Nat.ne_zero_of_lt hn)
    obtain ⟨op, bytes, hwrite, hwalk⟩ := walk_write hnames i (instrs.flatMap Instr.write) a
    rw [List.flatMap_cons, hwrite, List.cons_append, analyzeFrom, hwalk, Option.bind_eq_bind, Option.bind_some]
    refine (ih (Nat.le_of_succ_le_succ hn) _).trans ?_
    rw [List.filterMap_cons]
    cases i.event name with
    | none => rfl
    | some e => rfl

end

theorem length_le_flatMap_write (instrs : List Instr) : instrs.length ≤ (instrs.flatMap Instr.write).length := by
  induction instrs with
  | nil => exact Nat.le_refl 0
  | cons i instrs ih =>
    have hpos : 0 < i.write.length := by cases i <;> exact Nat.succ_pos _
    rw [List.flatMap_cons, List.length_append, List.length_cons]
    omega

/-! ### Properties and calls -/

/-- The property that is remembered counts as one that was just seen. -/
theorem fields_foldl (events : List Event) (last : Option String) (fields : List (ProtocolField String)) :
    (events.foldl Analysis.see ⟨last, fields⟩).fields =
      fields ++ fieldsOf (last.toList.map Event.property ++ events) := by
  induction events generalizing last fields with
  | nil =>
    cases last with
    | none => simp [fieldsOf]
    | some name => simp [fieldsOf]
  | cons e events ih =>
    cases e with
    | property name =>
      rw [List.foldl_cons, Analysis.see, ih]
      cases last with
      | none => rfl
      | some last => rfl
    | call method fieldType =>
      have hcall : fieldsOf (.call method fieldType :: events) = fieldsOf events := by
        cases events with
        | nil => rfl
        | cons e events => rfl
      rw [List.foldl_cons, Analysis.see]
      cases last with
      | none =>
        rw [Analysis.call, ih]
        exact congrArg (fields ++ ·) hcall.symm
      | some name =>
        cases fieldType with
        | none =>
          rw [Analysis.call, ih]
          exact congrArg (fields ++ ·) hcall.symm
        | some fieldType =>
          rw [Analysis.call, ih, List.append_assoc]
          exact congrArg (fields ++ ⟨name, fieldType, method⟩ :: ·) hcall.symm

/-- A statement that writes a field: it reads the property, and calls a method of the writer before it reads another
one. -/
structure WritingCode (name : UInt32 → String) where
  field : ProtocolField String
  instrs : List Instr
  events : instrs.filterMap (Instr.event name) =
    [.property field.name, .call field.writeMethod (some field.fieldType)]

theorem fieldsOf_writing {name : UInt32 → String} (statements : List (WritingCode name)) :
    fieldsOf (statements.flatMap fun s => s.instrs.filterMap (Instr.event name)) =
      statements.map WritingCode.field := by
  induction statements with
  | nil => rfl
  | cons s statements ih =>
    rw [List.flatMap_cons, s.events, List.map_cons, ← ih]
    cases statements.flatMap fun s => s.instrs.filterMap (Instr.event name) with
    | nil => rfl
    | cons e events => rfl

theorem exists_analyzeSerialize {names : UInt32 → Option String} {name : UInt32 → String}
    (hnames : ∀ index, names index = some (name index)) (body : MethodBody) :
    ∃ fields, analyzeSerialize names body = some fields := by
  have hresolve : ∀ index, ∃ name, names index = some name := fun index => ⟨name index, hnames index⟩
  obtain ⟨a, ha⟩ := exists_analyzeFrom hresolve (Nat.le_refl body.code.length) ⟨none, []⟩
  exact ⟨a.fields, by rw [analyzeSerialize, ha, Option.map_some]⟩

/-- The walk ends on any code.  On instructions the fields are the properties directly before a call of the writer,
and on the statements of a method those that the statements write, in order. -/
theorem analyzeSerialize_spec {names : UInt32 → Option String} {name : UInt32 → String}
    (hnames : ∀ index, names index = some (name index)) :
    (∀ body : MethodBody, ∃ fields, analyzeSerialize names body = some fields) ∧
    (∀ (body : MethodBody) (instrs : List Instr), body.code = instrs.flatMap Instr.write →
      analyzeSerialize names body = some (fieldsOf (instrs.filterMap (Instr.event name)))) ∧
    ∀ (body : MethodBody) (statements : List (WritingCode name)) (last : List Instr),
      body.code = (statements.flatMap WritingCode.instrs ++ last).flatMap Instr.write →
        last.filterMap (Instr.event name) = [] →
          analyzeSerialize names body = some (statements.map WritingCode.field) := by
  have hinstrs (body : MethodBody) (instrs : List Instr) (hcode : body.code = instrs.flatMap Instr.write) :
      analyzeSerialize names body = some (fieldsOf (instrs.filterMap (Instr.event name))) := by
    have hlength := length_le_flatMap_write instrs
    rw [analyzeSerialize, hcode, analyzeFrom_flatMap hnames instrs hlength, Option.map_some, fields_foldl]
    rfl
  refine ⟨exists_analyzeSerialize hnames, hinstrs, fun body statements last hcode hlast => ?_⟩
  rw [hinstrs body _ hcode, List.filterMap_append, hlast, List.append_nil, List.filterMap_flatMap, fieldsOf_writing]

/-- `output.writeVarInt(this.accountId)`. -/
def sampleWrite : WritingCode fun index => if index = 1 then "accountId" else "writeVarInt" where
  field := ⟨"accountId", .varInt, "writeVarInt"⟩
  instrs := [.plain 0xD1 [] (by decide) rfl, .plain 0xD0 [] (by decide) rfl, .getProperty 1, .callPropVoid 2 1]
  events := by decide

theorem analyzeSerialize_spec_sample :
    analyzeSerialize (fun index => some (if index = 1 then "accountId" else "writeVarInt"))
      { method := 0, maxStack := 2, localCount := 2, initScopeDepth := 0, maxScopeDepth := 1
        code := [0xD1, 0xD0, 0x66, 1, 0x4F, 2, 1, 0x47], exceptions := [], traits := [] } =
      some [⟨"accountId", .varInt, "writeVarInt"⟩] := by
  have hone : writeU30 1 = [1] := base128_of_lt (by decide)
  have htwo : writeU30 2 = [2] := base128_of_lt (by decide)
  refine (analyzeSerialize_spec (fun index => rfl)).2.2 _ [sampleWrite] [.plain 0x47 [] (by decide) rfl] ?_ rfl
  simp [sampleWrite, Instr.write, hone, htwo]

end Otomai.ProtocolGen
