import Otomai.DataReader.D2p
import Otomai.Search.Chain
import Otomai.Wire.Slice

/-!
# Constant pools

The constant pool of an ABC file, and the names that its multinames stand for.  The name of a `TypeName` is that of
another entry, whose index is taken from the file as it is.

* `multinameName_eq`: the name is the one at the end of a chain of entries.
* `multinameName_iff`: when the recursion returns.
-/

namespace Otomai.ProtocolGen.Abc

open Wire Search

/-! ### Reading -/

inductive AbcError where
  | eofU8 (position : Nat)
  | eofD64 (position : Nat)
  | eofBytes (len position : Nat)
  | u30Overflow (position : Nat)
  | unknownMultinameKind (kind : UInt8)
  deriving DecidableEq, Repr

def AbcError.message : AbcError → String
  | eofU8 position => s!"EOF reading u8 at position {position}"
  | eofD64 position => s!"EOF reading d64 at position {position}"
  | eofBytes len position => s!"EOF reading {len} bytes at position {position}"
  | u30Overflow position => s!"u30 overflow at position {position}"
  | unknownMultinameKind kind =>
    "Unknown multiname kind: 0x" ++ String.ofList ((Nat.toDigits 16 kind.toNat).leftpad 2 '0' |>.map Char.toUpper)

/-- A cursor of `AbcReader`. -/
abbrev AbcReader := Reader AbcError

namespace AbcReader

def readU8 : AbcReader UInt8 := fun c => Reader.next (.eofU8 c.position) c

def readBytes (len : Nat) : AbcReader (List UInt8) := fun c => Reader.take (.eofBytes len c.position) len c

/-- The bits of a double, the lowest byte first. -/
def readD64 : AbcReader UInt64 := fun c => do
  let (bytes, c') ← Reader.take (.eofD64 c.position) 8 c
  .ok (UInt64.ofNat (ofBigEndian bytes.reverse), c')

/-- The loop of `read_u30`, with the number of bytes that it may still read. -/
def readU30From : Nat → UInt32 → UInt32 → AbcReader UInt32
  | 0, _, _ => fun c => .err (.u30Overflow c.position)
  | n + 1, result, shift => do
    let byte ← readU8
    let result := result ||| ((byte &&& 0x7f).toUInt32 <<< shift)
    if byte &&& 0x80 = 0 then pure result else readU30From n result (shift + 7)

def readU30 : AbcReader UInt32 := readU30From 5 0 0

def readS32 : AbcReader Int32 := UInt32.toInt32 <$> readU30

end AbcReader

open AbcReader

/-! ### The pool -/

structure Namespace where
  kind : UInt8
  name : UInt32
  deriving DecidableEq, Repr

inductive Multiname where
  | qName (ns name : UInt32)
  | qNameA (ns name : UInt32)
  | rtQName (name : UInt32)
  | rtQNameA (name : UInt32)
  | rtQNameL
  | rtQNameLA
  | multiname (name nsSet : UInt32)
  | multinameA (name nsSet : UInt32)
  | multinameL (nsSet : UInt32)
  | multinameLA (nsSet : UInt32)
  | typeName (qname : UInt32) (params : List UInt32)
  | void
  deriving DecidableEq, Repr

structure ConstantPool where
  integers : List Int32
  uintegers : List UInt32
  doubles : List UInt64
  strings : List String
  namespaces : List Namespace
  nsSets : List (List UInt32)
  multinames : List Multiname
  deriving DecidableEq, Repr

def parseMultiname : AbcReader Multiname := do
  let kind ← readU8
  if kind = 0x07 then do
    let ns ← readU30
    let name ← readU30
    pure (.qName ns name)
  else if kind = 0x0D then do
    let ns ← readU30
    let name ← readU30
    pure (.qNameA ns name)
  else if kind = 0x0F then Multiname.rtQName <$> readU30
  else if kind = 0x10 then Multiname.rtQNameA <$> readU30
  else if kind = 0x11 then pure .rtQNameL
  else if kind = 0x12 then pure .rtQNameLA
  else if kind = 0x09 then do
    let name ← readU30
    let nsSet ← readU30
    pure (.multiname name nsSet)
  else if kind = 0x0E then do
    let name ← readU30
    let nsSet ← readU30
    pure (.multinameA name nsSet)
  else if kind = 0x1B then Multiname.multinameL <$> readU30
  else if kind = 0x1C then Multiname.multinameLA <$> readU30
  else if kind = 0x1D then do
    let qname ← readU30
    let paramCount ← readU30
    let params ← Reader.replicate readU30 paramCount.toNat
    pure (.typeName qname params)
  else Reader.fail (.unknownMultinameKind kind)

def parseString : AbcReader String := do
  let len ← readU30
  let bytes ← readBytes len.toNat
  pure (DataReader.World.fromUtf8Lossy bytes)

def parseNamespace : AbcReader Namespace := do
  let kind ← readU8
  let name ← readU30
  pure { kind, name }

def parseNsSet : AbcReader (List UInt32) := do
  let count ← readU30
  Reader.replicate readU30 count.toNat

/-- A table of the pool: its first entry is implied, and counted. -/
def parseTable {α : Type} (first : α) (entry : AbcReader α) : AbcReader (List α) := do
  let count ← readU30
  let entries ← Reader.replicate entry (count.toNat - 1)
  pure (first :: entries)

def parseConstantPool : AbcReader ConstantPool := do
  let integers ← parseTable 0 readS32
  let uintegers ← parseTable 0 readU30
  let doubles ← parseTable 0x7FF8000000000000 readD64
  let strings ← parseTable "" parseString
  let namespaces ← parseTable { kind := 0, name := 0 } parseNamespace
  let nsSets ← parseTable [] parseNsSet
  let multinames ← parseTable .void parseMultiname
  pure { integers, uintegers, doubles, strings, namespaces, nsSets, multinames }

/-! ### Names -/

namespace ConstantPool

variable (pool : ConstantPool)

def getString (index : UInt32) : String := pool.strings[index.toNat]?.getD ""

/-- `multiname_name`, within a number of nested calls. -/
def multinameName : Nat → UInt32 → Option String
  | 0, _ => none
  | calls + 1, index => match pool.multinames[index.toNat]? with
    | some (.qName _ name) | some (.qNameA _ name) => some (pool.getString name)
    | some (.rtQName name) | some (.rtQNameA name) => some (pool.getString name)
    | some (.multiname name _) | some (.multinameA name _) => some (pool.getString name)
    | some (.typeName qname _) => multinameName calls qname
    | _ => some ""

def multinameNs (index : UInt32) : String := match pool.multinames[index.toNat]? with
  | some (.qName ns _) | some (.qNameA ns _) => match pool.namespaces[ns.toNat]? with
    | some nspace => pool.getString nspace.name
    | none => ""
  | _ => ""

/-- `multiname_full`, within a number of nested calls of `multiname_name`. -/
def multinameFull (calls : Nat) (index : UInt32) : Option String := do
  let ns := pool.multinameNs index
  let name ← pool.multinameName calls index
  if ns = "" then some name else some (ns ++ "." ++ name)

/-! ### Chains of entries -/

/-- The entry that a `TypeName` refers to. -/
def qnameOf (index : UInt32) : Option UInt32 := match pool.multinames[index.toNat]? with
  | some (.typeName qname _) => some qname
  | _ => none

/-- The name of an entry that refers to no other one. -/
def ownName (index : UInt32) : String := match pool.multinames[index.toNat]? with
  | some (.qName _ name) | some (.qNameA _ name) => pool.getString name
  | some (.rtQName name) | some (.rtQNameA name) => pool.getString name
  | some (.multiname name _) | some (.multinameA name _) => pool.getString name
  | _ => ""

theorem multinameName_eq (calls : Nat) (index : UInt32) :
    pool.multinameName calls index = (follow pool.qnameOf calls index).map pool.ownName := by
  induction calls generalizing index with
  | zero => rfl
  | succ calls ih =>
    unfold multinameName
    cases hentry : pool.multinames[index.toNat]? with
    | none =>
      have hnext : pool.qnameOf index = none := by rw [qnameOf, hentry]
      rw [follow_of_none hnext, Option.map_some, ownName, hentry]
    | some entry =>
      cases entry with
      | typeName qname params =>
        have hnext : pool.qnameOf index = some qname := by rw [qnameOf, hentry]
        rw [follow_of_some hnext]
        exact ih qname
      | _ =>
        have hnext : pool.qnameOf index = none := by rw [qnameOf, hentry]
        rw [follow_of_none hnext, Option.map_some, ownName, hentry]

/-- The entries of the pool that refer to another one. -/
theorem leads_qnameOf {index qname : UInt32} (h : Leads pool.qnameOf index qname) :
    index ∈ (List.range pool.multinames.length).map UInt32.ofNat := by
  have hlt : index.toNat < pool.multinames.length := by
    by_contra hout
    rw [Leads, qnameOf, List.getElem?_eq_none (Nat.le_of_not_lt hout)] at h
    cases h
  exact List.mem_map.2 ⟨index.toNat, List.mem_range.2 hlt, UInt32.ofNat_toNat⟩

/-- The recursion returns exactly if it never comes to an entry that refers back to itself. -/
theorem multinameName_iff {index : UInt32} :
    (∃ calls name, pool.multinameName calls index = some name) ↔ ¬Loops pool.qnameOf index := by
  rw [← follow_iff _ fun _ _ => pool.leads_qnameOf]
  refine exists_congr fun calls => ?_
  rw [multinameName_eq]
  simp

theorem multinameFull_iff {calls : Nat} {index : UInt32} :
    (∃ full, pool.multinameFull calls index = some full) ↔ ∃ name, pool.multinameName calls index = some name := by
  unfold multinameFull
  cases pool.multinameName calls index with
  | none => simp
  | some name =>
    by_cases hns : pool.multinameNs index = ""
    · simp [hns]
    · simp [hns]

/-- Both names of an entry are found within some number of nested calls. -/
def Resolves (index : UInt32) : Prop :=
  (∃ calls name, pool.multinameName calls index = some name) ∧
    ∃ calls full, pool.multinameFull calls index = some full

/-- For every pool, whether it comes from a file or not, and every index. -/
theorem resolves_iff (index : UInt32) : pool.Resolves index ↔ ¬Loops pool.qnameOf index := by
  rw [Resolves, exists_congr fun calls => pool.multinameFull_iff, and_self, multinameName_iff]

end ConstantPool

/-- The bytes of a pool with one entry, a `TypeName` that refers to itself. -/
def selfReference : List UInt8 := [0, 0, 0, 0, 0, 0, 2, 0x1D, 1, 0]

def selfReferencePool : ConstantPool where
  integers := [0]
  uintegers := [0]
  doubles := [0x7FF8000000000000]
  strings := [""]
  namespaces := [{ kind := 0, name := 0 }]
  nsSets := [[]]
  multinames := [.void, .typeName 1 []]

theorem parseConstantPool_selfReference :
    parseConstantPool (.ofBytes selfReference) = .ok (selfReferencePool, ⟨10, []⟩) := by
  decide

theorem not_resolves_selfReference : ¬∀ (c c' : Cursor) (pool : ConstantPool), parseConstantPool c = .ok (pool, c') →
    ∀ index, pool.Resolves index := by
  intro h
  have hloops : Loops selfReferencePool.qnameOf 1 := ⟨1, .refl, .single rfl⟩
  exact ConstantPool.multinameName_iff _ |>.1 (h _ _ _ parseConstantPool_selfReference 1).1 hloops

end Otomai.ProtocolGen.Abc
