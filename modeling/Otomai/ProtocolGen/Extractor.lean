import Mathlib.Data.List.Basic

/-!
# Protocol classes

The descriptions of messages and types that the parser extracts and the code generator consumes.  Names of classes
are values of a type `ν`; a name the parser could not find is the empty string in the source and `none` here.
-/

namespace Otomai.ProtocolGen

inductive FieldType (ν : Type) where
  | bool
  | byte
  | ubyte
  | short
  | ushort
  | int
  | uint
  | long
  | ulong
  | float
  | double
  | string
  | varInt
  | varUint
  | varShort
  | varUshort
  | varLong
  | varUlong
  | byteArray
  /-- A nested protocol type. -/
  | type (name : Option ν)
  /-- A vector of another type with a length prefix. -/
  | vector (inner : FieldType ν) (lengthType : String)
  /-- A polymorphic type: the type id is written first, then the data. -/
  | typeManager (name : Option ν)
  deriving DecidableEq, Repr

structure ProtocolField (ν : Type) where
  name : String
  fieldType : FieldType ν
  writeMethod : String
  deriving DecidableEq, Repr

/-- The field is one bit of a flag byte. -/
def ProtocolField.isFlag {ν : Type} (f : ProtocolField ν) : Bool := f.writeMethod == "BooleanByteWrapper"

structure BooleanWrapper where
  boxVar : Nat
  fields : List (UInt8 × String)
  deriving DecidableEq, Repr

structure ProtocolClass (ν : Type) where
  name : ν
  protocolId : UInt32
  parent : Option ν
  isMessage : Bool
  fields : List (ProtocolField ν)
  booleanByteWrappers : List BooleanWrapper
  deriving DecidableEq, Repr

/-- Polymorphic type hierarchy: all concrete types with their ids, including the base itself. -/
structure TypeHierarchy (ν : Type) where
  baseName : ν
  variants : List (ν × UInt32)
  deriving DecidableEq, Repr

end Otomai.ProtocolGen
