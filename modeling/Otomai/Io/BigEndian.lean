import Otomai.Wire.Numeral

/-!
# `BigEndianReader` and `BigEndianWriter`

The methods of the two structs of `dofus-io`.  A reader is a `Wire.Reader`; a writer method is given by the bytes
it appends to the buffer.  Signed integers travel as the bits of the unsigned integer of the same width, floats as
their IEEE bit patterns, so a float value is modelled by its bits.
-/

namespace Otomai

open Wire

/-- The errors the reading side returns. -/
inductive IoError where
  | unexpectedEof
  | overflowVarInt
  | overflowVarShort
  | flagOffset
  | invalidUtf8
  | invalidTypeLength (typeLength : Nat)
  | unknownTypeId (base : String) (typeId : UInt16)
  deriving DecidableEq, Repr

def IoError.message : IoError → String
  | unexpectedEof => "failed to fill whole buffer"
  | overflowVarInt => "Overflow varint: too much data"
  | overflowVarShort => "Overflow var short: too much data"
  | flagOffset => "offset must be lesser than 8"
  | invalidUtf8 => "invalid utf-8 sequence"
  | invalidTypeLength n => "Invalid type length: '" ++ toString n ++ "'"
  | unknownTypeId base id => "Unknown " ++ base ++ " type_id: " ++ toString id.toNat

abbrev BigEndianReader := Wire.Reader IoError

/-- The largest allocation the allocator accepts, in bytes. -/
def isizeMax : Nat := 2 ^ 63 - 1

/-! ### Writer -/

namespace BigEndianWriter

def writeByte (data : UInt8) : List UInt8 := [data]

def writeBoolean (data : Bool) : List UInt8 := writeByte (if data then 1 else 0)

def writeUshort (data : UInt16) : List UInt8 := bigEndian 2 data.toNat

def writeShort (data : Int16) : List UInt8 := writeUshort data.toUInt16

def writeUint (data : UInt32) : List UInt8 := bigEndian 4 data.toNat

def writeInt (data : Int32) : List UInt8 := writeUint data.toUInt32

def writeUlong (data : UInt64) : List UInt8 := bigEndian 8 data.toNat

def writeFloat (bits : UInt32) : List UInt8 := writeUint bits

def writeDouble (bits : UInt64) : List UInt8 := writeUlong bits

def writeBytes (data : List UInt8) : List UInt8 := data

/-- The bytes of a string, as Rust's `str::as_bytes` gives them. -/
def asBytes (data : String) : List UInt8 := data.toByteArray.data.toList

def writeUtf (data : String) : List UInt8 :=
  writeUshort (UInt16.ofNat (asBytes data).length) ++ asBytes data

/-- `write_var_int` on the unsigned representation: seven bits a byte until the value is exhausted. -/
def writeVarUint (value : UInt32) : List UInt8 :=
  let byte := (value &&& 127).toUInt8
  let rest := value >>> 7
  if rest ≠ 0 then writeByte (byte ||| 128) ++ writeVarUint rest else writeByte byte
termination_by value.toNat
decreasing_by
  rename_i h
  have h0 : (value >>> 7).toNat = value.toNat / 128 := by
    rw [UInt32.toNat_shiftRight, Nat.shiftRight_eq_div_pow]; rfl
  have h1 : value.toNat / 128 ≠ 0 := fun h2 => h (UInt32.toNat_inj.1 (by rw [h0, h2]; rfl))
  rw [h0]
  omega

def writeVarInt (data : Int32) : List UInt8 := writeVarUint data.toUInt32

def writeVarUshort (value : UInt16) : List UInt8 :=
  let byte := (value &&& 127).toUInt8
  let rest := value >>> 7
  if rest ≠ 0 then writeByte (byte ||| 128) ++ writeVarUshort rest else writeByte byte
termination_by value.toNat
decreasing_by
  rename_i h
  have h0 : (value >>> 7).toNat = value.toNat / 128 := by
    rw [UInt16.toNat_shiftRight, Nat.shiftRight_eq_div_pow]; rfl
  have h1 : value.toNat / 128 ≠ 0 := fun h2 => h (UInt16.toNat_inj.1 (by rw [h0, h2]; rfl))
  rw [h0]
  omega

def writeVarShort (data : Int16) : List UInt8 := writeVarUshort data.toUInt16

/-- The bytes of the high part above its first three bits, which the fifth byte already carries. -/
def writeVarHigh (high : UInt64) : List UInt8 :=
  if 128 ≤ high then writeByte ((high &&& 127) ||| 128).toUInt8 ++ writeVarHigh (high >>> 7)
  else writeByte high.toUInt8
termination_by high.toNat
decreasing_by
  rename_i h
  rw [UInt64.le_iff_toNat_le] at h
  simp only [UInt64.toNat_shiftRight, Nat.shiftRight_eq_div_pow]
  change 128 ≤ high.toNat at h
  change high.toNat / 128 < high.toNat
  omega

def writeVarUlong (value : UInt64) : List UInt8 :=
  let low := value &&& 0xffffffff
  let high := value >>> 32
  if high = 0 then writeVarInt value.toUInt32.toInt32
  else
    writeByte ((low &&& 127) ||| 128).toUInt8 ++ writeByte ((low >>> 7 &&& 127) ||| 128).toUInt8 ++
    writeByte ((low >>> 14 &&& 127) ||| 128).toUInt8 ++ writeByte ((low >>> 21 &&& 127) ||| 128).toUInt8 ++
    if high &&& 0xfffffff8 = 0 then writeByte (high <<< 4 ||| low >>> 28).toUInt8
    else writeByte (((high <<< 4 ||| low >>> 28) &&& 127) ||| 128).toUInt8 ++ writeVarHigh (high >>> 3)

def writeVarLong (data : Int64) : List UInt8 := writeVarUlong data.toUInt64

end BigEndianWriter

/-! ### Reader -/

namespace BigEndianReader

def readByte : BigEndianReader UInt8 := Wire.Reader.next .unexpectedEof

def readBoolean : BigEndianReader Bool := do
  let b ← readByte
  pure (b != 0)

def readUshort : BigEndianReader UInt16 := do
  let n ← Wire.Reader.bigEndian .unexpectedEof 2
  pure (UInt16.ofNat n)

def readShort : BigEndianReader Int16 := do
  let n ← readUshort
  pure n.toInt16

def readUint : BigEndianReader UInt32 := do
  let n ← Wire.Reader.bigEndian .unexpectedEof 4
  pure (UInt32.ofNat n)

def readInt : BigEndianReader Int32 := do
  let n ← readUint
  pure n.toInt32

def readUlong : BigEndianReader UInt64 := do
  let n ← Wire.Reader.bigEndian .unexpectedEof 8
  pure (UInt64.ofNat n)

def readFloat : BigEndianReader UInt32 := readUint

def readDouble : BigEndianReader UInt64 := readUlong

/-- `read_uint_n`, from the byte of weight `256 ^ k` down to the byte of weight one. -/
def readUintNFrom (value : UInt32) : Nat → BigEndianReader UInt32
  | 0 => pure value
  | k + 1 => do
    let b ← readByte
    readUintNFrom (value ||| b.toUInt32 <<< UInt32.ofNat (8 * k)) k

def readUintN (byteLength : Nat) : BigEndianReader UInt32 := readUintNFrom 0 byteLength

/-- `vec![0u8; size]` panics beyond the largest allocation; `read_exact` then needs all `size` bytes. -/
def readBytes (size : Nat) : BigEndianReader (List UInt8) :=
  if isizeMax < size then Wire.Reader.panic else Wire.Reader.take .unexpectedEof size

def readUtfBytes (size : Nat) : BigEndianReader String := do
  let buf ← readBytes size
  match String.fromUTF8? ⟨buf.toArray⟩ with
  | some s => pure s
  | none => Wire.Reader.fail .invalidUtf8

def readUtf : BigEndianReader String := do
  let length ← readUshort
  readUtfBytes length.toNat

/-- One round of the `read_var_int` loop per unit of fuel: the loop runs while `size < 32`, five rounds. -/
def readVarIntFrom (value : UInt32) (size : Nat) : Nat → BigEndianReader UInt32
  | 0 => Wire.Reader.fail .overflowVarInt
  | n + 1 => do
    let byte ← readByte
    let value := value ||| (byte &&& 127).toUInt32 <<< UInt32.ofNat size
    if byte &&& 128 = 128 then readVarIntFrom value (size + 7) n else pure value

def readVarUint : BigEndianReader UInt32 := readVarIntFrom 0 0 5

def readVarInt : BigEndianReader Int32 := do
  let value ← readVarUint
  pure value.toInt32

/-- The `read_var_short` loop accumulates an `i32` while `offset < 16`, three rounds. -/
def readVarShortFrom (value : UInt32) (offset : Nat) : Nat → BigEndianReader UInt32
  | 0 => Wire.Reader.fail .overflowVarShort
  | n + 1 => do
    let byte ← readByte
    let value := value ||| (byte &&& 127).toUInt32 <<< UInt32.ofNat offset
    if byte &&& 128 = 128 then readVarShortFrom value (offset + 7) n else pure value

def readVarShort : BigEndianReader Int16 := do
  let value ← readVarShortFrom 0 0 3
  let value := if 0x7fff < value then value - 0x10000 else value
  pure value.toUInt16.toInt16

def readVarUshort : BigEndianReader UInt16 := do
  let value ← readVarShort
  pure value.toUInt16

/-- The loop over the high part: `size` is 3, 10, 17, 24 and 31, and a fifth continuation byte is shifted by 38. -/
def readVarHigh (high : UInt64) (size : Nat) (lastByte : UInt8) : Nat → BigEndianReader UInt64
  | 0 => pure (high ||| lastByte.toUInt64 <<< UInt64.ofNat size)
  | n + 1 => do
    let lastByte ← readByte
    if lastByte &&& 128 = 128 then
      readVarHigh (high ||| (lastByte &&& 127).toUInt64 <<< UInt64.ofNat size) (size + 7) lastByte n
    else pure (high ||| lastByte.toUInt64 <<< UInt64.ofNat size)

def readVarLongFrom (low : UInt64) (size : Nat) : Nat → BigEndianReader UInt64
  | n + 1 => do
    let lastByte ← readByte
    if lastByte &&& 128 = 128 then
      readVarLongFrom (low ||| (lastByte &&& 127).toUInt64 <<< UInt64.ofNat size) (size + 7) n
    else pure (low ||| lastByte.toUInt64 <<< UInt64.ofNat size)
  | 0 => do
    let lastByte ← readByte
    if lastByte &&& 128 = 128 then
      let low := low ||| (lastByte &&& 127).toUInt64 <<< UInt64.ofNat size
      let high ← readVarHigh ((lastByte &&& 127).toUInt64 >>> 4) 3 lastByte 5
      pure ((low &&& (0xffffffff : UInt64)) ||| high <<< (32 : UInt64))
    else
      let low := low ||| lastByte.toUInt64 <<< UInt64.ofNat size
      let high := lastByte.toUInt64 >>> 4
      pure ((low &&& (0xffffffff : UInt64)) ||| high <<< (32 : UInt64))

def readVarUlong : BigEndianReader UInt64 := readVarLongFrom 0 0 4

def readVarLong : BigEndianReader Int64 := do
  let value ← readVarUlong
  pure value.toInt64

end BigEndianReader

/-! ### `boolean_byte_wrapper` -/

namespace BooleanByteWrapper

def setFlag (flag : UInt8) (offset : Nat) (value : Bool) : Outcome IoError UInt8 :=
  if 8 ≤ offset then .err .flagOffset
  else if value then .ok (flag ||| (1 : UInt8) <<< UInt8.ofNat offset)
  else .ok (flag &&& (255 - (1 : UInt8) <<< UInt8.ofNat offset))

def getFlag (flag : UInt8) (offset : Nat) : Outcome IoError Bool :=
  if 8 ≤ offset then .err .flagOffset else .ok (flag &&& (1 : UInt8) <<< UInt8.ofNat offset != 0)

end BooleanByteWrapper

end Otomai
