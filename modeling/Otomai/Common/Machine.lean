/-!
# Machine arithmetic

Machine integers are integers; `wrap16` and `wrap32` bring a sum or a difference back into the range of its type.  A
value that is already in range is unchanged (`wrap16_of_range`, `wrap32_of_range`).  This is what a build without
overflow checks computes.
-/

namespace Machine

/-- Two's complement of sixteen bits. -/
def wrap16 (x : Int) : Int := (x + 32768) % 65536 - 32768

/-- Two's complement of thirty-two bits. -/
def wrap32 (x : Int) : Int := (x + 2147483648) % 4294967296 - 2147483648

/-- Two's complement of sixty-four bits. -/
def wrap64 (x : Int) : Int := (x + 9223372036854775808) % 18446744073709551616 - 9223372036854775808

/-- `x as u16`. -/
def asU16 (x : Int) : Nat := (x % 65536).toNat

/-- `x as i32` of a double: towards zero, within the range of the type. -/
def asI32 (x : Float) : Int := x.toModel.unpack.toInt32.toInt

/-- `x as i64` of a double: towards zero, within the range of the type. -/
def asI64 (x : Float) : Int := x.toModel.unpack.toInt64.toInt

theorem wrap16_range (x : Int) : -32768 ≤ wrap16 x ∧ wrap16 x < 32768 := by
  unfold wrap16; omega

theorem wrap32_range (x : Int) : -2147483648 ≤ wrap32 x ∧ wrap32 x < 2147483648 := by
  unfold wrap32; omega

theorem wrap16_of_range {x : Int} (h : -32768 ≤ x) (h' : x < 32768) : wrap16 x = x := by
  unfold wrap16; omega

theorem wrap32_of_range {x : Int} (h : -2147483648 ≤ x) (h' : x < 2147483648) : wrap32 x = x := by
  unfold wrap32; omega

/-- Wrapping never increases a value that is not below the range. -/
theorem wrap16_le {x : Int} (h : -32768 ≤ x) : wrap16 x ≤ x := by
  unfold wrap16; omega

end Machine
