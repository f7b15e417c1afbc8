import Otomai.Common.HashMap
import Otomai.Io.RoundTrip
import Otomai.Wire.Table

/-!
# Data files

What the formats of the data tool have in common: pointers of thirty-two bits that are read as signed numbers, and
strings at a position of the file.
-/

namespace Otomai.DataReader

open Wire BigEndianReader BigEndianWriter

/-- `n as u64`. -/
def asU64 (n : Int32) : Nat := (n.toInt % 2 ^ 64).toNat

theorem asU64_ofNat (n : Nat) :
    asU64 (Int32.ofNat n) = if n % 2 ^ 32 < 2 ^ 31 then n % 2 ^ 32 else 2 ^ 64 - 2 ^ 32 + n % 2 ^ 32 := by
  have h : (Int32.ofNat n).toInt = Int.bmod n (2 ^ 32) := Int32.toInt_ofNat'
  unfold asU64
  rw [h, Int.bmod_def]
  split <;> split <;> omega

theorem asU64_ofNat_of_lt {n : Nat} (h : n < 2 ^ 31) : asU64 (Int32.ofNat n) = n := by
  have hmod : n % 2 ^ 32 = n := Nat.mod_eq_of_lt (by omega)
  rw [asU64_ofNat, hmod, if_pos h]

@[simp] theorem length_writeInt (n : Int32) : (writeInt n).length = 4 := length_bigEndian 4 _

@[simp] theorem length_writeUint (n : UInt32) : (writeUint n).length = 4 := length_bigEndian 4 _

@[simp] theorem length_writeUtf (text : String) : (writeUtf text).length = 2 + (asBytes text).length := by
  rw [writeUtf, List.length_append, writeUshort, length_bigEndian]

/-- The string fits its length of sixteen bits. -/
def Fits (text : String) : Prop := (asBytes text).length < 2 ^ 16

instance (text : String) : Decidable (Fits text) := inferInstanceAs (Decidable (_ < _))

/-- A string that is read from a file fits its length. -/
theorem fits_of_readUtf {c c' : Cursor} {text : String} (h : readUtf c = .ok (text, c')) : Fits text := by
  obtain ⟨⟨length, d⟩, -, h⟩ := Outcome.bind_eq_ok.1 h
  obtain ⟨⟨buf, d'⟩, hbuf, h⟩ := Outcome.bind_eq_ok.1 h
  have hlt := length.toNat_lt
  have hbuflen : buf.length = length.toNat := by
    unfold readBytes at hbuf
    split at hbuf
    · cases hbuf
    · unfold Wire.Reader.take at hbuf
      split at hbuf
      · rename_i hle
        obtain ⟨rfl, -⟩ := Prod.mk.inj (Outcome.ok.inj hbuf)
        rw [List.length_take]
        exact Nat.min_eq_left hle
      · cases hbuf
  dsimp only at h
  cases hs : String.fromUTF8? ⟨buf.toArray⟩ with
  | none =>
    rw [hs] at h
    cases h
  | some s =>
    rw [hs] at h
    obtain ⟨rfl, -⟩ := Prod.mk.inj (Outcome.ok.inj h)
    unfold String.fromUTF8? at hs
    split at hs
    · obtain rfl := Option.some.inj hs
      show buf.length < 2 ^ 16
      omega
    · cases hs

/-! ### What the readers consume -/

private theorem consumes_bigEndianFrom (n acc : Nat) :
    Consumes (Wire.Reader.bigEndianFrom IoError.unexpectedEof acc n) := by
  induction n generalizing acc with
  | zero => exact Consumes.pure _
  | succ n ih => exact (Consumes.next _).bind fun _ => ih _

theorem consumes_readUshort : Consumes readUshort := (consumes_bigEndianFrom 2 0).bind fun _ => Consumes.pure _

theorem consumes_readUint : Consumes readUint := (consumes_bigEndianFrom 4 0).bind fun _ => Consumes.pure _

theorem consumes_readInt : Consumes readInt := consumes_readUint.bind fun _ => Consumes.pure _

theorem consumes_readBoolean : Consumes readBoolean := (Consumes.next _).bind fun _ => Consumes.pure _

theorem consumes_readUtf : Consumes readUtf := by
  refine consumes_readUshort.bind fun length => ?_
  refine Consumes.bind ?_ fun buf => ?_
  · unfold readBytes
    split
    · exact Consumes.panic
    · exact Consumes.take _ _
  · cases String.fromUTF8? ⟨buf.toArray⟩ with
    | some s => exact Consumes.pure s
    | none => exact Consumes.fail _

end Otomai.DataReader
