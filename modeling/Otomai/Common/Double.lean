import Mathlib.Algebra.Group.Nat.Defs
import Otomai.Common.Machine

/-!
# Doubles as integers

A finite double is a mantissa and an exponent.  One that is at least 1 has all bits of its mantissa, of which at most
52 are behind the point, so that something is left when these are cut off.

* `one_le_asI64`: `x as i64` is at least 1 for a double that is at least 1.
-/

namespace Machine

open Float.Model UnpackedFloat

theorem unpack_one : (1 : Float).toModel.unpack = .finite .positive (2 ^ 52) (-52) (Nat.two_pow_pos 52) := rfl

theorem mantissa_shiftRight (em : ExtendedMantissa) (n : Nat) : (em >>> n).mantissa = em.mantissa / 2 ^ n := by
  induction n with
  | zero => exact (Nat.div_one _).symm
  | succ n ih =>
    have hstep : (em >>> (n + 1)).mantissa = (em >>> n).mantissa / 2 := rfl
    rw [hstep, ih, Nat.div_div_eq_div_mul, Nat.pow_succ]

/-- A double has all bits of its mantissa, or the least exponent. -/
theorem exponent_of_unpack {x : Float} {sign : Sign} {m : Nat} {e : Int} {hm : 0 < m}
    (h : x.toModel.unpack = .finite sign m e hm) : e = -1074 ∨ 2 ^ 52 ≤ m := by
  unfold Float.Model.unpack UnpackedFloat.unpack at h
  dsimp only at h
  by_cases hmax : @unpackExponent .binary64 x.toModel.toBits.toBitVec = -1#_
  · rw [if_pos hmax] at h
    by_cases hinf : @unpackMantissa .binary64 x.toModel.toBits.toBitVec = 0#_
    · rw [if_pos hinf] at h
      cases h
    · rw [if_neg hinf] at h
      cases h
  · rw [if_neg hmax] at h
    by_cases hsub : @unpackExponent .binary64 x.toModel.toBits.toBitVec = 0#_
    · rw [if_pos hsub] at h
      by_cases hzero : @unpackMantissa .binary64 x.toModel.toBits.toBitVec = 0#_
      · rw [dif_pos hzero] at h
        cases h
      · rw [dif_neg hzero] at h
        obtain ⟨-, -, rfl⟩ := UnpackedFloat.finite.inj h
        rw [hsub]
        exact .inl (by decide)
    · rw [if_neg hsub] at h
      obtain ⟨-, rfl, -⟩ := UnpackedFloat.finite.inj h
      rw [BitVec.toNat_append]
      exact .inr Nat.left_le_or

/-- What is left in front of the point. -/
theorem roundToInt_positive (m : Nat) (e : Int) :
    roundToInt .positive m e = ((m <<< e.toNat / 2 ^ (-e).toNat : Nat) : Int) := by
  have hshift : (0 - (e - ((e - 0).toNat : Int))).toNat = (-e).toNat := by omega
  unfold roundToInt decreaseExponent shiftToExponent
  dsimp only
  rw [mantissa_shiftRight, hshift, Int.sub_zero]
  rfl

theorem one_le_roundToInt {m : Nat} {e : Int} (hm : 2 ^ 52 ≤ m) (he : -52 ≤ e) : 1 ≤ roundToInt .positive m e := by
  have hshift : m ≤ m <<< e.toNat := by
    rw [Nat.shiftLeft_eq]
    exact Nat.le_mul_of_pos_right m (Nat.two_pow_pos _)
  have hpow : 2 ^ (-e).toNat ≤ 2 ^ 52 := Nat.pow_le_pow_right (by decide) (by omega)
  have hdiv : 0 < m <<< e.toNat / 2 ^ (-e).toNat :=
    Nat.div_pos (Nat.le_trans hpow (Nat.le_trans hm hshift)) (Nat.two_pow_pos _)
  rw [roundToInt_positive]
  exact Int.ofNat_lt.2 hdiv

/-- A double that is at least 1 is infinite, or it is not cut off to nothing. -/
theorem one_le_toInt {x : Float} (h : 1 ≤ x) :
    1 ≤ x.toModel.unpack.toInt Int64.minValue.toInt Int64.maxValue.toInt := by
  have hle : (1 : Float).toModel.unpack.le x.toModel.unpack = true := by
    have hmodel : (1 : Float).toModel ≤ x.toModel := of_decide_eq_true h
    exact hmodel
  rw [unpack_one] at hle
  cases hx : x.toModel.unpack with
  | notANumber =>
    rw [hx] at hle
    cases hle
  | infinity sign =>
    rw [hx] at hle
    cases sign with
    | positive => decide
    | negative => cases hle
  | zero sign =>
    rw [hx] at hle
    cases hle
  | finite sign m e hpos =>
    rw [hx] at hle
    cases sign with
    | negative => cases hle
    | positive =>
      have hcompare : ((compare (-52) e).then (compare (2 ^ 52) m)).isLE = true := hle
      rw [Ordering.isLE_then_iff_or, Int.compare_eq_lt, Int.compare_eq_eq, Nat.isLE_compare] at hcompare
      have hm : 2 ^ 52 ≤ m := by
        rcases hcompare with hlt | ⟨-, hm⟩
        · exact (exponent_of_unpack hx).resolve_left (by omega)
        · exact hm
      exact one_le_roundToInt hm (by omega)

theorem one_le_asI64 {x : Float} (h : 1 ≤ x) : 1 ≤ asI64 x := by
  have hone := one_le_toInt h
  unfold asI64 UnpackedFloat.toInt64
  by_cases hmax : x.toModel.unpack.toInt Int64.minValue.toInt Int64.maxValue.toInt ≤ Int64.maxValue.toInt
  · rw [Int64.toInt_ofIntClamp (Int.le_trans (by decide) hone) hmax]
    exact hone
  · rw [Int64.ofIntClamp, dif_pos (Int.le_trans (by decide) hone), dif_neg hmax]
    decide

theorem asI64_lt (x : Float) : asI64 x < 9223372036854775808 := Int64.toInt_lt _

end Machine
