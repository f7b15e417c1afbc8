import Otomai.Io.BigEndian

/-!
# Reading back primitives

Every `write_*` of `BigEndianWriter` is read back by the matching `read_*` of `BigEndianReader`, whatever bytes
follow.  The variable-length integers rest on one fact about base-128 numerals: after `size` bits the accumulator
is below `2 ^ size`, so a group of seven bits is added above it (`or_group`).  They can be written one after the
other in any mixture (`varValues_compose`).
-/

namespace Otomai

open Wire BigEndianWriter BigEndianReader

/-! ### Fixed width -/

theorem reads_byte (b : UInt8) : Reads readByte (writeByte b) b := Reads.next _ b

theorem reads_boolean (b : Bool) : Reads readBoolean (writeBoolean b) b := by
  refine (reads_byte _).map ?_
  cases b <;> exact Reads.pure _

theorem reads_ushort (n : UInt16) : Reads readUshort (writeUshort n) n := by
  refine (reads_bigEndian _ n.toNat_lt).map ?_
  rw [UInt16.ofNat_toNat]
  exact Reads.pure n

theorem reads_short (n : Int16) : Reads readShort (writeShort n) n :=
  (reads_ushort _).map (Reads.pure _)

theorem reads_uint (n : UInt32) : Reads readUint (writeUint n) n := by
  refine (reads_bigEndian _ n.toNat_lt).map ?_
  rw [UInt32.ofNat_toNat]
  exact Reads.pure n

theorem reads_int (n : Int32) : Reads readInt (writeInt n) n :=
  (reads_uint _).map (Reads.pure _)

theorem reads_ulong (n : UInt64) : Reads readUlong (writeUlong n) n := by
  refine (reads_bigEndian _ n.toNat_lt).map ?_
  rw [UInt64.ofNat_toNat]
  exact Reads.pure n

/-! ### Bytes and strings -/

theorem reads_bytes {w : List UInt8} (h : w.length ≤ isizeMax) : Reads (readBytes w.length) (writeBytes w) w := by
  rw [readBytes, if_neg (Nat.not_lt.2 h)]
  exact Reads.take _ w

theorem fromUTF8?_asBytes (s : String) : String.fromUTF8? ⟨(asBytes s).toArray⟩ = some s := by
  have e : (⟨(asBytes s).toArray⟩ : ByteArray) = s.toByteArray := rfl
  rw [e, String.fromUTF8?, dif_pos s.isValidUTF8]
  rfl

theorem reads_utf {s : String} (h : (asBytes s).length < 2 ^ 16) : Reads readUtf (writeUtf s) s := by
  refine (reads_ushort _).bind ?_
  rw [UInt16.toNat_ofNat_of_lt' h]
  refine (reads_bytes (by unfold isizeMax; omega)).map ?_
  rw [fromUTF8?_asBytes]
  exact Reads.pure s

/-! ### Variable length -/

theorem toNat_ofNat8 {n : Nat} (h : n < 256) : (UInt8.ofNat n).toNat = n := UInt8.toNat_ofNat_of_lt' h

private theorem toNat_ofNat32 {n : Nat} (h : n < 2 ^ 32) : (UInt32.ofNat n).toNat = n := UInt32.toNat_ofNat_of_lt' h

private theorem toNat_low7 (b : UInt8) : (b &&& 127).toNat = b.toNat % 128 := by
  rw [UInt8.toNat_and]
  exact Nat.and_two_pow_sub_one_eq_mod b.toNat 7

private theorem high_bit_iff (b : UInt8) : b &&& 128 = 128 ↔ 128 ≤ b.toNat := by
  have h : ∀ i : Fin 256, UInt8.ofFin i &&& 128 = 128 ↔ 128 ≤ i.val := by decide +kernel
  exact h b.toFin

private theorem toNat_or_128 {b : UInt8} (h : b.toNat < 128) : (b ||| 128).toNat = b.toNat + 128 := by
  rw [UInt8.toNat_or]
  exact or_shiftLeft_eq_add (d := 1) (s := 7) h

/-- A group of seven bits enters above the `size` bits already read. -/
theorem or_group {value : UInt32} {size d : Nat} {b : UInt8} (hs : size < 32) (hv : value.toNat < 2 ^ size)
    (hb : b.toNat % 128 = d) (hd : value.toNat + d * 2 ^ size < 2 ^ 32) :
    (value ||| (b &&& 127).toUInt32 <<< UInt32.ofNat size).toNat = value.toNat + d * 2 ^ size := by
  have hsz : (UInt32.ofNat size).toNat = size := toNat_ofNat32 (by omega)
  rw [UInt32.toNat_or, UInt32.toNat_shiftLeft, UInt8.toNat_toUInt32, toNat_low7, hb, hsz, Nat.mod_eq_of_lt hs,
    Nat.mod_eq_of_lt (by rw [Nat.shiftLeft_eq]; omega), or_shiftLeft_eq_add hv]

theorem group_lt {value k size : Nat} (hv : value < 2 ^ size) (hk : 128 ≤ k)
    (h : value + k * 2 ^ size < 2 ^ 32) :
    size + 7 < 32 ∧ value + k % 128 * 2 ^ size < 2 ^ (size + 7) ∧
      value + k % 128 * 2 ^ size + k / 128 * 2 ^ (size + 7) = value + k * 2 ^ size := by
  have hp : 2 ^ (size + 7) = 128 * 2 ^ size := by rw [Nat.pow_add]; ring
  have hm : k % 128 * 2 ^ size ≤ 127 * 2 ^ size := Nat.mul_le_mul_right _ (by omega)
  have hk' : 128 * 2 ^ size ≤ k * 2 ^ size := Nat.mul_le_mul_right _ hk
  refine ⟨(Nat.pow_lt_pow_iff_right (by decide : 1 < 2)).1 (by rw [hp]; omega), by rw [hp]; omega, ?_⟩
  have e : k * 2 ^ size = k % 128 * 2 ^ size + k / 128 * (128 * 2 ^ size) := by
    conv_lhs => rw [← Nat.mod_add_div k 128]
    ring
  rw [hp, e]
  ring

/-- The loop of `read_var_int` and of `read_var_short`: it reads a base-128 numeral above the bits already read. -/
private theorem reads_groups {r : UInt32 → Nat → Nat → BigEndianReader UInt32}
    (hr : ∀ value size n, r value size (n + 1) = (do
      let byte ← readByte
      let value := value ||| (byte &&& 127).toUInt32 <<< UInt32.ofNat size
      if byte &&& 128 = 128 then r value (size + 7) n else pure value))
    (n : Nat) : ∀ (k size : Nat) (value : UInt32), k < 128 ^ (n + 1) → size < 32 → value.toNat < 2 ^ size →
      value.toNat + k * 2 ^ size < 2 ^ 32 →
      Reads (r value size (n + 1)) (base128 k) (UInt32.ofNat (value.toNat + k * 2 ^ size)) := by
  induction n with
  | zero =>
    intro k size value hk hs hv hf
    have hb : (UInt8.ofNat k).toNat = k := toNat_ofNat8 (by omega)
    rw [hr, base128_of_lt (by omega)]
    refine (Reads.next _ _).map ?_
    rw [if_neg (by rw [high_bit_iff, hb]; omega), ← or_group hs hv (by rw [hb]; omega) hf, UInt32.ofNat_toNat]
    exact Reads.pure _
  | succ n ih =>
    intro k size value hk hs hv hf
    rw [hr]
    by_cases h : k < 128
    · have hb : (UInt8.ofNat k).toNat = k := toNat_ofNat8 (by omega)
      rw [base128_of_lt h]
      refine (Reads.next _ _).map ?_
      rw [if_neg (by rw [high_bit_iff, hb]; omega), ← or_group hs hv (by rw [hb]; omega) hf, UInt32.ofNat_toNat]
      exact Reads.pure _
    · have hb : (UInt8.ofNat (k % 128 + 128)).toNat = k % 128 + 128 := toNat_ofNat8 (by omega)
      obtain ⟨hs', hv', he⟩ := group_lt hv (Nat.not_lt.1 h) hf
      have hg := or_group (d := k % 128) (b := UInt8.ofNat (k % 128 + 128)) hs hv (by rw [hb]; omega)
        (Nat.lt_trans hv' (Nat.pow_lt_pow_right (by decide) hs'))
      have hn :=
        ih (k / 128) (size + 7) (value ||| (UInt8.ofNat (k % 128 + 128) &&& 127).toUInt32 <<< UInt32.ofNat size)
        (by rw [Nat.pow_succ] at hk; omega) hs' (by rw [hg]; exact hv') (by rw [hg, he]; exact hf)
      rw [base128_of_le (Nat.not_lt.1 h)]
      refine Reads.bind (Reads.next _ _) ?_
      rw [if_pos (by rw [high_bit_iff, hb]; omega)]
      rw [hg, he] at hn
      exact hn

theorem writeVarUint_eq (value : UInt32) : writeVarUint value = base128 value.toNat := by
  induction value using writeVarUint.induct with
  | case1 value rest h ih =>
    have h0 : rest.toNat = value.toNat / 128 := by
      show (value >>> 7).toNat = _
      rw [UInt32.toNat_shiftRight, Nat.shiftRight_eq_div_pow]; rfl
    have h1 : value.toNat / 128 ≠ 0 := fun h2 => h (UInt32.toNat_inj.1 (by rw [h0, h2]; rfl))
    have hb : (value &&& 127).toUInt8.toNat = value.toNat % 128 := by
      rw [UInt32.toNat_toUInt8, UInt32.toNat_and]
      have := Nat.and_two_pow_sub_one_eq_mod value.toNat 7
      show (value.toNat &&& 2 ^ 7 - 1) % 256 = _
      omega
    have hw : (value &&& 127).toUInt8 ||| 128 = UInt8.ofNat (value.toNat % 128 + 128) := by
      rw [← UInt8.toNat_inj, toNat_or_128 (by rw [hb]; omega), hb, toNat_ofNat8 (by omega)]
    rw [writeVarUint, if_pos h, ih, h0, base128_of_le (v := value.toNat) (by omega), hw]
    rfl
  | case2 value rest h =>
    have h0 : rest.toNat = value.toNat / 128 := by
      show (value >>> 7).toNat = _
      rw [UInt32.toNat_shiftRight, Nat.shiftRight_eq_div_pow]; rfl
    have h1 : value.toNat / 128 = 0 := by rw [← h0, not_not.1 h]; rfl
    have hb : (value &&& 127).toUInt8 = UInt8.ofNat value.toNat := by
      rw [← UInt8.toNat_inj, UInt32.toNat_toUInt8, UInt32.toNat_and, UInt8.toNat_ofNat']
      have := Nat.and_two_pow_sub_one_eq_mod value.toNat 7
      show (value.toNat &&& 2 ^ 7 - 1) % 256 = _
      omega
    rw [writeVarUint, if_neg (not_not.2 (not_not.1 h)), base128_of_lt (by omega), hb]
    rfl

theorem reads_varUint (value : UInt32) : Reads readVarUint (writeVarUint value) value := by
  have h := reads_groups (r := readVarIntFrom) (fun _ _ _ => rfl) 4 value.toNat 0 0
    (Nat.lt_of_lt_of_le value.toNat_lt (by decide)) (by decide) (by decide) (by simpa using value.toNat_lt)
  have e : (0 : UInt32).toNat + value.toNat * 2 ^ 0 = value.toNat := by simp
  rw [e, UInt32.ofNat_toNat] at h
  rw [writeVarUint_eq]
  exact h

theorem reads_varInt (n : Int32) : Reads readVarInt (writeVarInt n) n :=
  (reads_varUint _).map (Reads.pure _)

theorem writeVarUshort_eq (value : UInt16) : writeVarUshort value = base128 value.toNat := by
  induction value using writeVarUshort.induct with
  | case1 value rest h ih =>
    have h0 : rest.toNat = value.toNat / 128 := by
      show (value >>> 7).toNat = _
      rw [UInt16.toNat_shiftRight, Nat.shiftRight_eq_div_pow]; rfl
    have h1 : value.toNat / 128 ≠ 0 := fun h2 => h (UInt16.toNat_inj.1 (by rw [h0, h2]; rfl))
    have hb : (value &&& 127).toUInt8.toNat = value.toNat % 128 := by
      rw [UInt16.toNat_toUInt8, UInt16.toNat_and]
      have := Nat.and_two_pow_sub_one_eq_mod value.toNat 7
      show (value.toNat &&& 2 ^ 7 - 1) % 256 = _
      omega
    have hw : (value &&& 127).toUInt8 ||| 128 = UInt8.ofNat (value.toNat % 128 + 128) := by
      rw [← UInt8.toNat_inj, toNat_or_128 (by rw [hb]; omega), hb, toNat_ofNat8 (by omega)]
    rw [writeVarUshort, if_pos h, ih, h0, base128_of_le (v := value.toNat) (by omega), hw]
    rfl
  | case2 value rest h =>
    have h0 : rest.toNat = value.toNat / 128 := by
      show (value >>> 7).toNat = _
      rw [UInt16.toNat_shiftRight, Nat.shiftRight_eq_div_pow]; rfl
    have h1 : value.toNat / 128 = 0 := by rw [← h0, not_not.1 h]; rfl
    have hb : (value &&& 127).toUInt8 = UInt8.ofNat value.toNat := by
      rw [← UInt8.toNat_inj, UInt16.toNat_toUInt8, UInt16.toNat_and, UInt8.toNat_ofNat']
      have := Nat.and_two_pow_sub_one_eq_mod value.toNat 7
      show (value.toNat &&& 2 ^ 7 - 1) % 256 = _
      omega
    rw [writeVarUshort, if_neg (not_not.2 (not_not.1 h)), base128_of_lt (by omega), hb]
    rfl

/-- The sign fix-up of `read_var_short` keeps the low sixteen bits. -/
private theorem toUInt16_fixup {value : UInt32} :
    (if 0x7fff < value then value - 0x10000 else value).toUInt16 = value.toUInt16 := by
  split
  · rw [← UInt16.toNat_inj, UInt32.toNat_toUInt16, UInt32.toNat_toUInt16, UInt32.toNat_sub]
    show (2 ^ 32 - 65536 + value.toNat) % 2 ^ 32 % 2 ^ 16 = _
    omega
  · rfl

theorem reads_varShort (n : Int16) : Reads readVarShort (writeVarShort n) n := by
  have hlt : n.toUInt16.toNat < 2 ^ 16 := n.toUInt16.toNat_lt
  have h := reads_groups (r := readVarShortFrom) (fun _ _ _ => rfl) 2 n.toUInt16.toNat 0 0
    (Nat.lt_of_lt_of_le hlt (by decide)) (by decide) (by decide) (by simp; omega)
  have e : (0 : UInt32).toNat + n.toUInt16.toNat * 2 ^ 0 = n.toUInt16.toNat := by simp
  rw [e] at h
  rw [writeVarShort, writeVarUshort_eq]
  refine h.map ?_
  have hv : (UInt32.ofNat n.toUInt16.toNat).toUInt16 = n.toUInt16 := by
    rw [← UInt16.toNat_inj, UInt32.toNat_toUInt16, toNat_ofNat32 (by omega), Nat.mod_eq_of_lt hlt]
  simp only [toUInt16_fixup, hv]
  exact Reads.pure n

theorem reads_varUshort (n : UInt16) : Reads readVarUshort (writeVarUshort n) n :=
  (reads_varShort n.toInt16).map (Reads.pure _)

/-! ### Variable length, 64 bits -/

private theorem toNat_ofNat64 {n : Nat} (h : n < 2 ^ 64) : (UInt64.ofNat n).toNat = n := UInt64.toNat_ofNat_of_lt' h

private theorem or_shift64 {v x : UInt64} {s : Nat} (hs : s < 64) (hv : v.toNat < 2 ^ s)
    (hd : v.toNat + x.toNat * 2 ^ s < 2 ^ 64) :
    (v ||| x <<< UInt64.ofNat s).toNat = v.toNat + x.toNat * 2 ^ s := by
  rw [UInt64.toNat_or, UInt64.toNat_shiftLeft, toNat_ofNat64 (by omega), Nat.mod_eq_of_lt hs,
    Nat.mod_eq_of_lt (by rw [Nat.shiftLeft_eq]; omega), or_shiftLeft_eq_add hv]

private theorem ofNat_group {value x : UInt64} {size k : Nat} (hx : x.toNat = k) (hs : size < 64)
    (hv : value.toNat < 2 ^ size) (hd : value.toNat + k * 2 ^ size < 2 ^ 64) :
    UInt64.ofNat (value.toNat + k * 2 ^ size) = value ||| x <<< UInt64.ofNat size := by
  subst hx
  rw [← or_shift64 hs hv hd, UInt64.ofNat_toNat]

private theorem group_lt64 {value k size : Nat} (hv : value < 2 ^ size) (hk : 128 ≤ k)
    (h : value + k * 2 ^ size < 2 ^ 64) :
    size + 7 < 64 ∧ value + k % 128 * 2 ^ size < 2 ^ (size + 7) ∧
      value + k % 128 * 2 ^ size + k / 128 * 2 ^ (size + 7) = value + k * 2 ^ size := by
  have hp : 2 ^ (size + 7) = 128 * 2 ^ size := by rw [Nat.pow_add]; ring
  have hm : k % 128 * 2 ^ size ≤ 127 * 2 ^ size := Nat.mul_le_mul_right _ (by omega)
  have hk' : 128 * 2 ^ size ≤ k * 2 ^ size := Nat.mul_le_mul_right _ hk
  refine ⟨(Nat.pow_lt_pow_iff_right (by decide : 1 < 2)).1 (by rw [hp]; omega), by rw [hp]; omega, ?_⟩
  have e : k * 2 ^ size = k % 128 * 2 ^ size + k / 128 * (128 * 2 ^ size) := by
    conv_lhs => rw [← Nat.mod_add_div k 128]
    ring
  rw [hp, e]
  ring

private theorem reads_varHigh (n : Nat) : ∀ (k size : Nat) (high : UInt64) (last : UInt8), k < 128 ^ (n + 1) →
    size < 64 → high.toNat < 2 ^ size → high.toNat + k * 2 ^ size < 2 ^ 64 →
    Reads (readVarHigh high size last (n + 1)) (base128 k) (UInt64.ofNat (high.toNat + k * 2 ^ size)) := by
  have last_group : ∀ (n k size : Nat) (high : UInt64) (last : UInt8), k < 128 → size < 64 → high.toNat < 2 ^ size →
      high.toNat + k * 2 ^ size < 2 ^ 64 →
      Reads (readVarHigh high size last (n + 1)) (base128 k) (UInt64.ofNat (high.toNat + k * 2 ^ size)) := by
    intro n k size high last hk hs hv hf
    have hb : (UInt8.ofNat k).toNat = k := toNat_ofNat8 (by omega)
    have hx : (UInt8.ofNat k).toUInt64.toNat = k := by rw [UInt8.toNat_toUInt64, hb]
    rw [base128_of_lt hk]
    refine (Reads.next _ _).map ?_
    rw [if_neg (by rw [high_bit_iff, hb]; omega), ofNat_group hx hs hv hf]
    exact Reads.pure _
  induction n with
  | zero => exact fun k size high last hk => last_group 0 k size high last (by omega)
  | succ n ih =>
    intro k size high last hk hs hv hf
    by_cases h : k < 128
    · exact last_group (n + 1) k size high last h hs hv hf
    · have hb : (UInt8.ofNat (k % 128 + 128)).toNat = k % 128 + 128 := toNat_ofNat8 (by omega)
      have hx : (UInt8.ofNat (k % 128 + 128) &&& 127).toUInt64.toNat = k % 128 := by
        rw [UInt8.toNat_toUInt64, toNat_low7, hb]; omega
      obtain ⟨hs', hv', he⟩ := group_lt64 hv (Nat.not_lt.1 h) hf
      have hg := or_shift64 (x := (UInt8.ofNat (k % 128 + 128) &&& 127).toUInt64) hs hv
        (by rw [hx]; exact Nat.lt_trans hv' (Nat.pow_lt_pow_right (by decide) hs'))
      rw [hx] at hg
      have hn :=
        ih (k / 128) (size + 7) (high ||| (UInt8.ofNat (k % 128 + 128) &&& 127).toUInt64 <<< UInt64.ofNat size)
        (UInt8.ofNat (k % 128 + 128)) (by rw [Nat.pow_succ] at hk; omega) hs' (by rw [hg]; exact hv')
        (by rw [hg, he]; exact hf)
      rw [base128_of_le (Nat.not_lt.1 h)]
      refine Reads.bind (Reads.next _ _) ?_
      rw [if_pos (by rw [high_bit_iff, hb]; omega)]
      rw [hg, he] at hn
      exact hn

/-- Joining the two halves: `low` holds at most three bits beyond the thirty-two it is cut to. -/
private theorem join_halves {l h : UInt64} (hh : h.toNat < 2 ^ 32) :
    ((l &&& (0xffffffff : UInt64)) ||| h <<< (32 : UInt64)).toNat = l.toNat % 2 ^ 32 + h.toNat * 2 ^ 32 := by
  have hl : (l &&& (0xffffffff : UInt64)).toNat = l.toNat % 2 ^ 32 := by
    rw [UInt64.toNat_and]
    exact Nat.and_two_pow_sub_one_eq_mod l.toNat 32
  have hm : l.toNat % 2 ^ 32 < 2 ^ 32 := Nat.mod_lt _ (by decide)
  have := or_shift64 (v := l &&& (0xffffffff : UInt64)) (x := h) (s := 32) (by decide) (by rw [hl]; exact hm)
    (by rw [hl]; omega)
  rw [hl] at this
  exact this

private theorem toNat_shiftRight4 (x : UInt64) : (x >>> 4).toNat = x.toNat / 16 := by
  rw [UInt64.toNat_shiftRight, Nat.shiftRight_eq_div_pow]; rfl

private theorem reads_varLongFrom (n : Nat) : ∀ (k size : Nat) (low : UInt64), size + 7 * n = 28 →
    low.toNat < 2 ^ size → low.toNat + k * 2 ^ size < 2 ^ 64 →
    Reads (readVarLongFrom low size n) (base128 k) (UInt64.ofNat (low.toNat + k * 2 ^ size)) := by
  induction n with
  | zero =>
    intro k size low hs hv hf
    obtain rfl : size = 28 := by omega
    by_cases h : k < 128
    · have hb : (UInt8.ofNat k).toNat = k := toNat_ofNat8 (by omega)
      have hx : (UInt8.ofNat k).toUInt64.toNat = k := by rw [UInt8.toNat_toUInt64, hb]
      have hg := or_shift64 (x := (UInt8.ofNat k).toUInt64) (s := 28) (by decide) hv (by rw [hx]; exact hf)
      have hh := toNat_shiftRight4 (UInt8.ofNat k).toUInt64
      rw [base128_of_lt h]
      refine (Reads.next _ _).map ?_
      rw [if_neg (by rw [high_bit_iff, hb]; omega)]
      have hj := join_halves (l := low ||| (UInt8.ofNat k).toUInt64 <<< UInt64.ofNat 28)
        (h := (UInt8.ofNat k).toUInt64 >>> 4) (by rw [hh, hx]; omega)
      have e : low.toNat + k * 2 ^ 28 = (low.toNat + k * 2 ^ 28) % 2 ^ 32 + k / 16 * 2 ^ 32 := by omega
      rw [hg, hh, hx] at hj
      rw [e, ← hj, UInt64.ofNat_toNat]
      exact Reads.pure _
    · have hlt : low.toNat + k % 128 * 2 ^ 28 < 2 ^ 64 :=
        Nat.lt_of_le_of_lt (Nat.add_le_add_left (Nat.mul_le_mul_right _ (Nat.mod_le k 128)) _) hf
      have hb : (UInt8.ofNat (k % 128 + 128)).toNat = k % 128 + 128 := toNat_ofNat8 (by omega)
      have hx : (UInt8.ofNat (k % 128 + 128) &&& 127).toUInt64.toNat = k % 128 := by
        rw [UInt8.toNat_toUInt64, toNat_low7, hb]; omega
      have hg := or_shift64 (x := (UInt8.ofNat (k % 128 + 128) &&& 127).toUInt64) (s := 28) (by decide) hv
        (by rw [hx]; exact hlt)
      have hh := toNat_shiftRight4 (UInt8.ofNat (k % 128 + 128) &&& 127).toUInt64
      rw [hx] at hg hh
      have hr := reads_varHigh 4 (k / 128) 3 ((UInt8.ofNat (k % 128 + 128) &&& 127).toUInt64 >>> 4)
        (UInt8.ofNat (k % 128 + 128)) (by omega) (by decide) (by rw [hh]; omega) (by rw [hh]; omega)
      rw [base128_of_le (Nat.not_lt.1 h)]
      refine Reads.bind (Reads.next _ _) ?_
      rw [if_pos (by rw [high_bit_iff, hb]; omega)]
      refine hr.map ?_
      have hn := toNat_ofNat64 (n := k % 128 / 16 + k / 128 * 2 ^ 3) (by omega)
      rw [hh]
      have hj := join_halves (l := low ||| (UInt8.ofNat (k % 128 + 128) &&& 127).toUInt64 <<< UInt64.ofNat 28)
        (h := UInt64.ofNat (k % 128 / 16 + k / 128 * 2 ^ 3)) (by rw [hn]; omega)
      have e : low.toNat + k * 2 ^ 28 =
          (low.toNat + k % 128 * 2 ^ 28) % 2 ^ 32 + (k % 128 / 16 + k / 128 * 2 ^ 3) * 2 ^ 32 := by omega
      rw [hg, hn] at hj
      rw [e, ← hj, UInt64.ofNat_toNat]
      exact Reads.pure _
  | succ n ih =>
    intro k size low hs hv hf
    by_cases h : k < 128
    · have hb : (UInt8.ofNat k).toNat = k := toNat_ofNat8 (by omega)
      have hx : (UInt8.ofNat k).toUInt64.toNat = k := by rw [UInt8.toNat_toUInt64, hb]
      rw [base128_of_lt h]
      refine (Reads.next _ _).map ?_
      rw [if_neg (by rw [high_bit_iff, hb]; omega), ofNat_group hx (by omega) hv hf]
      exact Reads.pure _
    · have hb : (UInt8.ofNat (k % 128 + 128)).toNat = k % 128 + 128 := toNat_ofNat8 (by omega)
      have hx : (UInt8.ofNat (k % 128 + 128) &&& 127).toUInt64.toNat = k % 128 := by
        rw [UInt8.toNat_toUInt64, toNat_low7, hb]; omega
      obtain ⟨hs', hv', he⟩ := group_lt64 hv (Nat.not_lt.1 h) hf
      have hg := or_shift64 (x := (UInt8.ofNat (k % 128 + 128) &&& 127).toUInt64) (s := size) (by omega) hv
        (by rw [hx]; exact Nat.lt_trans hv' (Nat.pow_lt_pow_right (by decide) hs'))
      rw [hx] at hg
      have hn :=
        ih (k / 128) (size + 7) (low ||| (UInt8.ofNat (k % 128 + 128) &&& 127).toUInt64 <<< UInt64.ofNat size)
        (by omega) (by rw [hg]; exact hv') (by rw [hg, he]; exact hf)
      rw [base128_of_le (Nat.not_lt.1 h)]
      refine Reads.bind (Reads.next _ _) ?_
      rw [if_pos (by rw [high_bit_iff, hb]; omega)]
      rw [hg, he] at hn
      exact hn

/-- A byte written with its continuation bit. -/
private theorem group_byte (x : UInt64) : ((x &&& 127) ||| 128).toUInt8 = UInt8.ofNat (x.toNat % 128 + 128) := by
  have hm := Nat.and_two_pow_sub_one_eq_mod x.toNat 7
  have hlt : x.toNat % 2 ^ 7 < 2 ^ 7 := Nat.mod_lt _ (by decide)
  rw [← UInt8.toNat_inj, toNat_ofNat8 (by omega), UInt64.toNat_toUInt8, UInt64.toNat_or, UInt64.toNat_and]
  show ((x.toNat &&& 2 ^ 7 - 1) ||| 1 <<< 7) % 256 = _
  rw [hm, or_shiftLeft_eq_add hlt]
  omega

private theorem toUInt8_eq_ofNat (x : UInt64) : x.toUInt8 = UInt8.ofNat x.toNat := by
  rw [← UInt8.toNat_inj, UInt64.toNat_toUInt8, UInt8.toNat_ofNat']

theorem writeVarHigh_eq (high : UInt64) : writeVarHigh high = base128 high.toNat := by
  induction high using writeVarHigh.induct with
  | case1 high h ih =>
    have h128 : 128 ≤ high.toNat := UInt64.le_iff_toNat_le.1 h
    have h0 : (high >>> 7).toNat = high.toNat / 128 := by
      rw [UInt64.toNat_shiftRight, Nat.shiftRight_eq_div_pow]; rfl
    rw [writeVarHigh, if_pos h, ih, h0, base128_of_le h128, group_byte]
    rfl
  | case2 high h =>
    have h128 : ¬128 ≤ high.toNat := fun h' => h (UInt64.le_iff_toNat_le.2 h')
    rw [writeVarHigh, if_neg h, base128_of_lt (Nat.not_le.1 h128), toUInt8_eq_ofNat]
    rfl

/-- The mask of the twenty-nine bits above the low three. -/
private theorem and_high_mask {x : Nat} (h : x < 2 ^ 32) : x &&& 0xfffffff8 = x / 8 * 8 := by
  have e : x &&& 0xfffffff8 = ((x >>> 3) &&& (2 ^ 29 - 1)) <<< 3 := by
    rw [Nat.shiftLeft_and_distrib]
    refine Nat.eq_of_testBit_eq fun i => ?_
    rw [Nat.testBit_and, Nat.testBit_and, Nat.testBit_shiftLeft, Nat.testBit_shiftRight]
    rcases Nat.lt_or_ge i 3 with hi | hi
    · have : Nat.testBit 0xfffffff8 i = false := by
        obtain rfl | rfl | rfl : i = 0 ∨ i = 1 ∨ i = 2 := by omega
        all_goals rfl
      simp [this, Nat.not_le.2 hi]
    · rw [show 3 + (i - 3) = i by omega]
      simp only [ge_iff_le, hi, decide_true, Bool.true_and]
      rfl
  rw [e, Nat.and_two_pow_sub_one_eq_mod, Nat.shiftRight_eq_div_pow, Nat.shiftLeft_eq, Nat.mod_eq_of_lt]
  exact Nat.div_lt_of_lt_mul h

/-- The two cases of `write_var_long` are one numeral in base 128. -/
theorem writeVarUlong_eq (value : UInt64) : writeVarUlong value = base128 value.toNat := by
  have hlow : (value &&& 0xffffffff).toNat = value.toNat % 2 ^ 32 := by
    rw [UInt64.toNat_and]
    exact Nat.and_two_pow_sub_one_eq_mod value.toNat 32
  have hhigh : (value >>> 32).toNat = value.toNat / 2 ^ 32 := by
    rw [UInt64.toNat_shiftRight, Nat.shiftRight_eq_div_pow]; rfl
  have hsh : ∀ {s : UInt64} {d : Nat}, 2 ^ (s.toNat % 64) = d →
      ((value &&& 0xffffffff) >>> s).toNat = value.toNat % 2 ^ 32 / d := by
    intro s d hd
    rw [UInt64.toNat_shiftRight, Nat.shiftRight_eq_div_pow, hlow, hd]
  have hlt := value.toNat_lt
  unfold writeVarUlong
  simp only [group_byte, hlow, hsh (s := 7) (d := 2 ^ 7) rfl, hsh (s := 14) (d := 2 ^ 14) rfl,
    hsh (s := 21) (d := 2 ^ 21) rfl]
  by_cases h : value.toNat < 2 ^ 32
  · have h0 : value >>> 32 = 0 := UInt64.toNat_inj.1 (by rw [hhigh, Nat.div_eq_of_lt h]; rfl)
    rw [if_pos h0, writeVarInt, UInt32.toUInt32_toInt32, writeVarUint_eq, UInt64.toNat_toUInt32, Nat.mod_eq_of_lt h]
  · have h0 : value >>> 32 ≠ 0 := by
      intro h0
      have := congrArg UInt64.toNat h0
      rw [hhigh] at this
      have : value.toNat / 2 ^ 32 = 0 := this
      omega
    have h28 : (value >>> 32 <<< 4 ||| (value &&& 0xffffffff) >>> 28).toNat = value.toNat / 2 ^ 28 := by
      have h1 : ((value &&& 0xffffffff) >>> 28).toNat = value.toNat % 2 ^ 32 / 2 ^ 28 := hsh rfl
      have := or_shift64 (v := (value &&& 0xffffffff) >>> 28) (x := value >>> 32) (s := 4) (by decide)
        (by rw [h1]; omega) (by rw [h1, hhigh]; omega)
      rw [UInt64.or_comm]
      refine this.trans ?_
      rw [h1, hhigh]
      omega
    have h35 : (value >>> 32 >>> 3).toNat = value.toNat / 2 ^ 35 := by
      rw [UInt64.toNat_shiftRight, Nat.shiftRight_eq_div_pow, hhigh]
      show value.toNat / 2 ^ 32 / 2 ^ 3 = _
      omega
    have hcond : value >>> 32 &&& 0xfffffff8 = 0 ↔ value.toNat < 2 ^ 35 := by
      have hm : (value >>> 32 &&& 0xfffffff8).toNat = value.toNat / 2 ^ 32 / 8 * 8 := by
        rw [UInt64.toNat_and, hhigh]
        exact and_high_mask (Nat.div_lt_of_lt_mul hlt)
      rw [← UInt64.toNat_inj, hm]
      show value.toNat / 2 ^ 32 / 8 * 8 = 0 ↔ _
      omega
    rw [if_neg h0, h28, base128_of_le (by omega), base128_of_le (by omega), base128_of_le (by omega),
      base128_of_le (by omega)]
    simp only [Nat.div_div_eq_div_mul]
    by_cases h7 : value.toNat < 2 ^ 35
    · rw [if_pos (hcond.2 h7), base128_of_lt (by omega), toUInt8_eq_ofNat, h28]
      simp only [writeByte, List.cons_append, List.nil_append, List.cons.injEq, and_true]
      refine ⟨?_, ?_, ?_, ?_, ?_⟩ <;> congr 1 <;> omega
    · rw [if_neg (fun h' => h7 (hcond.1 h')), base128_of_le (by omega), writeVarHigh_eq, h35]
      simp only [writeByte, List.cons_append, List.nil_append, List.cons.injEq, Nat.div_div_eq_div_mul]
      refine ⟨?_, ?_, ?_, ?_, rfl, rfl⟩ <;> congr 1 <;> omega

theorem reads_varUlong (value : UInt64) : Reads readVarUlong (writeVarUlong value) value := by
  have h := reads_varLongFrom 4 value.toNat 0 0 rfl (by decide) (by simpa using value.toNat_lt)
  have e : (0 : UInt64).toNat + value.toNat * 2 ^ 0 = value.toNat := by simp
  rw [e, UInt64.ofNat_toNat] at h
  rw [writeVarUlong_eq]
  exact h

theorem reads_varLong (n : Int64) : Reads readVarLong (writeVarLong n) n :=
  (reads_varUlong _).map (Reads.pure _)

/-! ### Streams of variable-length integers -/

/-- The six kinds of variable-length integers. -/
inductive VarKind where
  | int | uint | short | ushort | long | ulong
  deriving DecidableEq, Repr

inductive VarValue where
  | int (data : Int32)
  | uint (data : UInt32)
  | short (data : Int16)
  | ushort (data : UInt16)
  | long (data : Int64)
  | ulong (data : UInt64)
  deriving DecidableEq, Repr

namespace VarValue

def kind : VarValue → VarKind
  | int _ => .int
  | uint _ => .uint
  | short _ => .short
  | ushort _ => .ushort
  | long _ => .long
  | ulong _ => .ulong

def write : VarValue → List UInt8
  | int data => writeVarInt data
  | uint data => writeVarUint data
  | short data => writeVarShort data
  | ushort data => writeVarUshort data
  | long data => writeVarLong data
  | ulong data => writeVarUlong data

/-- The method of the reader for each kind. -/
def read : VarKind → BigEndianReader VarValue
  | .int => do
    let data ← readVarInt
    pure (int data)
  | .uint => do
    let data ← readVarUint
    pure (uint data)
  | .short => do
    let data ← readVarShort
    pure (short data)
  | .ushort => do
    let data ← readVarUshort
    pure (ushort data)
  | .long => do
    let data ← readVarLong
    pure (long data)
  | .ulong => do
    let data ← readVarUlong
    pure (ulong data)

theorem reads (value : VarValue) : Reads (read value.kind) value.write value := by
  cases value with
  | int data => exact (reads_varInt data).map (Reads.pure _)
  | uint data => exact (reads_varUint data).map (Reads.pure _)
  | short data => exact (reads_varShort data).map (Reads.pure _)
  | ushort data => exact (reads_varUshort data).map (Reads.pure _)
  | long data => exact (reads_varLong data).map (Reads.pure _)
  | ulong data => exact (reads_varUlong data).map (Reads.pure _)

theorem reads_all (values : List VarValue) :
    Reads (Reader.forEach read (values.map kind)) (values.flatMap write) values := by
  induction values with
  | nil => exact Reads.pure []
  | cons value values ih =>
    rw [List.flatMap_cons]
    exact Reads.forEach_cons value.reads ih

end VarValue

/-- A stream of variable-length integers of any kinds is read back up to the bytes that follow it. -/
theorem varValues_compose (values : List VarValue) (position : Nat) (trailing : List UInt8) :
    Reader.forEach VarValue.read (values.map VarValue.kind) ⟨position, values.flatMap VarValue.write ++ trailing⟩ =
      .ok (values, ⟨position + (values.flatMap VarValue.write).length, trailing⟩) :=
  VarValue.reads_all values position trailing

example : [VarValue.int (-1), .short (-1), .long 300].flatMap VarValue.write =
    [255, 255, 255, 255, 15, 255, 255, 3, 172, 2] := by decide +kernel

/-! ### `boolean_byte_wrapper` -/

section Flags

open BooleanByteWrapper

theorem BooleanByteWrapper.getFlag_eq {flag : UInt8} {offset : Nat} (h : offset < 8) :
    getFlag flag offset = .ok (flag.toNat.testBit offset) := by
  have bits : ∀ (offset : Fin 8) (i : Fin 256), (UInt8.ofFin i &&& (1 : UInt8) <<< UInt8.ofNat offset.val != 0) =
      i.val.testBit offset.val := by decide +kernel
  rw [getFlag, if_neg (Nat.not_le.2 h)]
  exact congrArg Outcome.ok (bits ⟨offset, h⟩ flag.toFin)

theorem BooleanByteWrapper.setFlag_eq (flag : UInt8) {offset : Nat} (h : offset < 8) (value : Bool) :
    ∃ flag', setFlag flag offset value = .ok flag' ∧ ∀ j < 8,
      flag'.toNat.testBit j = if j = offset then value else flag.toNat.testBit j := by
  have one : ∀ o : Fin 8, ((1 : UInt8) <<< UInt8.ofNat o.val).toNat = 2 ^ o.val := by decide
  have mask : ∀ o j : Fin 8, (255 - (1 : UInt8) <<< UInt8.ofNat o.val).toNat.testBit j.val = decide (j ≠ o) := by
    decide
  rw [setFlag, if_neg (Nat.not_le.2 h)]
  cases value with
  | true =>
    refine ⟨_, rfl, fun j hj => ?_⟩
    rw [UInt8.toNat_or, one ⟨offset, h⟩, Nat.testBit_or, Nat.testBit_two_pow]
    by_cases e : j = offset
    · simp [e]
    · simp [e, Ne.symm e]
  | false =>
    refine ⟨_, rfl, fun j hj => ?_⟩
    have hm := mask ⟨offset, h⟩ ⟨j, hj⟩
    rw [UInt8.toNat_and, Nat.testBit_and]
    simp only [Fin.mk.injEq, ne_eq] at hm
    rw [hm]
    by_cases e : j = offset <;> simp [e]

end Flags

end Otomai
