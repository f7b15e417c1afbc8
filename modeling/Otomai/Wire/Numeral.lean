import Mathlib.Data.Nat.Bitwise
import Mathlib.Tactic.Ring
import Otomai.Wire.Reader

/-!
# Numerals on the wire

Two ways of writing a natural number as bytes, each with its reader:

* `bigEndian n v`: the `n` low bytes of `v`, most significant first;
* `base128 v`: groups of seven bits, least significant first, the high bit of a byte telling that more follow.
-/

namespace Wire

variable {ε : Type}

/-! ### Big-endian numerals -/

/-- The `n` low bytes of `v`, most significant first. -/
def bigEndian : Nat → Nat → List UInt8
  | 0, _ => []
  | n + 1, v => UInt8.ofNat (v / 256 ^ n) :: bigEndian n v

@[simp] theorem length_bigEndian (n v : Nat) : (bigEndian n v).length = n := by
  induction n with
  | zero => rfl
  | succ n ih => simp [bigEndian, ih]

namespace Reader

/-- `n` bytes read as a big-endian number, continuing from the number `acc` of the bytes already read. -/
def bigEndianFrom (eof : ε) (acc : Nat) : Nat → Reader ε Nat
  | 0 => pure acc
  | n + 1 => do
    let b ← next eof
    bigEndianFrom eof (acc * 256 + b.toNat) n

def bigEndian (eof : ε) (n : Nat) : Reader ε Nat := bigEndianFrom eof 0 n

end Reader

private theorem reads_bigEndianFrom (eof : ε) (n v acc : Nat) :
    Reads (Reader.bigEndianFrom eof acc n) (bigEndian n v) (acc * 256 ^ n + v % 256 ^ n) := by
  induction n generalizing acc with
  | zero =>
    rw [Nat.pow_zero, Nat.mul_one, Nat.mod_one, Nat.add_zero]
    exact Reads.pure acc
  | succ n ih =>
    have hb : (UInt8.ofNat (v / 256 ^ n)).toNat = v / 256 ^ n % 256 := by simp
    have e : (acc * 256 + (UInt8.ofNat (v / 256 ^ n)).toNat) * 256 ^ n + v % 256 ^ n =
        acc * 256 ^ (n + 1) + v % 256 ^ (n + 1) := by
      rw [hb, Nat.pow_succ, Nat.mod_mul]
      ring
    rw [← e]
    exact Reads.bind (Reads.next eof _) (ih _)

theorem reads_bigEndian (eof : ε) {n v : Nat} (h : v < 256 ^ n) :
    Reads (Reader.bigEndian eof n) (bigEndian n v) v := by
  have := reads_bigEndianFrom eof n v 0
  rwa [Nat.zero_mul, Nat.zero_add, Nat.mod_eq_of_lt h] at this

theorem starves_bigEndian (eof : ε) (n v acc : Nat) :
    Starves eof (Reader.bigEndianFrom eof acc n) (bigEndian n v) := by
  induction n generalizing acc with
  | zero => exact Starves.nil _
  | succ n ih => exact (Starves.next _).bind (Reads.next eof _) (ih _)

private theorem returns_bigEndianFrom (eof : ε) (k n acc : Nat) :
    Returns (Unread k) (Reader.bigEndianFrom eof acc n) fun v c => v < (acc + 1) * 256 ^ n ∧ Unread k c := by
  induction n generalizing acc with
  | zero => exact Returns.pure fun c hc => ⟨by simp, hc⟩
  | succ n ih =>
    refine (Returns.next eof k).bind fun b => ?_
    refine (ih (acc * 256 + b.toNat)).mono (fun _ hc => Nat.le_of_lt hc) fun v c hv =>
      ⟨Nat.lt_of_lt_of_le hv.1 ?_, hv.2⟩
    rw [Nat.pow_succ, Nat.mul_comm (256 ^ n), ← Nat.mul_assoc]
    exact Nat.mul_le_mul_right _ (by have := b.toNat_lt; omega)

/-- A big-endian reader of at least one byte consumes a byte. -/
theorem returns_bigEndian (eof : ε) (k n : Nat) :
    Returns (Unread k) (Reader.bigEndian eof (n + 1)) fun v c => v < 256 ^ (n + 1) ∧ c.unread.length < k := by
  cases k with
  | zero =>
    refine (Returns.next eof 0).bind fun b => ?_
    rintro ⟨p, u⟩ hc
    exact absurd hc (Nat.not_lt_zero _)
  | succ k =>
    refine (Returns.next eof (k + 1)).bind fun b => ?_
    refine (returns_bigEndianFrom eof k n _).mono (fun _ hc => Nat.le_of_lt_succ hc) fun v c hv =>
      ⟨Nat.lt_of_lt_of_le hv.1 ?_, Nat.lt_succ_of_le hv.2⟩
    rw [Nat.pow_succ, Nat.mul_comm (256 ^ n)]
    exact Nat.mul_le_mul_right _ (by have := b.toNat_lt; omega)

/-! ### Base-128 numerals -/

/-- Groups of seven bits, least significant first, with the high bit set on all but the last. -/
def base128 (v : Nat) : List UInt8 :=
  if v < 128 then [UInt8.ofNat v] else UInt8.ofNat (v % 128 + 128) :: base128 (v / 128)
termination_by v
decreasing_by omega

theorem base128_of_lt {v : Nat} (h : v < 128) : base128 v = [UInt8.ofNat v] := by
  rw [base128]
  simp [h]

theorem base128_of_le {v : Nat} (h : 128 ≤ v) :
    base128 v = UInt8.ofNat (v % 128 + 128) :: base128 (v / 128) := by
  rw [base128]
  simp [Nat.not_lt.2 h]

/-- Adding a group of bits above the bits already read. -/
theorem or_shiftLeft_eq_add {a d s : Nat} (h : a < 2 ^ s) : a ||| d <<< s = a + d * 2 ^ s := by
  rw [Nat.or_comm, ← Nat.shiftLeft_add_eq_or_of_lt h, Nat.shiftLeft_eq, Nat.add_comm]

end Wire
