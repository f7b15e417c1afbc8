import Otomai.Io.RoundTrip

/-!
# Message headers

`NetworkMessageHeader` with the two header writers and the reader of `dofus-io`.  The two low bits of the first
short give the number of bytes of the length field, so the header of a client message takes between
`minHeaderSize` and `minHeaderSize + 3` bytes.

* `reads_header`: `readHeader` reads back what `writeHeader` wrote.
* `starves_header`: on a header that is cut short it reports the end of its input.
-/

namespace Otomai

open Wire BigEndianWriter BigEndianReader

structure NetworkMessageHeader where
  messageId : UInt16
  instanceId : UInt32
  payloadSize : UInt32
  deriving DecidableEq, Repr

namespace Network

def minHeaderSize : Nat := 6

def computeTypeLength (length : Nat) : Nat :=
  if 65535 < length then 3 else if 255 < length then 2 else if 0 < length then 1 else 0

/-- The length field shared by the two header writers. -/
def writePayloadLength (typeLen payloadLength : Nat) : List UInt8 :=
  match typeLen with
  | 1 => writeByte (UInt8.ofNat payloadLength)
  | 2 => writeUshort (UInt16.ofNat payloadLength)
  | 3 => writeByte (UInt8.ofNat (payloadLength >>> 16)) ++ writeUshort (UInt16.ofNat payloadLength)
  | _ => []

def headerShort (messageId : UInt16) (typeLen : Nat) : UInt16 := messageId <<< 2 ||| UInt16.ofNat typeLen

def writeServerHeader (messageId : UInt16) (payloadLength : Nat) : List UInt8 :=
  let typeLen := computeTypeLength payloadLength
  writeUshort (headerShort messageId typeLen) ++ writePayloadLength typeLen payloadLength

def writeHeader (messageId : UInt16) (instanceId : UInt32) (payloadLength : Nat) : List UInt8 :=
  let typeLen := computeTypeLength payloadLength
  writeUshort (headerShort messageId typeLen) ++
    (writeUint instanceId ++ writePayloadLength typeLen payloadLength)

def readPayloadLength (typeLength : Nat) : BigEndianReader UInt32 :=
  match typeLength with
  | 0 => pure 0
  | 1 => readUintN 1
  | 2 => readUintN 2
  | 3 => do
    let high ← readByte
    let low ← readUshort
    pure (high.toUInt32 <<< 16 ||| low.toUInt32)
  | n => Wire.Reader.fail (.invalidTypeLength n)

def readHeader : BigEndianReader NetworkMessageHeader := do
  let header ← readUshort
  let messageId := header >>> 2
  let typeLength := (header &&& 3).toNat
  let instanceId ← readUint
  let payloadSize ← readPayloadLength typeLength
  pure { messageId, instanceId, payloadSize }

/-! ### The length field -/

theorem computeTypeLength_le (length : Nat) : computeTypeLength length ≤ 3 := by
  unfold computeTypeLength
  split
  · exact Nat.le_refl 3
  · split
    · decide
    · split <;> decide

theorem writePayloadLength_one (n : Nat) : writePayloadLength 1 n = bigEndian 1 n := by
  simp [bigEndian, writePayloadLength, writeByte]

theorem length_writePayloadLength {typeLen : Nat} (h : typeLen ≤ 3) (n : Nat) :
    (writePayloadLength typeLen n).length = typeLen := by
  obtain rfl | rfl | rfl | rfl : typeLen = 0 ∨ typeLen = 1 ∨ typeLen = 2 ∨ typeLen = 3 := by omega
  all_goals simp [writePayloadLength, writeByte, writeUshort]

/-- A byte enters below the multiple of `256 ^ (k + 1)` already read. -/
private theorem or_byte {a k : Nat} {b : UInt8} (hk : 8 * k < 32) (h : (a * 256 + b.toNat) * 256 ^ k < 2 ^ 32) :
    UInt32.ofNat (a * 256 ^ (k + 1)) ||| b.toUInt32 <<< UInt32.ofNat (8 * k) =
      UInt32.ofNat ((a * 256 + b.toNat) * 256 ^ k) := by
  have e : (a * 256 + b.toNat) * 256 ^ k = b.toNat * 256 ^ k + a * 256 ^ (k + 1) := by ring
  have hlt : b.toNat * 256 ^ k < 256 ^ (k + 1) := by
    rw [Nat.pow_succ, Nat.mul_comm]
    exact Nat.mul_lt_mul_of_pos_left b.toNat_lt (Nat.pow_pos (by decide))
  have h8 : ∀ j, 2 ^ (8 * j) = 256 ^ j := fun j => by rw [Nat.pow_mul]
  have hor := or_shiftLeft_eq_add (a := b.toNat * 256 ^ k) (d := a) (s := 8 * (k + 1)) (by rw [h8]; exact hlt)
  have hs : (UInt32.ofNat (8 * k)).toNat = 8 * k := UInt32.toNat_ofNat_of_lt' (Nat.lt_trans hk (by decide))
  have ha : (UInt32.ofNat (a * 256 ^ (k + 1))).toNat = a * 256 ^ (k + 1) :=
    UInt32.toNat_ofNat_of_lt' (show _ < 2 ^ 32 by omega)
  have hb : b.toNat * 256 ^ k < 2 ^ 32 := by omega
  rw [Nat.shiftLeft_eq, h8] at hor
  rw [← UInt32.toNat_inj, UInt32.toNat_or, UInt32.toNat_shiftLeft, UInt8.toNat_toUInt32, hs, ha, Nat.mod_eq_of_lt hk,
    Nat.shiftLeft_eq, h8, Nat.mod_eq_of_lt hb, Nat.or_comm, hor, ← e]
  exact (UInt32.toNat_ofNat_of_lt' h).symm

/-- The accumulator of `read_uint_n` holds a multiple of `256 ^ k` when `k` bytes are left to read. -/
private theorem reads_uintNFrom (k : Nat) : ∀ a v : Nat, k ≤ 4 → (a + 1) * 256 ^ k ≤ 2 ^ 32 →
    Reads (readUintNFrom (UInt32.ofNat (a * 256 ^ k)) k) (bigEndian k v)
      (UInt32.ofNat (a * 256 ^ k + v % 256 ^ k)) := by
  induction k with
  | zero =>
    intro a v _ _
    rw [Nat.pow_zero, Nat.mod_one, Nat.add_zero]
    exact Reads.pure _
  | succ k ih =>
    intro a v hk h
    have hb : (UInt8.ofNat (v / 256 ^ k)).toNat = v / 256 ^ k % 256 := by simp
    have e : a * 256 ^ (k + 1) + v % 256 ^ (k + 1) = (a * 256 + v / 256 ^ k % 256) * 256 ^ k + v % 256 ^ k := by
      rw [Nat.pow_succ, Nat.mod_mul]; ring
    have hle : (a * 256 + v / 256 ^ k % 256 + 1) * 256 ^ k ≤ 2 ^ 32 := by
      refine Nat.le_trans (Nat.mul_le_mul_right _ (show _ ≤ (a + 1) * 256 by omega)) ?_
      rwa [Nat.mul_assoc, ← Nat.pow_succ']
    have hlt : (a * 256 + v / 256 ^ k % 256) * 256 ^ k < 2 ^ 32 :=
      Nat.lt_of_lt_of_le (Nat.mul_lt_mul_of_pos_right (Nat.lt_succ_self _) (Nat.pow_pos (by decide))) hle
    refine Reads.bind (Reads.next _ _) ?_
    rw [or_byte (by omega) (by rw [hb]; exact hlt), hb, e]
    exact ih _ v (by omega) hle

/-- `read_uint_n` reads a big-endian numeral of at most four bytes. -/
theorem reads_uintN {k v : Nat} (hk : k ≤ 4) (h : v < 256 ^ k) :
    Reads (readUintN k) (bigEndian k v) (UInt32.ofNat v) := by
  have hp : 256 ^ k ≤ 256 ^ 4 := Nat.pow_le_pow_right (by decide) hk
  have := reads_uintNFrom k 0 v hk (by omega)
  rwa [Nat.zero_mul, Nat.zero_add, Nat.mod_eq_of_lt h] at this

/-- Three bytes hold a length up to the multiples of `2 ^ 24`. -/
theorem reads_payloadLength_three (n : Nat) :
    Reads (readPayloadLength 3) (writePayloadLength 3 n) (UInt32.ofNat (n % 2 ^ 24)) := by
  refine Reads.bind (reads_byte _) (Reads.map (reads_ushort _) ?_)
  have hh : (UInt8.ofNat (n >>> 16)).toNat = n / 2 ^ 16 % 2 ^ 8 := by
    rw [UInt8.toNat_ofNat', Nat.shiftRight_eq_div_pow]
  have e : (UInt8.ofNat (n >>> 16)).toUInt32 <<< 16 ||| (UInt16.ofNat n).toUInt32 = UInt32.ofNat (n % 2 ^ 24) := by
    have hl : n % 2 ^ 16 < 2 ^ 16 := Nat.mod_lt _ (by decide)
    have hor := or_shiftLeft_eq_add (d := n / 2 ^ 16 % 2 ^ 8) hl
    rw [← UInt32.toNat_inj, UInt32.toNat_or, UInt32.toNat_shiftLeft, UInt8.toNat_toUInt32, UInt16.toNat_toUInt32,
      hh, UInt16.toNat_ofNat', UInt32.toNat_ofNat']
    show (n / 2 ^ 16 % 2 ^ 8) <<< 16 % 2 ^ 32 ||| n % 2 ^ 16 = n % 2 ^ 24 % 2 ^ 32
    rw [Nat.mod_eq_of_lt (by rw [Nat.shiftLeft_eq]; omega), Nat.or_comm, hor]
    omega
  rw [e]
  exact Reads.pure _

theorem reads_payloadLength {n : Nat} (h : n < 2 ^ 24) :
    Reads (readPayloadLength (computeTypeLength n)) (writePayloadLength (computeTypeLength n) n)
      (UInt32.ofNat n) := by
  unfold computeTypeLength
  by_cases h3 : 65535 < n
  · rw [if_pos h3]
    have hthree := reads_payloadLength_three n
    rwa [Nat.mod_eq_of_lt h] at hthree
  · rw [if_neg h3]
    by_cases h2 : 255 < n
    · rw [if_pos h2]
      have := reads_uintN (k := 2) (v := n) (by decide) (by omega)
      rwa [show bigEndian 2 n = writePayloadLength 2 n by
        rw [writePayloadLength, writeUshort, UInt16.toNat_ofNat_of_lt' (show _ < 2 ^ 16 by omega)]] at this
    · rw [if_neg h2]
      by_cases h1 : 0 < n
      · rw [if_pos h1]
        have := reads_uintN (k := 1) (v := n) (by decide) (by omega)
        rwa [← writePayloadLength_one] at this
      · rw [if_neg h1]
        obtain rfl : n = 0 := by omega
        exact Reads.pure _

theorem starves_uintN (k v : Nat) : ∀ value, Starves .unexpectedEof (readUintNFrom value k) (bigEndian k v) := by
  induction k with
  | zero => exact fun _ => Starves.nil _
  | succ k ih => exact fun value => (Starves.next _).bind (Reads.next _ _) (ih _)

theorem starves_ushort (n : UInt16) : Starves .unexpectedEof readUshort (writeUshort n) :=
  (starves_bigEndian _ 2 _ 0).map (reads_bigEndian _ n.toNat_lt)

theorem starves_uint (n : UInt32) : Starves .unexpectedEof readUint (writeUint n) :=
  (starves_bigEndian _ 4 _ 0).map (reads_bigEndian _ n.toNat_lt)

theorem starves_payloadLength (n : Nat) :
    Starves .unexpectedEof (readPayloadLength (computeTypeLength n))
      (writePayloadLength (computeTypeLength n) n) := by
  unfold computeTypeLength
  by_cases h3 : 65535 < n
  · rw [if_pos h3]
    exact (Starves.next _).bind (Reads.next _ _) ((starves_ushort _).map (reads_ushort _))
  · rw [if_neg h3]
    by_cases h2 : 255 < n
    · rw [if_pos h2]
      exact starves_uintN 2 _ 0
    · rw [if_neg h2]
      by_cases h1 : 0 < n
      · rw [if_pos h1]
        rw [writePayloadLength_one]
        exact starves_uintN 1 _ 0
      · rw [if_neg h1]
        exact Starves.nil _

/-! ### The header -/

theorem headerShort_id {id : UInt16} {t : Nat} (hid : id.toNat < 2 ^ 14) (ht : t ≤ 3) :
    headerShort id t >>> 2 = id ∧ (headerShort id t &&& 3).toNat = t := by
  have hn : (headerShort id t).toNat = t + id.toNat * 4 := by
    have hor := or_shiftLeft_eq_add (a := t) (d := id.toNat) (s := 2) (by omega)
    rw [headerShort, UInt16.toNat_or, UInt16.toNat_shiftLeft, UInt16.toNat_ofNat_of_lt' (show _ < 2 ^ 16 by omega)]
    show id.toNat <<< 2 % 2 ^ 16 ||| t = _
    rw [Nat.mod_eq_of_lt (by rw [Nat.shiftLeft_eq]; omega), Nat.or_comm]
    exact hor
  constructor
  · rw [← UInt16.toNat_inj, UInt16.toNat_shiftRight, hn, Nat.shiftRight_eq_div_pow]
    show (t + id.toNat * 4) / 2 ^ 2 = _
    omega
  · rw [UInt16.toNat_and, hn]
    have := Nat.and_two_pow_sub_one_eq_mod (t + id.toNat * 4) 2
    show (t + id.toNat * 4) &&& 2 ^ 2 - 1 = _
    omega

theorem reads_header {id : UInt16} {n : Nat} (hid : id.toNat < 2 ^ 14) (instanceId : UInt32) (hn : n < 2 ^ 24) :
    Reads readHeader (writeHeader id instanceId n) ⟨id, instanceId, UInt32.ofNat n⟩ := by
  obtain ⟨h1, h2⟩ := headerShort_id hid (computeTypeLength_le n)
  refine Reads.bind (reads_ushort _) (Reads.bind (reads_uint _) ?_)
  rw [h1, h2]
  exact (reads_payloadLength hn).map (Reads.pure _)

theorem starves_header {id : UInt16} {n : Nat} (hid : id.toNat < 2 ^ 14) (instanceId : UInt32) (hn : n < 2 ^ 24) :
    Starves .unexpectedEof readHeader (writeHeader id instanceId n) := by
  obtain ⟨-, h⟩ := headerShort_id hid (computeTypeLength_le n)
  refine (starves_ushort _).bind (reads_ushort _) ((starves_uint _).bind (reads_uint _) ?_)
  rw [h]
  exact (starves_payloadLength n).map (reads_payloadLength hn)

theorem length_writeHeader (id : UInt16) (instanceId : UInt32) (n : Nat) :
    (writeHeader id instanceId n).length = minHeaderSize + computeTypeLength n := by
  simp only [writeHeader, List.length_append, writeUshort, writeUint, length_bigEndian,
    length_writePayloadLength (computeTypeLength_le n), minHeaderSize]
  omega

end Network

end Otomai
