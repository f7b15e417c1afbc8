import Otomai.Io.BigEndian
import Otomai.Wire.Format

/-!
# Readers that end

The readers of values of a fixed size, and of strings with a length of sixteen bits, end with a value or an error on
every input, and take at least their size.  What the readers of numbers take is what the writers of the same numbers
write.
-/

namespace Otomai

open Wire BigEndianReader

theorem ends_readByte : AlwaysEnds readByte := AlwaysEnds.next _

theorem ends_readBoolean : AlwaysEnds readBoolean := ends_readByte.bind fun _ => AlwaysEnds.pure _

theorem ends_readUshort : AlwaysEnds readUshort := (AlwaysEnds.bigEndianFrom _ 0 2).bind fun _ => AlwaysEnds.pure _

theorem ends_readShort : AlwaysEnds readShort := ends_readUshort.bind fun _ => AlwaysEnds.pure _

theorem ends_readUint : AlwaysEnds readUint := (AlwaysEnds.bigEndianFrom _ 0 4).bind fun _ => AlwaysEnds.pure _

theorem ends_readInt : AlwaysEnds readInt := ends_readUint.bind fun _ => AlwaysEnds.pure _

theorem ends_readDouble : AlwaysEnds readDouble := (AlwaysEnds.bigEndianFrom _ 0 8).bind fun _ => AlwaysEnds.pure _

theorem ends_readBytes {size : Nat} (h : size ≤ isizeMax) : AlwaysEnds (readBytes size) := by
  rw [readBytes, if_neg (Nat.not_lt.2 h)]
  exact AlwaysEnds.take _ size

theorem toNat_le_isizeMax (length : UInt16) : length.toNat ≤ isizeMax := by
  have hlt := length.toNat_lt
  unfold isizeMax
  omega

theorem ends_readUtf : AlwaysEnds readUtf := by
  refine ends_readUshort.bind fun length => (ends_readBytes (toNat_le_isizeMax length)).bind fun buf => ?_
  cases String.fromUTF8? ⟨buf.toArray⟩ with
  | some s => exact AlwaysEnds.pure s
  | none => exact AlwaysEnds.fail _

theorem shrinks_readBoolean : Shrinks 1 readBoolean := (Shrinks.next _).bind fun _ => Shrinks.pure _

theorem shrinks_readUshort : Shrinks 2 readUshort := (Shrinks.bigEndianFrom _ 0 2).bind fun _ => Shrinks.pure _

theorem shrinks_readUint : Shrinks 4 readUint := (Shrinks.bigEndianFrom _ 0 4).bind fun _ => Shrinks.pure _

theorem shrinks_readInt : Shrinks 4 readInt := shrinks_readUint.bind fun _ => Shrinks.pure _

theorem shrinks_readDouble : Shrinks 8 readDouble := (Shrinks.bigEndianFrom _ 0 8).bind fun _ => Shrinks.pure _

theorem shrinks_readBytes (size : Nat) : Shrinks size (readBytes size) := by
  unfold readBytes
  split_ifs
  · exact fun _ _ _ h => by cases h
  · exact Shrinks.take _ size

theorem shrinks_readUtfBytes (size : Nat) : Shrinks size (readUtfBytes size) := by
  refine @Shrinks.bind _ _ _ _ _ size 0 (shrinks_readBytes size) fun buf => ?_
  cases String.fromUTF8? ⟨buf.toArray⟩ with
  | some s => exact Shrinks.pure s
  | none => exact Shrinks.fail 0 _

theorem shrinks_readUtf : Shrinks 2 readUtf :=
  @Shrinks.bind _ _ _ _ _ 2 0 shrinks_readUshort fun _ => (shrinks_readUtfBytes _).mono (Nat.zero_le _)

/-! ### Numbers of several sizes -/

theorem shrinks_readVarIntFrom (n : Nat) : ∀ value size, Shrinks 1 (readVarIntFrom value size n) := by
  induction n with
  | zero => exact fun _ _ => Shrinks.fail 1 _
  | succ n ih =>
    intro value size
    refine @Shrinks.bind _ _ _ _ _ 1 0 (Shrinks.next _) fun b => ?_
    dsimp only
    split_ifs
    · exact (ih _ _).mono (Nat.zero_le 1)
    · exact Shrinks.pure _

theorem shrinks_readVarShortFrom (n : Nat) : ∀ value offset, Shrinks 1 (readVarShortFrom value offset n) := by
  induction n with
  | zero => exact fun _ _ => Shrinks.fail 1 _
  | succ n ih =>
    intro value offset
    refine @Shrinks.bind _ _ _ _ _ 1 0 (Shrinks.next _) fun b => ?_
    dsimp only
    split_ifs
    · exact (ih _ _).mono (Nat.zero_le 1)
    · exact Shrinks.pure _

theorem shrinks_readVarHigh (n : Nat) : ∀ high size last, Shrinks 0 (readVarHigh high size last n) := by
  induction n with
  | zero => exact fun _ _ _ => Shrinks.pure _
  | succ n ih =>
    intro high size last
    refine @Shrinks.bind _ _ _ _ _ 0 0 ((Shrinks.next _).mono (Nat.zero_le 1)) fun b => ?_
    split_ifs
    · exact ih _ _ _
    · exact Shrinks.pure _

theorem shrinks_readVarLongFrom (n : Nat) : ∀ low size, Shrinks 1 (readVarLongFrom low size n) := by
  induction n with
  | zero =>
    intro low size
    refine @Shrinks.bind _ _ _ _ _ 1 0 (Shrinks.next _) fun b => ?_
    dsimp only
    split_ifs
    · exact @Shrinks.bind _ _ _ _ _ 0 0 (shrinks_readVarHigh 5 _ _ _) fun _ => Shrinks.pure _
    · exact Shrinks.pure _
  | succ n ih =>
    intro low size
    refine @Shrinks.bind _ _ _ _ _ 1 0 (Shrinks.next _) fun b => ?_
    split_ifs
    · exact (ih _ _).mono (Nat.zero_le 1)
    · exact Shrinks.pure _

theorem shrinks_readVarInt : Shrinks 1 readVarInt := (shrinks_readVarIntFrom 5 0 0).bind fun _ => Shrinks.pure _

theorem shrinks_readVarShort : Shrinks 1 readVarShort := (shrinks_readVarShortFrom 3 0 0).bind fun _ => Shrinks.pure _

/-! ### Numbers of four bytes -/

/-- Four bytes are read as a number; its sign is in the first one. -/
theorem readInt_four (p : Nat) (l₀ l₁ l₂ l₃ : UInt8) (rest : List UInt8) :
    ∃ n : Int32, readInt ⟨p, l₀ :: l₁ :: l₂ :: l₃ :: rest⟩ = .ok (n, ⟨p + 4, rest⟩) ∧ (0 ≤ n.toInt ↔ l₀ < 128) := by
  refine ⟨Int32.ofNat ((((0 * 256 + l₀.toNat) * 256 + l₁.toNat) * 256 + l₂.toNat) * 256 + l₃.toNat), rfl, ?_⟩
  have hsize : Int32.size = 2 ^ 32 := rfl
  have h128 : (128 : UInt8).toNat = 128 := rfl
  have h₀ := l₀.toNat_lt
  have h₁ := l₁.toNat_lt
  have h₂ := l₂.toNat_lt
  have h₃ := l₃.toNat_lt
  rw [Int32.toInt_ofNat', Int.bmod_def, hsize, UInt8.lt_iff_toNat_lt, h128]
  split_ifs <;> omega

/-- Fewer than four bytes are no number. -/
theorem readInt_fewer {c : Cursor} (h : c.unread.length < 4) : ∃ e, readInt c = .err e := by
  rcases Outcome.ends_iff.1 (ends_readInt c) with ⟨⟨n, c'⟩, hok⟩ | herr
  · have hlen := shrinks_readInt c n c' hok
    omega
  · exact herr

/-- A list of at least four entries begins with four of them. -/
theorem four_or_fewer {α : Type} (u : List α) :
    (∃ a b c d rest, u = a :: b :: c :: d :: rest) ∨ u.length < 4 := by
  rcases u with _ | ⟨a, _ | ⟨b, _ | ⟨c, _ | ⟨d, rest⟩⟩⟩⟩
  · exact .inr (by simp)
  · exact .inr (by simp)
  · exact .inr (by simp)
  · exact .inr (by simp)
  · exact .inl ⟨a, b, c, d, rest, rfl⟩

theorem readInt_enough {c : Cursor} (h : 4 ≤ c.unread.length) :
    ∃ n c', readInt c = .ok (n, c') ∧ c'.position = c.position + 4 ∧ c'.unread.length + 4 = c.unread.length := by
  obtain ⟨p, u⟩ := c
  rcases four_or_fewer u with ⟨l₀, l₁, l₂, l₃, rest, rfl⟩ | hfew
  · obtain ⟨n, hn, -⟩ := readInt_four p l₀ l₁ l₂ l₃ rest
    exact ⟨n, _, hn, rfl, rfl⟩
  · exact absurd h (Nat.not_le.2 hfew)

/-! ### Formats -/

open BigEndianWriter Recognizes

theorem parses_readByte : Parses readByte fun w b => w = writeByte b := Parses.next _

theorem parses_readUshort : Parses readUshort fun w n => w = writeUshort n := by
  refine ((Parses.bigEndian _ 2).map UInt16.ofNat).of_iff fun w n => ?_
  constructor
  · rintro ⟨v, ⟨hv, rfl⟩, rfl⟩
    rw [writeUshort, UInt16.toNat_ofNat_of_lt' hv]
  · rintro rfl
    exact ⟨n.toNat, ⟨n.toNat_lt, rfl⟩, UInt16.ofNat_toNat.symm⟩

theorem parses_readUint : Parses readUint fun w n => w = writeUint n := by
  refine ((Parses.bigEndian _ 4).map UInt32.ofNat).of_iff fun w n => ?_
  constructor
  · rintro ⟨v, ⟨hv, rfl⟩, rfl⟩
    rw [writeUint, UInt32.toNat_ofNat_of_lt' hv]
  · rintro rfl
    exact ⟨n.toNat, ⟨n.toNat_lt, rfl⟩, UInt32.ofNat_toNat.symm⟩

theorem parses_readShort : Parses readShort fun w n => w = writeShort n := by
  refine (parses_readUshort.map UInt16.toInt16).of_iff fun w n => ?_
  constructor
  · rintro ⟨v, rfl, rfl⟩
    rfl
  · rintro rfl
    exact ⟨n.toUInt16, rfl, rfl⟩

theorem parses_readInt : Parses readInt fun w n => w = writeInt n := by
  refine (parses_readUint.map UInt32.toInt32).of_iff fun w n => ?_
  constructor
  · rintro ⟨v, rfl, rfl⟩
    rfl
  · rintro rfl
    exact ⟨n.toUInt32, rfl, rfl⟩

theorem skips_readUshort : Skips 2 readUshort := skips_map (skips_bigEndian _ 2) _

theorem skips_readShort : Skips 2 readShort := skips_map skips_readUshort _

theorem skips_readUint : Skips 4 readUint := skips_map (skips_bigEndian _ 4) _

theorem skips_readInt : Skips 4 readInt := skips_map skips_readUint _

end Otomai
