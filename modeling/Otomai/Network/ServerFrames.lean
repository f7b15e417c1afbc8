import Otomai.Network.Codec
import Otomai.Wire.Table

/-!
# Frames of the server

`DofusCodec::encode` writes a frame without the instance id, which is how the client reads it: two bytes with the id
and the number of bytes of the length, the length, the payload.  `encodeAll` is what a connection has sent after some
messages, and `readServerFrames` reads it as the client does.

The length field takes three bytes at most and the encoder does not look at the size of a payload, so a longer payload
is announced with its length modulo `2 ^ 24` and what follows it is read out of step.

* `readServerFrame_encode`: what the client reads from a frame of any length.
* `readServerFrames_iff`: a stream is read back as long as every payload is below `2 ^ 24` bytes.
* `serverFrames_iff`: oversize payloads are never refused, so the same holds of the whole contract.
-/

namespace Otomai.Network

open Wire Wire.Reader BigEndianWriter BigEndianReader

/-- `DofusCodec::encode`: the frame is appended to `dst`. -/
def encodeTo (dst : List UInt8) (item : RawMessage) : Outcome IoError (List UInt8) := .ok (dst ++ encode item)

/-- The bytes of a connection after the messages were encoded one after the other. -/
def encodeAll (messages : List RawMessage) : Outcome IoError (List UInt8) :=
  messages.foldlM encodeTo []

/-- A frame of the server, read in the documented format. -/
def readServerFrame : BigEndianReader (UInt16 × List UInt8) := do
  let header ← readUshort
  let payloadSize ← readPayloadLength (header &&& 3).toNat
  let payload ← readPayload payloadSize
  pure (header >>> 2, payload)

/-- All frames of a stream. -/
def readServerFrames (stream : List UInt8) : Outcome IoError (List (UInt16 × List UInt8)) :=
  upTo stream.length readServerFrame (stream.length + 1) (Cursor.ofBytes stream) >>= fun x => .ok x.1

/-- What the client is to read of a message. -/
def RawMessage.told (m : RawMessage) : UInt16 × List UInt8 := (m.messageId, m.payload)

/-- The length of the payload fits the length field. -/
def RawMessage.Fits (m : RawMessage) : Prop := m.payload.length < 2 ^ 24

instance (m : RawMessage) : Decidable m.Fits := inferInstanceAs (Decidable (_ < _))

/-- What was encoded without an error is read back, and an oversize payload is refused with an error. -/
def ServerFrames (messages : List RawMessage) : Prop :=
  (∀ stream, encodeAll messages = .ok stream → readServerFrames stream = .ok (messages.map RawMessage.told)) ∧
    ∀ m ∈ messages, ¬m.Fits → ∀ dst, ∃ e, encodeTo dst m = .err e

theorem encodeAll_eq (messages : List RawMessage) : encodeAll messages = .ok (messages.flatMap encode) := by
  have hfrom : ∀ (messages : List RawMessage) (dst : List UInt8),
      messages.foldlM encodeTo dst = .ok (dst ++ messages.flatMap encode) := by
    intro messages
    induction messages with
    | nil => exact fun dst => by rw [List.flatMap_nil, List.append_nil]; rfl
    | cons m messages ih =>
      intro dst
      rw [List.foldlM_cons, encodeTo, Outcome.ok_bind, ih, List.flatMap_cons, List.append_assoc]
  exact hfrom messages []

theorem encode_ne_nil (m : RawMessage) : encode m ≠ [] := by
  intro h
  have hlength := congrArg List.length h
  simp only [encode, writeServerHeader, writeUshort, List.length_append, length_bigEndian, List.length_nil] at hlength
  omega

/-! ### One frame -/

/-- The length field holds the length modulo `2 ^ 24`. -/
theorem reads_announced (n : Nat) :
    Reads (readPayloadLength (computeTypeLength n)) (writePayloadLength (computeTypeLength n) n)
      (UInt32.ofNat (n % 2 ^ 24)) := by
  by_cases h : n < 2 ^ 24
  · rw [Nat.mod_eq_of_lt h]
    exact reads_payloadLength h
  · have htype : computeTypeLength n = 3 := if_pos (by omega)
    rw [htype]
    exact reads_payloadLength_three n

/-- A payload is read up to the length that is announced. -/
theorem readPayload_announced {payload : List UInt8} {n : Nat} (hn : n < 2 ^ 24) (hle : n ≤ payload.length)
    (p : Nat) (rest : List UInt8) : readPayload (UInt32.ofNat n) ⟨p, payload ++ rest⟩ =
      .ok (payload.take n, ⟨p + n, payload.drop n ++ rest⟩) := by
  have htoNat : (UInt32.ofNat n).toNat = n := UInt32.toNat_ofNat_of_lt' (Nat.lt_trans hn (by decide))
  by_cases hpos : 0 < n
  · have hsize : 0 < UInt32.ofNat n := by
      rw [UInt32.lt_iff_toNat_lt, htoNat]
      exact hpos
    have hreads := reads_bytes (w := payload.take n) (by rw [List.length_take]; unfold isizeMax; omega)
    rw [List.length_take, Nat.min_eq_left hle] at hreads
    have hread := hreads p (payload.drop n ++ rest)
    rw [writeBytes, ← List.append_assoc, List.take_append_drop, List.length_take, Nat.min_eq_left hle] at hread
    rw [readPayload, if_pos hsize, htoNat, hread]
  · obtain rfl : n = 0 := by omega
    rfl

/-- The header the client reads is the one that was written, with the length that fits it. -/
theorem readServerFrame_encode {m : RawMessage} (hid : m.messageId.toNat < 2 ^ 14) (p : Nat) (rest : List UInt8) :
    readServerFrame ⟨p, encode m ++ rest⟩ =
      .ok ((m.messageId, m.payload.take (m.payload.length % 2 ^ 24)),
        ⟨p + (writeServerHeader m.messageId m.payload.length).length + m.payload.length % 2 ^ 24,
          m.payload.drop (m.payload.length % 2 ^ 24) ++ rest⟩) := by
  obtain ⟨h1, h2⟩ := headerShort_id hid (computeTypeLength_le m.payload.length)
  have hheader := reads_ushort (headerShort m.messageId (computeTypeLength m.payload.length))
  have hlength := reads_announced m.payload.length
  have hpayload := @readPayload_announced m.payload _ (Nat.mod_lt m.payload.length (by decide)) (Nat.mod_le _ _)
  unfold readServerFrame encode writeServerHeader writeBytes
  rw [List.append_assoc, List.append_assoc, Reader.bind_apply, hheader, Outcome.ok_bind]
  dsimp only
  rw [h1, h2, Reader.bind_apply, hlength, Outcome.ok_bind]
  dsimp only
  rw [Reader.bind_apply, hpayload, Outcome.ok_bind, List.length_append, ← Nat.add_assoc]
  rfl

/-! ### A stream -/

theorem readServerFrames_iff {messages : List RawMessage} (hids : ∀ m ∈ messages, m.messageId.toNat < 2 ^ 14) :
    readServerFrames (messages.flatMap encode) = .ok (messages.map RawMessage.told) ↔ ∀ m ∈ messages, m.Fits := by
  have hfrom : ∀ (fuel p : Nat), messages.length < fuel →
      ((upTo (p + (messages.flatMap encode).length) readServerFrame fuel ⟨p, messages.flatMap encode⟩ >>= fun x =>
        .ok x.1) = .ok (messages.map RawMessage.told) ↔ ∀ m ∈ messages, m.Fits) := by
    induction messages with
    | nil =>
      intro fuel p hfuel
      obtain ⟨fuel, rfl⟩ := Nat.exists_eq_add_one_of_ne_zero (Nat.ne_of_gt hfuel)
      rw [upTo_of_le (show p + 0 ≤ p from Nat.le_refl p)]
      simp
    | cons m messages ih =>
      intro fuel p hfuel
      obtain ⟨fuel, rfl⟩ := Nat.exists_eq_add_one_of_ne_zero (Nat.ne_of_gt (Nat.zero_lt_of_lt hfuel))
      have hpos : 0 < (encode m).length := List.length_pos_of_ne_nil (encode_ne_nil m)
      have hread := readServerFrame_encode (hids m List.mem_cons_self) p (messages.flatMap encode)
      rw [List.forall_mem_cons, List.flatMap_cons, List.length_append, ← Nat.add_assoc,
        upTo_of_lt (show p < _ by omega), hread, Outcome.ok_bind]
      by_cases hfits : m.Fits
      · -- the frame ends where it was written to end, and the rest is read from there
        have hend : p + (writeServerHeader m.messageId m.payload.length).length + m.payload.length =
            p + (encode m).length := by
          rw [encode, writeBytes, List.length_append, Nat.add_assoc]
        have htail := ih (fun m' hm' => hids m' (List.mem_cons_of_mem _ hm')) fuel (p + (encode m).length)
          (Nat.lt_of_succ_lt_succ hfuel)
        rw [Nat.mod_eq_of_lt hfits, List.take_length, List.drop_length, List.nil_append, hend]
        simp only [hfits, true_and, ← htail]
        cases upTo (p + (encode m).length + (messages.flatMap encode).length) readServerFrame fuel
          ⟨p + (encode m).length, messages.flatMap encode⟩ <;> simp [RawMessage.told]
      · -- the first message comes out shorter than it was
        refine iff_of_false (fun h => ?_) fun h => hfits h.1
        obtain ⟨x, hx, h⟩ := Outcome.bind_eq_ok.1 h
        obtain ⟨y, -, hy⟩ := Outcome.bind_eq_ok.1 hx
        obtain rfl := Outcome.ok.inj hy
        have hhead := (List.cons.inj (Outcome.ok.inj h)).1
        have hlength := congrArg List.length (Prod.mk.inj hhead).2
        have hlt : m.payload.length % 2 ^ 24 < 2 ^ 24 := Nat.mod_lt _ (by decide)
        rw [List.length_take] at hlength
        unfold RawMessage.Fits at hfits
        omega
  have hlength := length_le_flatMap fun m (_ : m ∈ messages) => encode_ne_nil m
  have hstart := hfrom ((messages.flatMap encode).length + 1) 0 (by omega)
  rw [Nat.zero_add] at hstart
  exact hstart

/-- The contract holds of the messages whose payloads fit the length field, and only of them. -/
theorem serverFrames_iff {messages : List RawMessage} (hids : ∀ m ∈ messages, m.messageId.toNat < 2 ^ 14) :
    ServerFrames messages ↔ ∀ m ∈ messages, m.Fits := by
  constructor
  · rintro ⟨hread, -⟩
    exact (readServerFrames_iff hids).1 (hread _ (encodeAll_eq messages))
  · intro hfits
    refine ⟨fun stream hstream => ?_, fun m hm hlarge => absurd (hfits m hm) hlarge⟩
    rw [encodeAll_eq] at hstream
    obtain rfl := Outcome.ok.inj hstream
    exact (readServerFrames_iff hids).2 hfits

theorem serverFrames_iff_two : ServerFrames [⟨42, 0, [222, 173, 190, 239]⟩, ⟨16383, 7, []⟩] ↔
    ∀ m ∈ [(⟨42, 0, [222, 173, 190, 239]⟩ : RawMessage), ⟨16383, 7, []⟩], m.Fits :=
  serverFrames_iff (by decide)

/-- A payload of `2 ^ 24` bytes is announced as empty. -/
theorem large_not_serverFrames : ¬∀ messages : List RawMessage, (∀ m ∈ messages, m.messageId.toNat < 2 ^ 14) →
    ServerFrames messages := by
  intro h
  have hids : ∀ m ∈ [(⟨1, 0, List.replicate (2 ^ 24) 0⟩ : RawMessage)], m.messageId.toNat < 2 ^ 14 := by
    intro m hm
    rw [List.mem_singleton.1 hm]
    decide
  have hread := (h _ hids).1 _ (encodeAll_eq _)
  have hfits := (readServerFrames_iff hids).1 hread _ (List.mem_singleton.2 rfl)
  rw [RawMessage.Fits, List.length_replicate] at hfits
  omega

end Otomai.Network
