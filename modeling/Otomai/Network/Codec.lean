import Mathlib.Data.List.Induction
import Otomai.Io.Network

/-!
# Framing

`DofusCodec` cuts the byte stream of a connection into frames.  `decode` takes the buffered bytes and returns the
result of the call with the bytes it leaves in the buffer; `receive` runs a connection, one chunk of bytes after
the other, calling `decode` after each chunk until it returns `Ok(None)`.

The decoder asks for `minHeaderSize` bytes before it reads a header, but a header carries up to three more bytes of
length.  A chunk boundary inside these bytes makes `decode` return an error, and this is the only way it can fail
on well-formed frames (`framed_iff`).
-/

namespace Otomai.Network

open Wire BigEndianWriter BigEndianReader

/-- Raw frame: (message_id, instance_id, payload). -/
structure RawMessage where
  messageId : UInt16
  instanceId : UInt32
  payload : List UInt8
  deriving DecidableEq, Repr

def readPayload (payloadSize : UInt32) : BigEndianReader (List UInt8) :=
  if 0 < payloadSize then readBytes payloadSize.toNat else pure []

def readFrame : BigEndianReader RawMessage := do
  let header ← readHeader
  let payload ← readPayload header.payloadSize
  pure { messageId := header.messageId, instanceId := header.instanceId, payload }

/-- `DofusCodec::decode`: the header is peeked at without consuming, then the whole frame is split off. -/
def decode (src : List UInt8) : Outcome IoError (Option RawMessage) × List UInt8 :=
  if src.length < minHeaderSize then (.ok none, src)
  else
    match readHeader (Cursor.ofBytes src) with
    | .ok (header, peek) =>
      let headerSize := peek.position
      let totalSize := headerSize + header.payloadSize.toNat
      if src.length < totalSize then (.ok none, src)
      else
        let frameBytes := src.take totalSize
        let message := readFrame (Cursor.ofBytes frameBytes) >>= fun x => .ok (some x.1)
        (message, src.drop totalSize)
    | .err e => (.err e, src)
    | .panic => (.panic, src)
    | .exhausted => (.exhausted, src)

/-- `DofusCodec::encode`, the frame of a server message. -/
def encode (item : RawMessage) : List UInt8 :=
  writeServerHeader item.messageId item.payload.length ++ writeBytes item.payload

/-- Calls `decode` until it returns `Ok(None)`: the frames it returned and the bytes left in the buffer. -/
def drain : Nat → List UInt8 → Outcome IoError (List RawMessage × List UInt8)
  | 0, _ => .exhausted
  | n + 1, src =>
    match decode src with
    | (.ok none, src) => .ok ([], src)
    | (.ok (some message), src) => drain n src >>= fun x => .ok (message :: x.1, x.2)
    | (.err e, _) => .err e
    | (.panic, _) => .panic
    | (.exhausted, _) => .exhausted

/-- A connection that receives `chunks` one after the other, with `buffer` the bytes it has not decoded yet. -/
def receive (buffer : List UInt8) : List (List UInt8) → Outcome IoError (List RawMessage × List UInt8)
  | [] => .ok ([], buffer)
  | chunk :: chunks => do
    let x ← drain (buffer.length + chunk.length + 1) (buffer ++ chunk)
    let y ← receive x.2 chunks
    pure (x.1 ++ y.1, y.2)

/-! ### Client frames -/

/-- A frame a client can send: fourteen bits of id and three bytes of length. -/
structure ClientFrame where
  message : RawMessage
  id_lt : message.messageId.toNat < 2 ^ 14
  payload_lt : message.payload.length < 2 ^ 24

namespace ClientFrame

variable (f : ClientFrame)

def header : List UInt8 := writeHeader f.message.messageId f.message.instanceId f.message.payload.length

def bytes : List UInt8 := f.header ++ writeBytes f.message.payload

/-- The number of bytes of the length field. -/
def typeLength : Nat := computeTypeLength f.message.payload.length

theorem length_header : f.header.length = minHeaderSize + f.typeLength := length_writeHeader ..

theorem length_bytes : f.bytes.length = minHeaderSize + f.typeLength + f.message.payload.length := by
  rw [bytes, List.length_append, length_header]; rfl

theorem size_toNat : (UInt32.ofNat f.message.payload.length).toNat = f.message.payload.length :=
  UInt32.toNat_ofNat_of_lt' (Nat.lt_trans f.payload_lt (by decide))

theorem reads_header : Reads readHeader f.header
    ⟨f.message.messageId, f.message.instanceId, UInt32.ofNat f.message.payload.length⟩ :=
  Network.reads_header f.id_lt _ f.payload_lt

theorem reads_payload :
    Reads (readPayload (UInt32.ofNat f.message.payload.length)) f.message.payload f.message.payload := by
  have hs := f.size_toNat
  by_cases h : f.message.payload = []
  · rw [h]
    exact Reads.pure []
  · have hpos : 0 < UInt32.ofNat f.message.payload.length := by
      rw [UInt32.lt_iff_toNat_lt, hs]
      exact List.length_pos_iff.2 h
    rw [readPayload, if_pos hpos, hs]
    exact reads_bytes (Nat.le_trans (Nat.le_of_lt f.payload_lt) (by decide))

theorem reads_frame : Reads readFrame f.bytes f.message :=
  f.reads_header.bind (f.reads_payload.map (Reads.pure _))

end ClientFrame

/-! ### One call of `decode` -/

theorem decode_of_lt {src : List UInt8} (h : src.length < minHeaderSize) : decode src = (.ok none, src) := by
  rw [decode, if_pos h]

/-- A whole frame is decoded and consumed, whatever follows it. -/
theorem decode_frame (f : ClientFrame) (rest : List UInt8) :
    decode (f.bytes ++ rest) = (.ok (some f.message), rest) := by
  have hl := f.length_bytes
  have hh := f.length_header
  have hr := f.reads_header 0 (f.message.payload ++ rest)
  have hf := f.reads_frame 0 []
  rw [← List.append_assoc, Nat.zero_add] at hr
  rw [List.append_nil, Nat.zero_add] at hf
  have hdrop : (f.bytes ++ rest).drop f.bytes.length = rest := List.drop_left ..
  have htake : (f.bytes ++ rest).take f.bytes.length = f.bytes := List.take_left ..
  have hsize : f.header.length + f.message.payload.length = f.bytes.length := by omega
  rw [decode, if_neg (by rw [List.length_append]; omega), show f.bytes = f.header ++ f.message.payload from rfl]
  simp only [Cursor.ofBytes, hr, f.size_toNat, hsize]
  rw [if_neg (by rw [← show f.bytes = f.header ++ f.message.payload from rfl, List.length_append]; omega)]
  rw [← show f.bytes = f.header ++ f.message.payload from rfl, htake, hdrop, hf]
  rfl

/-- Part of a frame that ends within its length field. -/
theorem decode_cut {f : ClientFrame} {u t : List UInt8} (h : u ++ t = f.bytes) (hu : minHeaderSize ≤ u.length)
    (ht : u.length < minHeaderSize + f.typeLength) : decode u = (.err .unexpectedEof, u) := by
  have hcut : u ++ f.header.drop u.length = f.header := by
    have h' := congrArg (List.take u.length) h
    rw [List.take_left, ClientFrame.bytes, List.take_append_of_le_length (by rw [f.length_header]; omega)] at h'
    nth_rewrite 1 [h']
    exact List.take_append_drop ..
  have hne : f.header.drop u.length ≠ [] := by
    intro h0
    have := List.drop_eq_nil_iff.1 h0
    rw [f.length_header] at this
    omega
  have he := starves_header f.id_lt f.message.instanceId f.payload_lt 0 u _ hne hcut
  rw [decode, if_neg (Nat.not_lt.2 hu)]
  simp only [Cursor.ofBytes, he]

/-- Part of a frame that holds its whole header but not its whole payload. -/
theorem decode_short {f : ClientFrame} {u t : List UInt8} (h : u ++ t = f.bytes) (ht : t ≠ [])
    (hu : minHeaderSize + f.typeLength ≤ u.length) : decode u = (.ok none, u) := by
  obtain ⟨s, rfl⟩ : ∃ s, u = f.header ++ s := by
    have hp : f.header <+: u ++ t := by rw [h]; exact List.prefix_append ..
    have := List.prefix_of_prefix_length_le hp (List.prefix_append u t) (by rw [f.length_header]; exact hu)
    exact this.imp fun _ e => e.symm
  have hl := congrArg List.length h
  have hpos := List.length_pos_iff.2 ht
  have hr := f.reads_header 0 s
  simp only [List.length_append, f.length_bytes, f.length_header] at hl hu
  rw [decode, if_neg (by rw [List.length_append, f.length_header]; omega)]
  simp only [Cursor.ofBytes, hr, f.size_toNat, Nat.zero_add]
  rw [if_pos (by rw [List.length_append, f.length_header]; omega)]

/-! ### Runs over chunks -/

/-- What `n` bytes of the stream of `frames` amount to: the frames that arrived whole, and the bytes of the next
frame, to be kept in the buffer. -/
def arrived : List ClientFrame → Nat → List RawMessage × List UInt8
  | [], _ => ([], [])
  | f :: fs, n =>
    if f.bytes.length ≤ n then
      let x := arrived fs (n - f.bytes.length)
      (f.message :: x.1, x.2)
    else ([], f.bytes.take n)

/-- The first `n` bytes of the stream of `frames` end between the fixed part of a header and the end of its length
field. -/
def CutsLengthField : List ClientFrame → Nat → Prop
  | [], _ => False
  | f :: fs, n =>
    if f.bytes.length ≤ n then CutsLengthField fs (n - f.bytes.length)
    else minHeaderSize ≤ n ∧ n < minHeaderSize + f.typeLength

instance decidableCutsLengthField : ∀ frames n, Decidable (CutsLengthField frames n)
  | [], _ => inferInstanceAs (Decidable False)
  | f :: fs, n =>
    have := decidableCutsLengthField fs (n - f.bytes.length)
    inferInstanceAs (Decidable (if f.bytes.length ≤ n then CutsLengthField fs (n - f.bytes.length)
      else minHeaderSize ≤ n ∧ n < minHeaderSize + f.typeLength))

theorem arrived_all (frames : List ClientFrame) :
    arrived frames (frames.flatMap ClientFrame.bytes).length = (frames.map ClientFrame.message, []) := by
  induction frames with
  | nil => rfl
  | cons f fs ih =>
    rw [List.flatMap_cons, List.length_append, arrived, if_pos (Nat.le_add_right ..), Nat.add_sub_cancel_left, ih]
    rfl

/-- The frame at the head of a stream has arrived whole, or the bytes received so far are part of it. -/
private theorem head_cases {f : ClientFrame} {u t w : List UInt8} (h : u ++ t = f.bytes ++ w) :
    (f.bytes.length ≤ u.length ∧ ∃ s, u = f.bytes ++ s ∧ s ++ t = w) ∨
      (u.length < f.bytes.length ∧ ∃ s, s ≠ [] ∧ u ++ s = f.bytes) := by
  rcases List.append_eq_append_iff.1 h with ⟨s, hs, rfl⟩ | ⟨s, rfl, rfl⟩
  · rcases s with _ | ⟨b, s⟩
    · exact .inl ⟨by rw [hs]; simp, [], by simpa using hs.symm, rfl⟩
    · exact .inr ⟨by rw [hs]; simp, b :: s, by simp, hs.symm⟩
  · exact .inl ⟨by simp, s, rfl, rfl⟩

/-- `drain` on the bytes that arrived, when the buffer was empty before. -/
private theorem drain_prefix (frames : List ClientFrame) : ∀ (n : Nat) (u t : List UInt8), u.length < n →
    u ++ t = frames.flatMap ClientFrame.bytes →
    (¬CutsLengthField frames u.length → drain n u = .ok (arrived frames u.length)) ∧
      (CutsLengthField frames u.length → drain n u = .err .unexpectedEof) := by
  induction frames with
  | nil =>
    intro n u t hn h
    obtain ⟨rfl, -⟩ := List.append_eq_nil_iff.1 h
    obtain ⟨n, rfl⟩ := Nat.exists_eq_add_of_lt hn
    exact ⟨fun _ => by rw [List.length_nil, Nat.zero_add, drain, decode_of_lt (by decide)]; rfl, False.elim⟩
  | cons f fs ih =>
    intro n u t hn h
    obtain ⟨n, rfl⟩ : ∃ m, n = m + 1 := ⟨n - 1, by omega⟩
    rw [List.flatMap_cons] at h
    -- the first frame has arrived whole, or it is the one that is cut
    rcases head_cases h with ⟨hle, s, rfl, hs⟩ | ⟨hlt, s, hne, hs⟩
    · have hlen : (f.bytes ++ s).length - f.bytes.length = s.length := by simp
      have hpos :
        0 < f.bytes.length := by rw [f.length_bytes]; exact Nat.lt_add_right _ (Nat.lt_add_right _ (by decide))
      obtain ⟨h1, h2⟩ := ih n s t (by rw [List.length_append] at hn; omega) hs
      simp only [CutsLengthField, arrived, if_pos hle, hlen, drain, decode_frame]
      exact ⟨fun h => by rw [h1 h]; rfl, fun h => by rw [h2 h]; rfl⟩
    · simp only [CutsLengthField, arrived, if_neg (Nat.not_le.2 hlt), drain]
      have htake : f.bytes.take u.length = u := by rw [← hs, List.take_left]
      refine ⟨fun h => ?_, fun h => by rw [decode_cut hs h.1 h.2]⟩
      rw [htake]
      rcases Nat.lt_or_ge u.length minHeaderSize with hmin | hmin
      · rw [decode_of_lt hmin]
      · rw [decode_short hs hne (by omega)]

/-- One chunk `c` received on top of the bytes `u`. -/
private theorem drain_chunk (frames : List ClientFrame) : ∀ (n : Nat) (u c t : List UInt8),
    (arrived frames u.length).2.length + c.length < n → u ++ c ++ t = frames.flatMap ClientFrame.bytes →
    (¬CutsLengthField frames (u ++ c).length →
      ((drain n ((arrived frames u.length).2 ++ c) >>= fun x =>
        Outcome.ok ((arrived frames u.length).1 ++ x.1, x.2)) = .ok (arrived frames (u ++ c).length))) ∧
      (CutsLengthField frames (u ++ c).length →
        drain n ((arrived frames u.length).2 ++ c) = .err .unexpectedEof) := by
  induction frames with
  | nil =>
    intro n u c t hn h
    obtain ⟨hc, -⟩ := List.append_eq_nil_iff.1 h
    obtain ⟨rfl, rfl⟩ := List.append_eq_nil_iff.1 hc
    obtain ⟨h1, h2⟩ := drain_prefix [] n [] t hn h
    exact ⟨fun h => by rw [arrived, List.append_nil, h1 h]; rfl, False.elim⟩
  | cons f fs ih =>
    intro n u c t hn h
    have h' := h
    rw [List.flatMap_cons, List.append_assoc] at h
    -- a frame that had arrived before the chunk is out of the buffer already
    rcases head_cases h with ⟨hle, s, rfl, hs⟩ | ⟨hlt, s, -, hs⟩
    · have hlen : (f.bytes ++ s).length - f.bytes.length = s.length := by simp
      have hlen' : (f.bytes ++ s ++ c).length - f.bytes.length = (s ++ c).length := by simp
      have hle' : f.bytes.length ≤ (f.bytes ++ s ++ c).length := by simp
      simp only [arrived, if_pos hle, hlen] at hn
      obtain ⟨h1, h2⟩ := ih n s c t hn (by rw [List.append_assoc]; exact hs)
      simp only [CutsLengthField, arrived, if_pos hle, if_pos hle', hlen, hlen']
      refine ⟨fun h => ?_, h2⟩
      obtain ⟨x, hx, he⟩ := Outcome.bind_eq_ok.1 (h1 h)
      rw [hx, Outcome.ok_bind, ← Outcome.ok.inj he]
      rfl
    · have harr : arrived (f :: fs) u.length = ([], u) := by
        rw [arrived, if_neg (Nat.not_le.2 hlt), ← hs, List.take_left]
      rw [harr] at hn ⊢
      obtain ⟨h1, h2⟩ := drain_prefix (f :: fs) n (u ++ c) t (by rw [List.length_append]; exact hn) h'
      exact ⟨fun h => by rw [h1 h]; rfl, h2⟩

theorem receive_concat (buffer : List UInt8) (chunks : List (List UInt8)) (chunk : List UInt8) :
    receive buffer (chunks ++ [chunk]) = (do
      let x ← receive buffer chunks
      let y ← drain (x.2.length + chunk.length + 1) (x.2 ++ chunk)
      pure (x.1 ++ y.1, y.2)) := by
  induction chunks generalizing buffer with
  | nil =>
    simp only [List.nil_append, receive, Outcome.ok_bind, Outcome.pure_eq]
    cases drain (buffer.length + chunk.length + 1) (buffer ++ chunk) <;> simp
  | cons c chunks ih =>
    simp only [List.cons_append, receive]
    cases drain (buffer.length + c.length + 1) (buffer ++ c) with
    | ok x =>
      simp only [Outcome.ok_bind, ih]
      cases receive x.2 chunks with
      | ok y =>
        simp only [Outcome.ok_bind, Outcome.pure_eq]
        cases drain (y.2.length + chunk.length + 1) (y.2 ++ chunk) <;> simp
      | _ => rfl
    | _ => rfl

/-- A run whose chunks never end inside a length field delivers what arrived, after every chunk. -/
theorem receive_arrived {frames : List ClientFrame} (chunks : List (List UInt8)) (t : List UInt8)
    (h : chunks.flatten ++ t = frames.flatMap ClientFrame.bytes)
    (hc : ∀ j ≤ chunks.length, ¬CutsLengthField frames (chunks.take j).flatten.length) :
    receive [] chunks = .ok (arrived frames chunks.flatten.length) := by
  induction chunks using List.reverseRecOn generalizing t with
  | nil =>
    cases frames with
    | nil => rfl
    | cons f fs =>
      have hpos : ¬f.bytes.length ≤ 0 := by
        rw [f.length_bytes, minHeaderSize]
        omega
      simp [receive, arrived, hpos]
  | append_singleton chunks c ih =>
    rw [List.flatten_append, List.flatten_singleton] at h
    have hr := ih (c ++ t) (by rw [← List.append_assoc]; exact h) fun j hj => by
      have := hc j (by rw [List.length_append]; omega)
      rwa [List.take_append_of_le_length hj] at this
    have hlast := hc (chunks.length + 1) (by simp)
    rw [List.take_of_length_le (by simp), List.flatten_append, List.flatten_singleton] at hlast
    obtain ⟨h1, -⟩ := drain_chunk frames _ chunks.flatten c t (Nat.lt_succ_self _) h
    rw [receive_concat, hr, Outcome.ok_bind, List.flatten_append, List.flatten_singleton]
    exact h1 hlast

/-- At the first chunk that ends inside a length field the run fails. -/
theorem receive_cut {frames : List ClientFrame} (chunks : List (List UInt8)) (c t : List UInt8)
    (h : chunks.flatten ++ c ++ t = frames.flatMap ClientFrame.bytes)
    (hc : ∀ j ≤ chunks.length, ¬CutsLengthField frames (chunks.take j).flatten.length)
    (hcut : CutsLengthField frames (chunks.flatten ++ c).length) :
    receive [] (chunks ++ [c]) = .err .unexpectedEof := by
  obtain ⟨-, h2⟩ := drain_chunk frames _ chunks.flatten c t (Nat.lt_succ_self _) h
  rw [receive_concat, receive_arrived chunks (c ++ t) (by rw [← List.append_assoc]; exact h) hc, Outcome.ok_bind,
    h2 hcut]
  rfl

/-- The receiver delivers exactly `frames`, in order, and after every chunk it has delivered the frames that arrived
whole and keeps the bytes of the next one unchanged. -/
def Framed (frames : List ClientFrame) (chunks : List (List UInt8)) : Prop :=
  receive [] chunks = .ok (frames.map ClientFrame.message, []) ∧
    ∀ j ≤ chunks.length, receive [] (chunks.take j) = .ok (arrived frames (chunks.take j).flatten.length)

theorem framed_iff {frames : List ClientFrame} {chunks : List (List UInt8)}
    (h : chunks.flatten = frames.flatMap ClientFrame.bytes) :
    Framed frames chunks ↔ ∀ j ≤ chunks.length, ¬CutsLengthField frames (chunks.take j).flatten.length := by
  have hsplit : ∀ j, (chunks.take j).flatten ++ (chunks.drop j).flatten = frames.flatMap ClientFrame.bytes := by
    intro j
    rw [← List.flatten_append, List.take_append_drop, h]
  have htake : ∀ {i j : Nat}, i ≤ j → (chunks.take j).take i = chunks.take i := by
    intro i j hij
    rw [List.take_take, Nat.min_eq_left hij]
  constructor
  · rintro ⟨-, hr⟩ j
    -- the first cut through a length field is where the receiver fails
    induction j using Nat.strong_induction_on with
    | _ j ih =>
      intro hj hcut
      cases j with
      | zero =>
        cases frames with
        | nil => exact hcut
        | cons f fs =>
          have hpos : ¬f.bytes.length ≤ 0 := by rw [f.length_bytes, minHeaderSize]; omega
          simp [CutsLengthField, hpos, minHeaderSize] at hcut
      | succ j =>
        have hlt : j < chunks.length := hj
        have hsucc : chunks.take (j + 1) = chunks.take j ++ [chunks[j]] := List.take_succ_eq_append_getElem hlt
        have hs := hsplit (j + 1)
        rw [hsucc, List.flatten_append, List.flatten_singleton] at hs hcut
        have hne := receive_cut (chunks.take j) chunks[j] _ hs (fun i hi => by
          have hi' := Nat.le_trans hi (List.length_take_le ..)
          rw [htake hi']
          exact ih i (by omega) (by omega)) hcut
        rw [← hsucc, hr (j + 1) hj] at hne
        cases hne
  · intro hc
    have hr : ∀ j ≤ chunks.length, receive [] (chunks.take j) =
      .ok (arrived frames (chunks.take j).flatten.length) := by
      intro j hj
      refine receive_arrived (chunks.take j) _ (hsplit j) fun i hi => ?_
      have hi' := Nat.le_trans hi (List.length_take_le ..)
      rw [htake hi']
      exact hc i (Nat.le_trans hi' hj)
    refine ⟨?_, hr⟩
    have := hr chunks.length (Nat.le_refl _)
    rwa [List.take_length, h, arrived_all] at this

/-- One byte of payload, under the id of a ping. -/
def pingFrame : ClientFrame where
  message := { messageId := 182, instanceId := 7, payload := [1] }
  id_lt := by decide
  payload_lt := by decide

/-- Three bytes of payload. -/
def textFrame : ClientFrame where
  message := { messageId := 3, instanceId := 8, payload := [5, 6, 7] }
  id_lt := by decide
  payload_lt := by decide

/-- The first chunk ends inside the second payload. -/
theorem framed_iff_pingText : Framed [pingFrame, textFrame, pingFrame]
    [[2, 217, 0, 0, 0, 7, 1, 1, 0, 13, 0, 0, 0, 8, 3, 5], [6], [7, 2, 217, 0, 0], [0, 7, 1, 1]] :=
  (framed_iff (by decide)).2 (by decide)

/-- A chunk that ends after the six fixed bytes of the header kills the connection. -/
theorem not_framed_ping : ¬∀ (frames : List ClientFrame) (chunks : List (List UInt8)),
    chunks.flatten = frames.flatMap ClientFrame.bytes → Framed frames chunks := by
  intro h
  obtain ⟨hf, -⟩ := h [pingFrame] [[2, 217, 0, 0, 0, 7], [1, 1]] (by decide)
  have he : receive [] [[2, 217, 0, 0, 0, 7], [1, 1]] = .err .unexpectedEof := by decide
  rw [he] at hf
  cases hf

end Otomai.Network
