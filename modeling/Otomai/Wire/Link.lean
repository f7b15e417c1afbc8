import Otomai.Wire.Slice

/-!
# Links

Messages go over a stream of bytes, each behind its length in four bytes.  A writer takes them from a queue and writes
byte after byte; a receiver puts the bytes together again, and gives up on a message that is too long.  The stream may
break at any time.  As bytes are moved one at a time, the steps of a link have every way in which the stream can cut a
message into pieces.

* `Inv.received`: what has been received is, in order, what the first messages that were given are read as.
* `exists_delivery`: as long as the stream is not broken, everything that was given to the link can still arrive.
-/

namespace Wire

/-- How messages are packed and read again; longer ones than `limit` are not read. -/
structure Packing (α : Type) where
  pack : α → Option (List UInt8)
  unpack : List UInt8 → Option α
  limit : Nat

theorem ofBigEndian_of_lt {n v : Nat} (h : v < 256 ^ n) : ofBigEndian (bigEndian n v) = v := by
  rw [ofBigEndian_bigEndian, Nat.mod_eq_of_lt h]

namespace Packing

variable {α : Type} (P : Packing α)

/-- The bytes of a message on the stream; a message that cannot be packed is left out. -/
def frame (a : α) : List UInt8 :=
  match P.pack a with
  | some data => bigEndian 4 data.length ++ data
  | none => []

/-- What a message is read as. -/
def carried (a : α) : Option α := (P.pack a).bind P.unpack

/-- The message is read. -/
def Short (a : α) : Prop := ∀ data ∈ P.pack a, data.length ≤ P.limit

/-- The length of the message fits into four bytes. -/
def Sized (a : α) : Prop := ∀ data ∈ P.pack a, data.length < 2 ^ 32

end Packing

/-- What the receiver waits for, with what it has of it. -/
inductive Receiver where
  | length (buf : List UInt8)
  | body (size : Nat) (buf : List UInt8)
  | stopped
  deriving DecidableEq, Repr

namespace Receiver

/-- The bytes of the message that is being received. -/
def bytes : Receiver → List UInt8
  | .length buf => buf
  | .body size buf => bigEndian 4 size ++ buf
  | .stopped => []

/-- A part of a message has been received. -/
def Waits {α : Type} (P : Packing α) : Receiver → Prop
  | .length buf => buf.length < 4
  | .body size buf => buf.length < size ∧ size ≤ P.limit ∧ size < 2 ^ 32
  | .stopped => False

end Receiver

/-- One direction of a connection. -/
structure Link (α : Type) where
  /-- All messages that were given to it. -/
  given : List α
  queue : List α
  /-- What is left to write of a message. -/
  left : List UInt8
  stream : List UInt8
  broken : Bool
  receiver : Receiver
  /-- All messages that were received. -/
  got : List α

namespace Link

variable {α : Type} (P : Packing α)

def new : Link α := ⟨[], [], [], [], false, .length [], []⟩

inductive Step where
  | pack
  | write
  | read
  /-- The stream breaks, and only some of its bytes arrive. -/
  | cut (arriving : Nat)
  | stop
  deriving DecidableEq, Repr

def give (l : Link α) (a : α) : Link α := { l with given := l.given ++ [a], queue := l.queue ++ [a] }

/-- A message is complete. -/
def deliver (l : Link α) (data : List UInt8) : Link α :=
  { l with receiver := .length [], got := l.got ++ (P.unpack data).toList }

/-- The receiver takes a byte. -/
def feed (l : Link α) (b : UInt8) : Link α :=
  match l.receiver with
  | .length buf =>
    let buf := buf ++ [b]
    if buf.length = 4 then
      let size := ofBigEndian buf
      if P.limit < size then { l with receiver := .stopped }
      else if size = 0 then l.deliver P [] else { l with receiver := .body size [] }
    else { l with receiver := .length buf }
  | .body size buf =>
    let buf := buf ++ [b]
    if buf.length = size then l.deliver P buf else { l with receiver := .body size buf }
  | .stopped => l

def step (l : Link α) : Step → Link α
  | .pack =>
    match l.left, l.queue with
    | [], a :: queue => { l with queue, left := P.frame a }
    | _, _ => l
  | .write =>
    match l.left with
    | b :: left => if l.broken then l else { l with left, stream := l.stream ++ [b] }
    | [] => l
  | .read =>
    match l.receiver, l.stream with
    | .stopped, _ => l
    | _, b :: stream => { l with stream }.feed P b
    | _, [] => l
  | .cut arriving => { l with broken := true, stream := l.stream.take arriving }
  | .stop => { l with broken := true, receiver := .stopped }

/-- What holds between two steps: the messages of `done` have been received, and those of `rest` follow. -/
structure Splits (l : Link α) (done rest : List α) : Prop where
  given : l.given = done ++ rest
  got : l.got = done.filterMap P.carried
  short : ∀ a ∈ done, P.Short a
  stopped : l.receiver = .stopped → l.broken = true ∨ ∃ a ∈ l.given, ¬P.Short a
  waits : l.receiver ≠ .stopped → l.receiver.Waits P
  arriving : l.receiver ≠ .stopped → l.receiver.bytes ++ l.stream <+: rest.flatMap P.frame
  whole : l.receiver ≠ .stopped → l.broken = false →
    l.receiver.bytes ++ (l.stream ++ (l.left ++ l.queue.flatMap P.frame)) = rest.flatMap P.frame

def Inv (l : Link α) : Prop := ∃ done rest, Splits P l done rest

variable {P} {l : Link α} {done rest : List α}

theorem splits_new : Splits P (new : Link α) [] [] where
  given := rfl
  got := rfl
  short := fun _ h => absurd h List.not_mem_nil
  stopped := fun h => by cases h
  waits := fun _ => Nat.zero_lt_succ 3
  arriving := fun _ => List.nil_prefix
  whole := fun _ _ => rfl

theorem Splits.give (h : Splits P l done rest) (a : α) : Splits P (l.give a) done (rest ++ [a]) where
  given := by rw [Link.give, h.given, List.append_assoc]
  got := h.got
  short := h.short
  stopped := fun hr => by
    rcases h.stopped hr with hbroken | ⟨b, hb, hlong⟩
    · exact .inl hbroken
    · exact .inr ⟨b, List.mem_append_left _ hb, hlong⟩
  waits := h.waits
  arriving := fun hr => by
    rw [List.flatMap_append]
    exact (h.arriving hr).trans (List.prefix_append _ _)
  whole := fun hr hb => by
    rw [List.flatMap_append, ← h.whole hr hb]
    simp [Link.give, List.append_assoc]

/-- The first message of which bytes are still to come. -/
theorem exists_first {x : List UInt8} (hx : x ≠ []) (h : x <+: rest.flatMap P.frame) :
    ∃ skipped a more data, rest = skipped ++ a :: more ∧ (∀ c ∈ skipped, P.pack c = none) ∧ P.pack a = some data ∧
      rest.flatMap P.frame = bigEndian 4 data.length ++ (data ++ more.flatMap P.frame) := by
  induction rest with
  | nil => exact absurd (List.prefix_nil.1 h) hx
  | cons a rest ih =>
    rw [List.flatMap_cons] at h ⊢
    cases ha : P.pack a with
    | some data =>
      refine ⟨[], a, rest, data, rfl, fun c hc => absurd hc List.not_mem_nil, ha, ?_⟩
      simp only [Packing.frame, ha, List.append_assoc]
    | none =>
      have hframe : P.frame a = [] := by simp only [Packing.frame, ha]
      rw [hframe, List.nil_append] at h ⊢
      obtain ⟨skipped, b, more, data, rfl, hskipped, hb, hbytes⟩ := ih h
      refine ⟨a :: skipped, b, more, data, rfl, fun c hc => ?_, hb, hbytes⟩
      rcases List.mem_cons.1 hc with rfl | hc
      · exact ha
      · exact hskipped c hc

/-- The receiver has one byte more of a message. -/
theorem Splits.more (h : Splits P l done rest) {b : UInt8} {stream : List UInt8} (hstream : l.stream = b :: stream)
    (hr : l.receiver ≠ .stopped) {r : Receiver} (hbytes : r.bytes = l.receiver.bytes ++ [b]) (hwaits : r.Waits P) :
    Splits P { l with stream, receiver := r } done rest where
  given := h.given
  got := h.got
  short := h.short
  stopped := fun hstopped => by
    obtain rfl : r = .stopped := hstopped
    exact absurd hwaits (by simp [Receiver.Waits])
  waits := fun _ => hwaits
  arriving := fun _ => by
    have hold := h.arriving hr
    rw [hstream, ← List.singleton_append, ← List.append_assoc, ← hbytes] at hold
    exact hold
  whole := fun _ hb => by
    have hold := h.whole hr hb
    rw [hstream, ← List.singleton_append, List.append_assoc, ← List.append_assoc, ← hbytes] at hold
    exact hold

/-- The receiver has the last byte of a message. -/
theorem Splits.last (h : Splits P l done rest) {b : UInt8} {stream : List UInt8} (hstream : l.stream = b :: stream)
    (hr : l.receiver ≠ .stopped) {skipped more : List α} {a : α} {data : List UInt8}
    (hrest : rest = skipped ++ a :: more) (hskipped : ∀ c ∈ skipped, P.pack c = none) (ha : P.pack a = some data)
    (hframes : rest.flatMap P.frame = bigEndian 4 data.length ++ (data ++ more.flatMap P.frame))
    (hbytes : l.receiver.bytes ++ [b] = bigEndian 4 data.length ++ data) (hshort : data.length ≤ P.limit) :
    Splits P (deliver P { l with stream } data) (done ++ (skipped ++ [a])) more where
  given := by
    show l.given = _
    rw [h.given, hrest]
    simp
  got := by
    have hnone : skipped.filterMap P.carried = [] := by
      refine List.filterMap_eq_nil_iff.2 fun c hc => ?_
      rw [Packing.carried, hskipped c hc, Option.bind_none]
    have hcarried : P.carried a = P.unpack data := by rw [Packing.carried, ha, Option.bind_some]
    show l.got ++ (P.unpack data).toList = _
    rw [h.got, List.filterMap_append, List.filterMap_append, hnone, List.nil_append]
    cases hdata : P.unpack data with
    | none => simp [hcarried, hdata]
    | some v => simp [hcarried, hdata]
  short := fun c hc => by
    simp only [List.mem_append, List.mem_singleton] at hc
    rcases hc with hc | hc | rfl
    · exact h.short c hc
    · intro d hd
      rw [hskipped c hc] at hd
      cases hd
    · intro d hd
      rw [ha] at hd
      obtain rfl := Option.some.inj hd
      exact hshort
  stopped := fun hstopped => by cases hstopped
  waits := fun _ => Nat.zero_lt_succ 3
  arriving := fun _ => by
    have hold := h.arriving hr
    rw [hstream, ← List.singleton_append, ← List.append_assoc, hbytes, hframes, ← List.append_assoc,
      List.prefix_append_right_inj] at hold
    exact hold
  whole := fun _ hb => by
    have hold := h.whole hr hb
    rw [hstream, ← List.singleton_append, List.append_assoc, ← List.append_assoc, hbytes, hframes] at hold
    simp only [List.append_assoc, List.append_cancel_left_eq] at hold
    exact hold

/-- A byte of the length arrives. -/
theorem Splits.read_length (h : Splits P l done rest) (hsized : ∀ a ∈ l.given, P.Sized a) {buf : List UInt8}
    (hr : l.receiver = .length buf) {b : UInt8} {stream : List UInt8} (hstream : l.stream = b :: stream) :
    Inv P (feed P { l with stream } b) := by
  have hne : l.receiver ≠ .stopped := by
    rw [hr]
    simp
  have hwaits : buf.length < 4 := by
    have hold := h.waits hne
    rw [hr] at hold
    exact hold
  have hbytes : l.receiver.bytes = buf := by
    rw [hr]
    rfl
  simp only [feed, hr]
  by_cases hfour : (buf ++ [b]).length = 4
  · rw [if_pos hfour]
    have harriving := h.arriving hne
    rw [hbytes, hstream, ← List.singleton_append, ← List.append_assoc] at harriving
    have hbuf : buf ++ [b] <+: rest.flatMap P.frame := (List.prefix_append _ stream).trans harriving
    obtain ⟨skipped, a, more, data, hrest, hskipped, ha, hframes⟩ := exists_first (by simp) hbuf
    have hlt : data.length < 2 ^ 32 := hsized a (by rw [h.given, hrest]; simp) data ha
    rw [hframes] at hbuf
    -- the four bytes are the length of the message
    have hlength : buf ++ [b] = bigEndian 4 data.length :=
      (List.prefix_of_prefix_length_le hbuf (List.prefix_append _ _) (by simp [hfour])).eq_of_length (by simp [hfour])
    rw [hlength, ofBigEndian_of_lt hlt]
    split_ifs with hlong hempty
    · refine ⟨done, rest, h.given, h.got, h.short, fun _ => .inr ⟨a, by rw [h.given, hrest]; simp, fun hshort => ?_⟩,
        fun hnot => absurd rfl hnot, fun hnot => absurd rfl hnot, fun hnot => absurd rfl hnot⟩
      exact absurd (hshort data ha) (Nat.not_le.2 hlong)
    · obtain rfl := List.length_eq_zero_iff.1 hempty
      exact ⟨_, _, h.last hstream hne hrest hskipped ha hframes (by rw [hbytes, hlength]; simp) (Nat.zero_le _)⟩
    · refine ⟨done, rest, h.more hstream hne ?_ ⟨Nat.pos_of_ne_zero hempty, Nat.not_lt.1 hlong, hlt⟩⟩
      rw [hbytes, hlength]
      exact List.append_nil _
  · rw [if_neg hfour]
    refine ⟨done, rest, h.more hstream hne ?_ ?_⟩
    · rw [hbytes]
      rfl
    · show (buf ++ [b]).length < 4
      simp only [List.length_append, List.length_singleton] at hfour ⊢
      omega

/-- A byte of the message itself arrives. -/
theorem Splits.read_body (h : Splits P l done rest) (hsized : ∀ a ∈ l.given, P.Sized a) {size : Nat}
    {buf : List UInt8} (hr : l.receiver = .body size buf) {b : UInt8} {stream : List UInt8}
    (hstream : l.stream = b :: stream) : Inv P (feed P { l with stream } b) := by
  have hne : l.receiver ≠ .stopped := by
    rw [hr]
    simp
  obtain ⟨hwaits, hlimit, hsize⟩ : buf.length < size ∧ size ≤ P.limit ∧ size < 2 ^ 32 := by
    have hold := h.waits hne
    rw [hr] at hold
    exact hold
  have hbytes : l.receiver.bytes = bigEndian 4 size ++ buf := by
    rw [hr]
    rfl
  simp only [feed, hr]
  by_cases hwhole : (buf ++ [b]).length = size
  · rw [if_pos hwhole]
    have harriving := h.arriving hne
    rw [hbytes, hstream, ← List.singleton_append, ← List.append_assoc,
      List.append_assoc (bigEndian 4 size)] at harriving
    have hbuf : bigEndian 4 size ++ (buf ++ [b]) <+: rest.flatMap P.frame :=
      (List.prefix_append _ stream).trans harriving
    obtain ⟨skipped, a, more, data, hrest, hskipped, ha, hframes⟩ := exists_first (by simp) hbuf
    have hlt : data.length < 2 ^ 32 := hsized a (by rw [h.given, hrest]; simp) data ha
    rw [hframes] at hbuf
    have hnumeral : bigEndian 4 size = bigEndian 4 data.length :=
      (List.prefix_of_prefix_length_le ((List.prefix_append _ _).trans hbuf) (List.prefix_append _ _)
        (by simp)).eq_of_length (by simp)
    have hdata : size = data.length := by
      have hfits : size < 256 ^ 4 := hsize
      rw [← ofBigEndian_of_lt hfits, hnumeral, ofBigEndian_of_lt hlt]
    rw [hnumeral, List.prefix_append_right_inj] at hbuf
    have hbody : buf ++ [b] = data :=
      (List.prefix_of_prefix_length_le hbuf (List.prefix_append _ _) (by omega)).eq_of_length (by omega)
    rw [hbody]
    refine ⟨_, _, h.last hstream hne hrest hskipped ha hframes ?_ (hdata ▸ hlimit)⟩
    rw [hbytes, List.append_assoc, hbody, hdata]
  · rw [if_neg hwhole]
    refine ⟨done, rest, h.more hstream hne ?_ ⟨?_, hlimit, hsize⟩⟩
    · rw [hbytes, List.append_assoc]
      rfl
    · simp only [List.length_append, List.length_singleton] at hwhole ⊢
      omega

/-- What the steps of a link preserve. -/
theorem Inv.step (h : Inv P l) (hsized : ∀ a ∈ l.given, P.Sized a) (t : Step) : Inv P (l.step P t) := by
  obtain ⟨done, rest, h⟩ := h
  have hsame : Inv P l := ⟨done, rest, h⟩
  cases t with
  | pack =>
    cases hleft : l.left with
    | cons b left =>
      simp only [Link.step, hleft]
      exact hsame
    | nil =>
      cases hqueue : l.queue with
      | nil =>
        simp only [Link.step, hleft, hqueue]
        exact hsame
      | cons a queue =>
        simp only [Link.step, hleft, hqueue]
        refine ⟨done, rest, h.given, h.got, h.short, h.stopped, h.waits, h.arriving, fun hr hb => ?_⟩
        rw [← h.whole hr hb, hleft, hqueue]
        rfl
  | write =>
    cases hleft : l.left with
    | nil =>
      simp only [Link.step, hleft]
      exact hsame
    | cons b left =>
      simp only [Link.step, hleft]
      split_ifs with hb
      · exact hsame
      · have hwhole : ∀ hr : l.receiver ≠ .stopped, l.receiver.bytes ++ ((l.stream ++ [b]) ++
            (left ++ l.queue.flatMap P.frame)) = rest.flatMap P.frame := by
          intro hr
          rw [← h.whole hr (Bool.eq_false_iff.2 hb), hleft]
          simp
        refine ⟨done, rest, h.given, h.got, h.short, h.stopped, h.waits, fun hr => ?_, fun hr _ => hwhole hr⟩
        show l.receiver.bytes ++ (l.stream ++ [b]) <+: _
        rw [← hwhole hr]
        exact (List.prefix_append_right_inj _).2 (List.prefix_append _ _)
  | read =>
    cases hr : l.receiver with
    | stopped =>
      simp only [Link.step, hr]
      exact hsame
    | length buf =>
      cases hstream : l.stream with
      | nil =>
        simp only [Link.step, hr, hstream]
        exact hsame
      | cons b stream =>
        have hread : l.step P .read = feed P { l with stream } b := by simp only [Link.step, hr, hstream]
        rw [hread]
        exact h.read_length hsized hr hstream
    | body size buf =>
      cases hstream : l.stream with
      | nil =>
        simp only [Link.step, hr, hstream]
        exact hsame
      | cons b stream =>
        have hread : l.step P .read = feed P { l with stream } b := by simp only [Link.step, hr, hstream]
        rw [hread]
        exact h.read_body hsized hr hstream
  | cut arriving =>
    refine ⟨done, rest, h.given, h.got, h.short, fun _ => .inl rfl, h.waits, fun hr => ?_, fun _ hb => by cases hb⟩
    exact ((List.prefix_append_right_inj _).2 (List.take_prefix _ _)).trans (h.arriving hr)
  | stop =>
    exact ⟨done, rest, h.given, h.got, h.short, fun _ => .inl rfl, fun hnot => absurd rfl hnot,
      fun hnot => absurd rfl hnot, fun hnot => absurd rfl hnot⟩

@[simp] theorem given_feed (b : UInt8) : (feed P l b).given = l.given := by
  unfold feed
  split
  · dsimp only
    split_ifs <;> rfl
  · dsimp only
    split_ifs <;> rfl
  · rfl

@[simp] theorem given_step (t : Step) : (l.step P t).given = l.given := by
  cases t with
  | pack =>
    simp only [step]
    split <;> rfl
  | write =>
    simp only [step]
    split
    · split_ifs <;> rfl
    · rfl
  | read =>
    simp only [step]
    split
    · rfl
    · exact given_feed _
    · rfl
  | cut arriving => rfl
  | stop => rfl

theorem got_feed (b : UInt8) : l.got <+: (feed P l b).got := by
  unfold feed
  split
  · dsimp only
    split_ifs
    · exact List.prefix_rfl
    · exact List.prefix_append _ _
    · exact List.prefix_rfl
    · exact List.prefix_rfl
  · dsimp only
    split_ifs
    · exact List.prefix_append _ _
    · exact List.prefix_rfl
  · exact List.prefix_rfl

theorem got_step (t : Step) : l.got <+: (l.step P t).got := by
  cases t with
  | pack =>
    simp only [step]
    split <;> exact List.prefix_rfl
  | write =>
    simp only [step]
    split
    · split_ifs <;> exact List.prefix_rfl
    · exact List.prefix_rfl
  | read =>
    simp only [step]
    split
    · exact List.prefix_rfl
    · rename_i b stream _ _
      show ({ l with stream } : Link α).got <+: _
      exact got_feed b
    · exact List.prefix_rfl
  | cut arriving => exact List.prefix_rfl
  | stop => exact List.prefix_rfl

/-- What has been received is what the first messages that were given are read as, none of which is too long. -/
theorem Inv.received (h : Inv P l) :
    ∃ done, done <+: l.given ∧ (∀ a ∈ done, P.Short a) ∧ l.got = done.filterMap P.carried := by
  obtain ⟨done, rest, h⟩ := h
  exact ⟨done, h.given ▸ List.prefix_append done rest, h.short, h.got⟩

/-! ### Nothing is left behind -/

/-- A part of a message is not one. -/
theorem Splits.nothing_left (h : Splits P l done rest) (hsized : ∀ a ∈ l.given, P.Sized a)
    (hr : l.receiver ≠ .stopped) (hbytes : l.receiver.bytes = rest.flatMap P.frame) :
    rest.filterMap P.carried = [] := by
  refine List.filterMap_eq_nil_iff.2 fun a ha => ?_
  rw [Packing.carried, Option.bind_eq_none_iff]
  intro data hdata
  exfalso
  have hwaits := h.waits hr
  have hne : rest.flatMap P.frame ≠ [] := by
    intro hnil
    have hempty := List.flatMap_eq_nil_iff.1 hnil a ha
    simp only [Packing.frame, hdata] at hempty
    exact absurd (congrArg List.length hempty) (by simp)
  obtain ⟨skipped, b, more, first, hrest, -, hb, hframes⟩ := exists_first hne List.prefix_rfl
  have hlt : first.length < 2 ^ 32 := hsized b (by rw [h.given, hrest]; simp) first hb
  rw [hframes] at hbytes
  cases hreceiver : l.receiver with
  | stopped => exact hr hreceiver
  | length buf =>
    rw [hreceiver] at hwaits hbytes
    have hlength := congrArg List.length hbytes
    simp only [Receiver.bytes, List.length_append, length_bigEndian] at hlength
    have hshort : buf.length < 4 := hwaits
    omega
  | body size buf =>
    rw [hreceiver] at hwaits hbytes
    obtain ⟨hshort, -, hsize⟩ : buf.length < size ∧ size ≤ P.limit ∧ size < 2 ^ 32 := hwaits
    have hparts := List.append_inj hbytes (by simp)
    have hfits : size < 256 ^ 4 := hsize
    have hsame : size = first.length := by
      rw [← ofBigEndian_of_lt hfits, hparts.1, ofBigEndian_of_lt hlt]
    have hlength := congrArg List.length hparts.2
    rw [List.length_append] at hlength
    omega

/-- How many steps are left at most: a byte is written and read. -/
def pending (P : Packing α) (l : Link α) : Nat :=
  l.stream.length + 2 * l.left.length + (l.queue.map fun a => 2 * (P.frame a).length + 1).sum

theorem feed_frame (b : UInt8) : (feed P l b).pending P = l.pending P ∧ (feed P l b).broken = l.broken := by
  unfold feed
  split
  · dsimp only
    split_ifs <;> exact ⟨rfl, rfl⟩
  · dsimp only
    split_ifs <;> exact ⟨rfl, rfl⟩
  · exact ⟨rfl, rfl⟩

/-- As long as something is on its way, a step brings it nearer. -/
theorem exists_step (hopen : l.broken = false) (hr : l.receiver ≠ .stopped)
    (hway : l.stream ≠ [] ∨ l.left ≠ [] ∨ l.queue ≠ []) :
    ∃ t : Step, (l.step P t).pending P < l.pending P ∧ (l.step P t).broken = false := by
  cases hstream : l.stream with
  | cons b stream =>
    refine ⟨.read, ?_⟩
    have hread : l.step P .read = feed P { l with stream } b := by
      cases hreceiver : l.receiver with
      | stopped => exact absurd hreceiver hr
      | length buf => simp only [step, hreceiver, hstream]
      | body size buf => simp only [step, hreceiver, hstream]
    obtain ⟨hpending, hbroken⟩ := @feed_frame _ P { l with stream } b
    rw [hread, hpending, hbroken]
    refine ⟨?_, hopen⟩
    simp only [pending, hstream, List.length_cons]
    omega
  | nil =>
    cases hleft : l.left with
    | cons b left =>
      refine ⟨.write, ?_⟩
      have hwrite : l.step P .write = { l with left, stream := [b] } := by
        simp only [step, hleft, hopen, hstream, List.nil_append, Bool.false_eq_true, if_false]
      rw [hwrite]
      refine ⟨?_, hopen⟩
      simp only [pending, hstream, hleft, List.length_cons, List.length_nil]
      omega
    | nil =>
      cases hqueue : l.queue with
      | nil =>
        rcases hway with h | h | h
        · exact absurd hstream h
        · exact absurd hleft h
        · exact absurd hqueue h
      | cons a queue =>
        refine ⟨.pack, ?_⟩
        have hpack : l.step P .pack = { l with queue, left := P.frame a } := by simp only [step, hleft, hqueue]
        rw [hpack]
        refine ⟨?_, hopen⟩
        simp only [pending, hstream, hleft, hqueue, List.length_nil, List.map_cons, List.sum_cons]
        omega

/-- While the stream is not broken, all that was given can still arrive. -/
theorem exists_delivery (h : Inv P l) (hopen : l.broken = false) (hsized : ∀ a ∈ l.given, P.Sized a)
    (hshort : ∀ a ∈ l.given, P.Short a) :
    ∃ ts : List Step, (ts.foldl (step P) l).got = l.given.filterMap P.carried := by
  induction hn : l.pending P using Nat.strong_induction_on generalizing l with
  | _ n ih =>
    obtain ⟨done, rest, hsplit⟩ := h
    have hr : l.receiver ≠ .stopped := by
      intro hstopped
      rcases hsplit.stopped hstopped with hbroken | ⟨a, ha, hlong⟩
      · rw [hopen] at hbroken
        cases hbroken
      · exact hlong (hshort a ha)
    by_cases hway : l.stream ≠ [] ∨ l.left ≠ [] ∨ l.queue ≠ []
    · obtain ⟨t, hless, hstill⟩ := exists_step hopen hr hway
      have hgiven : (l.step P t).given = l.given := given_step t
      obtain ⟨ts, hts⟩ := ih _ (hn ▸ hless) (Inv.step ⟨done, rest, hsplit⟩ hsized t) hstill
        (hgiven ▸ hsized) (hgiven ▸ hshort) rfl
      refine ⟨t :: ts, ?_⟩
      rw [List.foldl_cons, hts, hgiven]
    · simp only [not_or, not_not] at hway
      obtain ⟨hstream, hleft, hqueue⟩ := hway
      have hwhole := hsplit.whole hr hopen
      rw [hstream, hleft, hqueue, List.flatMap_nil, List.append_nil, List.append_nil, List.append_nil] at hwhole
      refine ⟨[], ?_⟩
      show l.got = _
      rw [hsplit.got, hsplit.given, List.filterMap_append, hsplit.nothing_left hsized hr hwhole, List.append_nil]

end Link

end Wire
