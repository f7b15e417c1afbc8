import Otomai.ProtocolGen.Generated

/-!
# Deserializers that never panic

The readers of primitive values end with a value or an error on every input.  A generated deserializer does so too
when no length it reads is a signed `VarInt` and the classes nested in it without a length or an id before them form
no cycle (`returns_deserialize`): every nested call behind a length or an id finds fewer bytes left, so as many
nested calls as `unread * (depth + 1) + depth + 1` suffice.
-/

namespace Otomai.ProtocolGen

open Wire BigEndianReader

variable {ν : Type}

/-! ### Primitive readers -/

private theorem weaken {k : Nat} {α : Type} {r : BigEndianReader α} {Q : α → Prop}
    (h : Returns (Unread k) r fun v c => Q v ∧ c.unread.length < k) : Returns (Unread k) r fun _ => Unread k :=
  h.mono (fun _ hc => hc) fun _ _ hc => Nat.le_of_lt hc.2

theorem returns_byte (k : Nat) : Returns (Unread k) readByte fun _ => Unread k :=
  (Returns.next _ k).mono (fun _ hc => hc) fun _ _ hc => Nat.le_of_lt hc

private theorem returns_map {α β : Type} {k : Nat} {r : BigEndianReader α} (f : α → β)
    (h : Returns (Unread k) r fun _ => Unread k) : Returns (Unread k) (r >>= fun a => pure (f a)) fun _ => Unread k :=
  h.bind fun _ => Returns.pure fun _ hc => hc

theorem returns_ushort (k : Nat) : Returns (Unread k) readUshort fun _ c => c.unread.length < k :=
  (returns_bigEndian _ k 1).bind fun _ => Returns.pure fun _ hc => hc.2

theorem returns_ushort_le (k : Nat) : Returns (Unread k) readUshort fun _ => Unread k :=
  (returns_ushort k).mono (fun _ hc => hc) fun _ _ hc => Nat.le_of_lt hc

theorem returns_boolean (k : Nat) : Returns (Unread k) readBoolean fun _ => Unread k := returns_map _ (returns_byte k)

theorem returns_uint (k : Nat) : Returns (Unread k) readUint fun _ => Unread k :=
  returns_map _ (weaken (returns_bigEndian _ k 3))

theorem returns_int (k : Nat) : Returns (Unread k) readInt fun _ => Unread k := returns_map _ (returns_uint k)

theorem returns_bytes {n : Nat} (h : n ≤ isizeMax) (k : Nat) :
    Returns (Unread k) (readBytes n) fun _ => Unread k := by
  rw [readBytes, if_neg (Nat.not_lt.2 h)]
  exact Returns.take _ k n

theorem returns_utf (k : Nat) : Returns (Unread k) readUtf fun _ => Unread k := by
  refine (returns_ushort k).bind fun length => ?_
  have hlen : length.toNat ≤ isizeMax := Nat.le_trans (Nat.le_of_lt length.toNat_lt) (by decide)
  refine ((returns_bytes hlen k).mono (fun _ hc => Nat.le_of_lt hc) fun _ _ hc => hc).bind fun buf => ?_
  split
  · exact Returns.pure fun _ hc => hc
  · exact Returns.fail _

theorem returns_varIntFrom (n k : Nat) : ∀ value size,
    Returns (Unread k) (readVarIntFrom value size n) fun _ => Unread k := by
  induction n with
  | zero => exact fun _ _ => Returns.fail _
  | succ n ih =>
    intro value size
    refine (returns_byte k).bind fun b => ?_
    dsimp only
    split
    · exact ih _ _
    · exact Returns.pure fun _ hc => hc

theorem returns_varShortFrom (n k : Nat) : ∀ value size,
    Returns (Unread k) (readVarShortFrom value size n) fun _ => Unread k := by
  induction n with
  | zero => exact fun _ _ => Returns.fail _
  | succ n ih =>
    intro value size
    refine (returns_byte k).bind fun b => ?_
    dsimp only
    split
    · exact ih _ _
    · exact Returns.pure fun _ hc => hc

theorem returns_varHigh (n k : Nat) : ∀ high size last,
    Returns (Unread k) (readVarHigh high size last n) fun _ => Unread k := by
  induction n with
  | zero => exact fun _ _ _ => Returns.pure fun _ hc => hc
  | succ n ih =>
    intro high size last
    refine (returns_byte k).bind fun b => ?_
    split
    · exact ih _ _ _
    · exact Returns.pure fun _ hc => hc

theorem returns_varLongFrom (n k : Nat) : ∀ low size,
    Returns (Unread k) (readVarLongFrom low size n) fun _ => Unread k := by
  induction n with
  | zero =>
    intro low size
    refine (returns_byte k).bind fun b => ?_
    dsimp only
    split
    · exact returns_map _ (returns_varHigh 5 k _ _ _)
    · exact Returns.pure fun _ hc => hc
  | succ n ih =>
    intro low size
    refine (returns_byte k).bind fun b => ?_
    split
    · exact ih _ _
    · exact Returns.pure fun _ hc => hc

theorem returns_varInt (k : Nat) : Returns (Unread k) readVarInt fun _ => Unread k :=
  returns_map _ (returns_varIntFrom 5 k 0 0)

theorem returns_varShort (k : Nat) : Returns (Unread k) readVarShort fun _ => Unread k :=
  returns_map _ (returns_varShortFrom 3 k 0 0)

theorem Method.returns (m : Method) (k : Nat) : Returns (Unread k) (m.read (ν := ν)) fun _ => Unread k := by
  have ulong : Returns (Unread k) readUlong fun _ => Unread k := returns_map _ (weaken (returns_bigEndian _ k 7))
  have varUlong : Returns (Unread k) readVarUlong fun _ => Unread k := returns_varLongFrom 4 k 0 0
  cases m with
  | boolean => exact returns_map _ (returns_boolean k)
  | byte => exact returns_map _ (returns_byte k)
  | short => exact returns_map _ (returns_map _ (returns_ushort_le k))
  | ushort => exact returns_map _ (returns_ushort_le k)
  | int => exact returns_map _ (returns_int k)
  | uint => exact returns_map _ (returns_uint k)
  | float => exact returns_map _ (returns_uint k)
  | double => exact returns_map _ ulong
  | utf => exact returns_map _ (returns_utf k)
  | varInt => exact returns_map _ (returns_varInt k)
  | varUint => exact returns_map _ (returns_varIntFrom 5 k 0 0)
  | varShort => exact returns_map _ (returns_varShort k)
  | varUshort => exact returns_map _ (returns_map _ (returns_varShort k))
  | varLong => exact returns_map _ (returns_map _ varUlong)
  | varUlong => exact returns_map _ varUlong

/-- An unsigned length of one or two bytes. -/
theorem returns_length {m : Method} (h : m ≠ .varInt) (k : Nat) :
    Returns (Unread k) m.readLength fun n c => n < 2 ^ 16 ∧ c.unread.length < k := by
  have ushort : Returns (Unread k) (do let n ← readUshort; pure n.toNat) fun n c =>
      n < 2 ^ 16 ∧ c.unread.length < k :=
    (returns_ushort k).bind fun n => Returns.pure fun _ hc => ⟨n.toNat_lt, hc⟩
  cases m with
  | varInt => exact absurd rfl h
  | byte =>
    exact (Returns.next _ k).bind fun n => Returns.pure fun _ hc =>
      ⟨Nat.lt_trans n.toNat_lt (by decide), hc⟩
  | _ => exact ushort

/-! ### Bodies -/

section Bodies

/-- No panic is possible in the initializer, given classes `safe` to nest, and those of rank below `r` to nest without
a length or an id. -/
def SafeInitializer (safe : ν → Prop) (rank : ν → Nat) (r : Nat) : Initializer ν → Prop
  | .byteArray => False
  | .deserialize none => False
  | .deserialize (some t) => safe t ∧ rank t < r
  | .vector length (.deserialize (some t)) => length ≠ .varInt ∧ safe t
  | .vector _ (.deserialize none) => False
  | .vector length _ => length ≠ .varInt
  | _ => True

/-- Classes whose bodies are safe and nest only such classes, at most `depth` deep without a length or an id. -/
structure SafeBodies [DecidableEq ν] (P : Protocol ν) (body : ν → Option (DeserializeBody ν)) (safe : ν → Prop)
    (rank : ν → Nat) (depth : Nat) : Prop where
  rank_le : ∀ name, safe name → rank name ≤ depth
  body_safe : ∀ name, safe name →
    ∃ b, body name = some b ∧ ∀ i ∈ b.initializers, SafeInitializer safe rank (rank name) i
  variants_safe : ∀ base, ∀ x ∈ P.variants base, safe x.1

variable [DecidableEq ν] [ToString ν] {P : Protocol ν} {safe : ν → Prop} {rank : ν → Nat}
  {de : ν → BigEndianReader (Value ν)}

/-- A reader that keeps every bound below `k`, run when fewer than `k` bytes are left. -/
private theorem returns_below {α : Type} {k : Nat} {r : BigEndianReader α}
    (h : ∀ j, j < k → Returns (Unread j) r fun _ => Unread j) :
    Returns (fun c => c.unread.length < k) r fun _ => Unread k := fun c hc =>
  ((h c.unread.length hc).mono (fun _ h => h) fun _ _ h => Nat.le_trans h (Nat.le_of_lt hc)) c (Nat.le_refl _)

private theorem returns_variant (hv : ∀ base, ∀ x ∈ P.variants base, safe x.1) {k : Nat}
    (hde : ∀ t j, safe t → j < k → Returns (Unread j) (de t) fun _ => Unread j) (base : ν) :
    Returns (Unread k) (readVariant P de base) fun _ => Unread k := by
  refine (returns_ushort k).bind fun typeId => ?_
  rw [deserializeWithId]
  split
  · rename_i name id hfind
    have hsafe := hv base _ (List.mem_of_find?_eq_some hfind)
    exact (returns_below fun j hj => hde name j hsafe hj).bind fun _ => Returns.pure fun _ h => h
  · exact Returns.fail _

theorem returns_initializer (hv : ∀ base, ∀ x ∈ P.variants base, safe x.1) {k r : Nat}
    (hde : ∀ t j, safe t → j < k → Returns (Unread j) (de t) fun _ => Unread j)
    (hinline : ∀ t, safe t → rank t < r → Returns (Unread k) (de t) fun _ => Unread k) (flags : List UInt8)
    {i : Initializer ν} (hi : SafeInitializer safe rank r i) :
    Returns (Unread k) (i.run P de flags) fun _ => Unread k := by
  -- The elements of a vector are read when its length is behind the cursor.
  have vector : ∀ (length : Method) (element : ElementRead ν), length ≠ .varInt →
      (∀ j, j < k → Returns (Unread j) (element.run P de) fun _ => Unread j) →
      Returns (Unread k) ((Initializer.vector length element).run P de flags) fun _ => Unread k := by
    intro length element hlen helem
    refine (returns_length hlen k).bind fun count => ?_
    refine Returns.bind (R := fun _ c => c.unread.length < k) ?_ fun _ =>
      (returns_below fun j hj => Returns.replicate (helem j hj) count).bind fun _ => Returns.pure fun _ h => h
    rintro c ⟨hcount, hlt⟩
    rw [withCapacity, if_neg (Nat.not_lt.2 (Nat.le_trans (Nat.le_of_lt hcount) (by decide)))]
    exact hlt
  cases i with
  | flag flagIdx bit =>
    by_cases hb : 8 ≤ bit
    · simp only [Initializer.run, BooleanByteWrapper.getFlag, if_pos hb]
      exact Returns.fail _
    · simp only [Initializer.run, BooleanByteWrapper.getFlag, if_neg hb]
      exact Returns.pure fun _ h => h
  | call m => exact m.returns k
  | byteArray => exact hi.elim
  | deserialize name =>
    cases name with
    | none => exact hi.elim
    | some t => exact hinline t hi.1 hi.2
  | variant base => exact returns_variant hv hde base
  | default => exact Returns.pure fun _ h => h
  | vector length element =>
    cases element with
    | deserialize name =>
      cases name with
      | none => exact hi.elim
      | some t => exact vector length _ hi.1 fun j hj => hde t j hi.2 hj
    | default => exact vector length _ hi fun j _ => Returns.pure fun _ h => h
    | variant base =>
      exact vector length _ hi fun j hj => returns_variant hv (fun t i ht hi => hde t i ht (Nat.lt_trans hi hj)) base
    | call m => exact vector length _ hi fun j _ => m.returns j

theorem returns_deserialize {body : ν → Option (DeserializeBody ν)} {depth : Nat}
    (h : SafeBodies P body safe rank depth) (n : Nat) : ∀ (k : Nat) (name : ν), safe name →
      k * (depth + 1) + rank name < n → Returns (Unread k) (P.deserializeWith body n name) fun _ => Unread k := by
  induction n with
  | zero => exact fun _ _ _ h => absurd h (Nat.not_lt_zero _)
  | succ n ih =>
    intro k name hs hn
    obtain ⟨b, hb, hinit⟩ := h.body_safe name hs
    simp only [Protocol.deserializeWith, hb]
    refine Returns.bind (R := fun _ => Unread k) ?_ fun _ => Returns.pure fun _ h => h
    refine (Returns.replicate (returns_byte k) _).bind fun flags => Returns.forEach fun i hi => ?_
    refine returns_initializer h.variants_safe (fun t j ht hj => ih j t ht ?_)
      (fun t ht hr => ih k t ht (by omega)) flags
      (hinit i hi)
    have hr := h.rank_le t ht
    have : (j + 1) * (depth + 1) ≤ k * (depth + 1) := Nat.mul_le_mul_right _ hj
    rw [Nat.succ_mul] at this
    omega

end Bodies

end Otomai.ProtocolGen
