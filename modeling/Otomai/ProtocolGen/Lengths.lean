import Otomai.Io.Ends
import Otomai.ProtocolGen.Generated
import Otomai.Wire.Logged

/-!
# The lengths in a payload

A payload says how long a text or a vector is before it holds the text or the elements.  The readers of the generated
code are followed here with a log of the lengths that they meet: how much each one counts, how many bytes are left
behind it, and how the reading of what it counts ends.

* `unlogged_deserializeLogged`: without its log the reader is the one of the generated code.
* `explains_deserializeLogged`: a length whose content is read is at most the number of bytes behind it, unless it
  counts elements that take no bytes.
-/

namespace Otomai.ProtocolGen

open Wire BigEndianReader

/-- What is counted by a length. -/
inductive Counted (ν : Type) where
  | bytes
  | elements (element : ElementRead ν)
  deriving DecidableEq, Repr

/-- A length that was read: what it counts, how many bytes are left behind it, and how reading what it counts ends. -/
structure LengthPrefix (ν : Type) where
  counted : Counted ν
  count : Nat
  unread : Nat
  ending : Outcome IoError Unit
  deriving DecidableEq, Repr

abbrev LengthReader (ν α : Type) := LogReader IoError (LengthPrefix ν) α

section

variable {ν : Type}

/-- Notes a length of which the reader takes what it counts. -/
def counting {α : Type} (counted : Counted ν) (count : Nat) (r : LengthReader ν α) : LengthReader ν α :=
  .noting (fun c ending => { counted, count, unread := c.unread.length, ending }) r

def Method.readLogged : Method → LengthReader ν (Value ν)
  | .utf => do
    let length ← .silent readUshort
    let s ← counting .bytes length.toNat (.silent (readUtfBytes length.toNat))
    pure (.string s)
  | m => .silent m.read

variable [DecidableEq ν] [ToString ν] (P : Protocol ν) (deserialize : ν → LengthReader ν (Value ν))

def deserializeWithIdLogged (base : ν) (typeId : UInt16) : LengthReader ν (Value ν) :=
  match (P.variants base).find? (·.2.toNat = typeId.toNat) with
  | some (name, _) => do
    let content ← deserialize name
    pure (.variant base name content)
  | none => .silent (Wire.Reader.fail (.unknownTypeId (toString base) typeId))

def readVariantLogged (base : ν) : LengthReader ν (Value ν) := do
  let typeId ← .silent readUshort
  deserializeWithIdLogged P deserialize base typeId

def ElementRead.runLogged : ElementRead ν → LengthReader ν (Value ν)
  | .deserialize (some name) => deserialize name
  | .deserialize none => .silent Wire.Reader.panic
  | .default => pure (.bytes [])
  | .variant base => readVariantLogged P deserialize base
  | .call m => m.readLogged

def Initializer.runLogged (flags : List UInt8) : Initializer ν → LengthReader ν (Value ν)
  | .flag flagIdx bit =>
    match BooleanByteWrapper.getFlag (flags.getD flagIdx 0) bit with
    | .ok b => pure (.bool b)
    | .err e => .silent (Wire.Reader.fail e)
    | _ => .silent Wire.Reader.panic
  | .call m => m.readLogged
  | .byteArray => do
    let len ← .silent readVarInt
    let data ← counting .bytes (asUsize len) (.silent (readBytes (asUsize len)))
    pure (.bytes data)
  | .deserialize (some name) => deserialize name
  | .deserialize none => .silent Wire.Reader.panic
  | .vector length element => do
    let count ← .silent length.readLength
    let elements ← counting (.elements element) count do
      .silent (withCapacity count)
      .replicate (element.runLogged P deserialize) count
    pure (.vec elements)
  | .variant base => readVariantLogged P deserialize base
  | .default => pure (.bytes [])

def DeserializeBody.runLogged (body : DeserializeBody ν) : LengthReader ν (List (Value ν)) := do
  let flags ← .silent (Wire.Reader.replicate readByte body.flagReads)
  .forEach (Initializer.runLogged P deserialize flags) body.initializers

end

def Protocol.deserializeLogged {ν : Type} [DecidableEq ν] [ToString ν] (P : Protocol ν)
    (body : ν → Option (DeserializeBody ν)) : Nat → ν → LengthReader ν (Value ν)
  | 0, _ => .silent Wire.Reader.exhausted
  | n + 1, name =>
    match body name with
    | some b => do
      let vs ← b.runLogged P (P.deserializeLogged body n)
      pure (.struct name vs)
    | none => .silent Wire.Reader.panic

/-! ### Without the log -/

section

open LogReader

variable {ν : Type}

@[simp] theorem unlogged_counting {α : Type} (counted : Counted ν) (count : Nat) (r : LengthReader ν α) :
    (counting counted count r).unlogged = r.unlogged := rfl

@[simp] theorem unlogged_readLogged (m : Method) : (m.readLogged : LengthReader ν (Value ν)).unlogged = m.read := by
  cases m with
  | utf => simp only [Method.readLogged, Method.read, readUtf, unlogged_bind, unlogged_silent, unlogged_counting,
      unlogged_pure, bind_assoc]
  | _ => rfl

variable [DecidableEq ν] [ToString ν] (P : Protocol ν) (deserialize : ν → LengthReader ν (Value ν))

theorem unlogged_readVariantLogged (base : ν) : (readVariantLogged P deserialize base).unlogged =
    readVariant P (fun name => (deserialize name).unlogged) base := by
  have hid : ∀ typeId, (deserializeWithIdLogged P deserialize base typeId).unlogged =
      deserializeWithId P (fun name => (deserialize name).unlogged) base typeId := by
    intro typeId
    unfold deserializeWithIdLogged deserializeWithId
    cases (P.variants base).find? (·.2.toNat = typeId.toNat) with
    | none => rfl
    | some x => exact unlogged_bind _ _
  rw [readVariantLogged, unlogged_bind, unlogged_silent, funext hid]
  rfl

theorem unlogged_elementRead (element : ElementRead ν) : (element.runLogged P deserialize).unlogged =
    element.run P fun name => (deserialize name).unlogged := by
  cases element with
  | deserialize name => cases name <;> rfl
  | default => rfl
  | variant base => exact unlogged_readVariantLogged P deserialize base
  | call m => exact unlogged_readLogged m

theorem unlogged_initializer (flags : List UInt8) (i : Initializer ν) : (i.runLogged P deserialize flags).unlogged =
    i.run P (fun name => (deserialize name).unlogged) flags := by
  cases i with
  | flag flagIdx bit =>
    rw [Initializer.runLogged, Initializer.run]
    cases BooleanByteWrapper.getFlag (flags.getD flagIdx 0) bit <;> rfl
  | call m => exact unlogged_readLogged m
  | byteArray => simp only [Initializer.runLogged, Initializer.run, unlogged_bind, unlogged_counting, unlogged_silent,
      unlogged_pure]
  | deserialize name => cases name <;> rfl
  | vector length element =>
    simp only [Initializer.runLogged, Initializer.run, unlogged_bind, unlogged_counting, unlogged_silent,
      unlogged_pure, unlogged_replicate, unlogged_elementRead, bind_assoc]
  | variant base => exact unlogged_readVariantLogged P deserialize base
  | default => rfl

/-- Without its log the reader is the one of the generated code. -/
theorem unlogged_deserializeLogged (body : ν → Option (DeserializeBody ν)) (n : Nat) :
    ∀ name, (P.deserializeLogged body n name).unlogged = P.deserializeWith body n name := by
  induction n with
  | zero => exact fun name => rfl
  | succ n ih =>
    intro name
    rw [Protocol.deserializeLogged, Protocol.deserializeWith]
    cases body name with
    | none => rfl
    | some b =>
      have hinit : ∀ flags, (fun i => (Initializer.runLogged P (P.deserializeLogged body n) flags i).unlogged) =
          Initializer.run P (P.deserializeWith body n) flags := fun flags => funext fun i => by
        rw [unlogged_initializer, funext ih]
      simp only [DeserializeBody.runLogged, DeserializeBody.run, unlogged_bind, unlogged_silent, unlogged_pure,
        unlogged_forEach, hinit]

end

/-! ### Bytes that are taken -/

/-- The initializer takes a byte, given the classes whose values do. -/
def Initializer.Sized {ν : Type} (sized : ν → Prop) : Initializer ν → Prop
  | .call _ | .byteArray | .vector _ _ | .variant _ => True
  | .deserialize (some name) => sized name
  | _ => False

/-- The elements of a vector of structs are of the classes. -/
def Initializer.SizedElements {ν : Type} (sized : ν → Prop) : Initializer ν → Prop
  | .vector _ (.deserialize (some name)) => sized name
  | _ => True

/-- Classes of which every value takes a byte, among them those of the elements of all vectors. -/
structure SizedBodies {ν : Type} (body : ν → Option (DeserializeBody ν)) (sized : ν → Prop) : Prop where
  takes : ∀ name b, sized name → body name = some b → 0 < b.flagReads ∨ ∃ i ∈ b.initializers, i.Sized sized
  elements : ∀ name b, body name = some b → ∀ i ∈ b.initializers, i.SizedElements sized

section

variable {ν : Type}

theorem Method.shrinks (m : Method) : Shrinks 1 (m.read : BigEndianReader (Value ν)) := by
  have hushort := shrinks_readUshort.mono (show 1 ≤ 2 by decide)
  have huint := shrinks_readUint.mono (show 1 ≤ 4 by decide)
  have hulong : Shrinks 1 readUlong := ((Shrinks.bigEndianFrom _ 0 8).bind fun _ => Shrinks.pure _).mono (by decide)
  have hvarUlong : Shrinks 1 readVarUlong := shrinks_readVarLongFrom 4 0 0
  cases m with
  | boolean => exact shrinks_readBoolean.bind fun _ => Shrinks.pure _
  | byte => exact (Shrinks.next _).bind fun _ => Shrinks.pure _
  | short => exact (hushort.bind fun _ => Shrinks.pure _).bind fun _ => Shrinks.pure _
  | ushort => exact hushort.bind fun _ => Shrinks.pure _
  | int => exact (huint.bind fun _ => Shrinks.pure _).bind fun _ => Shrinks.pure _
  | uint => exact huint.bind fun _ => Shrinks.pure _
  | float => exact huint.bind fun _ => Shrinks.pure _
  | double => exact hulong.bind fun _ => Shrinks.pure _
  | utf => exact (shrinks_readUtf.mono (by decide)).bind fun _ => Shrinks.pure _
  | varInt => exact shrinks_readVarInt.bind fun _ => Shrinks.pure _
  | varUint => exact (shrinks_readVarIntFrom 5 0 0).bind fun _ => Shrinks.pure _
  | varShort => exact shrinks_readVarShort.bind fun _ => Shrinks.pure _
  | varUshort => exact (shrinks_readVarShort.bind fun _ => Shrinks.pure _).bind fun _ => Shrinks.pure _
  | varLong => exact (hvarUlong.bind fun _ => Shrinks.pure _).bind fun _ => Shrinks.pure _
  | varUlong => exact hvarUlong.bind fun _ => Shrinks.pure _

theorem Method.shrinks_readLength (m : Method) : Shrinks 1 m.readLength := by
  have hushort := shrinks_readUshort.mono (show 1 ≤ 2 by decide)
  cases m with
  | varInt => exact shrinks_readVarInt.bind fun _ => Shrinks.pure _
  | byte => exact (Shrinks.next _).bind fun _ => Shrinks.pure _
  | _ => exact hushort.bind fun _ => Shrinks.pure _

theorem shrinks_withCapacity (count : Nat) : Shrinks 0 (withCapacity count) := by
  unfold withCapacity
  split_ifs
  · exact Shrinks.panic 0
  · exact Shrinks.pure _

variable [DecidableEq ν] [ToString ν] {P : Protocol ν} {de : ν → BigEndianReader (Value ν)}

theorem shrinks_readVariant (hde : ∀ name, Shrinks 0 (de name)) (base : ν) : Shrinks 1 (readVariant P de base) := by
  refine @Shrinks.bind _ _ _ _ _ 1 0 (shrinks_readUshort.mono (by decide)) fun typeId => ?_
  unfold deserializeWithId
  split
  · exact @Shrinks.bind _ _ _ _ _ 0 0 (hde _) fun _ => Shrinks.pure _
  · exact Shrinks.fail 0 _

theorem shrinks_elementRead (hde : ∀ name, Shrinks 0 (de name)) (element : ElementRead ν) :
    Shrinks 0 (element.run P de) := by
  cases element with
  | deserialize name =>
    cases name with
    | none => exact Shrinks.panic _
    | some name => exact hde name
  | default => exact Shrinks.pure _
  | variant base => exact (shrinks_readVariant hde base).mono (Nat.zero_le 1)
  | call m => exact m.shrinks.mono (Nat.zero_le 1)

/-- An element takes a byte, unless it is one that is not read at all. -/
theorem sized_elementRead (hde : ∀ name, Shrinks 0 (de name)) {element : ElementRead ν}
    (hdefault : element ≠ .default)
    (hsized : ∀ t, element = .deserialize (some t) → Shrinks 1 (de t)) : Shrinks 1 (element.run P de) := by
  cases element with
  | deserialize name =>
    cases name with
    | none => exact Shrinks.panic _
    | some name => exact hsized name rfl
  | default => exact absurd rfl hdefault
  | variant base => exact shrinks_readVariant hde base
  | call m => exact m.shrinks

theorem shrinks_vector (hde : ∀ name, Shrinks 0 (de name)) (flags : List UInt8) (length : Method)
    (element : ElementRead ν) : Shrinks 1 ((Initializer.vector length element).run P de flags) :=
  @Shrinks.bind _ _ _ _ _ 1 0 length.shrinks_readLength fun count =>
    @Shrinks.bind _ _ _ _ _ 0 0 (shrinks_withCapacity count) fun _ =>
    @Shrinks.bind _ _ _ _ _ 0 0 ((shrinks_elementRead hde element).replicate count) fun _ => Shrinks.pure _

theorem shrinks_byteArray (flags : List UInt8) : Shrinks 1 ((Initializer.byteArray (ν := ν)).run P de flags) :=
  @Shrinks.bind _ _ _ _ _ 1 0 shrinks_readVarInt fun _ =>
    @Shrinks.bind _ _ _ _ _ 0 0 ((shrinks_readBytes _).mono (Nat.zero_le _)) fun _ => Shrinks.pure _

theorem shrinks_initializer (hde : ∀ name, Shrinks 0 (de name)) (flags : List UInt8) (i : Initializer ν) :
    Shrinks 0 (i.run P de flags) := by
  cases i with
  | flag flagIdx bit =>
    rw [Initializer.run]
    split
    · exact Shrinks.pure _
    · exact Shrinks.fail 0 _
    · exact Shrinks.panic _
  | call m => exact m.shrinks.mono (Nat.zero_le 1)
  | byteArray => exact (shrinks_byteArray flags).mono (Nat.zero_le 1)
  | deserialize name =>
    cases name with
    | none => exact Shrinks.panic _
    | some name => exact hde name
  | vector length element => exact (shrinks_vector hde flags length element).mono (Nat.zero_le 1)
  | variant base => exact (shrinks_readVariant hde base).mono (Nat.zero_le 1)
  | default => exact Shrinks.pure _

theorem sized_initializer (hde : ∀ name, Shrinks 0 (de name)) {sized : ν → Prop}
    (hsized : ∀ name, sized name → Shrinks 1 (de name)) (flags : List UInt8) {i : Initializer ν}
    (hi : i.Sized sized) :
    Shrinks 1 (i.run P de flags) := by
  cases i with
  | flag flagIdx bit => exact hi.elim
  | call m => exact m.shrinks
  | byteArray => exact shrinks_byteArray flags
  | deserialize name =>
    cases name with
    | none => exact hi.elim
    | some name => exact hsized name hi
  | vector length element => exact shrinks_vector hde flags length element
  | variant base => exact shrinks_readVariant hde base
  | default => exact hi.elim

/-- The value of a class that is sized takes a byte, within whatever number of nested calls. -/
theorem shrinks_deserializeWith {body : ν → Option (DeserializeBody ν)} {sized : ν → Prop}
    (h : SizedBodies body sized) (n : Nat) : ∀ name, Shrinks 0 (P.deserializeWith body n name) ∧
      (sized name → Shrinks 1 (P.deserializeWith body n name)) := by
  induction n with
  | zero => exact fun name => ⟨Shrinks.exhausted 0, fun _ => Shrinks.exhausted 1⟩
  | succ n ih =>
    intro name
    have hde : ∀ name, Shrinks 0 (P.deserializeWith body n name) := fun name => (ih name).1
    rw [Protocol.deserializeWith]
    cases hb : body name with
    | none => exact ⟨Shrinks.panic 0, fun _ => Shrinks.panic 1⟩
    | some b =>
      have hflags := (Shrinks.next (ε := IoError) .unexpectedEof).replicate_mul b.flagReads
      rw [Nat.mul_one] at hflags
      refine ⟨?_, fun hname => ?_⟩
      · exact @Shrinks.bind _ _ _ _ _ 0 0 (@Shrinks.bind _ _ _ _ _ 0 0 (hflags.mono (Nat.zero_le _)) fun flags =>
          Shrinks.forEach (shrinks_initializer hde flags) _) fun _ => Shrinks.pure _
      · rcases h.takes name b hname hb with hpos | ⟨i, hi, hisized⟩
        · exact @Shrinks.bind _ _ _ _ _ 1 0 (@Shrinks.bind _ _ _ _ _ 1 0 (hflags.mono hpos) fun flags =>
            Shrinks.forEach (shrinks_initializer hde flags) _) fun _ => Shrinks.pure _
        · refine @Shrinks.bind _ _ _ _ _ 1 0 ?_ fun _ => Shrinks.pure _
          refine (@Shrinks.bind _ _ _ _ _ 0 1 (hflags.mono (Nat.zero_le _)) fun flags => ?_).mono (by decide)
          exact Shrinks.forEach_of_mem (shrinks_initializer hde flags) hi
            (sized_initializer hde (fun name => (ih name).2) flags hisized)

end

/-! ### What the log says -/

/-- A length is accounted for: what it counts fits the bytes behind it wherever it was read, and where it was not, the
whole reading ends in the same way.  Elements that take no bytes are always read, or asked for beyond the memory. -/
structure Accounted {ν : Type} (p : LengthPrefix ν) (ending : Outcome IoError Unit) : Prop where
  fits : p.ending = .ok () → p.counted ≠ .elements .default → p.count ≤ p.unread
  unresolved : p.counted = .elements .default → ∀ e, p.ending ≠ .err e
  passesOn : p.ending ≠ .ok () → ending = p.ending

section

open LogReader

variable {ν : Type}

theorem lasts_accounted : Lasts (ε := IoError) (Accounted (ν := ν)) := fun _ _ h =>
  ⟨h.fits, h.unresolved, fun hne => absurd (h.passesOn hne).symm hne⟩

theorem ending_eq_ok {α : Type} {x : Outcome IoError α} (h : x.ending = .ok ()) : ∃ a, x = .ok a := by
  cases x with
  | ok a => exact ⟨a, rfl⟩
  | err e => cases h
  | panic => cases h
  | exhausted => cases h

theorem explains_counting {α : Type} {counted : Counted ν} {count : Nat} {r : LengthReader ν α}
    (h : Explains Accounted r) (hshrinks : counted ≠ .elements .default → Shrinks count r.unlogged)
    (hdefault : counted = .elements .default → ∀ c e, (r.unlogged c).ending ≠ .err e) :
    Explains Accounted (counting counted count r) := by
  refine h.noting fun c => ⟨fun hok hne => ?_, fun hcounted => hdefault hcounted c, fun _ => rfl⟩
  obtain ⟨⟨a, c'⟩, ha⟩ := ending_eq_ok hok
  have htaken := hshrinks hne c a c' ha
  dsimp only
  omega

theorem explains_readLogged (m : Method) : Explains Accounted (m.readLogged : LengthReader ν (Value ν)) := by
  cases m with
  | utf =>
    refine (Explains.silent _).bind lasts_accounted fun length => ?_
    refine Explains.bind lasts_accounted ?_ fun _ => Explains.pure _
    exact explains_counting (Explains.silent _) (fun _ => shrinks_readUtfBytes _) fun h => by cases h
  | _ => exact Explains.silent _

variable [DecidableEq ν] [ToString ν] {P : Protocol ν} {deserialize : ν → LengthReader ν (Value ν)}

theorem explains_readVariantLogged (h : ∀ name, Explains Accounted (deserialize name)) (base : ν) :
    Explains Accounted (readVariantLogged P deserialize base) := by
  refine (Explains.silent _).bind lasts_accounted fun typeId => ?_
  unfold deserializeWithIdLogged
  split
  · exact (h _).bind lasts_accounted fun _ => Explains.pure _
  · exact Explains.silent _

theorem explains_elementRead (h : ∀ name, Explains Accounted (deserialize name)) (element : ElementRead ν) :
    Explains Accounted (element.runLogged P deserialize) := by
  cases element with
  | deserialize name =>
    cases name with
    | none => exact Explains.silent _
    | some name => exact h name
  | default => exact Explains.pure _
  | variant base => exact explains_readVariantLogged h base
  | call m => exact explains_readLogged m

theorem replicate_default_ne_err (n : Nat) (c : Cursor) (e : IoError) :
    ((withCapacity n >>= fun _ => Wire.Reader.replicate ((ElementRead.default (ν := ν)).run P
      fun name => (deserialize name).unlogged) n) c).ending ≠ .err e := by
  have hread : ∀ n c, ∃ vs, Wire.Reader.replicate ((ElementRead.default (ν := ν)).run P
      fun name => (deserialize name).unlogged) n c = .ok (vs, c) := by
    intro n
    induction n with
    | zero => exact fun c => ⟨[], rfl⟩
    | succ n ih =>
      intro c
      obtain ⟨vs, hvs⟩ := ih c
      refine ⟨.bytes [] :: vs, ?_⟩
      rw [Wire.Reader.replicate, ElementRead.run, Wire.Reader.bind_apply, Wire.Reader.pure_apply, Outcome.ok_bind]
      dsimp only
      rw [ElementRead.run] at hvs
      rw [Wire.Reader.bind_apply, hvs]
      rfl
  rw [Wire.Reader.bind_apply, withCapacity]
  split_ifs
  · exact fun h => by cases h
  · obtain ⟨vs, hvs⟩ := hread n c
    rw [Wire.Reader.pure_apply, Outcome.ok_bind, hvs]
    exact fun h => by cases h

theorem explains_initializer (h : ∀ name, Explains Accounted (deserialize name))
    (hde : ∀ name, Shrinks 0 (deserialize name).unlogged) (flags : List UInt8) {i : Initializer ν}
    {sized : ν → Prop} (hsized : ∀ name, sized name → Shrinks 1 (deserialize name).unlogged)
    (hi : i.SizedElements sized) : Explains Accounted (i.runLogged P deserialize flags) := by
  cases i with
  | flag flagIdx bit =>
    rw [Initializer.runLogged]
    split
    · exact Explains.pure _
    · exact Explains.silent _
    · exact Explains.silent _
  | call m => exact explains_readLogged m
  | byteArray =>
    refine (Explains.silent _).bind lasts_accounted fun len => ?_
    refine Explains.bind lasts_accounted ?_ fun _ => Explains.pure _
    exact explains_counting (Explains.silent _) (fun _ => shrinks_readBytes _) fun h => by cases h
  | deserialize name =>
    cases name with
    | none => exact Explains.silent _
    | some name => exact h name
  | vector length element =>
    refine (Explains.silent _).bind lasts_accounted fun count => ?_
    refine Explains.bind lasts_accounted ?_ fun _ => Explains.pure _
    refine explains_counting ((Explains.silent _).bind lasts_accounted fun _ =>
      (explains_elementRead h element).replicate lasts_accounted count) (fun hne => ?_) fun hdefault c e => ?_
    · have helement : element ≠ .default := fun hdefault => hne (congrArg Counted.elements hdefault)
      -- elements of some size take at least one byte each, so there are not more of them than bytes
      have hone : Shrinks 1 (element.run P fun name => (deserialize name).unlogged) :=
        sized_elementRead hde helement fun t ht => hsized t (by rwa [ht] at hi)
      have hall := hone.replicate_mul count
      rw [Nat.mul_one] at hall
      rw [unlogged_bind, unlogged_replicate, unlogged_elementRead]
      exact (@Shrinks.bind _ _ _ _ _ 0 count (shrinks_withCapacity count) fun _ => hall).mono
        (Nat.le_of_eq (Nat.zero_add count).symm)
    · obtain rfl := Counted.elements.inj hdefault
      rw [unlogged_bind, unlogged_replicate, unlogged_elementRead]
      exact replicate_default_ne_err count c e
  | variant base => exact explains_readVariantLogged h base
  | default => exact Explains.pure _

/-- Every length in a payload is accounted for. -/
theorem explains_deserializeLogged {body : ν → Option (DeserializeBody ν)} {sized : ν → Prop}
    (hbodies : SizedBodies body sized) (n : Nat) : ∀ name, Explains Accounted (P.deserializeLogged body n name) := by
  induction n with
  | zero => exact fun name => Explains.silent _
  | succ n ih =>
    intro name
    have hshrinks : ∀ name, Shrinks 0 (P.deserializeLogged body n name).unlogged ∧
        (sized name → Shrinks 1 (P.deserializeLogged body n name).unlogged) := by
      intro name
      rw [unlogged_deserializeLogged]
      exact shrinks_deserializeWith hbodies n name
    rw [Protocol.deserializeLogged]
    cases hb : body name with
    | none => exact Explains.silent _
    | some b =>
      refine Explains.bind lasts_accounted ?_ fun _ => Explains.pure _
      refine (Explains.silent _).bind lasts_accounted fun flags => Explains.forEach lasts_accounted fun i hi => ?_
      exact explains_initializer ih (fun name => (hshrinks name).1) flags (fun name => (hshrinks name).2)
        (hbodies.elements name b hb i hi)

end

end Otomai.ProtocolGen
