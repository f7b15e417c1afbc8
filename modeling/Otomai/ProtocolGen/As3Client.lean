import Otomai.ProtocolGen.As3Parser
import Otomai.ProtocolGen.Layout

/-!
# What the client writes

A class of the client writes a field by the calls in its text: a method of the output, the method `serializeAs_T` of a
type, or the id of a type and its `serialize`.  The generated code writes the field by its type.

* `ClientWrite.run_eq`: both write the same bytes if the methods are known.
* `ClientWrite.known_of_eq`: a method that is not known writes other bytes for some value.
-/

namespace Otomai.ProtocolGen

open Wire BigEndianWriter

/-! ### The output -/

/-- The method of the client's output of a name.  `writeBytes` is not among them, it writes bytes as they are. -/
def clientMethod (method : List Char) : Option Method :=
  match String.ofList method with
  | "writeBoolean" => some .boolean
  | "writeByte" => some .byte
  | "writeUnsignedByte" => some .byte
  | "writeShort" => some .short
  | "writeUnsignedShort" => some .ushort
  | "writeUShort" => some .ushort
  | "writeInt" => some .int
  | "writeUnsignedInt" => some .uint
  | "writeUInt" => some .uint
  | "writeFloat" => some .float
  | "writeDouble" => some .double
  | "writeUTF" => some .utf
  | "writeVarInt" => some .varInt
  | "writeVarUhInt" => some .varUint
  | "writeVarUInt" => some .varUint
  | "writeVarShort" => some .varShort
  | "writeVarUhShort" => some .varUshort
  | "writeVarUShort" => some .varUshort
  | "writeVarLong" => some .varLong
  | "writeVarUhLong" => some .varUlong
  | "writeVarULong" => some .varUlong
  | _ => none

/-- `output.writeXxx(v)`.  Another name is none of a method of the output. -/
def clientWrite (method : List Char) (v : Value String) : Outcome IoError (List UInt8) :=
  match clientMethod method with
  | some m => m.write v
  | none =>
    match v with
    | .bytes data => if String.ofList method = "writeBytes" then .ok (writeBytes data) else .panic
    | _ => .panic

/-- A number as the argument of a method for whole numbers. -/
def Method.ofCount : Method → Nat → Option (Value String)
  | byte, n => some (.u8 (UInt8.ofNat n))
  | short, n => some (.i16 (Int16.ofNat n))
  | ushort, n => some (.u16 (UInt16.ofNat n))
  | int, n => some (.i32 (Int32.ofNat n))
  | uint, n => some (.u32 (UInt32.ofNat n))
  | varInt, n => some (.i32 (Int32.ofNat n))
  | varUint, n => some (.u32 (UInt32.ofNat n))
  | varShort, n => some (.i16 (Int16.ofNat n))
  | varUshort, n => some (.u16 (UInt16.ofNat n))
  | varLong, n => some (.i64 (Int64.ofNat n))
  | varUlong, n => some (.u64 (UInt64.ofNat n))
  | _, _ => none

/-- `output.writeXxx(this.arr.length)`.  A length is written as a whole number. -/
def clientLength (method : List Char) (n : Nat) : Outcome IoError (List UInt8) :=
  match clientMethod method with
  | some m =>
    match m.ofCount n with
    | some v => m.write v
    | none => .panic
  | none => .panic

/-! ### Fields -/

/-- How a field, or an element of a vector, is written. -/
inductive ClientCall where
  /-- `output.writeXxx(v)` -/
  | call (method : List Char)
  /-- `v.serializeAs_T(output)` -/
  | serializeAs
  /-- `output.writeShort(v.getTypeId())`, then `v.serialize(output)`. -/
  | polymorphic

inductive ClientWrite where
  | single (call : ClientCall)
  /-- `output.writeXxx(this.arr.length)`, then the elements in a loop. -/
  | vector (lengthMethod : List Char) (call : ClientCall)

section

variable (P : Protocol String) (ser : Value String → Outcome IoError (List UInt8))

def ClientCall.run : ClientCall → Value String → Outcome IoError (List UInt8)
  | call method, v => clientWrite method v
  | serializeAs, v => ser v
  | polymorphic, v => writeVariant P ser v

def ClientWrite.run : ClientWrite → Value String → Outcome IoError (List UInt8)
  | single call, v => call.run P ser v
  | vector lengthMethod call, .vec elements => do
    let n ← clientLength lengthMethod elements.length
    let w ← writeEach (call.run P ser) elements
    pure (n ++ w)
  | vector _ _, _ => .panic

end

/-- The type that the generator gives to what the call writes. -/
def ClientCall.Declares : ClientCall → FieldType String → Prop
  | call method, t => t = writerToFieldType method
  | serializeAs, t => ∃ name, t = .type (some name)
  | polymorphic, t => ∃ base, t = .typeManager (some base)

def ClientWrite.Declares : ClientWrite → FieldType String → Prop
  | single call, t => call.Declares t
  | vector lengthMethod call, t => ∃ inner, t = .vector inner (String.ofList lengthMethod) ∧ call.Declares inner

/-- The generator knows the method by its name: it is one that `writer_to_field_type` lists, and not `writeBytes`. -/
def ClientCall.Known : ClientCall → Prop
  | call method => clientMethod method = some (primitiveMethod (writerToFieldType method))
  | _ => True

/-- The generator knows the methods by their names, that of a length as one that `length_write_method` lists or as
`writeShort`. -/
def ClientWrite.Known : ClientWrite → Prop
  | single call => call.Known
  | vector lengthMethod call =>
    clientMethod lengthMethod = some (lengthWriteMethod (String.ofList lengthMethod)) ∧ call.Known

instance (call : ClientCall) : Decidable call.Known := by
  cases call <;> unfold ClientCall.Known <;> infer_instance

instance (write : ClientWrite) : Decidable write.Known := by
  cases write <;> unfold ClientWrite.Known <;> infer_instance

/-! ### Names of methods -/

/-- All names but one that the output knows are read by the generator as the same method. -/
theorem clientMethod_eq_some {method : List Char} {m : Method} (h : clientMethod method = some m) :
    m = primitiveMethod (writerToFieldType method) ∨ (m = .ushort ∧ writerToFieldType method = .byte) := by
  unfold clientMethod at h
  split at h
  all_goals first
    | (rename_i heq
       obtain rfl := Option.some.inj h
       unfold writerToFieldType
       rw [heq]
       first
         | exact .inl rfl
         | exact .inr ⟨rfl, rfl⟩)
    | cases h

/-- A name that the output does not know is read as bytes, if it is `writeBytes`, or as a byte. -/
theorem writerToFieldType_of_none {method : List Char} (h : clientMethod method = none) :
    (String.ofList method = "writeBytes" ∧ writerToFieldType method = .byteArray) ∨
      (String.ofList method ≠ "writeBytes" ∧ writerToFieldType method = .byte) := by
  by_cases hbytes : String.ofList method = "writeBytes"
  · left
    refine ⟨hbytes, ?_⟩
    unfold writerToFieldType
    rw [hbytes]
    rfl
  · right
    refine ⟨hbytes, ?_⟩
    unfold clientMethod at h
    split at h
    all_goals first
      | (cases h; done)
      | (unfold writerToFieldType
         split
         all_goals first
           | rfl
           | contradiction)

theorem writeStatement_of_known {method : List Char} (h : (ClientCall.call method).Known) :
    writeStatement (writerToFieldType method) 0 = .call (primitiveMethod (writerToFieldType method)) 0 := by
  have hne : String.ofList method ≠ "writeBytes" := by
    intro hbytes
    have hnone : clientMethod method = none := by
      unfold clientMethod
      rw [hbytes]
      rfl
    rw [ClientCall.Known, hnone] at h
    cases h
  unfold writerToFieldType
  split
  all_goals first
    | rfl
    | contradiction

theorem elementWrite_of_writer (method : List Char) :
    elementWrite (writerToFieldType method) = .call (primitiveMethod (writerToFieldType method)) := by
  unfold writerToFieldType
  split
  all_goals rfl

/-- The generated code takes a length as the method of the output does that it takes it to be. -/
theorem ofCount_lengthWriteMethod (lengthType : String) (n : Nat) :
    (lengthWriteMethod lengthType).ofCount n = some ((lengthWriteMethod lengthType).ofLength n) := by
  unfold lengthWriteMethod
  split
  all_goals rfl

/-- The length 1 is written otherwise than as a short by every method that the generator takes for `writeShort`. -/
theorem clientLength_one {method : List Char} {m : Method} (h : clientMethod method = some m)
    (hne : m ≠ lengthWriteMethod (String.ofList method)) {n : List UInt8} (hn : clientLength method 1 = .ok n) :
    lengthWriteMethod (String.ofList method) = .short ∧ ((∃ r, n = 1 :: r) ∨ ∃ r, n = 0 :: 0 :: r) := by
  rw [clientLength, h] at hn
  unfold clientMethod at h
  split at h
  all_goals first
    | (rename_i heq
       obtain rfl := Option.some.inj h
       rw [heq] at hne ⊢
       first
         | exact absurd rfl hne
         | (obtain rfl := Outcome.ok.inj hn
            refine ⟨rfl, ?_⟩
            first
              | exact .inr ⟨_, rfl⟩
              | (left
                 exact ⟨[], by decide +kernel⟩))
         | cases hn)
    | cases h

/-! ### Both writers -/

theorem writeEach_congr {write write' : Value String → Outcome IoError (List UInt8)} {vs : List (Value String)}
    (h : ∀ v ∈ vs, write v = write' v) : writeEach write vs = writeEach write' vs := by
  induction vs with
  | nil => rfl
  | cons v vs ih =>
    rw [writeEach, writeEach, h v (List.mem_cons_self ..), ih fun x hx => h x (List.mem_cons_of_mem _ hx)]

section

variable {P : Protocol String} {values : String → Value String → Prop}
  {ser : Value String → Outcome IoError (List UInt8)}

theorem clientWrite_of_known {method : List Char} (h : (ClientCall.call method).Known) (v : Value String) :
    clientWrite method v = (primitiveMethod (writerToFieldType method)).write v := by
  unfold clientWrite
  rw [show clientMethod method = _ from h]

/-- Elements whose methods are known are written alike. -/
theorem ClientCall.run_element {call : ClientCall} {t : FieldType String} (hdeclares : call.Declares t)
    (hknown : call.Known) : call.run P ser = (elementWrite t).run P ser := by
  funext v
  cases call with
  | call method =>
    obtain rfl := hdeclares
    rw [elementWrite_of_writer, ClientCall.run, clientWrite_of_known hknown]
    rfl
  | serializeAs =>
    obtain ⟨name, rfl⟩ := hdeclares
    rfl
  | polymorphic =>
    obtain ⟨base, rfl⟩ := hdeclares
    rfl

/-- A field whose methods are known is written alike. -/
theorem ClientWrite.run_eq {write : ClientWrite} {t : FieldType String} (hdeclares : write.Declares t)
    (hknown : write.Known) {v : Value String} (hv : EncodableField P values t v) :
    write.run P ser v = (writeStatement t 0).run P ser [v] := by
  cases write with
  | single call =>
    cases call with
    | call method =>
      obtain rfl := hdeclares
      rw [writeStatement_of_known hknown, ClientWrite.run, ClientCall.run, clientWrite_of_known hknown]
      rfl
    | serializeAs =>
      obtain ⟨name, rfl⟩ := hdeclares
      rfl
    | polymorphic =>
      obtain ⟨base, rfl⟩ := hdeclares
      rfl
  | vector lengthMethod call =>
    obtain ⟨inner, rfl, hinner⟩ := hdeclares
    obtain ⟨xs, rfl, -, -⟩ := hv
    have hlength : clientLength lengthMethod xs.length =
        (lengthWriteMethod (String.ofList lengthMethod)).write
          ((lengthWriteMethod (String.ofList lengthMethod)).ofLength xs.length : Value String) := by
      rw [clientLength, hknown.1]
      dsimp only
      rw [ofCount_lengthWriteMethod]
    rw [ClientWrite.run, hlength, ClientCall.run_element hinner hknown.2]
    rfl

/-- Only the values of its own classes are serialized by nested calls. -/
theorem ClientCall.run_nested {ser' : Value String → Outcome IoError (List UInt8)}
    (hser : ∀ name v, values name v → ser v = ser' v) {call : ClientCall} {t : FieldType String}
    (hdeclares : call.Declares t) {v : Value String} (hv : EncodableField P values t v) :
    call.run P ser v = call.run P ser' v := by
  cases call with
  | call method => rfl
  | serializeAs =>
    obtain ⟨name, rfl⟩ := hdeclares
    exact hser name v hv
  | polymorphic =>
    obtain ⟨base, rfl⟩ := hdeclares
    obtain ⟨name, id, content, rfl, -, hcontent⟩ := hv
    simp only [ClientCall.run, writeVariant, hser name content hcontent]

theorem ClientWrite.run_nested {ser' : Value String → Outcome IoError (List UInt8)}
    (hser : ∀ name v, values name v → ser v = ser' v) {write : ClientWrite} {t : FieldType String}
    (hdeclares : write.Declares t) {v : Value String} (hv : EncodableField P values t v) :
    write.run P ser v = write.run P ser' v := by
  cases write with
  | single call => exact ClientCall.run_nested hser hdeclares hv
  | vector lengthMethod call =>
    obtain ⟨inner, rfl, hinner⟩ := hdeclares
    obtain ⟨xs, rfl, -, hxs⟩ := hv
    have heach := writeEach_congr fun x hx => ClientCall.run_nested hser hinner (hxs x hx)
    rw [ClientWrite.run, ClientWrite.run, heach]

/-- A call that writes the values of a supported type, other than a bare `writeBytes`, is known. -/
theorem ClientCall.known_of_ok {call : ClientCall} {t : FieldType String} (hdeclares : call.Declares t)
    (hbytes : t ≠ .byteArray) {v : Value String} (hv : EncodableField P values t v) {w : List UInt8}
    (hw : call.run P ser v = .ok w) : call.Known := by
  cases call with
  | call method =>
    obtain rfl := hdeclares
    rw [ClientCall.run] at hw
    unfold clientWrite at hw
    cases hmethod : clientMethod method with
    | some m =>
      rw [hmethod] at hw
      rcases clientMethod_eq_some hmethod with rfl | ⟨rfl, hbyte⟩
      · exact hmethod
      · rw [hbyte] at hv
        obtain ⟨n, rfl⟩ := hv
        cases hw
    | none =>
      rw [hmethod] at hw
      rcases writerToFieldType_of_none hmethod with ⟨-, htype⟩ | ⟨-, hbyte⟩
      · exact absurd htype hbytes
      · rw [hbyte] at hv
        obtain ⟨n, rfl⟩ := hv
        cases hw
  | serializeAs => trivial
  | polymorphic => trivial

/-- Bytes with a length before them are longer than the bytes alone, and by more the more there are. -/
theorem byteArray_ne {G C : List UInt8} (h : ∀ data : List UInt8, data.length < 2 ^ 31 →
    writeVarInt (Int32.ofNat data.length) ++ writeBytes data ++ G = writeBytes data ++ C) : False := by
  have hlength : ∀ n < 2 ^ 31, (writeVarInt (Int32.ofNat n)).length + G.length = C.length := by
    intro n hn
    have hall := congrArg List.length (h (List.replicate n 0) (by rwa [List.length_replicate]))
    simp only [List.length_append, List.length_replicate, writeBytes] at hall
    omega
  have hone := hlength 127 (by decide)
  have htwo := hlength 128 (by decide)
  rw [show (writeVarInt (Int32.ofNat 127)).length = 1 by decide +kernel] at hone
  rw [show (writeVarInt (Int32.ofNat 128)).length = 2 by decide +kernel] at htwo
  omega

/-- A field that is written alike for all its values, whatever follows it, has known methods. -/
theorem ClientWrite.known_of_eq {write : ClientWrite} {t : FieldType String} (hdeclares : write.Declares t)
    (hs : Supported t) {v : Value String} (hv : EncodableField P values t v) (hfull : ∀ xs, v = .vec xs → xs ≠ [])
    {G C : List UInt8} (h : ∀ v, EncodableField P values t v → ∃ w w', (writeStatement t 0).run P ser [v] = .ok w ∧
      write.run P ser v = .ok w' ∧ w ++ G = w' ++ C) : write.Known := by
  cases write with
  | single call =>
    by_cases hbytes : t = .byteArray
    · subst hbytes
      refine (@byteArray_ne G C fun data hdata => ?_).elim
      obtain ⟨w, w', hw, hw', heq⟩ := h (.bytes data) ⟨data, rfl, hdata⟩
      obtain rfl := Outcome.ok.inj hw
      cases call with
      | call method =>
        rw [ClientWrite.run, ClientCall.run] at hw'
        unfold clientWrite at hw'
        cases hmethod : clientMethod method with
        | some m =>
          rw [hmethod] at hw'
          cases m <;> cases hw'
        | none =>
          rw [hmethod] at hw'
          dsimp only at hw'
          split at hw'
          · obtain rfl := Outcome.ok.inj hw'
            exact heq
          · cases hw'
      | serializeAs =>
        obtain ⟨name, hname⟩ := hdeclares
        cases hname
      | polymorphic =>
        obtain ⟨base, hbase⟩ := hdeclares
        cases hbase
    · obtain ⟨w, w', -, hw', -⟩ := h v hv
      exact ClientCall.known_of_ok hdeclares hbytes hv hw'
  | vector lengthMethod call =>
    obtain ⟨inner, rfl, hinner⟩ := hdeclares
    obtain ⟨xs, rfl, -, hxs⟩ := hv
    obtain ⟨x, hx⟩ := List.exists_mem_of_ne_nil xs (hfull xs rfl)
    have hfits : FitsLength (String.ofList lengthMethod) 1 := by
      unfold FitsLength
      split <;> decide
    -- a vector of one element
    obtain ⟨w, w', hw, hw', heq⟩ := h (.vec [x]) ⟨[x], rfl, hfits, fun y hy => by
      obtain rfl := List.mem_singleton.1 hy
      exact hxs y hx⟩
    obtain ⟨n', hn', hw'⟩ := Outcome.bind_eq_ok.1 hw'
    obtain ⟨e', he', hw'⟩ := Outcome.bind_eq_ok.1 hw'
    obtain rfl := Outcome.ok.inj hw'
    obtain ⟨n, hn, hw⟩ := Outcome.bind_eq_ok.1 hw
    obtain ⟨e, -, hw⟩ := Outcome.bind_eq_ok.1 hw
    obtain rfl := Outcome.ok.inj hw
    obtain ⟨ex, hex, -⟩ := Outcome.bind_eq_ok.1 he'
    have hbytes : inner ≠ .byteArray := by
      rintro rfl
      exact hs
    refine ⟨?_, ClientCall.known_of_ok hinner hbytes (hxs x hx) hex⟩
    cases hmethod : clientMethod lengthMethod with
    | none =>
      rw [clientLength, hmethod] at hn'
      cases hn'
    | some m =>
      by_contra hne
      obtain ⟨hshort, hbegins⟩ := clientLength_one hmethod (fun hm => hne (congrArg some hm)) hn'
      rw [hshort] at hn
      change Method.short.write (.i16 1 : Value String) = .ok n at hn
      obtain rfl := Outcome.ok.inj hn
      rcases hbegins with ⟨r, rfl⟩ | ⟨r, rfl⟩
      · exact absurd (List.cons.inj heq).1 (by decide)
      · exact absurd (List.cons.inj (List.cons.inj heq).2).1 (by decide)

end

end Otomai.ProtocolGen
