import Otomai.ProtocolGen.Inheritance

/-!
# The layout of the client

A class is serialized by the client item by item: a flag byte with every flag at its own bit, or a field with the
calls in its text.  The generator regroups flags by adjacency, numbers them from zero and writes fields by their
types, so the bytes agree exactly when every box is numbered from zero, no two boxes stand next to each other, and the
generator knows the methods of every field (`layoutsAgree_iff`).
-/

namespace Otomai.ProtocolGen

open Wire BigEndianWriter

/-! ### Serializing by layout -/

/-- `_boxN = BooleanByteWrapper.setFlag(_boxN,bit,this.field)` for each flag of a box. -/
def packBox (flag : UInt8) : List (Fin 8) → List (Value String) → Outcome IoError UInt8
  | [], [] => .ok flag
  | bit :: bits, .bool b :: vs =>
    match BooleanByteWrapper.setFlag flag bit.val b with
    | .ok flag => packBox flag bits vs
    | _ => .panic
  | _, _ => .panic

section

variable (P : Protocol String) (ser : Value String → Outcome IoError (List UInt8))

def LayoutItem.write : LayoutItem → List (Value String) → Outcome IoError (List UInt8)
  | box first others, vs => do
    let flag ← packBox 0 ((first :: others).map Prod.fst) vs
    pure (writeByte flag)
  | field _ _ write _, [v] => write.run P ser v
  | field _ _ _ _, _ => .panic

/-- The items of a layout, each with the values of its own fields. -/
def writeItems : List LayoutItem → List (Value String) → Outcome IoError (List UInt8)
  | [], _ => .ok []
  | item :: items, vs => do
    let w ← item.write P ser (vs.take item.fields.length)
    let ws ← writeItems items (vs.drop item.fields.length)
    pure (w ++ ws)

/-- What the generator emits for a field list. -/
def writeFields (fields : List (ProtocolField String)) (vs : List (Value String)) : Outcome IoError (List UInt8) :=
  runStatements P ser vs (serializeBody fields)

end

/-- `serializeAs_C` of the client, with at most the given number of nested calls. -/
def Hierarchy.serialize (H : Hierarchy) : Nat → Value String → Outcome IoError (List UInt8)
  | 0, _ => .exhausted
  | n + 1, .struct name vs =>
    match H.find name with
    | some c => writeItems H.declared (H.serialize n) (H.layout c) vs
    | none => .panic
  | _, _ => .panic

/-! ### Layouts that are kept -/

/-- The flags of a box are numbered from zero, in order, and the generator knows the methods of a field. -/
def LayoutItem.Kept : LayoutItem → Prop
  | box first others => ((first :: others).map fun flag => flag.1.val) = List.range (others.length + 1)
  | field _ _ write _ => write.Known

instance (item : LayoutItem) : Decidable item.Kept := by
  cases item <;> unfold LayoutItem.Kept <;> infer_instance

structure LayoutKept (items : List LayoutItem) : Prop where
  each : ∀ item ∈ items, item.Kept
  apart : items.IsChain fun a b => ¬(a.isBox = true ∧ b.isBox = true)

/-! ### Flag bytes -/

/-- Bits that count up are packed as the generated code packs its flags. -/
theorem packBox_eq_packFlags {vs : List (Value String)} (bs : List Bool) : ∀ (bits : List (Fin 8)) (i bit : Nat)
    (flag : UInt8) (rest : List (Value String)), bits.map Fin.val = List.range' bit bs.length →
    vs.drop i = bs.map .bool ++ rest →
    packFlags vs flag bit (List.range' i bs.length) = packBox flag bits (bs.map .bool) := by
  induction bs with
  | nil =>
    intro bits i bit flag rest hbits _
    obtain rfl := List.map_eq_nil_iff.1 hbits
    rfl
  | cons b bs ih =>
    intro bits i bit flag rest hbits hvs
    cases bits with
    | nil => cases hbits
    | cons x bits =>
      rw [List.length_cons, List.range'_succ, List.map_cons] at hbits
      obtain ⟨hx, hbits⟩ := List.cons.inj hbits
      obtain ⟨hget, hvs'⟩ := getElem?_of_drop_eq_cons hvs
      obtain ⟨flag', hflag, -⟩ := BooleanByteWrapper.setFlag_eq flag x.isLt b
      have hrest := ih bits (i + 1) (bit + 1) flag' rest hbits hvs'
      rw [List.length_cons, List.range'_succ, packFlags, List.map_cons, packBox, hget]
      simp only [← hx, hflag] at hrest ⊢
      exact hrest

/-- A box can be packed, and a bit that is set in it was set before or belongs to a flag that is set. -/
theorem packBox_bits (bs : List Bool) : ∀ (bits : List (Fin 8)) (flag : UInt8), bits.length = bs.length →
    ∃ flag', packBox flag bits (bs.map .bool) = .ok flag' ∧ ∀ t < 8, flag'.toNat.testBit t = true →
      flag.toNat.testBit t = true ∨ ∃ j : Nat, bs[j]? = some true ∧ (bits.map Fin.val)[j]? = some t := by
  induction bs with
  | nil =>
    intro bits flag hlen
    obtain rfl := List.length_eq_zero_iff.1 hlen
    exact ⟨flag, rfl, fun t _ h => Or.inl h⟩
  | cons b bs ih =>
    intro bits flag hlen
    cases bits with
    | nil => cases hlen
    | cons x bits =>
      obtain ⟨flag₁, h₁, hset⟩ := BooleanByteWrapper.setFlag_eq flag x.isLt b
      obtain ⟨flag₂, h₂, hbits⟩ := ih bits flag₁ (Nat.succ.inj hlen)
      refine ⟨flag₂, ?_, fun t ht htrue => ?_⟩
      · rw [List.map_cons, packBox]
        simp only [h₁, h₂]
      · rcases hbits t ht htrue with hflag | ⟨j, hj, hbit⟩
        · rw [hset t ht] at hflag
          by_cases hx : t = x.val
          · rw [if_pos hx] at hflag
            exact Or.inr ⟨0, congrArg some hflag, congrArg some hx.symm⟩
          · rw [if_neg hx] at hflag
            exact Or.inl hflag
        · exact Or.inr ⟨j + 1, hj, hbit⟩

/-! ### Emitted code by groups -/

variable {P : Protocol String} {ser : Value String → Outcome IoError (List UInt8)}

/-- What is emitted for a field list does not depend on where it stands in the struct. -/
theorem runStatements_shift (fields : List (ProtocolField String)) : ∀ {G G' : List (Nat × List Nat)} {i i' : Nat}
    {vs vs' : List (Value String)}, GroupsFrom G i fields → GroupsFrom G' i' fields → vs.drop i = vs'.drop i' →
    runStatements P ser vs (writeSerializeBody G i 0 fields) =
      runStatements P ser vs' (writeSerializeBody G' i' 0 fields) := by
  have hget {i i' : Nat} {vs vs' : List (Value String)} (h : vs.drop i = vs'.drop i') (j : Nat) :
      vs[i + j]? = vs'[i' + j]? := by
    rw [← List.getElem?_drop, ← List.getElem?_drop, h]
  induction fields using groupInduction with
  | nil =>
    intro G G' i i' vs vs' _ _ _
    rfl
  | field f fs hf ih =>
    intro G G' i i' vs vs' hG hG' h
    have hrun := @field_run_congr _ _ P ser f.fieldType _ _ _ _ (hget h 0)
    have hrest := ih (hG.field hf).2 (hG'.field hf).2 (by rw [← List.drop_drop, h, List.drop_drop])
    rw [writeSerializeBody_field hG hf, writeSerializeBody_field hG' hf, runStatements, runStatements, hrest]
    simp only [Nat.add_zero] at hrun
    rw [hrun]
  | group g fs hne hg hfs ih =>
    intro G G' i i' vs vs' hG hG' h
    have hflags := @packFlags_congr _ vs vs' g.length i i' (fun j _ => hget h j) 0 0
    have hrest := ih (hG.group hne hg hfs).2 (hG'.group hne hg hfs).2 (by rw [← List.drop_drop, h, List.drop_drop])
    rw [writeSerializeBody_group hG hne hg hfs, writeSerializeBody_group hG' hne hg hfs, runStatements, runStatements,
      hrest, WriteStatement.run, WriteStatement.run, hflags]

theorem writeFields_field {f : ProtocolField String} (hf : f.isFlag = false) (fs : List (ProtocolField String))
    (u : Value String) (us : List (Value String)) : writeFields P ser (f :: fs) (u :: us) = (do
      let w ← (writeStatement f.fieldType 0).run P ser [u]
      let ws ← writeFields P ser fs us
      pure (w ++ ws)) := by
  have hG := groupsFrom_zero (f :: fs)
  have hfield := @field_run_congr _ _ P ser f.fieldType 0 0 (u :: us) ([u]) rfl
  have hrest := @runStatements_shift P ser fs _ _ _ _ (u :: us) us (hG.field hf).2 (groupsFrom_zero fs) rfl
  unfold writeFields serializeBody
  rw [writeSerializeBody_field hG hf, runStatements, hfield, hrest]

theorem writeFields_group {g fs : List (ProtocolField String)} (hne : g ≠ []) (hg : ∀ f ∈ g, f.isFlag = true)
    (hfs : ∀ f ∈ fs.head?, f.isFlag = false) {bs : List Bool} (hlen : bs.length = g.length)
    (us : List (Value String)) :
    writeFields P ser (g ++ fs) (bs.map .bool ++ us) = (do
      let flag ← packFlags (bs.map .bool ++ us) 0 0 (List.range' 0 bs.length)
      let ws ← writeFields P ser fs us
      pure (flag :: ws)) := by
  have hG := groupsFrom_zero (g ++ fs)
  have hrest := @runStatements_shift P ser fs _ _ _ _ (bs.map .bool ++ us) us
      (hG.group hne hg hfs).2 (groupsFrom_zero fs) (by simp [← hlen])
  unfold writeFields serializeBody
  rw [writeSerializeBody_group hG hne hg hfs, runStatements, hrest, WriteStatement.run, hlen]
  cases packFlags (bs.map .bool ++ us) 0 0 (List.range' 0 g.length) <;> rfl

/-! ### Nested calls -/

variable {values : String → Value String → Prop} {ser' : Value String → Outcome IoError (List UInt8)}

private theorem writeEach_ok {write : Value String → Outcome IoError (List UInt8)} {vs : List (Value String)}
    (h : ∀ v ∈ vs, ∃ w, write v = .ok w) : ∃ w, writeEach write vs = .ok w := by
  induction vs with
  | nil => exact ⟨[], rfl⟩
  | cons v vs ih =>
    obtain ⟨w, hw⟩ := h v (List.mem_cons_self ..)
    obtain ⟨ws, hws⟩ := ih fun x hx => h x (List.mem_cons_of_mem _ hx)
    exact ⟨w ++ ws, by rw [writeEach, hw, hws]; rfl⟩

/-- A supported field is written when the values of its classes are. -/
theorem field_run_ok (hser : ∀ name v, values name v → ∃ w, ser v = .ok w) {t : FieldType String} (hs : Supported t)
    {u : Value String} (h : EncodableField P values t u) : ∃ w, (writeStatement t 0).run P ser [u] = .ok w := by
  have hscalar {m : Method} {v : Value String} (hv : Scalar m.rustType v) : ∃ w, m.write v = .ok w :=
    (Method.reads hv).imp fun _ hw => hw.1
  have helement {inner : FieldType String} (hinner : ElementSupported inner) {v : Value String}
      (hv : EncodableField P values inner v) : ∃ w, (elementWrite inner).run P ser v = .ok w := by
    cases inner with
    | type name =>
      cases name with
      | none => exact hv.elim
      | some name => exact hser name v hv
    | typeManager name => exact hinner.elim
    | vector inner lengthType => exact hinner.elim
    | byteArray => exact hinner.elim
    | long => exact hinner.elim
    | ulong => exact hinner.elim
    | _ => exact hscalar (m := primitiveMethod _) hv
  cases t with
  | type name =>
    cases name with
    | none => exact h.elim
    | some name => exact hser name u h
  | typeManager name =>
    cases name with
    | none => exact h.elim
    | some base =>
      obtain ⟨name, id, content, rfl, hmem, hcontent⟩ := h
      obtain ⟨x, hx⟩ : ∃ x, (P.variants base).find? (·.1 = name) = some x :=
        Option.isSome_iff_exists.1 (List.find?_isSome.2 ⟨_, hmem, by simp⟩)
      obtain ⟨w, hw⟩ := hser name content hcontent
      refine ⟨writeUshort x.2.toUInt16 ++ w, ?_⟩
      simp only [writeStatement, WriteStatement.run, List.getElem?_cons_zero, writeVariant, hx, hw]
      rfl
  | byteArray =>
    obtain ⟨data, rfl, -⟩ := h
    exact ⟨_, rfl⟩
  | vector inner lengthType =>
    obtain ⟨xs, rfl, hlen, hxs⟩ := h
    obtain ⟨n, hn, -⟩ := reads_length (ν := String) hlen
    obtain ⟨w, hw⟩ := writeEach_ok fun x hx => helement hs (hxs x hx)
    refine ⟨n ++ w, ?_⟩
    simp only [writeStatement, WriteStatement.run, List.getElem?_cons_zero, hn, hw]
    rfl
  | long => exact hscalar (m := .varLong) h
  | ulong => exact hscalar (m := .varUlong) h
  | _ => exact hscalar (m := primitiveMethod _) h

/-! ### Items -/

/-- Values for the fields of the items. -/
def Encodes (P : Protocol String) (values : String → Value String → Prop) (items : List LayoutItem)
    (us : List (Value String)) : Prop :=
  List.Forall₂ (EncodableField P values) ((items.flatMap LayoutItem.fields).map ProtocolField.fieldType) us

namespace LayoutItem

theorem box_isFlag {first : Fin 8 × String} {others : List (Fin 8 × String)} :
    ∀ f ∈ (box first others).fields, f.isFlag = true ∧ f.fieldType = .bool := by
  intro f hf
  obtain ⟨flag, -, rfl⟩ := List.mem_map.1 hf
  exact ⟨rfl, rfl⟩

theorem box_ne_nil (first : Fin 8 × String) (others : List (Fin 8 × String)) : (box first others).fields ≠ [] :=
  List.cons_ne_nil _ _

theorem box_length (first : Fin 8 × String) (others : List (Fin 8 × String)) :
    (box first others).fields.length = others.length + 1 := by
  simp [fields]

end LayoutItem

theorem Encodes.field {f : ProtocolField String} {h : f.isFlag = false} {write : ClientWrite}
    {hdeclares : write.Declares f.fieldType} {items : List LayoutItem} {us : List (Value String)}
    (hus : Encodes P values (.field f h write hdeclares :: items) us) :
    ∃ v vs, us = v :: vs ∧ EncodableField P values f.fieldType v ∧ Encodes P values items vs := by
  rcases hus with _ | ⟨hv, hvs⟩
  exact ⟨_, _, rfl, hv, hvs⟩

theorem Encodes.box {first : Fin 8 × String} {others : List (Fin 8 × String)} {items : List LayoutItem}
    {us : List (Value String)} (hus : Encodes P values (.box first others :: items) us) :
    ∃ (bs : List Bool) (vs : List (Value String)), us = bs.map .bool ++ vs ∧ bs.length = others.length + 1 ∧
      Encodes P values items vs := by
  unfold Encodes at hus
  rw [List.flatMap_cons, List.map_append] at hus
  obtain ⟨us₁, us₂, h₁, h₂, rfl⟩ := forall₂_append_split hus
  obtain ⟨bs, rfl, hlen⟩ := bools_of_forall₂ (fun f hf => (LayoutItem.box_isFlag f hf).2) h₁
  exact ⟨bs, us₂, rfl, hlen.trans (LayoutItem.box_length ..), h₂⟩

/-- The flags of a box can be any. -/
theorem Encodes.box_of {first : Fin 8 × String} {others : List (Fin 8 × String)} {items : List LayoutItem}
    {bs : List Bool} (hlen : bs.length = others.length + 1) {vs : List (Value String)}
    (hvs : Encodes P values items vs) :
    Encodes P values (.box first others :: items) (bs.map .bool ++ vs) := by
  have hbools : ∀ (fs : List (ProtocolField String)) (bs : List Bool), (∀ f ∈ fs, f.fieldType = .bool) →
      bs.length = fs.length →
      List.Forall₂ (EncodableField P values) (fs.map ProtocolField.fieldType) (bs.map Value.bool) := by
    intro fs
    induction fs with
    | nil =>
      intro bs _ hlen
      obtain rfl := List.length_eq_zero_iff.1 hlen
      exact .nil
    | cons f fs ih =>
      intro bs hbool hlen
      obtain ⟨b, bs, rfl⟩ := List.exists_cons_of_length_eq_add_one hlen
      refine .cons ?_ (ih bs (fun g hg => hbool g (List.mem_cons_of_mem _ hg)) (Nat.succ.inj hlen))
      rw [hbool f (List.mem_cons_self ..)]
      exact ⟨b, rfl⟩
  unfold Encodes
  rw [List.flatMap_cons, List.map_append]
  exact List.rel_append (hbools _ bs (fun f hf => (LayoutItem.box_isFlag f hf).2)
    (hlen.trans (LayoutItem.box_length ..).symm)) hvs

theorem writeItems_field {f : ProtocolField String} {h : f.isFlag = false} {write : ClientWrite}
    {hdeclares : write.Declares f.fieldType} (items : List LayoutItem) (v : Value String) (vs : List (Value String)) :
    writeItems P ser (.field f h write hdeclares :: items) (v :: vs) = (do
      let w ← write.run P ser v
      let ws ← writeItems P ser items vs
      pure (w ++ ws)) := by
  show writeItems P ser (.field f h write hdeclares :: items) ([v] ++ vs) = _
  rw [writeItems]
  rfl

theorem writeItems_box {first : Fin 8 × String} {others : List (Fin 8 × String)} (items : List LayoutItem)
    {bs : List Bool} (hlen : bs.length = others.length + 1) (vs : List (Value String)) :
    writeItems P ser (.box first others :: items) (bs.map .bool ++ vs) = (do
      let flag ← packBox 0 ((first :: others).map Prod.fst) (bs.map .bool)
      let ws ← writeItems P ser items vs
      pure (flag :: ws)) := by
  have hfields : (bs.map (Value.bool (ν := String))).length = (LayoutItem.box first others).fields.length := by
    rw [List.length_map, hlen, LayoutItem.box_length]
  rw [writeItems, ← hfields, List.take_left, List.drop_left, LayoutItem.write]
  cases packBox 0 ((first :: others).map Prod.fst) (bs.map Value.bool) <;> rfl

private theorem box_bits_length {first : Fin 8 × String} {others : List (Fin 8 × String)} {bs : List Bool}
    (hlen : bs.length = others.length + 1) : ((first :: others).map Prod.fst).length = bs.length := by
  rw [hlen, List.length_map, List.length_cons]

theorem writeItems_nested (hser : ∀ name v, values name v → ser v = ser' v) (items : List LayoutItem) :
    ∀ us, Encodes P values items us → writeItems P ser items us = writeItems P ser' items us := by
  induction items with
  | nil => exact fun _ _ => rfl
  | cons item items ih =>
    intro us hus
    cases item with
    | field f h write hdeclares =>
      obtain ⟨v, vs, rfl, hv, hvs⟩ := hus.field
      rw [writeItems_field, writeItems_field, ClientWrite.run_nested hser hdeclares hv, ih vs hvs]
    | box first others =>
      obtain ⟨bs, vs, rfl, hlen, hvs⟩ := hus.box
      rw [writeItems_box items hlen, writeItems_box items hlen, ih vs hvs]

/-! ### Layouts that are kept are written alike -/

private theorem head_plain {items : List LayoutItem} (happart : ∀ next ∈ items.head?, next.isBox = false) :
    ∀ f ∈ (items.flatMap LayoutItem.fields).head?, f.isFlag = false := by
  cases items with
  | nil => simp
  | cons next items =>
    cases next with
    | field f hf write hdeclares =>
      intro g hg
      obtain rfl := Option.some.inj hg
      exact hf
    | box first others => cases happart _ rfl

private theorem apart_of_chain {first : Fin 8 × String} {others : List (Fin 8 × String)} {items : List LayoutItem}
    (h : (LayoutItem.box first others :: items).IsChain fun a b => ¬(a.isBox = true ∧ b.isBox = true)) :
    ∀ next ∈ items.head?, next.isBox = false := by
  intro next hnext
  cases items with
  | nil => cases hnext
  | cons item items =>
    obtain rfl := Option.some.inj hnext
    exact Bool.eq_false_of_not_eq_true fun hbox => (List.isChain_cons_cons.1 h).1 ⟨rfl, hbox⟩

private theorem supported_tail {item : LayoutItem} {items : List LayoutItem}
    (hs : FieldsSupported ((item :: items).flatMap LayoutItem.fields)) :
    FieldsSupported (items.flatMap LayoutItem.fields) := by
  intro f hf
  rw [List.flatMap_cons] at hs
  exact hs f (List.mem_append_right _ hf)

private theorem supported_field {f : ProtocolField String} {h : f.isFlag = false} {write : ClientWrite}
    {hdeclares : write.Declares f.fieldType} {items : List LayoutItem}
    (hs : FieldsSupported ((LayoutItem.field f h write hdeclares :: items).flatMap LayoutItem.fields)) :
    Supported f.fieldType :=
  (hs f (List.mem_flatMap.2 ⟨_, List.mem_cons_self .., List.mem_cons_self ..⟩)).2 h

theorem LayoutKept.written (hser : ∀ name v, values name v → ∃ w, ser v = .ok w) (items : List LayoutItem)
    (hs : FieldsSupported (items.flatMap LayoutItem.fields)) (hkept : LayoutKept items) :
    ∀ us, Encodes P values items us → ∃ w, writeFields P ser (items.flatMap LayoutItem.fields) us = .ok w ∧
      writeItems P ser items us = .ok w := by
  induction items with
  | nil =>
    intro us hus
    cases hus
    exact ⟨[], rfl, rfl⟩
  | cons item items ih =>
    intro us hus
    have hrest := ih (supported_tail hs) ⟨fun i hi => hkept.each i (List.mem_cons_of_mem _ hi), hkept.apart.of_cons⟩
    have hitem := hkept.each _ (List.mem_cons_self ..)
    cases item with
    | field f h write hdeclares =>
      obtain ⟨v, vs, rfl, hv, hvs⟩ := hus.field
      obtain ⟨w, hw⟩ := field_run_ok hser (supported_field hs) hv
      obtain ⟨ws, hfields, hitems⟩ := hrest vs hvs
      have hrun := @ClientWrite.run_eq P values ser _ _ hdeclares hitem _ hv
      refine ⟨w ++ ws, ?_, ?_⟩
      · show writeFields P ser (f :: items.flatMap LayoutItem.fields) (v :: vs) = _
        rw [writeFields_field h, hw, hfields]
        rfl
      · rw [writeItems_field, hrun, hw, hitems]
        rfl
    | box first others =>
      obtain ⟨bs, vs, rfl, hlen, hvs⟩ := hus.box
      obtain ⟨flag, hflag, -⟩ := packBox_bits bs ((first :: others).map Prod.fst) 0 (box_bits_length hlen)
      obtain ⟨ws, hfields, hitems⟩ := hrest vs hvs
      have hbits : ((first :: others).map Prod.fst).map Fin.val = List.range' 0 bs.length := by
        rw [hlen, ← List.range_eq_range', List.map_map]
        exact hitem
      have hpack := packBox_eq_packFlags bs _ 0 0 0 vs hbits rfl
      refine ⟨flag :: ws, ?_, ?_⟩
      · rw [List.flatMap_cons, writeFields_group (LayoutItem.box_ne_nil first others)
          (fun f hf => (LayoutItem.box_isFlag f hf).1) (head_plain (apart_of_chain hkept.apart))
          (hlen.trans (LayoutItem.box_length ..).symm), hpack, hflag, hfields]
        rfl
      · rw [writeItems_box items hlen, hflag, hitems]
        rfl

/-! ### Only these are -/

/-- Flags before the items are packed into the first byte at their positions, whatever flags join them. -/
theorem writeFields_pending (items : List LayoutItem) : ∀ (pre : List (ProtocolField String)) (bs : List Bool)
    (us : List (Value String)) (w : List UInt8), pre ≠ [] → (∀ f ∈ pre, f.isFlag = true) → bs.length = pre.length →
    Encodes P values items us →
    writeFields P ser (pre ++ items.flatMap LayoutItem.fields) (bs.map .bool ++ us) = .ok w →
    ∃ flag ws, w = flag :: ws ∧ ∀ j (hj : j < bs.length), flag.toNat.testBit j = bs[j] := by
  -- a group that ends here
  have hgroup {pre fs : List (ProtocolField String)} {bs : List Bool} {us : List (Value String)} {w : List UInt8}
      (hne : pre ≠ []) (hpre : ∀ f ∈ pre, f.isFlag = true) (hfs : ∀ f ∈ fs.head?, f.isFlag = false)
      (hbs : bs.length = pre.length) (hw : writeFields P ser (pre ++ fs) (bs.map .bool ++ us) = .ok w) :
      ∃ flag ws, w = flag :: ws ∧ ∀ j (hj : j < bs.length), flag.toNat.testBit j = bs[j] := by
    rw [writeFields_group hne hpre hfs hbs] at hw
    obtain ⟨flag, hflag, hw⟩ := Outcome.bind_eq_ok.1 hw
    obtain ⟨ws, -, hw⟩ := Outcome.bind_eq_ok.1 hw
    have hle : bs.length ≤ 8 := by
      by_contra hlt
      rw [packFlags_panic bs 0 0 0 us (by omega) (by omega) rfl] at hflag
      cases hflag
    obtain ⟨flag', hflag', -, hset⟩ :=
      @packFlags_eq _ (bs.map (Value.bool (ν := String)) ++ us) bs 0 0 0 us (by omega) rfl
    obtain rfl := Outcome.ok.inj (hflag'.symm.trans hflag)
    refine ⟨flag', ws, (Outcome.ok.inj hw).symm, fun j hj => ?_⟩
    rw [← hset j hj, Nat.zero_add]
  induction items with
  | nil => exact fun pre bs us w hne hpre hbs _ hw => hgroup hne hpre (by simp) hbs hw
  | cons item items ih =>
    intro pre bs us w hne hpre hbs hus hw
    cases item with
    | field f h write hdeclares =>
      refine hgroup hne hpre (fun g hg => ?_) hbs hw
      obtain rfl := Option.some.inj hg
      exact h
    | box first others =>
      obtain ⟨cs, vs, rfl, hlen, hvs⟩ := hus.box
      -- The flags of the box join the ones before them.
      rw [List.flatMap_cons, ← List.append_assoc, ← List.append_assoc, ← List.map_append] at hw
      obtain ⟨flag, ws, rfl, hbits⟩ := ih (pre ++ (LayoutItem.box first others).fields) (bs ++ cs) vs w
        (List.append_ne_nil_of_left_ne_nil hne _) (by
          intro f hf
          rcases List.mem_append.1 hf with hf | hf
          · exact hpre f hf
          · exact (LayoutItem.box_isFlag f hf).1)
        (by rw [List.length_append, List.length_append, hbs, hlen, LayoutItem.box_length]) hvs hw
      refine ⟨flag, ws, rfl, fun j hj => ?_⟩
      rw [hbits j (by rw [List.length_append]; omega), List.getElem_append_left hj]

/-- A box whose byte has every flag at its position is numbered from zero. -/
theorem bits_of_packBox {bits : List (Fin 8)} {n : Nat} (hn : bits.length = n)
    (h : ∀ bs : List Bool, bs.length = n → ∃ flag, packBox 0 bits (bs.map .bool) = .ok flag ∧
      ∀ j (hj : j < bs.length), flag.toNat.testBit j = bs[j]) : bits.map Fin.val = List.range n := by
  refine List.ext_getElem (by simp [hn]) fun j hj hj' => ?_
  rw [List.length_map, hn] at hj
  -- Only flag `j` is set.
  let bs := (List.range n).map (· == j)
  have hbs : bs.length = n := by simp [bs]
  obtain ⟨flag, hflag, hset⟩ := h bs hbs
  obtain ⟨flag', hflag', hbits⟩ := packBox_bits bs bits 0 (hn.trans hbs.symm)
  obtain rfl := Outcome.ok.inj (hflag'.symm.trans hflag)
  have htrue : flag'.toNat.testBit j = true := by
    rw [hset j (by omega)]
    simp [bs]
  have hlt : j < 8 := by
    by_contra hge
    have hpow := Nat.pow_le_pow_right (n := 2) (by decide) (Nat.not_lt.1 hge)
    rw [Nat.testBit_lt_two_pow (Nat.lt_of_lt_of_le flag'.toNat_lt hpow)] at htrue
    cases htrue
  rcases hbits j hlt htrue with h0 | ⟨i, hi, hbit⟩
  · rw [show (0 : UInt8).toNat = 0 from rfl, Nat.zero_testBit] at h0
    cases h0
  · have hij : i = j := by
      obtain ⟨hlt, hi⟩ := List.getElem?_eq_some_iff.1 hi
      simpa [bs] using hi
    subst hij
    rw [List.getElem?_eq_getElem (by rw [List.length_map]; omega)] at hbit
    rw [Option.some.inj hbit, List.getElem_range]

section

variable {first : Fin 8 × String} {others : List (Fin 8 × String)} {items : List LayoutItem}

/-- The byte of a box that is written alike has every flag at its position. -/
theorem packBox_of_written (h : ∀ us, Encodes P values (.box first others :: items) us → ∃ w,
      writeFields P ser ((LayoutItem.box first others :: items).flatMap LayoutItem.fields) us = .ok w ∧
        writeItems P ser (.box first others :: items) us = .ok w) {vs : List (Value String)}
    (hvs : Encodes P values items vs) {bs : List Bool} (hlen : bs.length = others.length + 1) :
    ∃ flag, packBox 0 ((first :: others).map Prod.fst) (bs.map .bool) = .ok flag ∧
      ∀ j (hj : j < bs.length), flag.toNat.testBit j = bs[j] := by
  obtain ⟨w, hgen, hclient⟩ := h _ (@Encodes.box_of _ _ first _ _ _ hlen _ hvs)
  rw [List.flatMap_cons] at hgen
  obtain ⟨flag, ws, rfl, hbits⟩ := writeFields_pending items _ bs vs w (LayoutItem.box_ne_nil first others)
    (fun f hf => (LayoutItem.box_isFlag f hf).1) (hlen.trans (LayoutItem.box_length ..).symm) hvs hgen
  rw [writeItems_box items hlen] at hclient
  obtain ⟨flag', hflag', hclient⟩ := Outcome.bind_eq_ok.1 hclient
  obtain ⟨ws', -, hclient⟩ := Outcome.bind_eq_ok.1 hclient
  obtain ⟨rfl, -⟩ := List.cons.inj (Outcome.ok.inj hclient)
  exact ⟨flag', hflag', hbits⟩

/-- The first flag of a second box is packed into the byte of the first, where the client has no flag. -/
theorem not_written_of_boxes {first' : Fin 8 × String} {others' : List (Fin 8 × String)}
    (hus : ∃ us, Encodes P values (.box first others :: .box first' others' :: items) us) :
    ¬∀ us, Encodes P values (.box first others :: .box first' others' :: items) us → ∃ w,
      writeFields P ser ((LayoutItem.box first others :: .box first' others' :: items).flatMap LayoutItem.fields) us =
          .ok w ∧ writeItems P ser (.box first others :: .box first' others' :: items) us = .ok w := by
  intro h
  obtain ⟨us, hus⟩ := hus
  obtain ⟨_, us, -, -, hus⟩ := hus.box
  obtain ⟨_, vs, -, -, hvs⟩ := hus.box
  let bs := List.replicate (others.length + 1) false
  let cs := true :: List.replicate others'.length false
  have hbs : bs.length = others.length + 1 := List.length_replicate ..
  have hcs : cs.length = others'.length + 1 := by simp [cs]
  obtain ⟨w, hgen, hclient⟩ :=
    h _ (@Encodes.box_of _ _ first _ _ _ hbs _ (@Encodes.box_of _ _ first' _ _ _ hcs _ hvs))
  rw [List.flatMap_cons, List.flatMap_cons, ← List.append_assoc, ← List.append_assoc, ← List.map_append] at hgen
  obtain ⟨flag, ws, rfl, hbits⟩ := writeFields_pending items _ (bs ++ cs) vs w
    (List.append_ne_nil_of_left_ne_nil (LayoutItem.box_ne_nil first others) _) (by
      intro f hf
      rcases List.mem_append.1 hf with hf | hf
      · exact (LayoutItem.box_isFlag f hf).1
      · exact (LayoutItem.box_isFlag f hf).1)
    (by rw [List.length_append, List.length_append, hbs, hcs, LayoutItem.box_length, LayoutItem.box_length]) hvs hgen
  rw [writeItems_box _ hbs] at hclient
  obtain ⟨flag', hflag', hclient⟩ := Outcome.bind_eq_ok.1 hclient
  obtain ⟨ws', -, hclient⟩ := Outcome.bind_eq_ok.1 hclient
  obtain ⟨rfl, -⟩ := List.cons.inj (Outcome.ok.inj hclient)
  have htrue := hbits bs.length (by rw [List.length_append, hcs]; omega)
  rw [List.getElem_append_right (Nat.le_refl _)] at htrue
  -- no flag of the first box is set
  obtain ⟨flag, hflag, hset⟩ := packBox_bits bs ((first :: others).map Prod.fst) 0 (box_bits_length hbs)
  obtain rfl := Outcome.ok.inj (hflag.symm.trans hflag')
  have hlt : bs.length < 8 := by
    by_contra hge
    have hpow := Nat.pow_le_pow_right (n := 2) (by decide) (Nat.not_lt.1 hge)
    rw [Nat.testBit_lt_two_pow (Nat.lt_of_lt_of_le flag.toNat_lt hpow)] at htrue
    simp [cs] at htrue
  rcases hset bs.length hlt (by rw [htrue]; simp [cs]) with h0 | ⟨j, hj, -⟩
  · rw [show (0 : UInt8).toNat = 0 from rfl, Nat.zero_testBit] at h0
    cases h0
  · have hmem := List.mem_of_getElem? hj
    rw [List.mem_replicate] at hmem
    cases hmem.2

/-- What stands behind a box that is written alike is no box. -/
private theorem apart_of_written (hus : ∃ us, Encodes P values (.box first others :: items) us)
    (h : ∀ us, Encodes P values (.box first others :: items) us → ∃ w,
      writeFields P ser ((LayoutItem.box first others :: items).flatMap LayoutItem.fields) us = .ok w ∧
        writeItems P ser (.box first others :: items) us = .ok w) : ∀ next ∈ items.head?, next.isBox = false := by
  intro next hnext
  cases items with
  | nil => cases hnext
  | cons item items =>
    obtain rfl := Option.some.inj hnext
    cases item with
    | field f hf write hdeclares => rfl
    | box first' others' => exact (not_written_of_boxes hus h).elim

/-- Behind the byte of a box that is written alike, the rest is. -/
private theorem rest_of_written (h : ∀ us, Encodes P values (.box first others :: items) us → ∃ w,
      writeFields P ser ((LayoutItem.box first others :: items).flatMap LayoutItem.fields) us = .ok w ∧
        writeItems P ser (.box first others :: items) us = .ok w)
    (hhead : ∀ f ∈ (items.flatMap LayoutItem.fields).head?, f.isFlag = false) {bs : List Bool}
    (hlen : bs.length = others.length + 1) {xs : List (Value String)} (hxs : Encodes P values items xs) :
    ∃ w, writeFields P ser (items.flatMap LayoutItem.fields) xs = .ok w ∧ writeItems P ser items xs = .ok w := by
  obtain ⟨w, hgen, hclient⟩ := h _ (@Encodes.box_of _ _ first _ _ _ hlen _ hxs)
  rw [List.flatMap_cons, writeFields_group (LayoutItem.box_ne_nil first others)
    (fun f hf => (LayoutItem.box_isFlag f hf).1) hhead (hlen.trans (LayoutItem.box_length ..).symm)] at hgen
  rw [writeItems_box items hlen] at hclient
  obtain ⟨flag, -, hgen⟩ := Outcome.bind_eq_ok.1 hgen
  obtain ⟨ws, hws, hgen⟩ := Outcome.bind_eq_ok.1 hgen
  obtain ⟨flag', -, hclient⟩ := Outcome.bind_eq_ok.1 hclient
  obtain ⟨ws', hws', hclient⟩ := Outcome.bind_eq_ok.1 hclient
  obtain ⟨-, rfl⟩ := List.cons.inj (Outcome.ok.inj (hgen.trans hclient.symm))
  exact ⟨ws, hws, hws'⟩

/-- The bytes of a field and of the rest are together the same, whatever part of them each side gives to the field. -/
private theorem split_of_written {f : ProtocolField String} {hf : f.isFlag = false} {write : ClientWrite}
    {hdeclares : write.Declares f.fieldType}
    (h : ∀ us, Encodes P values (.field f hf write hdeclares :: items) us → ∃ w,
      writeFields P ser ((LayoutItem.field f hf write hdeclares :: items).flatMap LayoutItem.fields) us = .ok w ∧
        writeItems P ser (.field f hf write hdeclares :: items) us = .ok w) {u : Value String}
    (hu : EncodableField P values f.fieldType u) {xs : List (Value String)} (hxs : Encodes P values items xs) :
    ∃ w w' ws ws', (writeStatement f.fieldType 0).run P ser [u] = .ok w ∧ write.run P ser u = .ok w' ∧
      writeFields P ser (items.flatMap LayoutItem.fields) xs = .ok ws ∧ writeItems P ser items xs = .ok ws' ∧
      w ++ ws = w' ++ ws' := by
  obtain ⟨all, hgen, hclient⟩ := h (u :: xs) (.cons hu hxs)
  change writeFields P ser (f :: items.flatMap LayoutItem.fields) (u :: xs) = _ at hgen
  rw [writeFields_field hf] at hgen
  rw [writeItems_field] at hclient
  obtain ⟨w, hw, hgen⟩ := Outcome.bind_eq_ok.1 hgen
  obtain ⟨ws, hws, hgen⟩ := Outcome.bind_eq_ok.1 hgen
  obtain ⟨w', hw', hclient⟩ := Outcome.bind_eq_ok.1 hclient
  obtain ⟨ws', hws', hclient⟩ := Outcome.bind_eq_ok.1 hclient
  exact ⟨w, w', ws, ws', hw, hw', hws, hws', Outcome.ok.inj (hgen.trans hclient.symm)⟩

end

/-- A layout that has a value without an empty vector is written alike only if it is kept. -/
theorem layoutKept_of_written (items : List LayoutItem) (hs : FieldsSupported (items.flatMap LayoutItem.fields))
    (hus : ∃ us, Encodes P values items us ∧ ∀ xs, .vec xs ∈ us → xs ≠ [])
    (h : ∀ us, Encodes P values items us → ∃ w, writeFields P ser (items.flatMap LayoutItem.fields) us = .ok w ∧
      writeItems P ser items us = .ok w) : LayoutKept items := by
  induction items with
  | nil => exact ⟨by simp, List.IsChain.nil⟩
  | cons item items ih =>
    obtain ⟨us, hus, hfull⟩ := hus
    cases item with
    | field f hf write hdeclares =>
      obtain ⟨v, vs, rfl, hv, hvs⟩ := hus.field
      obtain ⟨_, _, G, C, -, -, hG, hC, -⟩ := split_of_written h hv hvs
      -- with the same rest behind every value, the field is written as the generator writes it
      have hknown : write.Known := by
        refine @ClientWrite.known_of_eq P values ser _ _ hdeclares (supported_field hs) v hv
          (fun xs hxs => hfull xs (hxs ▸ List.mem_cons_self ..)) G C fun u hu => ?_
        obtain ⟨w, w', ws, ws', hw, hw', hws, hws', heq⟩ := split_of_written h hu hvs
        obtain rfl := Outcome.ok.inj (hG.symm.trans hws)
        obtain rfl := Outcome.ok.inj (hC.symm.trans hws')
        exact ⟨w, w', hw, hw', heq⟩
      have hrest := ih (supported_tail hs) ⟨vs, hvs, fun xs hxs => hfull xs (List.mem_cons_of_mem _ hxs)⟩
        fun xs hxs => by
          obtain ⟨w, w', ws, ws', hw, hw', hws, hws', heq⟩ := split_of_written h hv hxs
          rw [ClientWrite.run_eq hdeclares hknown hv] at hw'
          obtain rfl := Outcome.ok.inj (hw.symm.trans hw')
          obtain rfl := List.append_cancel_left heq
          exact ⟨ws, hws, hws'⟩
      refine ⟨List.forall_mem_cons.2 ⟨hknown, hrest.each⟩, ?_⟩
      cases items with
      | nil => exact List.IsChain.singleton _
      | cons next items => exact List.isChain_cons_cons.2 ⟨fun hbox => Bool.false_ne_true hbox.1, hrest.apart⟩
    | box first others =>
      have happart := apart_of_written ⟨us, hus⟩ h
      obtain ⟨bs, vs, rfl, hlen, hvs⟩ := hus.box
      have hrest := ih (supported_tail hs) ⟨vs, hvs, fun xs hxs => hfull xs (List.mem_append_right _ hxs)⟩
        fun xs hxs => rest_of_written h (head_plain happart) hlen hxs
      have hbits := @bits_of_packBox ((first :: others).map Prod.fst) (others.length + 1) (by simp)
        fun cs hcs => packBox_of_written h hvs hcs
      rw [List.map_map] at hbits
      refine ⟨List.forall_mem_cons.2 ⟨hbits, hrest.each⟩, ?_⟩
      cases items with
      | nil => exact List.IsChain.singleton _
      | cons next items =>
        refine List.isChain_cons_cons.2 ⟨fun hbox => ?_, hrest.apart⟩
        rw [happart next rfl] at hbox
        cases hbox.2

/-! ### Hierarchies -/

private theorem writerToFieldType_named (method : List Char) : writerToFieldType method ≠ .type none ∧
    writerToFieldType method ≠ .typeManager none ∧
      ∀ inner lengthType, writerToFieldType method ≠ .vector inner lengthType := by
  unfold writerToFieldType
  split
  all_goals exact ⟨nofun, nofun, nofun⟩

private theorem Resolved.single {f : ProtocolField String} (h : f.fieldType ≠ .type none ∧
    f.fieldType ≠ .typeManager none ∧ ∀ l, f.fieldType ≠ .vector (.type none) l ∧ f.fieldType ≠ .vector
      (.typeManager none) l) : Resolved [f] := by
  intro g hg
  rw [List.mem_singleton.1 hg]
  exact h

private theorem resolved_vector {lengthMethod arr : Identifier} {element : FieldType String}
    (h : element ≠ .type none)
    (h' : element ≠ .typeManager none) : Resolved [Statement.vectorField lengthMethod arr element] :=
  Resolved.single ⟨nofun, nofun, fun _ =>
    ⟨fun e => h (FieldType.vector.inj e).1, fun e => h' (FieldType.vector.inj e).1⟩⟩

/-- The statements name the types of their fields. -/
theorem Statement.declared_resolved (s : Statement) : Resolved s.declared := by
  cases s with
  | primitive method field type =>
    obtain ⟨h1, h2, h3⟩ := writerToFieldType_named ("write".toList ++ method.chars)
    exact Resolved.single ⟨h1, h2, fun l => ⟨h3 _ l, h3 _ l⟩⟩
  | booleans box first others =>
    intro f hf
    obtain ⟨flag, -, rfl⟩ := List.mem_map.1 hf
    exact ⟨nofun, nofun, fun _ => ⟨nofun, nofun⟩⟩
  | primitives lengthMethod arr index method type =>
    obtain ⟨h1, h2, -⟩ := writerToFieldType_named ("write".toList ++ method.chars)
    exact resolved_vector h1 h2
  | types lengthMethod arr index expr type => exact resolved_vector nofun nofun
  | nested field type => exact Resolved.single ⟨nofun, nofun, fun _ => ⟨nofun, nofun⟩⟩
  | polymorphic field type => exact Resolved.single ⟨nofun, nofun, fun _ => ⟨nofun, nofun⟩⟩
  | polymorphics lengthMethod arr index expr type => exact resolved_vector nofun nofun
  | superCall parent => exact fun f hf => nomatch hf

namespace Hierarchy

variable {H : Hierarchy}

theorem layoutFrom_resolved (n : Nat) : ∀ c, Resolved ((H.layoutFrom n c).flatMap LayoutItem.fields) := by
  have hown (c : SourceClass) : Resolved (c.items.flatMap LayoutItem.fields) := by
    intro f hf
    rw [SourceClass.items, List.flatMap_assoc] at hf
    obtain ⟨s, -, hf⟩ := List.mem_flatMap.1 hf
    rw [s.items_fields] at hf
    exact s.declared_resolved f hf
  induction n with
  | zero => exact hown
  | succ n ih =>
    intro c
    rw [layoutFrom]
    cases H.parentOf c with
    | none => exact hown c
    | some d =>
      intro f hf
      rw [List.flatMap_append] at hf
      rcases List.mem_append.1 hf with hf | hf
      · exact ih d f hf
      · exact hown c f hf

/-- The code generated for a class compiles, its struct has the fields of the layout, and every value of the class is
written as the client writes it. -/
def LayoutAgrees (H : Hierarchy) (c : SourceClass) : Prop :=
  ∃ g, H.generated.find c.className = some g ∧ g.fields = H.fields c ∧ g.compiles = true ∧
    ∀ n v, Encodable H.declared n c.className v → ∀ m, n ≤ m → ∃ w, H.generated.serialize m v = .ok w ∧
      H.serialize m v = .ok w

def HasValue (H : Hierarchy) (c : SourceClass) : Prop := ∃ n v, Encodable H.declared n c.className v

/-- A class has a value none of whose own vectors is empty. -/
def HasFullValue (H : Hierarchy) (c : SourceClass) : Prop :=
  ∃ n vs, Encodes H.declared (Encodable H.declared n) (H.layout c) vs ∧ ∀ xs, .vec xs ∈ vs → xs ≠ []

/-- The parser recovers the fields of every class, the generated code can write their types, and the layouts of the
classes that have values are kept. -/
def Kept (H : Hierarchy) : Prop :=
  ∀ c ∈ H.classes, c.Recovered ∧ FieldsSupported (H.fields c) ∧ (H.HasValue c → LayoutKept (H.layout c))

theorem find_declared_mem {c : SourceClass} (h : c ∈ H.classes) :
    H.declared.find c.className = some { c.parse with fields := H.fields c } := by
  rw [find_declared, find_className h]
  rfl

/-- The class of a value, and the values of the items of its layout. -/
theorem encodable_succ {n : Nat} {name : String} {v : Value String} (h : Encodable H.declared (n + 1) name v) :
    ∃ c ∈ H.classes, ∃ vs, c.className = name ∧ v = .struct name vs ∧
      Encodes H.declared (Encodable H.declared n) (H.layout c) vs := by
  obtain ⟨g, vs, hfind, rfl, hvs⟩ := h
  rw [find_declared] at hfind
  obtain ⟨c, hc, rfl⟩ := Option.map_eq_some_iff.1 hfind
  obtain ⟨hmem, hname⟩ := find_eq_some hc
  exact ⟨c, hmem, vs, hname, rfl, hvs⟩

theorem serialize_struct {c : SourceClass} (h : c ∈ H.classes) (n : Nat) (vs : List (Value String)) :
    H.declared.serialize (n + 1) (.struct c.className vs) =
        writeFields H.declared (H.declared.serialize n) (H.fields c) vs ∧
      H.serialize (n + 1) (.struct c.className vs) =
        writeItems H.declared (H.serialize n) (H.layout c) vs := by
  constructor
  · rw [Protocol.serialize, find_declared_mem h]
    rfl
  · rw [Hierarchy.serialize, find_className h]

theorem declared_compiles_iff (c : SourceClass) :
    ProtocolClass.compiles { c.parse with fields := H.fields c } = true ↔ FieldsSupported (H.fields c) :=
  compiles_iff (layoutFrom_resolved _ c)

/-- Values of classes whose layouts are kept are written alike. -/
theorem Kept.serialize (hkept : H.Kept) (n : Nat) : ∀ (name : String) (v : Value String),
    Encodable H.declared n name v → ∀ m, n ≤ m → ∃ w, H.declared.serialize m v = .ok w ∧ H.serialize m v = .ok w := by
  induction n with
  | zero => exact fun _ _ h => h.elim
  | succ n ih =>
    intro name v hv m hm
    obtain ⟨m, rfl⟩ : ∃ k, m = k + 1 := ⟨m - 1, by omega⟩
    obtain ⟨c, hc, vs, rfl, rfl, hvs⟩ := encodable_succ hv
    obtain ⟨hgenerated, hclient⟩ := serialize_struct hc m vs
    obtain ⟨-, hs, hlayout⟩ := hkept c hc
    have hok : ∀ name v, Encodable H.declared n name v → ∃ w, H.declared.serialize m v = .ok w := by
      intro name v hv
      obtain ⟨w, hw, -⟩ := ih name v hv m (by omega)
      exact ⟨w, hw⟩
    have hnested := writeItems_nested (P := H.declared) (fun name v hv => by
      obtain ⟨w, hw, hw'⟩ := ih name v hv m (by omega)
      exact hw.trans hw'.symm) (H.layout c) vs hvs
    rw [hgenerated, hclient, ← hnested]
    exact LayoutKept.written hok (H.layout c) hs (hlayout ⟨n + 1, _, hv⟩) vs hvs

/-- The layout of a class that has a full value is kept, if the values of all classes are written alike. -/
theorem layoutKept_of_serialize (hs : ∀ c ∈ H.classes, FieldsSupported (H.fields c))
    (h : ∀ n name v, Encodable H.declared n name v →
      ∃ w, H.declared.serialize n v = .ok w ∧ H.serialize n v = .ok w) {c : SourceClass} (hc : c ∈ H.classes)
    (hfull : H.HasFullValue c) : LayoutKept (H.layout c) := by
  obtain ⟨n, vs, hvs, hne⟩ := hfull
  refine @layoutKept_of_written H.declared (H.declared.serialize n) _ (H.layout c) (hs c hc) ⟨vs, hvs, hne⟩
    fun us hus => ?_
  obtain ⟨hgenerated, hclient⟩ := serialize_struct hc n us
  have hnested := writeItems_nested (P := H.declared) (fun name v hv => by
    obtain ⟨w, hw, hw'⟩ := h n name v hv
    exact hw.trans hw'.symm) (H.layout c) us hus
  have hall := h (n + 1) c.className (.struct c.className us) ⟨_, us, find_declared_mem hc, rfl, hus⟩
  rw [hgenerated, hclient, ← hnested] at hall
  exact hall

/-- The generated code of all classes has the layout of the client if every layout is kept.  Where every class that
has a value has one without empty vectors, it has it only then. -/
theorem layoutsAgree_iff (H : Hierarchy) : (H.Kept → ∀ c ∈ H.classes, H.LayoutAgrees c) ∧
    ((∀ c ∈ H.classes, H.HasValue c → H.HasFullValue c) → (∀ c ∈ H.classes, H.LayoutAgrees c) → H.Kept) := by
  constructor
  · intro hkept c hc
    have hgenerated := generated_eq_declared fun d hd => (hkept d hd).1
    refine ⟨_, by rw [hgenerated, find_declared_mem hc], rfl, (declared_compiles_iff c).2 (hkept c hc).2.1, ?_⟩
    intro n v hv m hm
    rw [hgenerated]
    exact hkept.serialize n c.className v hv m hm
  · intro hfull h
    have hrecovered : ∀ c ∈ H.classes, c.Recovered := fields_generated_iff.1 fun c hc => by
      obtain ⟨g, hg, hfields, -⟩ := h c hc
      exact ⟨g, hg, hfields⟩
    have hgenerated := generated_eq_declared hrecovered
    have hs : ∀ c ∈ H.classes, FieldsSupported (H.fields c) := by
      intro c hc
      obtain ⟨g, hg, -, hcompiles, -⟩ := h c hc
      rw [hgenerated, find_declared_mem hc] at hg
      obtain rfl := Option.some.inj hg
      exact (declared_compiles_iff c).1 hcompiles
    have hserialize : ∀ n name v, Encodable H.declared n name v →
        ∃ w, H.declared.serialize n v = .ok w ∧ H.serialize n v = .ok w := by
      intro n name v hv
      cases n with
      | zero => exact hv.elim
      | succ n =>
        obtain ⟨c, hc, vs, rfl, rfl, -⟩ := encodable_succ hv
        obtain ⟨g, -, -, -, hall⟩ := h c hc
        rw [← hgenerated]
        exact hall (n + 1) _ hv (n + 1) (Nat.le_refl _)
    exact fun c hc => ⟨hrecovered c hc, hs c hc, fun hvalue =>
      layoutKept_of_serialize hs hserialize hc (hfull c hc hvalue)⟩

/-! ### Flags of a parent and of a child -/

/-- A class with one box. -/
def shape : SourceClass where
  name := ⟨"Shape".toList, by decide, by decide⟩
  indent := "  ".toList
  header := ["public class Shape extends NetworkMessage".toList]
  declarations := [⟨⟨"visible".toList, by decide, by decide⟩, Statement.booleanType, none⟩]
  members := []
  statements := [.booleans ⟨['0'], by decide, by decide⟩ (0, ⟨"visible".toList, by decide, by decide⟩) []]
  footer := []
  indent_blank := spaces_blank
  lines_plain := by decide
  values_plain := by simp
  declarations_nodup := by decide
  declared := by
    intro s hs v hv
    obtain rfl := List.mem_singleton.1 hs
    obtain rfl := List.mem_singleton.1 hv
    exact ⟨_, List.mem_singleton.2 rfl, rfl, rfl⟩
  method_first := by decide
  protocolId := 1
  parent := some "NetworkMessage"
  isMessage := true

/-- A child that starts with a box of its own. -/
def filledShape : SourceClass where
  name := ⟨"FilledShape".toList, by decide, by decide⟩
  indent := "  ".toList
  header := ["public class FilledShape extends Shape".toList]
  declarations := [⟨⟨"filled".toList, by decide, by decide⟩, Statement.booleanType, none⟩]
  members := []
  statements := [.superCall ⟨"Shape".toList, by decide, by decide⟩,
    .booleans ⟨['0'], by decide, by decide⟩ (0, ⟨"filled".toList, by decide, by decide⟩) []]
  footer := []
  indent_blank := spaces_blank
  lines_plain := by decide
  values_plain := by simp
  declarations_nodup := by decide
  declared := by
    intro s hs v hv
    rcases List.mem_cons.1 hs with rfl | hs
    · cases hv
    · obtain rfl := List.mem_singleton.1 hs
      obtain rfl := List.mem_singleton.1 hv
      exact ⟨_, List.mem_singleton.2 rfl, rfl, rfl⟩
  method_first := by decide
  protocolId := 2
  parent := some "Shape"
  isMessage := true

/-- `sides` and `parts`. -/
def polygonDeclarations : List Declaration :=
  [⟨⟨"sides".toList, by decide, by decide⟩, .simple ⟨"uint".toList, by decide, by decide⟩, none⟩,
    ⟨⟨"parts".toList, by decide, by decide⟩, .vector ⟨"Shape".toList, by decide, by decide⟩, none⟩]

def polygonStatements : List Statement :=
  [.superCall ⟨"Shape".toList, by decide, by decide⟩,
    .primitive ⟨"VarShort".toList, by decide, by decide⟩ ⟨"sides".toList, by decide, by decide⟩
      (.simple ⟨"uint".toList, by decide, by decide⟩),
    .types Statement.shortMethod ⟨"parts".toList, by decide, by decide⟩
      ⟨"i".toList, by decide, by decide⟩ .plain ⟨"Shape".toList, by decide, by decide⟩]

theorem polygonStatements_declared :
    ∀ s ∈ polygonStatements, ∀ v ∈ s.uses, ∃ d ∈ polygonDeclarations, d.name = v.1 ∧ d.type = v.2 := by
  intro s hs v hv
  rcases List.mem_cons.1 hs with rfl | hs
  · cases hv
  · rcases List.mem_cons.1 hs with rfl | hs
    · obtain rfl := List.mem_singleton.1 hv
      exact ⟨_, List.mem_cons_self .., rfl, rfl⟩
    · obtain rfl := List.mem_singleton.1 hs
      obtain rfl := List.mem_singleton.1 hv
      exact ⟨_, List.mem_cons_of_mem _ (List.mem_singleton.2 rfl), rfl, rfl⟩

/-- A child that starts with fields. -/
def polygon : SourceClass where
  name := ⟨"Polygon".toList, by decide, by decide⟩
  indent := "  ".toList
  header := ["public class Polygon extends Shape".toList]
  declarations := polygonDeclarations
  members := []
  statements := polygonStatements
  footer := []
  indent_blank := spaces_blank
  lines_plain := by decide
  values_plain := by simp [polygonDeclarations]
  declarations_nodup := by decide
  declared := polygonStatements_declared
  method_first := by decide
  protocolId := 3
  parent := some "Shape"
  isMessage := true

def shapes : Hierarchy where
  classes := [shape, filledShape]
  types := []
  depth name := if name = "FilledShape" then 1 else 0
  names_nodup := by decide +kernel
  not_root := by decide +kernel
  depth_lt := by decide +kernel

def polygons : Hierarchy where
  classes := [shape, polygon]
  types := []
  depth name := if name = "Polygon" then 1 else 0
  names_nodup := by decide +kernel
  not_root := by decide +kernel
  depth_lt := by decide +kernel

/-- The client writes the flags of parent and child in two bytes, the generated code writes them in one. -/
theorem shapes_not_agree : ¬∀ H : Hierarchy, ∀ c ∈ H.classes, H.LayoutAgrees c := by
  intro h
  have hmem : filledShape ∈ shapes.classes := List.mem_cons_of_mem _ (List.mem_singleton.2 rfl)
  obtain ⟨g, -, -, -, hserialize⟩ := h shapes filledShape hmem
  have hrecovered : ∀ c ∈ shapes.classes, c.Recovered := fields_generated_iff.1 fun c hc => by
    obtain ⟨g, hg, hfields, -⟩ := h shapes c hc
    exact ⟨g, hg, hfields⟩
  have hfields : shapes.fields filledShape = [flagField "visible", flagField "filled"] := by decide +kernel
  have hvalue : Encodable shapes.declared 1 filledShape.className
      (.struct filledShape.className [.bool true, .bool true]) := by
    refine ⟨_, _, find_declared_mem hmem, rfl, ?_⟩
    show List.Forall₂ _ ((shapes.fields filledShape).map ProtocolField.fieldType) _
    rw [hfields]
    exact .cons ⟨true, rfl⟩ (.cons ⟨true, rfl⟩ .nil)
  obtain ⟨hgenerated, hclient⟩ := serialize_struct hmem 0 [.bool true, .bool true]
  obtain ⟨w, hgen, hcl⟩ := hserialize 1 _ hvalue 1 (Nat.le_refl 1)
  have hone : writeFields shapes.declared (shapes.declared.serialize 0) [flagField "visible", flagField "filled"]
      [.bool true, .bool true] = .ok [3] := rfl
  have htwo : writeItems shapes.declared (shapes.serialize 0) (shapes.layout filledShape) [.bool true, .bool true] =
      .ok [1, 1] := by decide +kernel
  rw [generated_eq_declared hrecovered, hgenerated, hfields, hone] at hgen
  rw [hclient, htwo, ← hgen] at hcl
  cases hcl

private theorem fields_shape : polygons.fields shape = [flagField "visible"] := by decide +kernel

private theorem fields_polygon : polygons.fields polygon =
    [flagField "visible", ⟨"sides", .varShort, "writeVarShort"⟩,
    ⟨"parts", .vector (.type (some "Shape")) "writeShort", "vector"⟩] := by decide +kernel

private theorem polygons_kept : polygons.Kept := by
  have hrecovered : ∀ c ∈ polygons.classes, c.Recovered := by
    simp [polygons, shape, polygon, polygonStatements, SourceClass.Recovered, Statement.Recovered]
  have hsupported : ∀ c ∈ polygons.classes, FieldsSupported (polygons.fields c) := by
    intro c hc
    rcases List.mem_pair.1 hc with rfl | rfl
    · rw [fields_shape]
      simp [FieldsSupported, flagField, Supported]
    · rw [fields_polygon]
      simp [FieldsSupported, flagField, ProtocolField.isFlag, Supported, ElementSupported]
  have hlayout : ∀ c ∈ polygons.classes, LayoutKept (polygons.layout c) := by
    intro c hc
    rcases List.mem_pair.1 hc with rfl | rfl
    · exact ⟨by decide +kernel, by decide +kernel⟩
    · exact ⟨by decide +kernel, by decide +kernel⟩
  exact fun c hc => ⟨hrecovered c hc, hsupported c hc, fun _ => hlayout c hc⟩

private theorem polygons_full : ∀ c ∈ polygons.classes, polygons.HasFullValue c := by
  intro c hc
  rcases List.mem_pair.1 hc with rfl | rfl
  · refine ⟨0, [.bool true], ?_, by simp⟩
    show List.Forall₂ _ ((polygons.fields shape).map ProtocolField.fieldType) _
    rw [fields_shape]
    exact .cons ⟨true, rfl⟩ .nil
  · refine ⟨1, [.bool true, .i16 1, .vec [.struct "Shape" [.bool true]]], ?_, by simp⟩
    show List.Forall₂ _ ((polygons.fields polygon).map ProtocolField.fieldType) _
    rw [fields_polygon]
    have hpart : Encodable polygons.declared 1 "Shape" (.struct "Shape" [.bool true]) := by
      refine ⟨_, _, @find_declared_mem polygons shape (List.mem_cons_self ..), rfl, ?_⟩
      show List.Forall₂ _ ((polygons.fields shape).map ProtocolField.fieldType) _
      rw [fields_shape]
      exact .cons ⟨true, rfl⟩ .nil
    have hlength : FitsLength "writeShort" 1 := by
      show 1 < 2 ^ 16
      decide
    refine .cons ⟨true, rfl⟩ (.cons ⟨1, rfl⟩ (.cons ⟨_, rfl, hlength, fun x hx => ?_⟩ .nil))
    obtain rfl := List.mem_singleton.1 hx
    exact hpart

theorem layoutsAgree_iff_polygons : polygons.Kept ∧ ∀ c ∈ polygons.classes, polygons.LayoutAgrees c := by
  have hagree := (layoutsAgree_iff polygons).1 polygons_kept
  exact ⟨(layoutsAgree_iff polygons).2 (fun c hc _ => polygons_full c hc) hagree, hagree⟩

end Hierarchy

end Otomai.ProtocolGen
