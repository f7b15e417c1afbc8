import Otomai.DataReader.D2oContent

/-!
# What a game data file keeps when it is saved

Saving a file reads all objects as JSON and writes them again.

* `Representable`: strings are UTF-8, numbers are finite, and every object belongs to the class that is found under
  the name of its class, whose fields have distinct names other than `_class`.
* `represents_value`, `writeFieldValue_eq_encode`: what is representable comes as JSON that says it, and what JSON
  says is written.
* `faithful`: what is written and read again unchanged is representable.
-/

namespace Otomai.DataReader

open Wire BigEndianReader BigEndianWriter

/-! ### JSON objects -/

namespace Value

theorem lookup_insertField (m : List (String × Value)) (name key : String) (v : Value) :
    (insertField m name v).lookup key = if key = name then some v else m.lookup key := by
  by_cases h : key = name
  · subst h
    rw [insertField, List.lookup_cons_self, if_pos rfl]
  · have hne : (key == name) = false := beq_false_of_ne h
    rw [insertField, List.lookup_cons, hne, if_neg h]
    dsimp only
    induction m with
    | nil => rfl
    | cons p m ih =>
      rw [List.filter_cons, List.lookup_cons]
      by_cases hp : p.1 = name
      · have hkey : (key == p.1) = false := by rw [hp, hne]
        rw [if_neg (by simpa using hp), ih, hkey]
      · rw [if_pos (by simpa using hp), List.lookup_cons, ih]

/-- The fields of an object that is filled with some pairs. -/
theorem lookup_fold_of_notMem {ps m : List (String × Value)} {key : String} (h : key ∉ ps.map Prod.fst) :
    (ps.foldl (fun m p => insertField m p.1 p.2) m).lookup key = m.lookup key := by
  induction ps generalizing m with
  | nil => rfl
  | cons p ps ih =>
    rw [List.map_cons, List.mem_cons, not_or] at h
    rw [List.foldl_cons, ih h.2, lookup_insertField, if_neg h.1]

theorem lookup_fold_of_mem {ps m : List (String × Value)} (hnodup : (ps.map Prod.fst).Nodup)
    {key : String} {v : Value}
    (h : (key, v) ∈ ps) : (ps.foldl (fun m p => insertField m p.1 p.2) m).lookup key = some v := by
  induction ps generalizing m with
  | nil => exact absurd h List.not_mem_nil
  | cons p ps ih =>
    rw [List.map_cons, List.nodup_cons] at hnodup
    rw [List.foldl_cons]
    rcases List.mem_cons.1 h with rfl | h
    · rw [lookup_fold_of_notMem hnodup.1, lookup_insertField, if_pos rfl]
    · exact ih hnodup.2 h

theorem depth_le_fieldDepths {m : List (String × Value)} {key : String} {v : Value} (h : m.lookup key = some v) :
    v.depth ≤ fieldDepths m := by
  induction m with
  | nil => cases h
  | cons p m ih =>
    obtain ⟨name, u⟩ := p
    rw [List.lookup_cons] at h
    rw [fieldDepths]
    split at h
    · obtain rfl := Option.some.inj h
      exact Nat.le_max_left _ _
    · exact Nat.le_trans (ih h) (Nat.le_max_right _ _)

/-- A field is less deep than its object. -/
theorem depth_of_get? {v u : Value} {name : String} (h : v.get? name = some u) : u.depth < v.depth := by
  cases v with
  | object fields => exact Nat.lt_succ_of_le (depth_le_fieldDepths h)
  | _ => cases h

theorem depth_of_mem {items : List Value} {v : Value} (h : v ∈ items) : v.depth < (array items).depth := by
  refine Nat.lt_succ_of_le ?_
  induction items with
  | nil => exact absurd h List.not_mem_nil
  | cons u items ih =>
    rw [depths]
    rcases List.mem_cons.1 h with rfl | h
    · exact Nat.le_max_left _ _
    · exact Nat.le_trans (ih h) (Nat.le_max_right _ _)

theorem one_le_depth (v : Value) : 1 ≤ v.depth := by
  cases v with
  | array items => exact Nat.succ_le_succ (Nat.zero_le _)
  | object fields => exact Nat.succ_le_succ (Nat.zero_le _)
  | _ => exact Nat.le_refl _

end Value

/-! ### Numbers -/

theorem asI64_ofI32 (n : Int32) : (Value.ofI32 n).asI64 = some n.toInt64 := by
  unfold Value.ofI32
  split
  · rename_i h
    have hint : n.toInt64.toBitVec.toInt = n.toInt := Int32.toInt_toInt64 n
    have hpos : 0 ≤ n.toInt := Int32.le_iff_toInt_le.1 h
    have hlt := n.toInt_lt
    have hbits := n.toInt64.toBitVec.isLt
    have hn : n.toInt64.toUInt64.toNat < 2 ^ 63 := by
      show n.toInt64.toBitVec.toNat < 2 ^ 63
      rw [BitVec.toInt_eq_toNat_bmod, Int.bmod_def] at hint
      split at hint <;> omega
    rw [Value.asI64, if_pos hn]
    rfl
  · rfl

theorem asU64_ofU32 (n : UInt32) : (Value.ofU32 n).asU64 = some n.toUInt64 := rfl

theorem asF64_ofF64 {bits : UInt64} (h : Value.isFinite bits = true) : (Value.ofF64 bits).asF64 = some bits := by
  rw [Value.ofF64, if_pos h]
  rfl

/-! ### What is representable -/

/-- The fields of the class have distinct names, and none is called `_class`. -/
def D2OClassDef.Plain (classDef : D2OClassDef) : Prop :=
  (classDef.fields.map D2OFieldDef.name).Nodup ∧ "_class" ∉ classDef.fields.map D2OFieldDef.name

/-- The content comes out of JSON as it went in. -/
inductive Representable (classes : ClassTable) : Content → Prop where
  | int (n : Int32) : Representable classes (.int n)
  | bool (b : Bool) : Representable classes (.bool b)
  | string {bytes : List UInt8} (h : (String.fromUTF8? ⟨bytes.toArray⟩).isSome) :
    Representable classes (.string bytes)
  | number {bits : UInt64} (h : Value.isFinite bits = true) : Representable classes (.number bits)
  | i18n (n : Int32) : Representable classes (.i18n n)
  | uint (n : UInt32) : Representable classes (.uint n)
  | vector {items : List Content} (h : ∀ c ∈ items, Representable classes c) : Representable classes (.vector items)
  | null : Representable classes .null
  | object {classId : Int32} {classDef : D2OClassDef} {fields : List Content}
      (hclass : findClass classes classDef.name = some (classId, classDef)) (hplain : classDef.Plain)
      (h : ∀ c ∈ fields, Representable classes c) : Representable classes (.object classId fields)

/-- All objects in the content belong to classes whose fields have distinct names other than `_class`. -/
inductive PlainObjects (classes : HashMap Int32 D2OClassDef) : Content → Prop where
  | int (n : Int32) : PlainObjects classes (.int n)
  | bool (b : Bool) : PlainObjects classes (.bool b)
  | string (bytes : List UInt8) : PlainObjects classes (.string bytes)
  | number (bits : UInt64) : PlainObjects classes (.number bits)
  | i18n (n : Int32) : PlainObjects classes (.i18n n)
  | uint (n : UInt32) : PlainObjects classes (.uint n)
  | vector {items : List Content} (h : ∀ c ∈ items, PlainObjects classes c) : PlainObjects classes (.vector items)
  | null : PlainObjects classes .null
  | object {classId : Int32} {classDef : D2OClassDef} {fields : List Content}
      (hclass : classes.lookup classId = some classDef) (hplain : classDef.Plain)
      (h : ∀ c ∈ fields, PlainObjects classes c) : PlainObjects classes (.object classId fields)

section

variable {classes : ClassTable} {table : HashMap Int32 D2OClassDef}

/-- A class that is found belongs to the table, whatever the order of the iteration. -/
theorem lookup_of_findClass (htable : classes.Perm table.pairs) {name : String} {classId : Int32}
    {classDef : D2OClassDef} (h : findClass classes name = some (classId, classDef)) :
    table.lookup classId = some classDef :=
  HashMap.lookup_eq_some.2 (htable.mem_iff.1 (List.mem_of_find?_eq_some h))

theorem asBytes_of_fromUTF8? {bytes : List UInt8} {s : String} (h : String.fromUTF8? ⟨bytes.toArray⟩ = some s) :
    asBytes s = bytes := by
  unfold String.fromUTF8? at h
  split at h
  · obtain rfl := Option.some.inj h
    rfl
  · cases h

/-- The JSON object of an object: its class, and the values of its fields. -/
theorem get?_value {classDef : D2OClassDef} (hplain : classDef.Plain) {fields : List Content}
    (hlength : classDef.fields.length = fields.length) :
    (D2OReader.fillObject classDef.name
      ((classDef.fields.map D2OFieldDef.name).zip (fields.map (Content.value table)))).get? "_class" =
        some (.string classDef.name) ∧
    ∀ p ∈ classDef.fields.zip fields, (D2OReader.fillObject classDef.name
      ((classDef.fields.map D2OFieldDef.name).zip (fields.map (Content.value table)))).get? p.1.name =
        some (p.2.value table) := by
  have hkeys : ((classDef.fields.map D2OFieldDef.name).zip (fields.map (Content.value table))).map Prod.fst =
      classDef.fields.map D2OFieldDef.name :=
    List.map_fst_zip (by rw [List.length_map, List.length_map, hlength])
  constructor
  · exact Value.lookup_fold_of_notMem (by rw [hkeys]; exact hplain.2)
  · intro p hp
    refine Value.lookup_fold_of_mem (by rw [hkeys]; exact hplain.1) ?_
    rw [List.zip_map]
    exact List.mem_map.2 ⟨p, hp, rfl⟩

/-- A JSON object has no fields but those it was filled with. -/
theorem get?_fillObject {className key : String} {names : List String} {values : List Value} {u : Value}
    (h : (D2OReader.fillObject className (names.zip values)).get? key = some u) : key = "_class" ∨ key ∈ names := by
  by_cases hkey : key ∈ (names.zip values).map Prod.fst
  · obtain ⟨p, hp, rfl⟩ := List.mem_map.1 hkey
    exact .inr (List.of_mem_zip hp).1
  · have hlookup : List.lookup key [("_class", Value.string className)] = some u :=
      (Value.lookup_fold_of_notMem hkey).symm.trans h
    rw [List.lookup_cons] at hlookup
    by_cases hclass : key = "_class"
    · exact .inl hclass
    · rw [beq_false_of_ne hclass] at hlookup
      cases hlookup

/-! ### Pairs -/

theorem exists_mem_zip {α β : Type} {as : List α} {bs : List β} (hlength : as.length = bs.length) {a : α}
    (h : a ∈ as) : ∃ b, (a, b) ∈ as.zip bs := by
  rw [← List.map_fst_zip (Nat.le_of_eq hlength)] at h
  obtain ⟨p, hp, rfl⟩ := List.mem_map.1 h
  exact ⟨p.2, hp⟩

theorem exists_mem_zip_right {α β : Type} {as : List α} {bs : List β} (hlength : as.length = bs.length) {b : β}
    (h : b ∈ bs) : ∃ a, (a, b) ∈ as.zip bs := by
  rw [← List.map_snd_zip (Nat.le_of_eq hlength.symm)] at h
  obtain ⟨p, hp, rfl⟩ := List.mem_map.1 h
  exact ⟨p.1, hp⟩

theorem exists_of_mem_map_zip {α β : Type} {f : α → β} {as : List α} {p : β × α} (h : p ∈ (as.map f).zip as) :
    ∃ a ∈ as, p = (f a, a) := by
  induction as with
  | nil => exact absurd h List.not_mem_nil
  | cons a as ih =>
    rcases List.mem_cons.1 h with rfl | h
    · exact ⟨a, List.mem_cons_self, rfl⟩
    · obtain ⟨b, hb, rfl⟩ := ih h
      exact ⟨b, List.mem_cons_of_mem _ hb, rfl⟩

/-! ### What is representable is written as it was read -/

theorem writeEach_map_eq_ok {α β : Type} {write : α → Outcome D2OError (List UInt8)} {f : β → α} {w : β → List UInt8}
    {bs : List β} (h : ∀ b ∈ bs, write (f b) = .ok (w b)) : writeEach write (bs.map f) = .ok (bs.flatMap w) := by
  induction bs with
  | nil => rfl
  | cons b bs ih =>
    rw [List.map_cons, writeEach, h b List.mem_cons_self, Outcome.ok_bind,
      ih fun c hc => h c (List.mem_cons_of_mem _ hc), Outcome.ok_bind, List.flatMap_cons]

theorem writeEach_zip_eq_ok {α β : Type} {write : α → Outcome D2OError (List UInt8)}
    {w : β → List UInt8} {as : List α}
    {bs : List β} (hlength : as.length = bs.length) (h : ∀ p ∈ as.zip bs, write p.1 = .ok (w p.2)) :
    writeEach write as = .ok (bs.flatMap w) := by
  have hzip := writeEach_map_eq_ok (f := Prod.fst) (w := fun p => w p.2) h
  have hflat : ((as.zip bs).flatMap fun p => w p.2) = bs.flatMap w := by
    rw [← List.flatMap_map Prod.snd w, List.map_snd_zip (Nat.le_of_eq hlength.symm)]
  rwa [List.map_fst_zip (Nat.le_of_eq hlength), hflat] at hzip

/-- An embedded object is written with the class that is found under its name. -/
theorem writeFieldValue_object {v : Value} (hv : v ≠ .null) (fuel : Nat) (declared : Int32) :
    writeFieldValue classes (fuel + 1) (.object declared) v =
      match (v.get? "_class").bind Value.asStr with
      | none => .err .embeddedMissingClass
      | some className =>
        match findClass classes className with
        | none => .err (.unknownEmbeddedClass className)
        | some (classId, classDef) =>
          writeObjectFields classes fuel classDef v >>= fun ws => .ok (writeInt classId ++ ws) := by
  cases v with
  | null => exact absurd rfl hv
  | _ => rfl

theorem writeUtfChecked_eq_ok {s : String} (h : Fits s) : writeUtfChecked s = .ok (writeUtf s) := by
  unfold Fits at h
  exact if_neg (by omega)

/-- A string field of valid UTF-8 is written as it was read. -/
theorem writeFieldValue_stringValue {bytes : List UInt8} (hlength : bytes.length < 2 ^ 16)
    (h : (String.fromUTF8? ⟨bytes.toArray⟩).isSome) (fuel : Nat) :
    writeFieldValue classes (fuel + 1) .string (D2OReader.stringValue bytes) =
      .ok (Content.encode (.string bytes)) := by
  obtain ⟨s, hs⟩ := Option.isSome_iff_exists.1 h
  have hbytes := asBytes_of_fromUTF8? hs
  have hfits : Fits s := by
    unfold Fits
    rwa [hbytes]
  have hencode : Content.encode (.string bytes) = writeUtf s := by
    rw [Content.encode, writeUtf, hbytes]
  rw [hencode]
  unfold D2OReader.stringValue
  split
  · rename_i hempty
    subst hempty
    obtain rfl : s = "" := String.toByteArray_inj.1 (ByteArray.ext (Array.toList_inj.1 hbytes))
    rfl
  · rw [hs]
    dsimp only
    split
    · rename_i hnull
      subst hnull
      exact writeUtfChecked_eq_ok hfits
    · exact writeUtfChecked_eq_ok hfits

/-- The fields of an object are written one after the other. -/
theorem writeObjectFields_eq_ok {fuel : Nat} {classDef : D2OClassDef} {fields : List Content} {v : Value}
    (hlength : classDef.fields.length = fields.length)
    (h : ∀ p ∈ classDef.fields.zip fields, ∃ u, v.get? p.1.name = some u ∧
      writeFieldValue classes fuel p.1.fieldType u = .ok p.2.encode) :
    writeObjectFields classes (fuel + 1) classDef v = .ok (Content.encodes fields) := by
  rw [writeObjectFields, Content.encodes_eq_flatMap]
  refine writeEach_zip_eq_ok hlength fun p hp => ?_
  obtain ⟨u, hu, hwrite⟩ := h p hp
  rw [hu]
  exact hwrite

/-- The number has a mantissa of 53 bits, so that it is a double. -/
def IsDouble (n : Nat) : Prop := ∃ m k, m < 2 ^ 53 ∧ n = m * 2 ^ k

/-- The double nearest to the number is the number. -/
def Value.IsExact : Value → Prop
  | .number (.posInt n) => IsDouble n.toNat
  | .number (.negInt n) => IsDouble n.toInt.natAbs
  | _ => True

theorem isExact_ofF64 (bits : UInt64) : (Value.ofF64 bits).IsExact := by
  unfold Value.ofF64
  split <;> trivial

/-- The content is what a JSON value says, as a field of the type. -/
inductive Represents (table : HashMap Int32 D2OClassDef) : D2OFieldType → Content → Value → Prop where
  | int {n : Int32} {v : Value} (h : v.asI64 = some n.toInt64) : Represents table .int (.int n) v
  | bool (b : Bool) : Represents table .bool (.bool b) (.bool b)
  | string {s : String} (h : Fits s) : Represents table .string (.string (asBytes s)) (.string s)
  | nullString : Represents table .string (.string (asBytes "null")) .null
  | number {bits : UInt64} {v : Value} (h : v.asF64 = some bits) (hfinite : Value.isFinite bits = true)
      (hexact : v.IsExact) : Represents table .number (.number bits) v
  | i18n {n : Int32} {v : Value} (h : v.asI64 = some n.toInt64) : Represents table .i18n (.i18n n) v
  | uint {n : UInt32} {v : Value} (h : v.asU64 = some n.toUInt64) : Represents table .uint (.uint n) v
  | vector {typeName : String} {inner : D2OFieldType} {items : List Content} {vs : List Value}
      (hlength : vs.length = items.length) (hcount : items.length < 2 ^ 31)
      (h : ∀ p ∈ vs.zip items, Represents table inner p.2 p.1) :
      Represents table (.vector typeName inner) (.vector items) (.array vs)
  | null (declared : Int32) : Represents table (.object declared) .null .null
  | object {declared classId : Int32} {classDef : D2OClassDef} {fields : List Content} {v : Value}
      (hmarker : classId ≠ nullObjectMarker) (hclass : table.lookup classId = some classDef)
      (hname : v.get? "_class" = some (.string classDef.name)) (hlength : classDef.fields.length = fields.length)
      (hkeys : ∀ name u, v.get? name = some u → name = "_class" ∨ name ∈ classDef.fields.map D2OFieldDef.name)
      (hpresent : ∀ field ∈ classDef.fields, (v.get? field.name).isSome)
      (h : ∀ p ∈ classDef.fields.zip fields, ∀ u, v.get? p.1.name = some u → Represents table p.1.fieldType p.2 u) :
      Represents table (.object declared) (.object classId fields) v

/-- What is representable comes as JSON that says it. -/
theorem represents_value (htable : classes.Perm table.pairs) {fieldType : D2OFieldType} {content : Content}
    (htype : HasType table fieldType content) : Representable classes content →
    Represents table fieldType content (content.value table) := by
  induction htype with
  | string hlength =>
    rename_i bytes
    intro hrep
    cases hrep with
    | string hvalid =>
      obtain ⟨s, hs⟩ := Option.isSome_iff_exists.1 hvalid
      obtain rfl := asBytes_of_fromUTF8? hs
      rw [Content.value, D2OReader.stringValue, hs]
      dsimp only
      split_ifs with hempty hnull
      · obtain rfl : s = "" := String.toByteArray_inj.1 (ByteArray.ext (Array.toList_inj.1 hempty))
        exact .string hlength
      · subst hnull
        exact .nullString
      · exact .string hlength
  | number bits =>
    intro hrep
    cases hrep with
    | number hfinite => exact .number (asF64_ofF64 hfinite) hfinite (isExact_ofF64 bits)
  | vector hlength hitems ih =>
    rename_i typeName inner items
    intro hrep
    cases hrep with
    | vector hrep =>
      rw [Content.value, Content.values_eq_map]
      refine .vector (by rw [List.length_map]) hlength fun p hp => ?_
      obtain ⟨c, hc, rfl⟩ := exists_of_mem_map_zip hp
      exact ih c hc (hrep c hc)
  | null declared => exact fun _ => .null declared
  | object hmarker hlookup hlength hfields ih =>
    rename_i declared classId classDef fields
    intro hrep
    cases hrep with
    | object hfind hplain hrep =>
      obtain rfl := Option.some.inj (hlookup.symm.trans (lookup_of_findClass htable hfind))
      rw [Content.value, hlookup]
      dsimp only
      rw [Content.values_eq_map]
      obtain ⟨hclass, hget⟩ := @get?_value table _ hplain _ hlength
      refine .object hmarker hlookup hclass hlength (fun name u hu => get?_fillObject hu) (fun field hfield => ?_)
        fun p hp u hu => ?_
      · obtain ⟨c, hc⟩ := exists_mem_zip hlength hfield
        rw [hget _ hc]
        rfl
      · obtain rfl := Option.some.inj ((hget p hp).symm.trans hu)
        exact ih p hp (hrep _ (List.of_mem_zip hp).2)
  | bool b => exact fun _ => .bool b
  | int n => exact fun _ => .int (asI64_ofI32 n)
  | i18n n => exact fun _ => .i18n (asI64_ofI32 n)
  | uint n => exact fun _ => .uint (asU64_ofU32 n)

/-- What a JSON value says is written. -/
theorem writeFieldValue_eq_encode (htable : classes.Perm table.pairs) {fieldType : D2OFieldType} {content : Content}
    {v : Value} (h : Represents table fieldType content v) : Representable classes content → ∀ {fuel : Nat},
    2 * v.depth ≤ fuel → writeFieldValue classes fuel fieldType v = .ok content.encode := by
  have hfuel : ∀ {v : Value} {fuel : Nat}, 2 * v.depth ≤ fuel → ∃ n, fuel = n + 2 := fun {v fuel} h =>
    ⟨fuel - 2, by have := v.one_le_depth; omega⟩
  induction h with
  | string hfits =>
    intro _ fuel h
    obtain ⟨n, rfl⟩ := hfuel h
    exact writeUtfChecked_eq_ok hfits
  | nullString =>
    intro _ fuel h
    obtain ⟨n, rfl⟩ := hfuel h
    exact writeUtfChecked_eq_ok (by decide)
  | number hbits hfinite hexact =>
    intro _ fuel h
    obtain ⟨n, rfl⟩ := hfuel h
    rw [writeFieldValue, hbits]
    rfl
  | vector hlength hcount hitems ih =>
    rename_i typeName inner items vs
    intro hrep fuel h
    obtain ⟨n, rfl⟩ := hfuel h
    cases hrep with
    | vector hrep =>
      have hwrite : writeEach (writeFieldValue classes (n + 1) inner) vs = .ok (items.flatMap Content.encode) := by
        refine writeEach_zip_eq_ok hlength fun p hp => ?_
        have hdepth := Value.depth_of_mem (List.of_mem_zip hp).1
        exact ih p hp (hrep _ (List.of_mem_zip hp).2) (by omega)
      rw [writeFieldValue, Value.asArray, Option.getD_some, hwrite, Outcome.ok_bind, hlength, Content.encode,
        Content.encodes_eq_flatMap]
  | null declared =>
    intro hrep fuel h
    obtain ⟨n, rfl⟩ := hfuel h
    rfl
  | object hmarker hlookup hname hlength hkeys hpresent hfields ih =>
    rename_i declared classId classDef fields v
    intro hrep fuel h
    obtain ⟨n, rfl⟩ := hfuel h
    cases hrep with
    | object hfind hplain hrep =>
      obtain rfl := Option.some.inj (hlookup.symm.trans (lookup_of_findClass htable hfind))
      have hwrite := @writeObjectFields_eq_ok classes n _ _ v hlength fun p hp => by
        obtain ⟨u, hu⟩ := Option.isSome_iff_exists.1 (hpresent p.1 (List.of_mem_zip hp).1)
        have hdepth := Value.depth_of_get? hu
        exact ⟨u, hu, ih p hp u hu (hrep _ (List.of_mem_zip hp).2) (by omega)⟩
      have hne : v ≠ .null := by
        rintro rfl
        cases hname
      rw [writeFieldValue_object hne, hname]
      dsimp only [Option.bind_some, Value.asStr]
      rw [hfind]
      dsimp only
      rw [hwrite]
      rfl
  | bool b =>
    intro _ fuel h
    obtain ⟨n, rfl⟩ := hfuel h
    rfl
  | uint hu =>
    intro _ fuel h
    obtain ⟨n, rfl⟩ := hfuel h
    rw [writeFieldValue, hu, Option.getD_some, UInt32.toUInt32_toUInt64, Content.encode]
  | int hn =>
    intro _ fuel h
    obtain ⟨n, rfl⟩ := hfuel h
    rw [writeFieldValue, hn, Option.getD_some, Int32.toInt32_toInt64, Content.encode]
  | i18n hn =>
    intro _ fuel h
    obtain ⟨n, rfl⟩ := hfuel h
    rw [writeFieldValue, hn, Option.getD_some, Int32.toInt32_toInt64, Content.encode]

/-! ### What is read again unchanged is representable -/

theorem replicate_eq_forEach {ε α β : Type} (r : Wire.Reader ε α) (bs : List β) :
    Wire.Reader.replicate r bs.length = Wire.Reader.forEach (fun _ => r) bs := by
  induction bs with
  | nil => rfl
  | cons b bs ih => rw [List.length_cons, Wire.Reader.replicate, ih, Wire.Reader.forEach]

theorem writeEach_cons_eq_ok {α : Type} {write : α → Outcome D2OError (List UInt8)} {a : α} {as : List α}
    {ws : List UInt8} : writeEach write (a :: as) = .ok ws ↔
      ∃ w ws', write a = .ok w ∧ writeEach write as = .ok ws' ∧ w ++ ws' = ws := by
  rw [writeEach, Outcome.bind_eq_ok]
  simp only [Outcome.bind_eq_ok, Outcome.ok.injEq]
  constructor
  · rintro ⟨w, hw, ws', hws', h⟩
    exact ⟨w, ws', hw, hws', h⟩
  · rintro ⟨w, ws', hw, hws', h⟩
    exact ⟨w, hw, ws', hws', h⟩

/-- What is known of each value that is written and read again is known of a list of them. -/
theorem forEach_writeEach {β : Type} {write : β → Outcome D2OError (List UInt8)} {r : β → D2OCursor Content}
    {Q : Content → Prop} {limit : Nat} {bs : List β} : ∀ {vs : List Content},
    (∀ p ∈ bs.zip vs, ∀ w pos rest c', write p.1 = .ok w → w.length ≤ limit → r p.1 ⟨pos, w ++ rest⟩ = .ok (p.2, c') →
      Q p.2 ∧ c' = ⟨pos + w.length, rest⟩) →
    ∀ {ws : List UInt8} {pos : Nat} {rest : List UInt8} {c' : Cursor}, writeEach write bs = .ok ws →
    ws.length ≤ limit →
    Wire.Reader.forEach r bs ⟨pos, ws ++ rest⟩ = .ok (vs, c') → (∀ v ∈ vs, Q v) ∧ c' = ⟨pos + ws.length, rest⟩ := by
  induction bs with
  | nil =>
    intro vs _ ws pos rest c' hws _ hread
    obtain rfl := Outcome.ok.inj hws
    obtain ⟨rfl, rfl⟩ := Prod.mk.inj (Outcome.ok.inj hread)
    exact ⟨fun v hv => absurd hv List.not_mem_nil, rfl⟩
  | cons b bs ih =>
    intro vs h ws pos rest c' hws hlimit hread
    obtain ⟨w, ws', hw, hws', rfl⟩ := writeEach_cons_eq_ok.1 hws
    obtain ⟨⟨v, d⟩, hv, hread⟩ := Outcome.bind_eq_ok.1 hread
    obtain ⟨⟨vs', d'⟩, hvs', hread⟩ := Outcome.bind_eq_ok.1 hread
    obtain ⟨rfl, rfl⟩ := Prod.mk.inj (Outcome.ok.inj hread)
    rw [List.length_append] at hlimit
    rw [List.append_assoc] at hv
    obtain ⟨hQ, rfl⟩ := h (b, v) List.mem_cons_self w pos _ d hw (by omega) hv
    obtain ⟨hall, rfl⟩ := ih (fun p hp => h p (List.mem_cons_of_mem _ hp)) hws' (by omega) hvs'
    refine ⟨List.forall_mem_cons.2 ⟨hQ, hall⟩, ?_⟩
    rw [List.length_append, Nat.add_assoc]

/-- A content that is written as JSON and read again unchanged is representable, and all its bytes were read. -/
def Faithful (classes : ClassTable) (table : HashMap Int32 D2OClassDef) (fieldType : D2OFieldType)
    (content : Content) : Prop :=
  ∀ fuel fuel' w pos rest c', writeFieldValue classes fuel fieldType (content.value table) = .ok w →
    w.length < fuel' →
    readContent table fuel' fieldType ⟨pos, w ++ rest⟩ = .ok (content, c') →
    Representable classes content ∧ c' = ⟨pos + w.length, rest⟩

/-- What was written as it was read is read to its end. -/
theorem faithful_of_eq {fieldType : D2OFieldType} {content : Content} (htype : HasType table fieldType content)
    (h : ∀ fuel fuel' w pos rest c', writeFieldValue classes (fuel + 1) fieldType (content.value table) = .ok w →
      w.length < fuel' → readContent table fuel' fieldType ⟨pos, w ++ rest⟩ = .ok (content, c') →
      Representable classes content ∧ w = content.encode) : Faithful classes table fieldType content := by
  intro fuel fuel' w pos rest c' hw hfuel hread
  cases fuel with
  | zero => cases hw
  | succ fuel =>
    obtain ⟨hrep, rfl⟩ := h fuel fuel' w pos rest c' hw hfuel hread
    rw [reads_content htype hfuel pos rest] at hread
    obtain ⟨-, rfl⟩ := Prod.mk.inj (Outcome.ok.inj hread)
    exact ⟨hrep, rfl⟩

/-- The fields of an object that is written and read again unchanged are representable. -/
theorem representable_fields {classId : Int32} {classDef : D2OClassDef} {fields : List Content}
    (hclass : table.lookup classId = some classDef) (hplain : classDef.Plain)
    (hlength : classDef.fields.length = fields.length)
    (h : ∀ p ∈ classDef.fields.zip fields, Faithful classes table p.1.fieldType p.2) {fuel fuel' pos : Nat}
    {ws rest : List UInt8} {c' : Cursor}
    (hws : writeObjectFields classes fuel classDef (D2OReader.fillObject classDef.name
      ((classDef.fields.map D2OFieldDef.name).zip (fields.map (Content.value table)))) = .ok ws)
    (hfuel : ws.length + 1 < fuel')
    (hread : readContentFields table fuel' classId ⟨pos, ws ++ rest⟩ = .ok (.object classId fields, c')) :
    (∀ c ∈ fields, Representable classes c) ∧ c' = ⟨pos + ws.length, rest⟩ := by
  cases fuel with
  | zero => cases hws
  | succ fuel =>
    obtain ⟨n, rfl⟩ : ∃ n, fuel' = n + 1 := ⟨fuel' - 1, by omega⟩
    unfold readContentFields at hread
    rw [hclass] at hread
    obtain ⟨⟨fields', d⟩, hfields, hread⟩ := Outcome.bind_eq_ok.1 hread
    obtain ⟨hobject, rfl⟩ := Prod.mk.inj (Outcome.ok.inj hread)
    obtain ⟨-, rfl⟩ := Content.object.inj hobject
    refine @forEach_writeEach _ _ _ _ ws.length _ _
      (fun p hp w pos rest c' hw hlimit hread => ?_) _ _ _ _ hws (Nat.le_refl _) hfields
    rw [(get?_value hplain hlength).2 p hp] at hw
    exact h p hp fuel n w pos rest c' hw (by omega) hread

theorem faithful_string {bytes : List UInt8} (hlength : bytes.length < 2 ^ 16) :
    Faithful classes table .string (.string bytes) := by
  refine faithful_of_eq (.string hlength) fun fuel fuel' w pos rest c' hw hfuel hread => ?_
  by_cases hvalid : (String.fromUTF8? ⟨bytes.toArray⟩).isSome
  · have hencode := @writeFieldValue_stringValue classes _ hlength hvalid fuel
    exact ⟨.string hvalid, Outcome.ok.inj (hw.symm.trans hencode)⟩
  · -- a note was written in place of the bytes, and a note is valid
    exfalso
    have hnone : String.fromUTF8? ⟨bytes.toArray⟩ = none := by
      cases hs : String.fromUTF8? ⟨bytes.toArray⟩ with
      | none => rfl
      | some s =>
        rw [hs] at hvalid
        exact absurd rfl hvalid
    have hne : bytes ≠ [] := by
      rintro rfl
      exact hvalid rfl
    generalize hnote : "<invalid utf8: " ++ toString bytes.length ++ " bytes>" = note
    have hvalue : D2OReader.stringValue bytes = .string note := by
      rw [D2OReader.stringValue, if_neg hne, hnone, ← hnote]
    rw [Content.value, hvalue] at hw
    change writeUtfChecked note = _ at hw
    unfold writeUtfChecked at hw
    split at hw
    · cases hw
    rename_i hnoteLength
    obtain rfl := Outcome.ok.inj hw
    have hnoteFits : (asBytes note).length < 2 ^ 16 := by omega
    have hreads := @reads_content table _ (.string (asBytes note)) (.string hnoteFits) _ hfuel pos rest
    have hwrite : writeUtf note = Content.encode (.string (asBytes note)) := rfl
    rw [hwrite, hreads] at hread
    obtain ⟨hbytes, -⟩ := Prod.mk.inj (Outcome.ok.inj hread)
    obtain rfl := Content.string.inj hbytes
    rw [fromUTF8?_asBytes] at hnone
    cases hnone

theorem faithful_number (bits : UInt64) : Faithful classes table .number (.number bits) := by
  refine faithful_of_eq (.number bits) fun fuel fuel' w pos rest c' hw hfuel hread => ?_
  by_cases hfinite : Value.isFinite bits = true
  · rw [Content.value, writeFieldValue, asF64_ofF64 hfinite] at hw
    exact ⟨.number hfinite, (Outcome.ok.inj hw).symm⟩
  · -- null was written as zero, and zero is finite
    exfalso
    rw [Content.value, Value.ofF64, if_neg hfinite] at hw
    obtain rfl := Outcome.ok.inj hw
    have hreads := @reads_content table _ _ (.number 0) _ hfuel pos rest
    change readContent table fuel' .number ⟨pos, writeDouble 0 ++ rest⟩ = _ at hread
    rw [show writeDouble 0 = Content.encode (.number 0) from rfl, hreads] at hread
    obtain ⟨hbits, -⟩ := Prod.mk.inj (Outcome.ok.inj hread)
    obtain rfl := Content.number.inj hbits
    exact hfinite (by decide)

theorem faithful_vector {typeName : String} {inner : D2OFieldType} {items : List Content}
    (hlength : items.length < 2 ^ 31) (h : ∀ c ∈ items, Faithful classes table inner c) :
    Faithful classes table (.vector typeName inner) (.vector items) := by
  intro fuel fuel' w pos rest c' hw hfuel hread
  cases fuel with
  | zero => cases hw
  | succ fuel =>
    obtain ⟨n, rfl⟩ := Nat.exists_eq_add_one_of_ne_zero (Nat.ne_of_gt (Nat.zero_lt_of_lt hfuel))
    rw [Content.value, Content.values_eq_map, writeFieldValue] at hw
    obtain ⟨ws, hws, hw⟩ := Outcome.bind_eq_ok.1 hw
    rw [Value.asArray, Option.getD_some] at hws hw
    obtain rfl := Outcome.ok.inj hw
    rw [List.length_append, length_writeInt] at hfuel ⊢
    -- the count comes first, so as many items are read as were written
    have hcount := reads_io (reads_int (Int32.ofNat (items.map (Content.value table)).length)) pos (ws ++ rest)
    rw [List.append_assoc] at hread
    unfold readContent at hread
    obtain ⟨⟨count, d⟩, hcount', hread⟩ := Outcome.bind_eq_ok.1 hread
    rw [hcount] at hcount'
    obtain ⟨rfl, rfl⟩ := Prod.mk.inj (Outcome.ok.inj hcount')
    obtain ⟨⟨items', d⟩, hitems', hread⟩ := Outcome.bind_eq_ok.1 hread
    obtain ⟨hvector, rfl⟩ := Prod.mk.inj (Outcome.ok.inj hread)
    obtain rfl := Content.vector.inj hvector
    dsimp only at hitems'
    rw [Int32.toInt_ofNat_of_lt (by rwa [List.length_map]), Int.toNat_natCast, replicate_eq_forEach] at hitems'
    obtain ⟨hall, rfl⟩ := @forEach_writeEach _ _ _ _ ws.length _ _ (fun p hp w pos rest c' hw hlimit hread => by
      obtain ⟨c, hmem, rfl⟩ := exists_of_mem_map_zip hp
      exact h c hmem fuel n w pos rest _ hw (by omega) hread) _ _ _ _ hws (Nat.le_refl _) hitems'
    refine ⟨.vector hall, ?_⟩
    rw [length_writeInt, Nat.add_assoc]

theorem faithful_object {declared classId : Int32} {classDef : D2OClassDef} {fields : List Content}
    (hlookup : table.lookup classId = some classDef) (hplain : classDef.Plain) (htable : classes.Perm table.pairs)
    (hlength : classDef.fields.length = fields.length)
    (h : ∀ p ∈ classDef.fields.zip fields, Faithful classes table p.1.fieldType p.2) :
    Faithful classes table (.object declared) (.object classId fields) := by
  intro fuel fuel' w pos rest c' hw hfuel hread
  cases fuel with
  | zero => cases hw
  | succ fuel =>
    rw [Content.value, hlookup] at hw
    dsimp only at hw
    rw [Content.values_eq_map,
      writeFieldValue_object (by unfold D2OReader.fillObject; exact Value.noConfusion),
      (get?_value hplain hlength).1] at hw
    dsimp only [Option.bind_some, Value.asStr] at hw
    cases hfind : findClass classes classDef.name with
    | none =>
      rw [hfind] at hw
      cases hw
    | some found =>
      obtain ⟨foundId, foundDef⟩ := found
      rw [hfind] at hw
      obtain ⟨ws, hws, hw⟩ := Outcome.bind_eq_ok.1 hw
      obtain rfl := Outcome.ok.inj hw
      rw [List.length_append, length_writeInt] at hfuel ⊢
      obtain ⟨n, rfl⟩ := Nat.exists_eq_add_one_of_ne_zero (Nat.ne_of_gt (Nat.zero_lt_of_lt hfuel))
      rw [List.append_assoc] at hread
      unfold readContent at hread
      obtain ⟨⟨actualClassId, d⟩, hid, hread⟩ := Outcome.bind_eq_ok.1 hread
      rw [reads_io (reads_int foundId) pos (ws ++ rest)] at hid
      obtain ⟨rfl, rfl⟩ := Prod.mk.inj (Outcome.ok.inj hid)
      dsimp only at hread
      split at hread
      · cases hread
      · -- the object is read with the class it was written with
        obtain ⟨readDef, readFields, -, hobject, -⟩ := (hasType_of_readContent n).1 _ _ _ _ hread
        obtain ⟨rfl, -⟩ := Content.object.inj hobject
        have hsame := Option.some.inj (hlookup.symm.trans (lookup_of_findClass htable hfind))
        subst hsame
        obtain ⟨hall, rfl⟩ := representable_fields hlookup hplain hlength h hws (by omega) hread
        refine ⟨.object hfind hplain hall, ?_⟩
        rw [length_writeInt, Nat.add_assoc]

/-- A content of plain objects that is read again unchanged is representable. -/
theorem faithful (htable : classes.Perm table.pairs) {fieldType : D2OFieldType} {content : Content}
    (htype : HasType table fieldType content) : PlainObjects table content →
    Faithful classes table fieldType content := by
  induction htype with
  | string hlength => exact fun _ => faithful_string hlength
  | number bits => exact fun _ => faithful_number bits
  | vector hlength hitems ih =>
    intro hplain
    cases hplain with
    | vector hplain => exact faithful_vector hlength fun c hc => ih c hc (hplain c hc)
  | null declared =>
    intro _
    exact faithful_of_eq (.null declared) fun fuel fuel' w pos rest c' hw _ _ => ⟨.null, (Outcome.ok.inj hw).symm⟩
  | object hmarker hlookup hlength hfields ih =>
    intro hplainObjects
    cases hplainObjects with
    | object hlookup' hplain hplainFields =>
      obtain rfl := Option.some.inj (hlookup.symm.trans hlookup')
      exact faithful_object hlookup hplain htable hlength fun p hp =>
        ih p hp (hplainFields _ (List.of_mem_zip hp).2)
  | bool b =>
    intro _
    exact faithful_of_eq (.bool b) fun fuel fuel' w pos rest c' hw _ _ => ⟨.bool b, (Outcome.ok.inj hw).symm⟩
  | int i =>
    intro _
    refine faithful_of_eq (.int i) fun fuel fuel' w pos rest c' hw _ _ => ⟨.int i, ?_⟩
    rw [Content.value, writeFieldValue, asI64_ofI32, Option.getD_some, Int32.toInt32_toInt64] at hw
    exact (Outcome.ok.inj hw).symm
  | i18n i =>
    intro _
    refine faithful_of_eq (.i18n i) fun fuel fuel' w pos rest c' hw _ _ => ⟨.i18n i, ?_⟩
    rw [Content.value, writeFieldValue, asI64_ofI32, Option.getD_some, Int32.toInt32_toInt64] at hw
    exact (Outcome.ok.inj hw).symm
  | uint u =>
    intro _
    refine faithful_of_eq (.uint u) fun fuel fuel' w pos rest c' hw _ _ => ⟨.uint u, ?_⟩
    rw [Content.value, writeFieldValue, asU64_ofU32, Option.getD_some, UInt32.toUInt32_toUInt64] at hw
    exact (Outcome.ok.inj hw).symm

end

end Otomai.DataReader
