import Otomai.Io.RoundTrip
import Otomai.ProtocolGen.AbcFile

/-!
# The format of class files

The parser of ABC files reads back what is written of a file, and what it reads is what could have been written.  The
strings of the pool are the exception: bytes that are no UTF-8 are replaced, and what replaces them may be longer.

* `codes_trait`, `codes_methodInfo`: parts whose shape depends on flags.
* `reads_abc`, `sound_of_parseAbc`: the whole file.
-/

namespace Otomai.ProtocolGen.Abc

open Wire FileReader

/-! ### Numbers -/

theorem high_bit_eq_zero_iff (b : UInt8) : b &&& 0x80 = 0 ↔ b.toNat < 128 := by
  have h : ∀ i : Fin 256, UInt8.ofFin i &&& 0x80 = 0 ↔ i.val < 128 := by decide +kernel
  exact h b.toFin

theorem reads_abcU8 (b : UInt8) : Reads AbcReader.readU8 [b] b := fun p rest => Reads.next (AbcError.eofU8 p) b p rest

/-- The loop of `read_u30`: it reads a base-128 numeral above the bits already read. -/
theorem reads_u30From (n : Nat) : ∀ (k size : Nat) (result : UInt32), k < 128 ^ (n + 1) → size < 32 →
    result.toNat < 2 ^ size → result.toNat + k * 2 ^ size < 2 ^ 32 →
    Reads (AbcReader.readU30From (n + 1) result (UInt32.ofNat size)) (base128 k)
      (UInt32.ofNat (result.toNat + k * 2 ^ size)) := by
  have hlast {n k size : Nat} {result : UInt32} (hk : k < 128) (hs : size < 32) (hv : result.toNat < 2 ^ size)
      (hf : result.toNat + k * 2 ^ size < 2 ^ 32) :
      Reads (AbcReader.readU30From (n + 1) result (UInt32.ofNat size)) (base128 k)
        (UInt32.ofNat (result.toNat + k * 2 ^ size)) := by
    have hb : (UInt8.ofNat k).toNat = k := toNat_ofNat8 (by omega)
    have hgroup := or_group hs hv (show (UInt8.ofNat k).toNat % 128 = k by rw [hb]; omega) hf
    rw [base128_of_lt hk, AbcReader.readU30From]
    refine Reads.map (reads_abcU8 _) ?_
    dsimp only
    rw [if_pos ((high_bit_eq_zero_iff _).2 (by rw [hb]; exact hk)), ← hgroup, UInt32.ofNat_toNat]
    exact Reads.pure _
  induction n with
  | zero =>
    intro k size result hk hs hv hf
    exact hlast (by omega) hs hv hf
  | succ n ih =>
    intro k size result hk hs hv hf
    by_cases h : k < 128
    · exact hlast h hs hv hf
    · have hb : (UInt8.ofNat (k % 128 + 128)).toNat = k % 128 + 128 := toNat_ofNat8 (by omega)
      obtain ⟨hs', hv', he⟩ := group_lt hv (Nat.not_lt.1 h) hf
      have hgroup := or_group hs hv (show (UInt8.ofNat (k % 128 + 128)).toNat % 128 = k % 128 by rw [hb]; omega)
        (Nat.lt_trans hv' (Nat.pow_lt_pow_right (by decide) hs'))
      have hrest := ih (k / 128) (size + 7)
        (result ||| (UInt8.ofNat (k % 128 + 128) &&& 127).toUInt32 <<< UInt32.ofNat size)
        (by rw [Nat.pow_succ] at hk; omega) hs' (by rw [hgroup]; exact hv') (by rw [hgroup, he]; exact hf)
      rw [hgroup, he, UInt32.ofNat_add] at hrest
      rw [base128_of_le (Nat.not_lt.1 h), AbcReader.readU30From]
      refine Reads.bind (reads_abcU8 _) ?_
      dsimp only
      rw [if_neg (fun hzero => by rw [high_bit_eq_zero_iff, hb] at hzero; omega)]
      exact hrest

theorem reads_abcU30 (v : UInt32) : Reads AbcReader.readU30 (writeU30 v) v := by
  have hv := v.toNat_lt
  have h := reads_u30From 4 v.toNat 0 0 (by omega) (by decide) (by decide) (by simpa using hv)
  have hzero : (0 : UInt32).toNat + v.toNat * 2 ^ 0 = v.toNat := by simp
  rw [hzero, UInt32.ofNat_toNat] at h
  exact h

theorem Reads.lift {α : Type} {r : AbcReader α} {w : List UInt8} {v : α} (h : Reads r w v) : Reads (lift r) w v := by
  intro p rest
  rw [FileReader.lift, h p rest]
  rfl

theorem codes_u30 : Codes readU30 writeU30 fun _ => True :=
  ⟨fun v _ => Reads.lift (reads_abcU30 v), fun _ _ _ _ => trivial⟩

theorem codes_u8 : Codes readU8 (fun b => [b]) fun _ => True :=
  ⟨fun v _ => Reads.lift (reads_abcU8 v), fun _ _ _ _ => trivial⟩

theorem reads_u16 (v : UInt16) : Reads readU16 (writeU16 v) v := by
  intro p rest
  have htake := Reads.take (AbcFileError.eofU16 p) (writeU16 v) p rest
  have hlength : (writeU16 v).length = 2 := by rw [writeU16, List.length_reverse, length_bigEndian]
  have hvalue : ofBigEndian (bigEndian 2 v.toNat) = v.toNat := by
    rw [ofBigEndian_bigEndian]
    exact Nat.mod_eq_of_lt v.toNat_lt
  rw [hlength] at htake
  rw [readU16, htake, Outcome.ok_bind]
  dsimp only
  rw [writeU16, List.reverse_reverse, hvalue, UInt16.ofNat_toNat, List.length_reverse, length_bigEndian]

theorem codes_bytes (n : Nat) : Codes (readBytes n) id fun w => w.length = n where
  reads w hw := by
    obtain rfl := hw
    exact Reads.lift fun p rest => Reads.take (AbcError.eofBytes w.length p) w p rest
  holds c w c' hr := by
    have hr := Outcome.mapErr_eq_ok.1 hr
    unfold AbcReader.readBytes Reader.take at hr
    by_cases hn : n ≤ c.unread.length
    · rw [if_pos hn] at hr
      obtain ⟨rfl, -⟩ := Prod.mk.inj (Outcome.ok.inj hr)
      exact List.length_take_of_le hn
    · rw [if_neg hn] at hr
      cases hr

/-! ### Lists and parts that may be missing -/

variable {α : Type} {r : FileReader α} {w : α → List UInt8} {P : α → Prop}

theorem codes_list (h : Codes r w P) :
    Codes (parseList r) (writeList w) fun vs => vs.length < 2 ^ 32 ∧ ∀ v ∈ vs, P v where
  reads vs hvs := by
    refine (codes_u30.reads (UInt32.ofNat vs.length) trivial).bind ?_
    rw [UInt32.toNat_ofNat_of_lt' hvs.1]
    exact (h.replicate vs.length).reads vs ⟨rfl, hvs.2⟩
  holds c vs c' hr := by
    obtain ⟨⟨count, d⟩, -, hr⟩ := Outcome.bind_eq_ok.1 hr
    obtain ⟨hlen, hall⟩ := (h.replicate count.toNat).holds d vs c' hr
    exact ⟨hlen ▸ count.toNat_lt, hall⟩

theorem codes_u30s : Codes (parseList readU30) (writeList writeU30) fun vs => vs.length < 2 ^ 32 :=
  (codes_list codes_u30).of_iff fun vs => by simp

theorem codes_if (h : Codes r w P) (implied : α) (c : Prop) [Decidable c] :
    Codes (parseIf c implied r) (writeIf c w) fun v => if c then P v else v = implied := by
  unfold parseIf writeIf
  by_cases hc : c
  · simp only [if_pos hc]
    exact h
  · simp only [if_neg hc]
    exact Codes.known implied

theorem codes_code : Codes parseCode writeCode fun code => code.length < 2 ^ 32 where
  reads code hcode := by
    refine (codes_u30.reads (UInt32.ofNat code.length) trivial).bind ?_
    rw [UInt32.toNat_ofNat_of_lt' hcode]
    exact (codes_bytes code.length).reads code rfl
  holds c code c' hr := by
    obtain ⟨⟨count, d⟩, -, hr⟩ := Outcome.bind_eq_ok.1 hr
    have hlen := (codes_bytes count.toNat).holds d code c' hr
    exact hlen ▸ count.toNat_lt

/-! ### The parts -/

theorem codes_optionValue : Codes parseOptionValue OptionValue.write fun _ => True := by
  have hfields : Codes parseOptionValue _ _ :=
    Codes.field (E := fun _ => True) OptionValue.val codes_u30 fun _ =>
      Codes.last OptionValue.kind codes_u8 fun _ v => by
        cases v
        simp
  refine (hfields.of_eq fun v => rfl).of_iff fun v => ?_
  simp only [true_and]

theorem codes_item : Codes parseItem writeItem fun _ => True := by
  have hfields : Codes parseItem _ _ :=
    Codes.field (E := fun _ => True) Prod.fst codes_u30 fun _ =>
      Codes.last Prod.snd codes_u30 fun _ v => by
        cases v
        simp
  refine (hfields.of_eq fun v => rfl).of_iff fun v => ?_
  simp only [true_and]

/-- There are as many types, and as many names if any, as parameters; what no flag tells of is missing. -/
structure MethodInfo.Sound (m : MethodInfo) : Prop where
  paramTypes : m.paramTypes.length = m.paramCount.toNat
  options : if hasOptional m.flags then m.options.length < 2 ^ 32 else m.options = []
  paramNames : if hasParamNames m.flags then m.paramNames.length = m.paramCount.toNat else m.paramNames = []

theorem codes_methodInfo : Codes parseMethodInfo MethodInfo.write MethodInfo.Sound where
  reads m hm := by
    have htypes := (codes_u30.replicate m.paramCount.toNat).reads m.paramTypes ⟨hm.paramTypes, fun _ _ => trivial⟩
    have hoptions := (codes_if (codes_list codes_optionValue) [] (hasOptional m.flags)).reads m.options
      (by simpa using hm.options)
    have hnames := (codes_if (codes_u30.replicate m.paramCount.toNat) [] (hasParamNames m.flags)).reads m.paramNames
      (by simpa using hm.paramNames)
    refine (codes_u30.reads m.paramCount trivial).bind ?_
    refine (codes_u30.reads m.returnType trivial).bind ?_
    refine htypes.bind ?_
    refine (codes_u30.reads m.name trivial).bind ?_
    refine (codes_u8.reads m.flags trivial).bind ?_
    refine hoptions.bind ?_
    exact hnames.map (Reads.pure m)
  holds c m c' hr := by
    obtain ⟨⟨paramCount, c₁⟩, -, hr⟩ := Outcome.bind_eq_ok.1 hr
    obtain ⟨⟨returnType, c₂⟩, -, hr⟩ := Outcome.bind_eq_ok.1 hr
    obtain ⟨⟨paramTypes, c₃⟩, htypes, hr⟩ := Outcome.bind_eq_ok.1 hr
    obtain ⟨⟨name, c₄⟩, -, hr⟩ := Outcome.bind_eq_ok.1 hr
    obtain ⟨⟨flags, c₅⟩, -, hr⟩ := Outcome.bind_eq_ok.1 hr
    obtain ⟨⟨options, c₆⟩, hoptions, hr⟩ := Outcome.bind_eq_ok.1 hr
    obtain ⟨⟨paramNames, c₇⟩, hnames, hr⟩ := Outcome.bind_eq_ok.1 hr
    obtain ⟨rfl, -⟩ := Prod.mk.inj (Outcome.ok.inj hr)
    have htypes := (codes_u30.replicate paramCount.toNat).holds _ _ _ htypes
    have hoptions := (codes_if (codes_list codes_optionValue) [] (hasOptional flags)).holds _ _ _ hoptions
    have hnames := (codes_if (codes_u30.replicate paramCount.toNat) [] (hasParamNames flags)).holds _ _ _ hnames
    exact ⟨htypes.1, by simpa using hoptions, by simpa using hnames⟩

theorem codes_metadata : Codes parseMetadata MetadataInfo.write fun m => m.items.length < 2 ^ 32 := by
  have hfields : Codes parseMetadata _ _ :=
    Codes.field (E := fun _ => True) MetadataInfo.name codes_u30 fun _ =>
      Codes.last MetadataInfo.items (codes_list codes_item) fun _ v => by
        cases v
        simp
  refine (hfields.of_eq fun v => rfl).of_iff fun v => ?_
  simp

/-! ### Traits -/

open TraitData

/-- The value of a slot, for one of the two kinds of slots. -/
theorem codes_value {make : UInt32 → UInt32 → UInt32 → UInt8 → TraitData} (slotId typeName vindex : UInt32)
    (vkind : UInt8) (h : vindex = 0 → vkind = 0) :
    Reads (parseValue make) (writeValue slotId typeName vindex vkind) (make slotId typeName vindex vkind) := by
  have hkind := (codes_if codes_u8 0 (vindex ≠ 0)).reads vkind (by
    by_cases hzero : vindex = 0
    · simp [hzero, h hzero]
    · simp [hzero])
  refine (codes_u30.reads slotId trivial).bind ?_
  refine (codes_u30.reads typeName trivial).bind ?_
  refine (codes_u30.reads vindex trivial).bind ?_
  exact hkind.map (Reads.pure _)

theorem parseValue_eq_ok {make : UInt32 → UInt32 → UInt32 → UInt8 → TraitData} {c c' : Cursor} {d : TraitData}
    (hr : parseValue make c = .ok (d, c')) :
    ∃ slotId typeName vindex vkind, d = make slotId typeName vindex vkind ∧ (vindex = 0 → vkind = 0) := by
  obtain ⟨⟨slotId, c₁⟩, -, hr⟩ := Outcome.bind_eq_ok.1 hr
  obtain ⟨⟨typeName, c₂⟩, -, hr⟩ := Outcome.bind_eq_ok.1 hr
  obtain ⟨⟨vindex, c₃⟩, -, hr⟩ := Outcome.bind_eq_ok.1 hr
  obtain ⟨⟨vkind, c₄⟩, hkind, hr⟩ := Outcome.bind_eq_ok.1 hr
  obtain ⟨rfl, -⟩ := Prod.mk.inj (Outcome.ok.inj hr)
  have hkind := (codes_if codes_u8 0 (vindex ≠ 0)).holds _ _ _ hkind
  refine ⟨slotId, typeName, vindex, vkind, rfl, fun hzero => ?_⟩
  simpa [hzero] using hkind

theorem reads_pair {make : UInt32 → UInt32 → TraitData} (id index : UInt32) :
    Reads (parsePair make) (writePair id index) (make id index) := by
  refine (codes_u30.reads id trivial).bind ?_
  exact (codes_u30.reads index trivial).map (Reads.pure _)

theorem parsePair_eq_ok {make : UInt32 → UInt32 → TraitData} {c c' : Cursor} {d : TraitData}
    (hr : parsePair make c = .ok (d, c')) : ∃ id index, d = make id index := by
  obtain ⟨⟨id, c₁⟩, -, hr⟩ := Outcome.bind_eq_ok.1 hr
  obtain ⟨⟨index, c₂⟩, -, hr⟩ := Outcome.bind_eq_ok.1 hr
  obtain ⟨rfl, -⟩ := Prod.mk.inj (Outcome.ok.inj hr)
  exact ⟨id, index, rfl⟩

theorem codes_traitData (kind : UInt8) :
    Codes (parseTraitData kind) TraitData.write fun d => d.kind = kind ∧ d.Sound where
  reads d hd := by
    obtain ⟨rfl, hsound⟩ := hd
    cases d with
    | slot slotId typeName vindex vkind => exact codes_value slotId typeName vindex vkind hsound
    | const slotId typeName vindex vkind => exact codes_value slotId typeName vindex vkind hsound
    | method dispId index => exact reads_pair dispId index
    | getter dispId index => exact reads_pair dispId index
    | setter dispId index => exact reads_pair dispId index
    | «class» slotId classi => exact reads_pair slotId classi
    | function slotId index => exact reads_pair slotId index
  holds c d c' hr := by
    unfold parseTraitData at hr
    split_ifs at hr with h₀ h₆ h₁ h₂ h₃ h₄ h₅
    · obtain ⟨slotId, typeName, vindex, vkind, rfl, hzero⟩ := parseValue_eq_ok hr
      exact ⟨h₀.symm, hzero⟩
    · obtain ⟨slotId, typeName, vindex, vkind, rfl, hzero⟩ := parseValue_eq_ok hr
      exact ⟨h₆.symm, hzero⟩
    · obtain ⟨id, index, rfl⟩ := parsePair_eq_ok hr
      exact ⟨h₁.symm, trivial⟩
    · obtain ⟨id, index, rfl⟩ := parsePair_eq_ok hr
      exact ⟨h₂.symm, trivial⟩
    · obtain ⟨id, index, rfl⟩ := parsePair_eq_ok hr
      exact ⟨h₃.symm, trivial⟩
    · obtain ⟨id, index, rfl⟩ := parsePair_eq_ok hr
      exact ⟨h₄.symm, trivial⟩
    · obtain ⟨id, index, rfl⟩ := parsePair_eq_ok hr
      exact ⟨h₅.symm, trivial⟩
    · cases hr

/-- A trait has the kind of its data. -/
structure Trait.Sound (t : Trait) : Prop where
  kind : t.data.kind = t.kind
  data : t.data.Sound
  metadata : t.metadata.length < 2 ^ 32

theorem TraitData.kind_and (d : TraitData) :
    d.kind &&& 0x0F = d.kind ∧ (d.kind ||| 0x40) &&& 0x0F = d.kind ∧ ¬hasMetadata d.kind ∧
      hasMetadata (d.kind ||| 0x40) := by
  have h : ∀ i : Fin 7, UInt8.ofNat i.val &&& 0x0F = UInt8.ofNat i.val ∧
      (UInt8.ofNat i.val ||| 0x40) &&& 0x0F = UInt8.ofNat i.val ∧ ¬hasMetadata (UInt8.ofNat i.val) ∧
        hasMetadata (UInt8.ofNat i.val ||| 0x40) := by decide
  cases d with
  | slot => exact h 0
  | method => exact h 1
  | getter => exact h 2
  | setter => exact h 3
  | «class» => exact h 4
  | function => exact h 5
  | const => exact h 6

theorem codes_trait : Codes parseTrait Trait.write Trait.Sound where
  reads t ht := by
    obtain ⟨hplain, hmarked, hno, hyes⟩ := t.data.kind_and
    rw [ht.kind] at hplain hmarked hno hyes
    have hkind : t.kindByte &&& 0x0F = t.kind := by
      unfold Trait.kindByte
      split_ifs
      · exact hplain
      · exact hmarked
    have hflag : hasMetadata t.kindByte ↔ t.metadata ≠ [] := by
      unfold Trait.kindByte
      split_ifs with hnil
      · exact iff_of_false hno (not_not.2 hnil)
      · exact iff_of_true hyes hnil
    have hmetadata := (codes_if codes_u30s [] (hasMetadata t.kindByte)).reads t.metadata (by
      by_cases hnil : t.metadata = []
      · rw [if_neg (fun h => hflag.1 h hnil)]
        exact hnil
      · rw [if_pos (hflag.2 hnil)]
        exact ht.metadata)
    have hwritten : writeIf (hasMetadata t.kindByte) (writeList writeU30) t.metadata =
        writeIf (t.metadata ≠ []) (writeList writeU30) t.metadata := if_congr hflag rfl rfl
    rw [hwritten] at hmetadata
    refine (codes_u30.reads t.name trivial).bind ?_
    refine (codes_u8.reads t.kindByte trivial).bind ?_
    dsimp only
    rw [hkind]
    refine ((codes_traitData t.kind).reads t.data ⟨ht.kind, ht.data⟩).bind ?_
    exact hmetadata.map (Reads.pure t)
  holds c t c' hr := by
    obtain ⟨⟨name, c₁⟩, -, hr⟩ := Outcome.bind_eq_ok.1 hr
    obtain ⟨⟨kindByte, c₂⟩, -, hr⟩ := Outcome.bind_eq_ok.1 hr
    obtain ⟨⟨data, c₃⟩, hdata, hr⟩ := Outcome.bind_eq_ok.1 hr
    obtain ⟨⟨metadata, c₄⟩, hmetadata, hr⟩ := Outcome.bind_eq_ok.1 hr
    obtain ⟨rfl, -⟩ := Prod.mk.inj (Outcome.ok.inj hr)
    have hdata := (codes_traitData (kindByte &&& 0x0F)).holds _ _ _ hdata
    have hmetadata := (codes_if codes_u30s [] (hasMetadata kindByte)).holds _ _ _ hmetadata
    refine ⟨hdata.1, hdata.2, ?_⟩
    show metadata.length < 2 ^ 32
    split_ifs at hmetadata
    · exact hmetadata
    · rw [hmetadata]
      decide

/-! ### Classes, scripts and bodies -/

/-- What no flag tells of is missing. -/
structure InstanceInfo.Sound (i : InstanceInfo) : Prop where
  protectedNs : ¬hasProtectedNs i.flags → i.protectedNs = 0
  interfaces : i.interfaces.length < 2 ^ 32
  traits : i.traits.length < 2 ^ 32 ∧ ∀ t ∈ i.traits, t.Sound

theorem codes_instanceInfo : Codes parseInstanceInfo InstanceInfo.write InstanceInfo.Sound where
  reads i hi := by
    have hprotected := (codes_if codes_u30 0 (hasProtectedNs i.flags)).reads i.protectedNs (by
      by_cases hflag : hasProtectedNs i.flags
      · rw [if_pos hflag]
        trivial
      · rw [if_neg hflag]
        exact hi.protectedNs hflag)
    refine (codes_u30.reads i.name trivial).bind ?_
    refine (codes_u30.reads i.superName trivial).bind ?_
    refine (codes_u8.reads i.flags trivial).bind ?_
    refine hprotected.bind ?_
    refine (codes_u30s.reads i.interfaces hi.interfaces).bind ?_
    refine (codes_u30.reads i.iinit trivial).bind ?_
    exact ((codes_list codes_trait).reads i.traits hi.traits).map (Reads.pure i)
  holds c i c' hr := by
    obtain ⟨⟨name, c₁⟩, -, hr⟩ := Outcome.bind_eq_ok.1 hr
    obtain ⟨⟨superName, c₂⟩, -, hr⟩ := Outcome.bind_eq_ok.1 hr
    obtain ⟨⟨flags, c₃⟩, -, hr⟩ := Outcome.bind_eq_ok.1 hr
    obtain ⟨⟨protectedNs, c₄⟩, hprotected, hr⟩ := Outcome.bind_eq_ok.1 hr
    obtain ⟨⟨interfaces, c₅⟩, hinterfaces, hr⟩ := Outcome.bind_eq_ok.1 hr
    obtain ⟨⟨iinit, c₆⟩, -, hr⟩ := Outcome.bind_eq_ok.1 hr
    obtain ⟨⟨traits, c₇⟩, htraits, hr⟩ := Outcome.bind_eq_ok.1 hr
    obtain ⟨rfl, -⟩ := Prod.mk.inj (Outcome.ok.inj hr)
    have hprotected := (codes_if codes_u30 0 (hasProtectedNs flags)).holds _ _ _ hprotected
    refine ⟨fun hflag => ?_, codes_u30s.holds _ _ _ hinterfaces, (codes_list codes_trait).holds _ _ _ htraits⟩
    rw [if_neg hflag] at hprotected
    exact hprotected

def ClassInfo.Sound (c : ClassInfo) : Prop := c.traits.length < 2 ^ 32 ∧ ∀ t ∈ c.traits, t.Sound

theorem codes_classInfo : Codes parseClassInfo ClassInfo.write ClassInfo.Sound := by
  have hfields : Codes parseClassInfo _ _ :=
    Codes.field (E := fun _ => True) ClassInfo.cinit codes_u30 fun _ =>
      Codes.last ClassInfo.traits (codes_list codes_trait) fun _ v => by
        cases v
        simp
  refine (hfields.of_eq fun v => rfl).of_iff fun v => ?_
  simp [ClassInfo.Sound]

def ScriptInfo.Sound (s : ScriptInfo) : Prop := s.traits.length < 2 ^ 32 ∧ ∀ t ∈ s.traits, t.Sound

theorem codes_scriptInfo : Codes parseScriptInfo ScriptInfo.write ScriptInfo.Sound := by
  have hfields : Codes parseScriptInfo _ _ :=
    Codes.field (E := fun _ => True) ScriptInfo.init codes_u30 fun _ =>
      Codes.last ScriptInfo.traits (codes_list codes_trait) fun _ v => by
        cases v
        simp
  refine (hfields.of_eq fun v => rfl).of_iff fun v => ?_
  simp [ScriptInfo.Sound]

theorem codes_exceptionInfo : Codes parseExceptionInfo ExceptionInfo.write fun _ => True := by
  have hfields : Codes parseExceptionInfo _ _ :=
    Codes.field (E := fun _ => True) ExceptionInfo.from_ codes_u30 fun _ =>
      Codes.field ExceptionInfo.to_ codes_u30 fun _ =>
      Codes.field ExceptionInfo.target codes_u30 fun _ =>
      Codes.field ExceptionInfo.excType codes_u30 fun _ =>
      Codes.last ExceptionInfo.varName codes_u30 fun _ v => by
        cases v
        simp [and_assoc]
  refine (hfields.of_eq fun v => rfl).of_iff fun v => ?_
  simp

structure MethodBody.Sound (b : MethodBody) : Prop where
  code : b.code.length < 2 ^ 32
  exceptions : b.exceptions.length < 2 ^ 32
  traits : b.traits.length < 2 ^ 32 ∧ ∀ t ∈ b.traits, t.Sound

theorem codes_methodBody : Codes parseMethodBody MethodBody.write MethodBody.Sound := by
  have hfields : Codes parseMethodBody _ _ :=
    Codes.field (E := fun _ => True) MethodBody.method codes_u30 fun _ =>
      Codes.field MethodBody.maxStack codes_u30 fun _ =>
      Codes.field MethodBody.localCount codes_u30 fun _ =>
      Codes.field MethodBody.initScopeDepth codes_u30 fun _ =>
      Codes.field MethodBody.maxScopeDepth codes_u30 fun _ =>
      Codes.field MethodBody.code codes_code fun _ =>
      Codes.field MethodBody.exceptions (codes_list codes_exceptionInfo) fun _ =>
      Codes.last MethodBody.traits (codes_list codes_trait) fun _ v => by
        cases v
        simp [and_assoc]
  refine (hfields.of_eq fun v => rfl).of_iff fun v => ?_
  constructor
  · intro h
    obtain ⟨-, -, -, -, -, -, hcode, hexceptions, htraits⟩ := h
    exact ⟨hcode, hexceptions.1, htraits⟩
  · intro h
    exact ⟨trivial, trivial, trivial, trivial, trivial, trivial, h.code, ⟨h.exceptions, fun _ _ => trivial⟩, h.traits⟩

/-! ### The pool -/

section Pool

variable {β : Type} {entry : AbcReader β} {write : β → List UInt8} {Q : β → Prop}

theorem codes_abcU30 : Codes AbcReader.readU30 writeU30 fun _ => True :=
  ⟨fun v _ => reads_abcU30 v, fun _ _ _ _ => trivial⟩

theorem codes_abcU8 : Codes AbcReader.readU8 (fun b => [b]) fun _ => True :=
  ⟨fun v _ => reads_abcU8 v, fun _ _ _ _ => trivial⟩

/-- A table has its implied entry, and can be counted. -/
structure IsTable (first : β) (vs : List β) : Prop where
  first : vs.head? = some first
  length : vs.length < 2 ^ 32

theorem reads_table (h : ∀ v, Q v → Reads entry (write v) v) {first : β} {vs : List β} (hvs : IsTable first vs)
    (hall : ∀ v ∈ vs.tail, Q v) : Reads (parseTable first entry) (writeTable write vs) vs := by
  cases vs with
  | nil => cases hvs.first
  | cons v vs =>
    obtain rfl : v = first := Option.some.inj hvs.first
    have hcount : (UInt32.ofNat (tableCount (vs.length + 1))).toNat - 1 = vs.length := by
      have hlength : vs.length + 1 < 2 ^ 32 := hvs.length
      unfold tableCount
      split_ifs with hone
      · rw [Nat.succ.inj hone]
        rfl
      · rw [UInt32.toNat_ofNat_of_lt' hlength, Nat.add_sub_cancel]
    have hentries := Reads.replicate vs fun v hv => h v (hall v hv)
    refine (codes_abcU30.reads _ trivial).bind ?_
    dsimp only [List.tail_cons, List.length_cons]
    rw [hcount]
    exact hentries.map (Reads.pure _)

theorem isTable_of_parseTable (h : ∀ c v c', entry c = .ok (v, c') → Q v) {first : β} {vs : List β} {c c' : Cursor}
    (hr : parseTable first entry c = .ok (vs, c')) : IsTable first vs ∧ ∀ v ∈ vs.tail, Q v := by
  obtain ⟨⟨count, d⟩, -, hr⟩ := Outcome.bind_eq_ok.1 hr
  obtain ⟨⟨entries, d'⟩, hentries, hr⟩ := Outcome.bind_eq_ok.1 hr
  obtain ⟨rfl, -⟩ := Prod.mk.inj (Outcome.ok.inj hr)
  obtain ⟨hlength, hall⟩ := Reader.replicate_eq_ok h hentries
  have hcount := count.toNat_lt
  dsimp only at hlength
  refine ⟨⟨rfl, ?_⟩, hall⟩
  show entries.length + 1 < 2 ^ 32
  omega

theorem codes_s32 : Codes AbcReader.readS32 writeS32 fun _ => True where
  reads v _ := by
    have hmap : AbcReader.readS32 = AbcReader.readU30 >>= fun n => pure n.toInt32 := rfl
    rw [hmap]
    refine (reads_abcU30 v.toUInt32).map ?_
    rw [Int32.toInt32_toUInt32]
    exact Reads.pure v
  holds _ _ _ _ := trivial

theorem codes_d64 : Codes AbcReader.readD64 writeD64 fun _ => True where
  reads v _ := by
    intro p rest
    have htake := Reads.take (AbcError.eofD64 p) (writeD64 v) p rest
    have hlength : (writeD64 v).length = 8 := by rw [writeD64, List.length_reverse, length_bigEndian]
    have hvalue : ofBigEndian (bigEndian 8 v.toNat) = v.toNat := by
      rw [ofBigEndian_bigEndian]
      exact Nat.mod_eq_of_lt v.toNat_lt
    rw [hlength] at htake
    rw [AbcReader.readD64, htake, Outcome.ok_bind]
    dsimp only
    rw [writeD64, List.reverse_reverse, hvalue, UInt64.ofNat_toNat, List.length_reverse, length_bigEndian]
  holds _ _ _ _ := trivial

/-- The string can be counted. -/
def FitsString (s : String) : Prop := (BigEndianWriter.asBytes s).length < 2 ^ 32

theorem reads_string (s : String) (h : FitsString s) : Reads parseString (writeString s) s := by
  have hbytes : Reads (AbcReader.readBytes (BigEndianWriter.asBytes s).length) (BigEndianWriter.asBytes s)
      (BigEndianWriter.asBytes s) := fun p rest => Reads.take (AbcError.eofBytes _ p) _ p rest
  refine (codes_abcU30.reads _ trivial).bind ?_
  rw [UInt32.toNat_ofNat_of_lt' h]
  refine hbytes.map ?_
  rw [DataReader.World.fromUtf8Lossy, fromUTF8?_asBytes]
  exact Reads.pure s

theorem codes_namespace : Codes parseNamespace Namespace.write fun _ => True := by
  have hfields : Codes parseNamespace _ _ :=
    Codes.field (E := fun _ => True) Namespace.kind codes_abcU8 fun _ =>
      Codes.last Namespace.name codes_abcU30 fun _ v => by
        cases v
        simp
  refine (hfields.of_eq fun v => rfl).of_iff fun v => ?_
  simp

theorem codes_nsSet : Codes parseNsSet (writeList writeU30) fun vs => vs.length < 2 ^ 32 where
  reads vs hvs := by
    refine (codes_abcU30.reads (UInt32.ofNat vs.length) trivial).bind ?_
    rw [UInt32.toNat_ofNat_of_lt' hvs]
    exact (codes_abcU30.replicate vs.length).reads vs ⟨rfl, fun _ _ => trivial⟩
  holds c vs c' hr := by
    obtain ⟨⟨count, d⟩, -, hr⟩ := Outcome.bind_eq_ok.1 hr
    obtain ⟨hlen, -⟩ := (codes_abcU30.replicate count.toNat).holds d vs c' hr
    exact hlen ▸ count.toNat_lt

/-- The entry is none that is implied, and its parameters can be counted. -/
def Multiname.Sound : Multiname → Prop
  | .typeName _ params => params.length < 2 ^ 32
  | .void => False
  | _ => True

/-- Two numbers behind the kind of a multiname. -/
theorem reads_two {γ : Type} (make : UInt32 → UInt32 → γ) (a b : UInt32) :
    Reads (do
      let a ← AbcReader.readU30
      let b ← AbcReader.readU30
      pure (make a b)) (writeU30 a ++ writeU30 b) (make a b) :=
  (reads_abcU30 a).bind ((reads_abcU30 b).map (Reads.pure _))

theorem reads_multiname (m : Multiname) (h : m.Sound) : Reads parseMultiname m.write m := by
  have hone (make : UInt32 → Multiname) (index : UInt32) :
      Reads (make <$> AbcReader.readU30) (writeU30 index) (make index) := (reads_abcU30 index).map (Reads.pure _)
  unfold parseMultiname
  cases m with
  | void => exact h.elim
  | rtQNameL => exact (reads_abcU8 0x11).map (Reads.pure _)
  | rtQNameLA => exact (reads_abcU8 0x12).map (Reads.pure _)
  | qName ns name => exact (reads_abcU8 0x07).bind (reads_two Multiname.qName ns name)
  | qNameA ns name => exact (reads_abcU8 0x0D).bind (reads_two Multiname.qNameA ns name)
  | multiname name nsSet => exact (reads_abcU8 0x09).bind (reads_two Multiname.multiname name nsSet)
  | multinameA name nsSet => exact (reads_abcU8 0x0E).bind (reads_two Multiname.multinameA name nsSet)
  | rtQName name => exact (reads_abcU8 0x0F).bind (hone .rtQName name)
  | rtQNameA name => exact (reads_abcU8 0x10).bind (hone .rtQNameA name)
  | multinameL nsSet => exact (reads_abcU8 0x1B).bind (hone .multinameL nsSet)
  | multinameLA nsSet => exact (reads_abcU8 0x1C).bind (hone .multinameLA nsSet)
  | typeName qname params =>
    have hparams : Reads (do
        let paramCount ← AbcReader.readU30
        let params ← Reader.replicate AbcReader.readU30 paramCount.toNat
        pure (Multiname.typeName qname params)) (writeList writeU30 params) (.typeName qname params) := by
      refine (reads_abcU30 _).bind ?_
      rw [UInt32.toNat_ofNat_of_lt' h]
      exact ((codes_abcU30.replicate params.length).reads params ⟨rfl, fun _ _ => trivial⟩).map (Reads.pure _)
    exact (reads_abcU8 0x1D).bind ((reads_abcU30 qname).bind hparams)

/-- What every branch of a reader yields. -/
theorem holds_ite {q : Prop} [Decidable q] {r s : AbcReader β} (hr : ∀ c v c', r c = .ok (v, c') → Q v)
    (hs : ∀ c v c', s c = .ok (v, c') → Q v) : ∀ c v c', (if q then r else s) c = .ok (v, c') → Q v := by
  by_cases hq : q
  · simpa only [if_pos hq] using hr
  · simpa only [if_neg hq] using hs

theorem holds_pure {a : β} (h : Q a) : ∀ c v c', (pure a : AbcReader β) c = .ok (v, c') → Q v := by
  intro c v c' hr
  obtain ⟨rfl, -⟩ := Prod.mk.inj (Outcome.ok.inj hr)
  exact h

theorem holds_one {make : UInt32 → β} (h : ∀ a, Q (make a)) :
    ∀ c v c', (make <$> AbcReader.readU30) c = .ok (v, c') → Q v := by
  intro c v c' hr
  obtain ⟨⟨a, d⟩, -, hr⟩ := Outcome.bind_eq_ok.1 hr
  obtain ⟨rfl, -⟩ := Prod.mk.inj (Outcome.ok.inj hr)
  exact h a

theorem holds_two {make : UInt32 → UInt32 → β} (h : ∀ a b, Q (make a b)) :
    ∀ c v c', (do
      let a ← AbcReader.readU30
      let b ← AbcReader.readU30
      pure (make a b) : AbcReader β) c = .ok (v, c') → Q v := by
  intro c v c' hr
  obtain ⟨⟨a, d⟩, -, hr⟩ := Outcome.bind_eq_ok.1 hr
  obtain ⟨⟨b, d'⟩, -, hr⟩ := Outcome.bind_eq_ok.1 hr
  obtain ⟨rfl, -⟩ := Prod.mk.inj (Outcome.ok.inj hr)
  exact h a b

theorem holds_typeName (c : Cursor) (m : Multiname) (c' : Cursor)
    (hr : (do
      let qname ← AbcReader.readU30
      let paramCount ← AbcReader.readU30
      let params ← Reader.replicate AbcReader.readU30 paramCount.toNat
      pure (.typeName qname params) : AbcReader Multiname) c = .ok (m, c')) : m.Sound := by
  obtain ⟨⟨qname, c₁⟩, -, hr⟩ := Outcome.bind_eq_ok.1 hr
  obtain ⟨⟨paramCount, c₂⟩, -, hr⟩ := Outcome.bind_eq_ok.1 hr
  obtain ⟨⟨params, c₃⟩, hparams, hr⟩ := Outcome.bind_eq_ok.1 hr
  obtain ⟨rfl, -⟩ := Prod.mk.inj (Outcome.ok.inj hr)
  have hlength := ((codes_abcU30.replicate paramCount.toNat).holds _ _ _ hparams).1
  show params.length < 2 ^ 32
  rw [hlength]
  exact paramCount.toNat_lt

theorem sound_of_parseMultiname (c : Cursor) (m : Multiname) (c' : Cursor) (hr : parseMultiname c = .ok (m, c')) :
    m.Sound := by
  obtain ⟨⟨kind, c₁⟩, -, hr⟩ := Outcome.bind_eq_ok.1 hr
  refine holds_ite (holds_two fun _ _ => ?_) ?_ c₁ m c' hr
  · trivial
  refine holds_ite (holds_two fun _ _ => ?_) ?_
  · trivial
  refine holds_ite (holds_one fun _ => ?_) ?_
  · trivial
  refine holds_ite (holds_one fun _ => ?_) ?_
  · trivial
  refine holds_ite (holds_pure ?_) (holds_ite (holds_pure ?_) ?_)
  · trivial
  · trivial
  refine holds_ite (holds_two fun _ _ => ?_) ?_
  · trivial
  refine holds_ite (holds_two fun _ _ => ?_) ?_
  · trivial
  refine holds_ite (holds_one fun _ => ?_) ?_
  · trivial
  refine holds_ite (holds_one fun _ => ?_) ?_
  · trivial
  refine holds_ite holds_typeName fun _ _ _ hr => ?_
  cases hr

structure ConstantPool.Sound (pool : ConstantPool) : Prop where
  integers : IsTable 0 pool.integers
  uintegers : IsTable 0 pool.uintegers
  doubles : IsTable 0x7FF8000000000000 pool.doubles
  strings : IsTable "" pool.strings
  namespaces : IsTable { kind := 0, name := 0 } pool.namespaces
  nsSets : IsTable [] pool.nsSets ∧ ∀ nsSet ∈ pool.nsSets.tail, nsSet.length < 2 ^ 32
  multinames : IsTable .void pool.multinames ∧ ∀ m ∈ pool.multinames.tail, m.Sound

theorem reads_constantPool {pool : ConstantPool} (h : pool.Sound) (hfits : ∀ s ∈ pool.strings.tail, FitsString s) :
    Reads parseConstantPool pool.write pool := by
  refine (reads_table codes_s32.reads h.integers fun _ _ => trivial).bind ?_
  refine (reads_table codes_abcU30.reads h.uintegers fun _ _ => trivial).bind ?_
  refine (reads_table codes_d64.reads h.doubles fun _ _ => trivial).bind ?_
  refine (reads_table reads_string h.strings hfits).bind ?_
  refine (reads_table codes_namespace.reads h.namespaces fun _ _ => trivial).bind ?_
  refine (reads_table codes_nsSet.reads h.nsSets.1 h.nsSets.2).bind ?_
  exact (reads_table reads_multiname h.multinames.1 h.multinames.2).map (Reads.pure pool)

theorem sound_of_parseConstantPool {c c' : Cursor} {pool : ConstantPool} (hr : parseConstantPool c = .ok (pool, c')) :
    pool.Sound := by
  obtain ⟨⟨integers, c₁⟩, hintegers, hr⟩ := Outcome.bind_eq_ok.1 hr
  obtain ⟨⟨uintegers, c₂⟩, huintegers, hr⟩ := Outcome.bind_eq_ok.1 hr
  obtain ⟨⟨doubles, c₃⟩, hdoubles, hr⟩ := Outcome.bind_eq_ok.1 hr
  obtain ⟨⟨strings, c₄⟩, hstrings, hr⟩ := Outcome.bind_eq_ok.1 hr
  obtain ⟨⟨namespaces, c₅⟩, hnamespaces, hr⟩ := Outcome.bind_eq_ok.1 hr
  obtain ⟨⟨nsSets, c₆⟩, hnsSets, hr⟩ := Outcome.bind_eq_ok.1 hr
  obtain ⟨⟨multinames, c₇⟩, hmultinames, hr⟩ := Outcome.bind_eq_ok.1 hr
  obtain ⟨rfl, -⟩ := Prod.mk.inj (Outcome.ok.inj hr)
  exact
    { integers := (isTable_of_parseTable codes_s32.holds hintegers).1
      uintegers := (isTable_of_parseTable codes_abcU30.holds huintegers).1
      doubles := (isTable_of_parseTable codes_d64.holds hdoubles).1
      strings := (isTable_of_parseTable (Q := fun _ => True) (fun _ _ _ _ => trivial) hstrings).1
      namespaces := (isTable_of_parseTable codes_namespace.holds hnamespaces).1
      nsSets := isTable_of_parseTable codes_nsSet.holds hnsSets
      multinames := isTable_of_parseTable sound_of_parseMultiname hmultinames }

end Pool

/-! ### The whole file -/

structure AbcFile.SoundParts (f : AbcFile) : Prop where
  methods : f.methods.length < 2 ^ 32 ∧ ∀ m ∈ f.methods, m.Sound
  metadata : f.metadata.length < 2 ^ 32 ∧ ∀ m ∈ f.metadata, m.items.length < 2 ^ 32
  instances : f.instances.length < 2 ^ 32 ∧ ∀ i ∈ f.instances, i.Sound
  /-- Every instance has its class. -/
  classes : f.classes.length = f.instances.length ∧ ∀ c ∈ f.classes, c.Sound
  scripts : f.scripts.length < 2 ^ 32 ∧ ∀ s ∈ f.scripts, s.Sound
  methodBodies : f.methodBodies.length < 2 ^ 32 ∧ ∀ b ∈ f.methodBodies, b.Sound

theorem reads_parts {f : AbcFile} (h : f.SoundParts) :
    Reads (parseParts f.minorVersion f.majorVersion f.constantPool) f.writeParts f := by
  refine ((codes_list codes_methodInfo).reads f.methods h.methods).bind ?_
  refine ((codes_list codes_metadata).reads f.metadata h.metadata).bind ?_
  refine ((codes_list codes_instanceInfo).reads f.instances h.instances).bind ?_
  refine ((codes_classInfo.replicate f.instances.length).reads f.classes h.classes).bind ?_
  refine ((codes_list codes_scriptInfo).reads f.scripts h.scripts).bind ?_
  exact ((codes_list codes_methodBody).reads f.methodBodies h.methodBodies).map (Reads.pure f)

theorem sound_of_parseParts {minorVersion majorVersion : UInt16} {pool : ConstantPool} {c c' : Cursor} {f : AbcFile}
    (hr : parseParts minorVersion majorVersion pool c = .ok (f, c')) : f.SoundParts ∧ f.constantPool = pool := by
  obtain ⟨⟨methods, c₁⟩, hmethods, hr⟩ := Outcome.bind_eq_ok.1 hr
  obtain ⟨⟨metadata, c₂⟩, hmetadata, hr⟩ := Outcome.bind_eq_ok.1 hr
  obtain ⟨⟨instances, c₃⟩, hinstances, hr⟩ := Outcome.bind_eq_ok.1 hr
  obtain ⟨⟨classes, c₄⟩, hclasses, hr⟩ := Outcome.bind_eq_ok.1 hr
  obtain ⟨⟨scripts, c₅⟩, hscripts, hr⟩ := Outcome.bind_eq_ok.1 hr
  obtain ⟨⟨methodBodies, c₆⟩, hbodies, hr⟩ := Outcome.bind_eq_ok.1 hr
  obtain ⟨rfl, -⟩ := Prod.mk.inj (Outcome.ok.inj hr)
  exact
    ⟨{ methods := (codes_list codes_methodInfo).holds _ _ _ hmethods
       metadata := (codes_list codes_metadata).holds _ _ _ hmetadata
       instances := (codes_list codes_instanceInfo).holds _ _ _ hinstances
       classes := (codes_classInfo.replicate instances.length).holds _ _ _ hclasses
       scripts := (codes_list codes_scriptInfo).holds _ _ _ hscripts
       methodBodies := (codes_list codes_methodBody).holds _ _ _ hbodies }, rfl⟩

/-- What the format allows. -/
structure AbcFile.Sound (f : AbcFile) : Prop where
  constantPool : f.constantPool.Sound
  parts : f.SoundParts

/-- The strings of the pool can be counted. -/
def AbcFile.Fits (f : AbcFile) : Prop := ∀ s ∈ f.constantPool.strings.tail, FitsString s

theorem reads_abc {f : AbcFile} (h : f.Sound) (hfits : f.Fits) : Reads parseAbc f.write f := by
  refine (reads_u16 f.minorVersion).bind ?_
  refine (reads_u16 f.majorVersion).bind ?_
  refine (Reads.lift (reads_constantPool h.constantPool hfits)).bind ?_
  exact reads_parts h.parts

theorem sound_of_parseAbc {c c' : Cursor} {f : AbcFile} (hr : parseAbc c = .ok (f, c')) : f.Sound := by
  obtain ⟨⟨minorVersion, c₁⟩, -, hr⟩ := Outcome.bind_eq_ok.1 hr
  obtain ⟨⟨majorVersion, c₂⟩, -, hr⟩ := Outcome.bind_eq_ok.1 hr
  obtain ⟨⟨pool, c₃⟩, hpool, hr⟩ := Outcome.bind_eq_ok.1 hr
  obtain ⟨hparts, rfl⟩ := sound_of_parseParts hr
  exact ⟨sound_of_parseConstantPool (Outcome.mapErr_eq_ok.1 hpool), hparts⟩

end Otomai.ProtocolGen.Abc
