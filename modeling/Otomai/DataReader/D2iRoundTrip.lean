import Mathlib.Algebra.BigOperators.Group.List.Basic
import Otomai.DataReader.D2i

/-!
# What a translation file keeps

The strings of a file are found again at the offsets that the index tells, as long as all offsets and lengths fit
their fields.  A string of 65536 bytes or more is cut by its length of sixteen bits, and a variant without accents of
an unknown text is not written at all.
-/

namespace Otomai.DataReader

open Wire BigEndianReader BigEndianWriter

/-! ### Strings at their offsets -/

section

variable {κ : Type} {texts : List (κ × String)}

theorem length_writeStrings (texts : List (κ × String)) : (writeStrings texts).length = stringsSize texts := by
  induction texts with
  | nil => rfl
  | cons p ps ih =>
    rw [writeStrings, List.flatMap_cons, List.length_append, length_writeUtf, stringsSize, List.map_cons,
      List.sum_cons]
    exact congrArg _ ih

theorem stringsSize_perm {texts' : List (κ × String)} (h : texts.Perm texts') :
    stringsSize texts = stringsSize texts' :=
  (h.map _).sum_eq

@[simp] theorem map_fst_offsets (position : Nat) (texts : List (κ × String)) :
    (offsets position texts).map Prod.fst = texts.map Prod.fst := by
  have h := congrArg (List.map Prod.fst) (@map_fst_place _ (fun p : κ × String => writeUtf p.2) texts position)
  rw [← h, offsets, List.map_map, List.map_map]
  rfl

/-- The string of a key stands at its offset. -/
theorem mem_offsets {position : Nat} {data : List UInt8} {key : κ} {text : String} (hmem : (key, text) ∈ texts)
    (hdata : writeStrings texts <+: data.drop position) (hend : position + stringsSize texts ≤ 2 ^ 32) :
    ∃ offset, (key, offset) ∈ offsets position texts ∧ writeUtf text <+: data.drop offset.toNat := by
  rw [← @map_fst_place _ (fun p : κ × String => writeUtf p.2) texts position] at hmem
  obtain ⟨⟨p, offset⟩, hplace, hp⟩ := List.mem_map.1 hmem
  obtain rfl : p = (key, text) := hp
  obtain ⟨hpre, -, hle⟩ := place_prefix hdata hplace
  refine ⟨UInt32.ofNat offset, List.mem_map.2 ⟨_, hplace, rfl⟩, ?_⟩
  have hsize : (texts.flatMap fun p => writeUtf p.2).length = stringsSize texts := length_writeStrings texts
  rw [hsize] at hle
  dsimp only at hle
  rw [length_writeUtf] at hle
  rw [UInt32.toNat_ofNat_of_lt' (show offset < 2 ^ 32 by omega)]
  exact hpre

end

theorem readStringAt_of_leading {reader : D2IReader} {offset : UInt32} {text : String} (hfits : Fits text)
    (h : writeUtf text <+: reader.data.drop offset.toNat) : reader.readStringAt offset = .ok text := by
  have hread := (reads_utf hfits).seek h
  rw [D2IReader.readStringAt, hread]
  rfl

/-! ### The parts of a file -/

section

variable (texts undiacritical : HashMap Int32 String) (namedTexts : HashMap String String)

/-- The strings of a file, as they stand between the pointer and the index. -/
def strings : List UInt8 :=
  writeStrings texts.sorted ++ (writeStrings (undiacriticalTexts texts undiacritical) ++ writeStrings
    namedTexts.sorted)

def undiacriticalOffsets : List (Int32 × UInt32) :=
  offsets (4 + (writeStrings texts.sorted).length) (undiacriticalTexts texts undiacritical)

def indexEntries : List IndexEntry :=
  (offsets 4 texts.sorted).map fun e =>
    ⟨e.1, e.2, (HashMap.ofPairs (undiacriticalOffsets texts undiacritical)).lookup e.1⟩

def namedEntries : List (String × UInt32) :=
  offsets (4 + (writeStrings texts.sorted).length + (writeStrings (undiacriticalTexts texts undiacritical)).length)
    namedTexts.sorted

def sections : List UInt8 :=
  writeSection writeIndexEntry (indexEntries texts undiacritical) ++
    (writeSection writeNamedEntry (namedEntries texts undiacritical namedTexts) ++
      writeSection writeInt (texts.sorted.map Prod.fst))

/-- A file as a whole. -/
def contents : List UInt8 :=
  writeInt (Int32.ofNat (4 + (strings texts undiacritical namedTexts).length)) ++
    (strings texts undiacritical namedTexts ++ sections texts undiacritical namedTexts)

end

section

variable {texts undiacritical : HashMap Int32 String} {namedTexts : HashMap String String}

theorem length_ids (texts : HashMap Int32 String) :
    ((texts.sorted.map Prod.fst).flatMap writeInt).length = texts.pairs.length * 4 := by
  rw [List.length_flatMap]
  simp [List.map_map, Function.comp_def, List.sum_replicate, HashMap.length_sorted]

theorem writeD2i_eq : writeD2i texts undiacritical namedTexts =
    if isizeMax < (contents texts undiacritical namedTexts).length then .panic
    else .ok (contents texts undiacritical namedTexts) := by
  have hsort : Int32.ofNat texts.sorted.length * 4 =
      Int32.ofNat ((texts.sorted.map Prod.fst).flatMap writeInt).length := by
    rw [length_ids, HashMap.length_sorted, Int32.ofNat_mul]
    rfl
  have hids : (texts.sorted.flatMap fun p => writeInt p.1) = (texts.sorted.map Prod.fst).flatMap writeInt :=
    (List.flatMap_map ..).symm
  have hbuf : ∀ w : List UInt8, (writeInt 0 ++ w).drop 4 = w := fun w => List.drop_left' (length_writeInt 0)
  unfold writeD2i
  simp only [List.append_assoc, hbuf, hsort, hids, length_writeInt, List.length_append]
  simp only [contents, sections, strings, writeSection, indexEntries, undiacriticalOffsets, namedEntries,
    List.append_assoc, List.length_append, List.flatMap_map, Nat.add_assoc, length_writeInt]

/-! ### Sizes -/

theorem mem_undiacriticalTexts {key : Int32} {text : String} :
    (key, text) ∈ undiacriticalTexts texts undiacritical ↔ key ∈ texts ∧ undiacritical.lookup key = some text := by
  rw [undiacriticalTexts, List.mem_filterMap, ← HashMap.mem_map_fst_sorted]
  constructor
  · rintro ⟨p, hp, h⟩
    obtain ⟨text', hlookup, h⟩ := Option.map_eq_some_iff.1 h
    obtain ⟨rfl, rfl⟩ := Prod.mk.inj h
    exact ⟨List.mem_map_of_mem hp, hlookup⟩
  · rintro ⟨hkey, hlookup⟩
    obtain ⟨p, hp, rfl⟩ := List.mem_map.1 hkey
    exact ⟨p, hp, by rw [hlookup]; rfl⟩

theorem nodup_undiacriticalTexts (texts undiacritical : HashMap Int32 String) :
    ((undiacriticalTexts texts undiacritical).map Prod.fst).Nodup :=
  (HashMap.map_fst_filterMap_sublist Prod.fst (fun p => undiacritical.lookup p.1) _).nodup texts.nodup_sorted

/-- If they all belong to texts, all variants without accents are written. -/
theorem undiacriticalTexts_perm (h : ∀ p ∈ undiacritical.pairs, p.1 ∈ texts) :
    (undiacriticalTexts texts undiacritical).Perm undiacritical.pairs := by
  refine (List.perm_ext_iff_of_nodup (nodup_undiacriticalTexts _ _).of_map undiacritical.nodup_pairs.of_map).2 ?_
  rintro ⟨key, text⟩
  rw [mem_undiacriticalTexts, HashMap.lookup_eq_some]
  exact and_iff_right_of_imp (h _)

theorem length_strings (h : ∀ p ∈ undiacritical.pairs, p.1 ∈ texts) :
    (strings texts undiacritical namedTexts).length =
    stringsSize texts.pairs + stringsSize undiacritical.pairs + stringsSize namedTexts.pairs := by
  rw [strings, List.length_append, List.length_append, length_writeStrings, length_writeStrings, length_writeStrings,
    stringsSize_perm texts.perm_sorted, stringsSize_perm namedTexts.perm_sorted,
    stringsSize_perm (undiacriticalTexts_perm h), Nat.add_assoc]

theorem length_writeIndexEntry (e : IndexEntry) :
    (writeIndexEntry e).length = 9 + if e.diacriticalPointer.isSome then 4 else 0 := by
  obtain ⟨key, pointer, diacriticalPointer⟩ := e
  cases diacriticalPointer <;> simp [writeIndexEntry, writeBoolean, writeByte]

theorem isSome_lookup_undiacriticalOffsets {key : Int32} (hkey : key ∈ texts) :
    ((HashMap.ofPairs (undiacriticalOffsets texts undiacritical)).lookup key).isSome =
      (undiacritical.lookup key).isSome := by
  rw [Bool.eq_iff_iff, AList.lookup_isSome, HashMap.mem_ofPairs, undiacriticalOffsets, map_fst_offsets, List.mem_map]
  constructor
  · rintro ⟨⟨key', text⟩, hp, rfl⟩
    rw [(mem_undiacriticalTexts.1 hp).2]
    rfl
  · intro h
    obtain ⟨text, htext⟩ := Option.isSome_iff_exists.1 h
    exact ⟨(key, text), mem_undiacriticalTexts.2 ⟨hkey, htext⟩, rfl⟩

private theorem sum_index_lengths (undiacritical : HashMap Int32 String) (l : List (Int32 × String)) :
    ((l.map Prod.fst).map fun key => 9 + if (undiacritical.lookup key).isSome then 4 else 0).sum =
      9 * l.length + 4 * (l.filterMap fun p => (undiacritical.lookup p.1).map (p.1, ·)).length := by
  induction l with
  | nil => rfl
  | cons p l ih =>
    rw [List.map_cons, List.map_cons, List.sum_cons, ih, List.filterMap_cons, List.length_cons]
    cases undiacritical.lookup p.1 with
    | none =>
      simp only [Option.isSome_none, Bool.false_eq_true, if_false, Option.map_none]
      omega
    | some text =>
      simp only [Option.isSome_some, if_true, Option.map_some, List.length_cons]
      omega

theorem length_indexEntries (texts undiacritical : HashMap Int32 String) :
    ((indexEntries texts undiacritical).flatMap writeIndexEntry).length =
      9 * texts.pairs.length + 4 * (undiacriticalTexts texts undiacritical).length := by
  have hmap : ((indexEntries texts undiacritical).map fun e => (writeIndexEntry e).length) =
      ((offsets 4 texts.sorted).map Prod.fst).map fun key =>
        9 + if (undiacritical.lookup key).isSome then 4 else 0 := by
    rw [indexEntries, List.map_map, List.map_map]
    refine List.map_congr_left fun e he => ?_
    have hkey : e.1 ∈ texts := by
      rw [← HashMap.mem_map_fst_sorted, ← map_fst_offsets 4]
      exact List.mem_map_of_mem he
    show (writeIndexEntry _).length = _
    rw [length_writeIndexEntry, isSome_lookup_undiacriticalOffsets hkey]
    rfl
  rw [List.length_flatMap, hmap, map_fst_offsets, sum_index_lengths, HashMap.length_sorted]
  rfl

theorem length_namedEntries (texts undiacritical : HashMap Int32 String) (namedTexts : HashMap String String) :
    ((namedEntries texts undiacritical namedTexts).flatMap writeNamedEntry).length =
      (namedTexts.pairs.map fun p => 6 + (asBytes p.1).length).sum := by
  have hmap : ((namedEntries texts undiacritical namedTexts).map fun e => (writeNamedEntry e).length) =
      ((namedEntries texts undiacritical namedTexts).map Prod.fst).map fun name => 6 + (asBytes name).length := by
    rw [List.map_map]
    refine List.map_congr_left fun e _ => ?_
    show (writeNamedEntry e).length = 6 + (asBytes e.1).length
    rw [writeNamedEntry, List.length_append, length_writeUtf, length_writeUint]
    omega
  rw [List.length_flatMap, hmap, namedEntries, map_fst_offsets, List.map_map]
  exact (namedTexts.perm_sorted.map _).sum_eq

/-! ### Reading a file -/

theorem D2IReader.fromBytes_eq_ok {data : List UInt8} {reader : D2IReader} :
    fromBytes data = .ok reader ↔ ∃ pointer c₀ entries c named c' ids c'',
      readInt (.ofBytes data) = .ok (pointer, c₀) ∧
      readSection readIndexEntry (.seek data (asU64 pointer)) = .ok (entries, c) ∧
      readSection readNamedEntry c = .ok (named, c') ∧ readSection readInt c' = .ok (ids, c'') ∧
      ofEntries data entries named ids = reader := by
  unfold fromBytes
  simp only [Outcome.bind_eq_ok, Prod.exists, Outcome.ok.injEq]
  constructor
  · rintro ⟨pointer, c₀, h₀, entries, c, h, named, c', h', ids, c'', h'', hreader⟩
    exact ⟨pointer, c₀, entries, c, named, c', ids, c'', h₀, h, h', h'', hreader⟩
  · rintro ⟨pointer, c₀, entries, c, named, c', ids, c'', h₀, h, h', h'', hreader⟩
    exact ⟨pointer, c₀, h₀, entries, c, h, named, c', h', ids, c'', h'', hreader⟩

theorem readInt_contents : readInt (.ofBytes (contents texts undiacritical namedTexts)) =
    .ok (Int32.ofNat (4 + (strings texts undiacritical namedTexts).length),
      ⟨4, strings texts undiacritical namedTexts ++ sections texts undiacritical namedTexts⟩) := by
  have h := reads_int (Int32.ofNat (4 + (strings texts undiacritical namedTexts).length)) 0
    (strings texts undiacritical namedTexts ++ sections texts undiacritical namedTexts)
  rw [length_writeInt] at h
  exact h

theorem drop_contents : (contents texts undiacritical namedTexts).drop 4 =
    strings texts undiacritical namedTexts ++ sections texts undiacritical namedTexts :=
  List.drop_left' (length_writeInt _)

theorem seek_contents : Cursor.seek (contents texts undiacritical namedTexts)
      (4 + (strings texts undiacritical namedTexts).length) =
    ⟨4 + (strings texts undiacritical namedTexts).length, sections texts undiacritical namedTexts⟩ := by
  rw [Cursor.seek, ← List.drop_drop, drop_contents, List.drop_left]

theorem length_contents : (contents texts undiacritical namedTexts).length =
    4 + (strings texts undiacritical namedTexts).length + (sections texts undiacritical namedTexts).length := by
  rw [contents, List.length_append, List.length_append, length_writeInt, Nat.add_assoc]

theorem reads_namedEntries (h : ∀ p ∈ namedTexts.pairs, Fits p.1) :
    ∀ e ∈ namedEntries texts undiacritical namedTexts, Reads readNamedEntry (writeNamedEntry e) e := by
  intro e he
  have hname : e.1 ∈ namedTexts.sorted.map Prod.fst := by
    rw [← map_fst_offsets]
    exact List.mem_map_of_mem he
  obtain ⟨p, hp, hname⟩ := List.mem_map.1 hname
  refine reads_namedEntry ?_
  rw [← hname]
  exact h p (HashMap.mem_sorted.1 hp)

theorem writeIndexEntry_ne_nil (e : IndexEntry) : writeIndexEntry e ≠ [] := by
  refine List.ne_nil_of_length_pos ?_
  rw [length_writeIndexEntry]
  omega

theorem writeNamedEntry_ne_nil (e : String × UInt32) : writeNamedEntry e ≠ [] := by
  refine List.ne_nil_of_length_pos ?_
  rw [writeNamedEntry, List.length_append, length_writeUint]
  omega

theorem writeInt_ne_nil (n : Int32) : writeInt n ≠ [] := by
  refine List.ne_nil_of_length_pos ?_
  rw [length_writeInt]
  decide

/-- A file whose lengths fit is read back entry by entry. -/
theorem fromBytes_contents (hnames : ∀ p ∈ namedTexts.pairs, Fits p.1)
    (hstrings : 4 + (strings texts undiacritical namedTexts).length < 2 ^ 31)
    (hindex : ((indexEntries texts undiacritical).flatMap writeIndexEntry).length < 2 ^ 31)
    (hnamed : ((namedEntries texts undiacritical namedTexts).flatMap writeNamedEntry).length < 2 ^ 31)
    (hsize : (contents texts undiacritical namedTexts).length ≤ isizeMax) :
    D2IReader.fromBytes (contents texts undiacritical namedTexts) =
      .ok (.ofEntries (contents texts undiacritical namedTexts) (indexEntries texts undiacritical)
        (namedEntries texts undiacritical namedTexts) (texts.sorted.map Prod.fst)) := by
  rw [length_contents, sections, List.length_append, List.length_append] at hsize
  have hids : ((texts.sorted.map Prod.fst).flatMap writeInt).length < 2 ^ 31 := by
    rw [length_ids]
    rw [length_indexEntries] at hindex
    omega
  have hread₁ := @readSection_writeSection _ _ _ (indexEntries texts undiacritical)
    (fun e _ => reads_indexEntry e) (fun e _ => writeIndexEntry_ne_nil e) hindex
    (4 + (strings texts undiacritical namedTexts).length)
    (writeSection writeNamedEntry (namedEntries texts undiacritical namedTexts) ++
      writeSection writeInt (texts.sorted.map Prod.fst)) (by omega)
  have hread₂ := @readSection_writeSection _ _ _ (namedEntries texts undiacritical namedTexts)
    (reads_namedEntries hnames) (fun e _ => writeNamedEntry_ne_nil e) hnamed
    (4 + (strings texts undiacritical namedTexts).length +
      (writeSection writeIndexEntry (indexEntries texts undiacritical)).length)
    (writeSection writeInt (texts.sorted.map Prod.fst)) (by omega)
  have hread₃ := @readSection_writeSection _ _ _ (texts.sorted.map Prod.fst) (fun n _ => reads_int n)
    (fun n _ => writeInt_ne_nil n) hids
    (4 + (strings texts undiacritical namedTexts).length +
      (writeSection writeIndexEntry (indexEntries texts undiacritical)).length +
      (writeSection writeNamedEntry (namedEntries texts undiacritical namedTexts)).length) [] (by omega)
  rw [List.append_nil] at hread₃
  refine D2IReader.fromBytes_eq_ok.2 ⟨_, _, _, _, _, _, _, _, readInt_contents, ?_, hread₂, hread₃, rfl⟩
  rw [asU64_ofNat_of_lt hstrings, seek_contents]
  exact hread₁

/-! ### Looking up -/

theorem map_indexEntries (texts undiacritical : HashMap Int32 String) :
    (indexEntries texts undiacritical).map (fun e => (e.key, e.pointer)) = offsets 4 texts.sorted := by
  rw [indexEntries, List.map_map]
  exact List.map_id _

theorem nodup_undiacriticalOffsets (texts undiacritical : HashMap Int32 String) :
    ((undiacriticalOffsets texts undiacritical).map Prod.fst).Nodup := by
  rw [undiacriticalOffsets, map_fst_offsets]
  exact nodup_undiacriticalTexts texts undiacritical

/-- The reader's table of variants without accents is the one the writer collected. -/
theorem lookup_undiacriticalIndexes (key : Int32) :
    (HashMap.ofPairs ((indexEntries texts undiacritical).filterMap fun e =>
      e.diacriticalPointer.map (e.key, ·))).lookup key =
    (HashMap.ofPairs (undiacriticalOffsets texts undiacritical)).lookup key := by
  have hkeys : (indexEntries texts undiacritical).map IndexEntry.key = texts.sorted.map Prod.fst := by
    rw [← map_fst_offsets 4, ← map_indexEntries texts undiacritical, List.map_map]
    rfl
  have hnodup := (HashMap.map_fst_filterMap_sublist IndexEntry.key IndexEntry.diacriticalPointer
    (indexEntries texts undiacritical)).nodup (hkeys ▸ texts.nodup_sorted)
  refine Option.ext fun offset => ?_
  rw [HashMap.lookup_ofPairs hnodup, List.mem_filterMap]
  constructor
  · rintro ⟨e, he, h⟩
    obtain ⟨offset', hoffset, h⟩ := Option.map_eq_some_iff.1 h
    obtain ⟨rfl, rfl⟩ := Prod.mk.inj h
    obtain ⟨p, -, rfl⟩ := List.mem_map.1 he
    exact hoffset
  · intro h
    have hmem := (HashMap.lookup_ofPairs (nodup_undiacriticalOffsets _ _)).1 h
    have hkey : key ∈ (undiacriticalTexts texts undiacritical).map Prod.fst := by
      rw [← map_fst_offsets (4 + (writeStrings texts.sorted).length)]
      exact List.mem_map_of_mem hmem
    obtain ⟨⟨key, text⟩, hp, rfl⟩ := List.mem_map.1 hkey
    have hsorted := HashMap.mem_map_fst_sorted.2 (mem_undiacriticalTexts.1 hp).1
    rw [← map_fst_offsets 4] at hsorted
    obtain ⟨e, he, rfl⟩ := List.mem_map.1 hsorted
    exact ⟨_, List.mem_map_of_mem he, by rw [h]; rfl⟩

/-- Two ids are numbered in their order. -/
theorem lookup_sortIndexes (hlength : texts.pairs.length < 2 ^ 31) {key key' : Int32} (hkey : key ∈ texts)
    (hkey' : key' ∈ texts) (hlt : key < key') : ∃ i j,
    (HashMap.ofPairs ((texts.sorted.map Prod.fst).zipIdx.map fun p => (p.1, Int32.ofNat p.2))).lookup key = some i ∧
    (HashMap.ofPairs ((texts.sorted.map Prod.fst).zipIdx.map fun p => (p.1, Int32.ofNat p.2))).lookup key' = some j ∧
    i < j := by
  set ids := texts.sorted.map Prod.fst with hids
  have hnodup : ((ids.zipIdx.map fun p => (p.1, Int32.ofNat p.2)).map Prod.fst).Nodup := by
    have hfst : (ids.zipIdx.map fun p => (p.1, Int32.ofNat p.2)).map Prod.fst = ids := by
      rw [List.map_map]
      exact List.zipIdx_map_fst 0 ids
    rw [hfst]
    exact texts.nodup_sorted
  have hpairwise : ids.Pairwise (· ≤ ·) := List.pairwise_map.2 texts.pairwise_sorted
  have hbound : ids.length < 2 ^ 31 := by
    rw [hids, List.length_map, HashMap.length_sorted]
    exact hlength
  obtain ⟨i, hi, rfl⟩ := List.mem_iff_getElem.1 (HashMap.mem_map_fst_sorted.2 hkey)
  obtain ⟨j, hj, rfl⟩ := List.mem_iff_getElem.1 (HashMap.mem_map_fst_sorted.2 hkey')
  have hmem : ∀ k (hk : k < ids.length), (ids[k], Int32.ofNat k) ∈ ids.zipIdx.map fun p =>
    (p.1, Int32.ofNat p.2) := by
    intro k hk
    exact List.mem_map.2 ⟨(ids[k], k), List.mk_mem_zipIdx_iff_getElem?.2 (List.getElem?_eq_getElem hk), rfl⟩
  have hij : i < j := by
    by_contra hji
    rcases Nat.lt_or_eq_of_le (Nat.not_lt.1 hji) with h | rfl
    · exact absurd (List.pairwise_iff_getElem.1 hpairwise j i hj hi h) (Int32.not_le.2 hlt)
    · exact Int32.lt_irrefl hlt
  refine ⟨Int32.ofNat i, Int32.ofNat j, (HashMap.lookup_ofPairs hnodup).2 (hmem i hi),
    (HashMap.lookup_ofPairs hnodup).2 (hmem j hj), ?_⟩
  rw [Int32.lt_iff_toInt_lt, Int32.toInt_ofNat_of_lt (Nat.lt_trans hi hbound),
    Int32.toInt_ofNat_of_lt (Nat.lt_trans hj hbound)]
  exact Int.ofNat_lt.2 hij

/-! ### Exactly the storable maps are kept -/

/-- The texts are read back from the file. -/
def Keeps (texts undiacritical : HashMap Int32 String) (namedTexts : HashMap String String) (bytes : List UInt8) :
    Prop :=
  ∃ reader, D2IReader.fromBytes bytes = .ok reader ∧ ReadsBack texts undiacritical namedTexts reader

theorem strings_leads : writeStrings texts.sorted <+: (contents texts undiacritical namedTexts).drop 4 ∧
    writeStrings (undiacriticalTexts texts undiacritical) <+:
      (contents texts undiacritical namedTexts).drop (4 + (writeStrings texts.sorted).length) ∧
    writeStrings namedTexts.sorted <+: (contents texts undiacritical namedTexts).drop
      (4 + (writeStrings texts.sorted).length + (writeStrings (undiacriticalTexts texts undiacritical)).length) := by
  have h : strings texts undiacritical namedTexts <+: (contents texts undiacritical namedTexts).drop 4 := by
    rw [drop_contents]
    exact List.prefix_append _ _
  rw [strings, append_prefix_drop, append_prefix_drop] at h
  exact h

/-- What is read of storable texts is what was written. -/
theorem readsBack_ofEntries (h : Storable texts undiacritical namedTexts) :
    ReadsBack texts undiacritical namedTexts (.ofEntries (contents texts undiacritical namedTexts)
      (indexEntries texts undiacritical) (namedEntries texts undiacritical namedTexts)
      (texts.sorted.map Prod.fst)) := by
  obtain ⟨hT, hU, hM⟩ := @strings_leads texts undiacritical namedTexts
  have hlength := @length_strings _ _ namedTexts fun p hp => (h.undiacriticalFit p hp).1
  have hfit := h.stringsFit
  have hindex := h.indexFits
  rw [← hlength, strings, List.length_append, List.length_append] at hfit
  refine ⟨fun key => ?_, fun key text hkey => ?_, fun key => ?_, fun key => ?_, fun key text hkey => ?_,
    fun key hkey key' hkey' hlt => ?_⟩
  · rw [D2IReader.textIds, List.mem_insertionSort, ← AList.mem_keys, D2IReader.ofEntries, HashMap.mem_ofPairs,
      map_indexEntries, map_fst_offsets, HashMap.mem_map_fst_sorted]
  · have hpair := HashMap.lookup_eq_some.1 hkey
    obtain ⟨offset, hoffset, hpre⟩ := mem_offsets (HashMap.mem_sorted.2 hpair) hT
      (by rw [← length_writeStrings]; omega)
    have hlookup : (HashMap.ofPairs (offsets 4 texts.sorted)).lookup key = some offset :=
      (HashMap.lookup_ofPairs (by rw [map_fst_offsets]; exact texts.nodup_sorted)).2 hoffset
    rw [D2IReader.getText, D2IReader.ofEntries, map_indexEntries, hlookup]
    exact readStringAt_of_leading (h.textsFit _ hpair) hpre
  · rw [D2IReader.getUndiacriticalText, D2IReader.ofEntries, lookup_undiacriticalIndexes]
    cases hkey : undiacritical.lookup key with
    | none =>
      have hlookup : (HashMap.ofPairs (undiacriticalOffsets texts undiacritical)).lookup key = none := by
        rw [AList.lookup_eq_none, HashMap.mem_ofPairs, undiacriticalOffsets, map_fst_offsets, List.mem_map]
        rintro ⟨⟨key, text⟩, hp, rfl⟩
        have hsome := (mem_undiacriticalTexts.1 hp).2
        rw [hkey] at hsome
        cases hsome
      rw [hlookup]
    | some text =>
      have hpair := HashMap.lookup_eq_some.1 hkey
      obtain ⟨hmem, hfits⟩ := h.undiacriticalFit _ hpair
      obtain ⟨offset, hoffset, hpre⟩ := mem_offsets (mem_undiacriticalTexts.2 ⟨hmem, hkey⟩) hU
        (by rw [← length_writeStrings]; omega)
      have hlookup := (HashMap.lookup_ofPairs (nodup_undiacriticalOffsets texts undiacritical)).2 hoffset
      rw [hlookup]
      dsimp only
      rw [readStringAt_of_leading hfits hpre]
      rfl
  · rw [D2IReader.namedTextKeys, List.mem_insertionSort, ← AList.mem_keys, D2IReader.ofEntries, HashMap.mem_ofPairs,
      namedEntries, map_fst_offsets, HashMap.mem_map_fst_sorted]
  · have hpair := HashMap.lookup_eq_some.1 hkey
    obtain ⟨offset, hoffset, hpre⟩ := mem_offsets (HashMap.mem_sorted.2 hpair) hM
      (by rw [← length_writeStrings]; omega)
    have hlookup : (HashMap.ofPairs (namedEntries texts undiacritical namedTexts)).lookup key = some offset :=
      (HashMap.lookup_ofPairs (by rw [namedEntries, map_fst_offsets]; exact namedTexts.nodup_sorted)).2 hoffset
    rw [D2IReader.getNamedText, D2IReader.ofEntries, hlookup]
    exact readStringAt_of_leading (h.namedTextsFit _ hpair).2 hpre
  · exact lookup_sortIndexes (by omega) hkey hkey' hlt

theorem keeps_of_storable (h : Storable texts undiacritical namedTexts)
    (hsize : (contents texts undiacritical namedTexts).length ≤ isizeMax) :
    Keeps texts undiacritical namedTexts (contents texts undiacritical namedTexts) := by
  have hsub : ∀ p ∈ undiacritical.pairs, p.1 ∈ texts := fun p hp => (h.undiacriticalFit p hp).1
  refine ⟨_, fromBytes_contents (fun p hp => (h.namedTextsFit p hp).1) ?_ ?_ ?_ hsize, readsBack_ofEntries h⟩
  · rw [length_strings hsub]
    exact h.stringsFit
  · rw [length_indexEntries, (undiacriticalTexts_perm hsub).length_eq]
    exact h.indexFits
  · rw [length_namedEntries]
    exact h.namedFits

/-- A proper prefix of a list without repetitions misses an element. -/
theorem exists_notMem_of_prefix {α κ : Type} {as bs : List α} {f : α → κ} (h : bs <+: as)
    (hlength : bs.length < as.length) (hnodup : (as.map f).Nodup) : ∃ a ∈ as, f a ∉ bs.map f := by
  obtain ⟨cs, rfl⟩ := h
  cases cs with
  | nil => exact absurd hlength (by simp)
  | cons a cs =>
    refine ⟨a, List.mem_append_right _ List.mem_cons_self, fun hmem => ?_⟩
    rw [List.map_append, List.map_cons] at hnodup
    exact (List.nodup_append.1 hnodup).2.2 _ hmem _ List.mem_cons_self rfl

theorem D2IReader.fits_of_readStringAt {reader : D2IReader} {offset : UInt32} {text : String}
    (h : reader.readStringAt offset = .ok text) : Fits text := by
  obtain ⟨⟨text', c⟩, hread, h⟩ := Outcome.bind_eq_ok.1 h
  obtain rfl := Outcome.ok.inj h
  exact fits_of_readUtf (Outcome.mapErr_eq_ok.1 hread)

/-- Strings that are given back fit their lengths, and variants without accents belong to texts. -/
theorem fit_of_keeps {bytes : List UInt8} (h : Keeps texts undiacritical namedTexts bytes) :
    (∀ p ∈ texts.pairs, Fits p.2) ∧ (∀ p ∈ undiacritical.pairs, p.1 ∈ texts ∧ Fits p.2) ∧
      ∀ p ∈ namedTexts.pairs, Fits p.1 ∧ Fits p.2 := by
  obtain ⟨reader, hread, h⟩ := h
  obtain ⟨pointer, c₀, entries, c, named, c', ids, c'', -, hentries, hnamed, -, rfl⟩ :=
    D2IReader.fromBytes_eq_ok.1 hread
  refine ⟨fun p hp => ?_, fun p hp => ?_, fun p hp => ?_⟩
  · have htext := h.text p.1 p.2 (HashMap.lookup_eq_some.2 hp)
    unfold D2IReader.getText at htext
    split at htext
    · exact D2IReader.fits_of_readStringAt htext
    · cases htext
  · have htext := h.undiacriticalText p.1
    rw [HashMap.lookup_eq_some.2 hp] at htext
    unfold D2IReader.getUndiacriticalText at htext
    split at htext
    · rename_i offset hlookup
      obtain ⟨text, hstring, htext⟩ := Outcome.bind_eq_ok.1 htext
      obtain rfl : text = p.2 := Option.some.inj (Outcome.ok.inj htext)
      refine ⟨?_, D2IReader.fits_of_readStringAt hstring⟩
      rw [← h.textIds, D2IReader.textIds, List.mem_insertionSort, ← AList.mem_keys, D2IReader.ofEntries,
        HashMap.mem_ofPairs, List.map_map]
      have hkey : p.1 ∈ (D2IReader.ofEntries bytes entries named ids).undiacriticalIndexes :=
        AList.lookup_isSome.1 (by rw [hlookup]; rfl)
      have hmem := HashMap.mem_ofPairs.1 hkey
      exact (HashMap.map_fst_filterMap_sublist IndexEntry.key IndexEntry.diacriticalPointer entries).subset hmem
    · cases Outcome.ok.inj htext
  · have hlookup := HashMap.lookup_eq_some.2 hp
    have htext := h.namedText p.1 p.2 hlookup
    unfold D2IReader.getNamedText at htext
    split at htext
    · refine ⟨?_, D2IReader.fits_of_readStringAt htext⟩
      have hmem := (h.namedTextKeys p.1).2 (AList.lookup_isSome.1 (by rw [hlookup]; rfl))
      rw [D2IReader.namedTextKeys, List.mem_insertionSort, ← AList.mem_keys, D2IReader.ofEntries,
        HashMap.mem_ofPairs] at hmem
      obtain ⟨e, he, hname⟩ := List.mem_map.1 hmem
      rw [← hname]
      exact readSection_forall (fun _ _ _ => fits_of_readNamedEntry) hnamed e he
    · cases htext

/-- Nothing is read behind the end of a file. -/
theorem readSection_seek_of_le {α : Type} {r : BigEndianReader α} {data : List UInt8} {position : Nat}
    (h : data.length ≤ position) : readSection r (.seek data position) = .err .unexpectedEof := by
  rw [Cursor.seek, List.drop_eq_nil_of_le h]
  rfl

/-- The lengths of the sections fit thirty-one bits if the texts are read back. -/
theorem sizes_of_keeps (hsize : (contents texts undiacritical namedTexts).length ≤ isizeMax)
    (hpointer : 4 + (strings texts undiacritical namedTexts).length < 2 ^ 32)
    (h : Keeps texts undiacritical namedTexts (contents texts undiacritical namedTexts)) :
    4 + (strings texts undiacritical namedTexts).length < 2 ^ 31 ∧
      ((indexEntries texts undiacritical).flatMap writeIndexEntry).length < 2 ^ 31 ∧
      ((namedEntries texts undiacritical namedTexts).flatMap writeNamedEntry).length < 2 ^ 31 := by
  obtain ⟨-, -, hnamesFit⟩ := fit_of_keeps h
  obtain ⟨reader, hread, h⟩ := h
  obtain ⟨pointer, c₀, entries, c, named, c', ids, c'', hint, hentries, hnamed, -, rfl⟩ :=
    D2IReader.fromBytes_eq_ok.1 hread
  rw [readInt_contents] at hint
  obtain ⟨rfl, -⟩ := Prod.mk.inj (Outcome.ok.inj hint)
  have hstrings : 4 + (strings texts undiacritical namedTexts).length < 2 ^ 31 := by
    by_contra hlarge
    -- the pointer is negative and leads behind the end of the file
    rw [asU64_ofNat, Nat.mod_eq_of_lt hpointer, if_neg hlarge, readSection_seek_of_le (by
      unfold isizeMax at hsize
      omega)] at hentries
    cases hentries
  rw [asU64_ofNat_of_lt hstrings, seek_contents] at hentries
  rw [length_contents] at hsize
  have hindex : ((indexEntries texts undiacritical).flatMap writeIndexEntry).length < 2 ^ 31 := by
    by_contra hlarge
    obtain ⟨hpre, hlength⟩ := readSection_short (fun e _ => reads_indexEntry e)
      (fun e _ => by rw [length_writeIndexEntry]; split <;> decide) consumes_readIndexEntry (Nat.not_lt.1 hlarge)
      hsize hentries
    have hkeys : (indexEntries texts undiacritical).map IndexEntry.key = texts.sorted.map Prod.fst := by
      rw [← map_fst_offsets 4, ← map_indexEntries texts undiacritical, List.map_map]
      rfl
    obtain ⟨e, he, hmissing⟩ := exists_notMem_of_prefix (f := IndexEntry.key) hpre hlength
      (hkeys ▸ texts.nodup_sorted)
    have hkey : e.key ∈ texts := by
      rw [← HashMap.mem_map_fst_sorted, ← hkeys]
      exact List.mem_map_of_mem he
    rw [← h.textIds, D2IReader.textIds, List.mem_insertionSort, ← AList.mem_keys, D2IReader.ofEntries,
      HashMap.mem_ofPairs, List.map_map] at hkey
    exact hmissing hkey
  refine ⟨hstrings, hindex, ?_⟩
  by_contra hlarge
  rw [sections, List.length_append, List.length_append] at hsize
  have hread₁ := @readSection_writeSection _ _ _ (indexEntries texts undiacritical)
    (fun e _ => reads_indexEntry e) (fun e _ => writeIndexEntry_ne_nil e) hindex
    (4 + (strings texts undiacritical namedTexts).length)
    (writeSection writeNamedEntry (namedEntries texts undiacritical namedTexts) ++
      writeSection writeInt (texts.sorted.map Prod.fst)) (by omega)
  rw [sections, hread₁] at hentries
  obtain ⟨rfl, rfl⟩ := Prod.mk.inj (Outcome.ok.inj hentries)
  have hlongest : ∀ e ∈ namedEntries texts undiacritical namedTexts, (writeNamedEntry e).length ≤ 2 ^ 17 := by
    intro e he
    have hname : e.1 ∈ namedTexts.sorted.map Prod.fst := by
      rw [← map_fst_offsets]
      exact List.mem_map_of_mem he
    obtain ⟨p, hp, hname⟩ := List.mem_map.1 hname
    have hfits := (hnamesFit p (HashMap.mem_sorted.1 hp)).1
    rw [hname] at hfits
    unfold Fits at hfits
    rw [writeNamedEntry, List.length_append, length_writeUtf, length_writeUint]
    omega
  obtain ⟨hpre, hlength⟩ := readSection_short
    (reads_namedEntries fun p hp => (hnamesFit p hp).1) hlongest consumes_readNamedEntry (Nat.not_lt.1 hlarge)
    (by rw [List.length_append]; omega) hnamed
  have hkeys : (namedEntries texts undiacritical namedTexts).map Prod.fst = namedTexts.sorted.map Prod.fst := by
    rw [namedEntries, map_fst_offsets]
  obtain ⟨e, he, hmissing⟩ := exists_notMem_of_prefix (f := Prod.fst) hpre hlength
    (hkeys ▸ namedTexts.nodup_sorted)
  have hkey : e.1 ∈ namedTexts := by
    rw [← HashMap.mem_map_fst_sorted, ← hkeys]
    exact List.mem_map_of_mem he
  rw [← h.namedTextKeys, D2IReader.namedTextKeys, List.mem_insertionSort, ← AList.mem_keys, D2IReader.ofEntries,
    HashMap.mem_ofPairs] at hkey
  exact hmissing hkey

/-- Storable texts are kept by a file; and no others are, unless their strings take four gigabytes, so that the
pointer to the index wraps around. -/
theorem keeps_iff_storable (texts undiacritical : HashMap Int32 String) (namedTexts : HashMap String String)
    (bytes : List UInt8) (hwrite : writeD2i texts undiacritical namedTexts = .ok bytes) :
    (Storable texts undiacritical namedTexts → Keeps texts undiacritical namedTexts bytes) ∧
      (4 + (stringsSize texts.pairs + stringsSize undiacritical.pairs + stringsSize namedTexts.pairs) < 2 ^ 32 →
        Keeps texts undiacritical namedTexts bytes → Storable texts undiacritical namedTexts) := by
  rw [writeD2i_eq] at hwrite
  split at hwrite
  · cases hwrite
  rename_i hsize
  obtain rfl := Outcome.ok.inj hwrite
  refine ⟨fun h => keeps_of_storable h (Nat.not_lt.1 hsize), fun hpointer h => ?_⟩
  obtain ⟨hT, hU, hM⟩ := fit_of_keeps h
  have hsub : ∀ p ∈ undiacritical.pairs, p.1 ∈ texts := fun p hp => (hU p hp).1
  rw [← length_strings hsub] at hpointer
  obtain ⟨hstrings, hindex, hnamed⟩ := sizes_of_keeps (Nat.not_lt.1 hsize) hpointer h
  rw [length_strings hsub] at hstrings
  rw [length_indexEntries, (undiacriticalTexts_perm hsub).length_eq] at hindex
  rw [length_namedEntries] at hnamed
  exact ⟨hT, hU, hM, hstrings, hindex, hnamed⟩

end

/-- A text and its variant without accents. -/
def cafe : HashMap Int32 String × HashMap Int32 String := (AList.singleton 1 "café", AList.singleton 1 "cafe")

theorem keeps_cafe : Keeps cafe.1 cafe.2 (AList.singleton "ui.menu" "Menu")
      (contents cafe.1 cafe.2 (AList.singleton "ui.menu" "Menu")) ∧
    Storable cafe.1 cafe.2 (AList.singleton "ui.menu" "Menu") := by
  have h := keeps_iff_storable cafe.1 cafe.2 (AList.singleton "ui.menu" "Menu")
    (contents cafe.1 cafe.2 (AList.singleton "ui.menu" "Menu")) (by decide +kernel)
  have hkeeps := h.1 ⟨by decide +kernel, by decide +kernel, by decide +kernel, by decide +kernel, by decide +kernel,
    by decide +kernel⟩
  exact ⟨hkeeps, h.2 (by decide +kernel) hkeeps⟩

theorem length_asBytes_replicate (n : Nat) : (asBytes (String.ofList (List.replicate n 'a'))).length = n := by
  rw [asBytes, String.toByteArray_ofList, List.utf8Encode, List.toList_data_toByteArray, List.length_flatMap]
  simp [String.utf8EncodeChar]

/-- A file with a single long text is written, and does not keep it. -/
theorem long_lost {text : String} (hlong : 2 ^ 16 ≤ (asBytes text).length) (hsize : (asBytes text).length < 2 ^ 32) :
    ∃ bytes, writeD2i (AList.singleton 1 text) ∅ ∅ = .ok bytes ∧ ¬Keeps (AList.singleton 1 text) ∅ ∅ bytes := by
  have hcontents : (contents (AList.singleton 1 text) ∅ ∅).length ≤ isizeMax := by
    have hstrings : (strings (AList.singleton 1 text) ∅ ∅).length = 2 + (asBytes text).length :=
      length_strings fun p hp => absurd hp List.not_mem_nil
    have hindex : _ = 9 := length_indexEntries (AList.singleton 1 text) ∅
    have hnamed : _ = 0 := length_namedEntries (AList.singleton 1 text) ∅ ∅
    have hids : _ = 4 := length_ids (AList.singleton 1 text)
    rw [length_contents, hstrings, sections, writeSection, writeSection, writeSection]
    simp only [List.length_append, length_writeInt, hindex, hnamed, hids]
    unfold isizeMax
    omega
  refine ⟨contents (AList.singleton 1 text) ∅ ∅, ?_, fun h => ?_⟩
  · rw [writeD2i_eq, if_neg (Nat.not_lt.2 hcontents)]
  · exact absurd ((fit_of_keeps h).1 (1, text) List.mem_cons_self) (Nat.not_lt.2 hlong)

/-- A text of 65536 letters is lost. -/
theorem long_text_lost : ∃ bytes,
    writeD2i (AList.singleton 1 (String.ofList (List.replicate 65536 'a'))) ∅ ∅ = .ok bytes ∧
      ¬Keeps (AList.singleton 1 (String.ofList (List.replicate 65536 'a'))) ∅ ∅ bytes :=
  long_lost (by rw [length_asBytes_replicate]; decide) (by rw [length_asBytes_replicate]; decide)

end Otomai.DataReader
