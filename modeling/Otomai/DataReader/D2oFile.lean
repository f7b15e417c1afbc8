import Otomai.DataReader.D2oTable

/-!
# Game data files that are saved

`save_d2o_file` reads every object of a file, takes the edited ones in place of those of the file, and writes them
with the class table of the file.

* `fromBytes_of_writeD2o`: what the reader finds in a file that was written.
* `kept_iff_survives`: a file that is saved without edits keeps its objects if and only if they are representable.
-/

namespace Otomai.DataReader

open Wire BigEndianReader BigEndianWriter

/-- The objects of a file, the edited ones in place of those of the file. -/
def snapshot (reader : D2OReader) (edits : HashMap Int32 Value) :
    List Int32 → Outcome D2OError (List (Int32 × Value))
  | [] => .ok []
  | id :: ids => do
    let value ← match edits.lookup id with
      | some edited => .ok edited
      | none => reader.readObject id
    let objects ← snapshot reader edits ids
    .ok ((id, value) :: objects)

/-- Reads all objects and writes them back, with the classes in the order in which their map is iterated. -/
def saveD2o (reader : D2OReader) (classes : ClassTable) : Outcome D2OError (List UInt8) := do
  let objects ← snapshot reader ∅ reader.objectIds
  writeD2o classes objects

/-- The contents of some objects. -/
def D2OReader.contents (reader : D2OReader) : List Int32 → Outcome D2OError (List Content)
  | [] => .ok []
  | id :: ids => do
    let content ← reader.content id
    let contents ← reader.contents ids
    .ok (content :: contents)

/-- From the saved file every object is read with the same class and the same contents of its fields. -/
def Kept (reader : D2OReader) (bytes : List UInt8) : Prop :=
  ∃ reader', D2OReader.fromBytes bytes = .ok reader' ∧
    (∀ classId, reader'.classes.lookup classId = reader.classes.lookup classId) ∧
    reader'.objectIds = reader.objectIds ∧ ∀ id ∈ reader.objectIds, reader'.content id = reader.content id

/-- All objects are representable, and together smaller than the offsets of thirty-one bits reach. -/
structure Survives (reader : D2OReader) (classes : ClassTable) : Prop where
  representable : ∀ id ∈ reader.objectIds, ∀ content, reader.content id = .ok content → Representable classes content
  fits : ∀ contents, reader.contents reader.objectIds = .ok contents →
    7 + (Content.encodes contents).length < 2 ^ 31

/-! ### The parts of a file -/

def writeIndex (e : Int32 × Int32) : List UInt8 := writeInt e.1 ++ writeInt e.2

/-- A file with its objects, its index and its classes. -/
def d2oBytes (ws : List UInt8) (index : List (Int32 × Int32)) (classCount : Nat) (table : List UInt8) : List UInt8 :=
  D2OReader.magic ++ (writeInt (Int32.ofNat (7 + ws.length)) ++ (ws ++ (writeInt (Int32.ofNat index.length * 8) ++
    (index.flatMap writeIndex ++ (writeInt (Int32.ofNat classCount) ++ table)))))

/-- The reader of a file that was written. -/
def writtenReader (classes : ClassTable) (index : List (Int32 × Int32)) (bytes : List UInt8) : D2OReader where
  classes := .ofPairs classes
  indexes := index
  contentOffset := 0
  data := bytes

/-- Objects and classes that are written make a file, where a vector holds as many bytes. -/
theorem writeD2o_eq {classes : ClassTable} {objects : List (Int32 × Value)} {ws table : List UInt8}
    {index : List (Int32 × Int32)} (hws : writeObjects classes 7 objects = .ok (ws, index))
    (htable : writeEach writeClassDef classes = .ok table) : writeD2o classes objects =
      if isizeMax < (d2oBytes ws index classes.length table).length then .panic
      else .ok (d2oBytes ws index classes.length table) := by
  have hmagic : (D2OReader.magic ++ writeInt 0).length = 7 := by
    rw [List.length_append, length_writeInt]
    rfl
  have hlength : (D2OReader.magic ++ writeInt 0 ++ ws).length = 7 + ws.length := by rw [List.length_append, hmagic]
  have hdrop : ∀ rest : List UInt8, (D2OReader.magic ++ (writeInt 0 ++ rest)).drop 7 = rest := by
    intro rest
    rw [← List.append_assoc, ← hmagic, List.drop_left]
  have htake : ∀ rest : List UInt8, (D2OReader.magic ++ rest).take 3 = D2OReader.magic := fun _ => rfl
  unfold writeD2o
  dsimp only
  rw [hmagic, hws, Outcome.ok_bind]
  dsimp only
  rw [htable, Outcome.ok_bind, hlength]
  -- the pointer takes the place of the four bytes behind the magic
  simp only [List.append_assoc]
  rw [hdrop, htake]
  rfl

theorem writeD2o_eq_ok {classes : ClassTable} {objects : List (Int32 × Value)} {bytes : List UInt8}
    (h : writeD2o classes objects = .ok bytes) :
    ∃ ws index table, writeObjects classes 7 objects = .ok (ws, index) ∧ writeEach writeClassDef classes = .ok table ∧
      bytes = d2oBytes ws index classes.length table := by
  obtain ⟨⟨ws, index⟩, hws, h'⟩ := Outcome.bind_eq_ok.1 h
  obtain ⟨table, htable, -⟩ := Outcome.bind_eq_ok.1 h'
  rw [writeD2o_eq hws htable] at h
  split at h
  · cases h
  · exact ⟨ws, index, table, hws, htable, (Outcome.ok.inj h).symm⟩

theorem length_d2oBytes (ws : List UInt8) (index : List (Int32 × Int32)) (classCount : Nat) (table : List UInt8) :
    (d2oBytes ws index classCount table).length = 15 + ws.length + 8 * index.length + table.length := by
  have hindex : (index.flatMap writeIndex).length = 8 * index.length := by
    induction index with
    | nil => rfl
    | cons e index ih =>
      have hentry : (writeIndex e).length = 8 := rfl
      rw [List.flatMap_cons, List.length_append, ih, hentry, List.length_cons]
      omega
  have hmagic : D2OReader.magic.length = 3 := rfl
  unfold d2oBytes
  simp only [List.length_append, length_writeInt, hindex, hmagic]
  omega

/-- What is known of a reader that read a file. -/
structure WellFormed (reader : D2OReader) : Prop where
  indexes : reader.indexes.length * 8 < 2 ^ 31
  classes : reader.classes.pairs.length < 2 ^ 31
  classId : ∀ p ∈ reader.classes.pairs, p.1 = p.2.classId
  valid : ∀ p ∈ reader.classes.pairs, p.2.Valid

theorem wellFormed_of_fromBytes {data : List UInt8} {reader : D2OReader} (h : D2OReader.fromBytes data = .ok reader) :
    WellFormed reader := by
  obtain ⟨⟨contentOffset, c⟩, -, h⟩ := Outcome.bind_eq_ok.1 h
  obtain ⟨⟨indexesPointer, c₁⟩, -, h⟩ := Outcome.bind_eq_ok.1 h
  obtain ⟨⟨indexesLength, c₂⟩, -, h⟩ := Outcome.bind_eq_ok.1 h
  obtain ⟨⟨indexes, c₃⟩, hindexes, h⟩ := Outcome.bind_eq_ok.1 h
  obtain ⟨⟨classCount, c₄⟩, -, h⟩ := Outcome.bind_eq_ok.1 h
  obtain ⟨⟨classes, c₅⟩, hclasses, h⟩ := Outcome.bind_eq_ok.1 h
  obtain rfl := Outcome.ok.inj h
  obtain ⟨hcount, hvalid⟩ := forall_replicate valid_of_readClassDef hclasses
  have hmem : ∀ p ∈ (HashMap.ofPairs (classes.map fun d => (d.classId, d))).pairs,
      ∃ d ∈ classes, (d.classId, d) = p := fun p hp => List.mem_map.1 (HashMap.mem_of_mem_pairs_ofPairs hp)
  refine ⟨?_, ?_, fun p hp => ?_, fun p hp => ?_⟩
  · unfold readCounted at hindexes
    split at hindexes
    · cases hindexes
    obtain ⟨hlength, -⟩ := forall_replicate (Q := fun _ => True) (fun _ _ _ _ => trivial) hindexes
    have hlt := indexesLength.toInt_lt
    have hle : indexesLength.toInt.tdiv 8 * 8 < 2 ^ 31 := by
      rcases Int.le_total 0 indexesLength.toInt with hpos | hneg
      · rw [Int.tdiv_eq_ediv_of_nonneg hpos]
        omega
      · have hquotient := Int.tdiv_nonneg (Int.neg_nonneg.2 hneg) (show (0 : Int) ≤ 8 by decide)
        rw [Int.neg_tdiv] at hquotient
        omega
    dsimp only
    omega
  · have hlt := classCount.toInt_lt
    have hle := HashMap.length_pairs_ofPairs_le (classes.map fun d => (d.classId, d))
    rw [List.length_map] at hle
    dsimp only
    omega
  · obtain ⟨d, -, rfl⟩ := hmem p hp
    rfl
  · obtain ⟨d, hd, rfl⟩ := hmem p hp
    exact hvalid d hd

/-! ### Reading a written file -/

section

variable {ws : List UInt8} {index : List (Int32 × Int32)} {classCount : Nat} {table : List UInt8}

theorem readMagic_d2oBytes : ∃ rest, D2OReader.readMagic (d2oBytes ws index classCount table) =
    .ok (0, ⟨3, writeInt (Int32.ofNat (7 + ws.length)) ++ rest⟩) := by
  refine ⟨ws ++ (writeInt (Int32.ofNat index.length * 8) ++
    (index.flatMap writeIndex ++ (writeInt (Int32.ofNat classCount) ++ table))), ?_⟩
  have hmagic := reads_io (Reads.take .unexpectedEof D2OReader.magic) 0 (writeInt (Int32.ofNat (7 + ws.length)) ++
    (ws ++ (writeInt (Int32.ofNat index.length * 8) ++
      (index.flatMap writeIndex ++ (writeInt (Int32.ofNat classCount) ++ table)))))
  unfold D2OReader.readMagic d2oBytes
  rw [show (3 : Nat) = D2OReader.magic.length from rfl, Cursor.ofBytes, hmagic, Outcome.ok_bind]
  dsimp only
  rw [if_neg (by decide), if_pos rfl]
  rfl

/-- Behind the objects stand the index and the classes. -/
theorem drop_d2oBytes : (d2oBytes ws index classCount table).drop (7 + ws.length) =
    writeInt (Int32.ofNat index.length * 8) ++
      (index.flatMap writeIndex ++ (writeInt (Int32.ofNat classCount) ++ table)) := by
  have hstart : (D2OReader.magic ++ (writeInt (Int32.ofNat (7 + ws.length)) ++ ws)).length = 7 + ws.length := by
    rw [List.length_append, List.length_append, length_writeInt, ← Nat.add_assoc]
    rfl
  unfold d2oBytes
  rw [← List.append_assoc (writeInt _), ← List.append_assoc D2OReader.magic]
  exact List.drop_left' hstart

/-- The objects stand behind the pointer. -/
theorem prefix_drop_d2oBytes : ws <+: (d2oBytes ws index classCount table).drop 7 := by
  have hstart : (D2OReader.magic ++ writeInt (Int32.ofNat (7 + ws.length))).length = 7 := by
    rw [List.length_append, length_writeInt]
    rfl
  refine ⟨writeInt (Int32.ofNat index.length * 8) ++
    (index.flatMap writeIndex ++ (writeInt (Int32.ofNat classCount) ++ table)), ?_⟩
  unfold d2oBytes
  rw [← List.append_assoc D2OReader.magic]
  exact (List.drop_left' hstart).symm

theorem reads_index (e : Int32 × Int32) : Reads readIndex (writeIndex e) e :=
  (reads_io (reads_int _)).bind ((reads_io (reads_int _)).map (Reads.pure _))

/-- What the reader finds in a file that was written. -/
theorem fromBytes_d2oBytes {classes : ClassTable} (hfits : 7 + ws.length < 2 ^ 31)
    (hindex : index.length * 8 < 2 ^ 31) (hclasses : classes.length < 2 ^ 31)
    (hclassId : ∀ p ∈ classes, p.1 = p.2.classId) (hvalid : ∀ p ∈ classes, p.2.Valid)
    (htable : writeEach writeClassDef classes = .ok table) :
    D2OReader.fromBytes (d2oBytes ws index classes.length table) =
      .ok (writtenReader classes index (d2oBytes ws index classes.length table)) := by
  obtain ⟨rest, hmagic⟩ := @readMagic_d2oBytes ws index classes.length table
  have hpointer := reads_io (reads_int (Int32.ofNat (7 + ws.length))) 3 rest
  have hseek : (0 + asU64 (Int32.ofNat (7 + ws.length))) % 2 ^ 64 = 7 + ws.length := by
    rw [asU64_ofNat_of_lt hfits, Nat.zero_add]
    exact Nat.mod_eq_of_lt (by omega)
  have hlength : (Int32.ofNat index.length * 8).toInt.tdiv 8 = index.length := by
    rw [show Int32.ofNat index.length * 8 = Int32.ofNat (index.length * 8) from (Int32.ofNat_mul ..).symm,
      Int32.toInt_ofNat_of_lt hindex, Int.natCast_mul]
    exact Int.mul_tdiv_cancel _ (by decide)
  have hcount : (Int32.ofNat classes.length).toInt = classes.length := Int32.toInt_ofNat_of_lt hclasses
  have hreadTable : Reads (Wire.Reader.replicate readClassDef classes.length) table (classes.map Prod.snd) :=
    reads_replicate_writeEach htable fun p hp w hw => reads_classDef (hclassId p hp) (hvalid p hp) hw
  unfold D2OReader.fromBytes
  rw [hmagic, Outcome.ok_bind]
  dsimp only
  rw [hpointer, Outcome.ok_bind]
  dsimp only
  rw [hseek, Cursor.seek, drop_d2oBytes, reads_io (reads_int _), Outcome.ok_bind]
  dsimp only
  rw [hlength, readCounted, if_neg (by omega), Int.toNat_natCast,
    Reads.replicate index (fun e _ => reads_index e), Outcome.ok_bind]
  dsimp only
  rw [reads_io (reads_int _), Outcome.ok_bind]
  dsimp only
  have hend := hreadTable (7 + ws.length + (writeInt (Int32.ofNat index.length * 8)).length +
    (index.flatMap writeIndex).length + (writeInt (Int32.ofNat classes.length)).length) []
  rw [List.append_nil] at hend
  rw [hcount, Int.toNat_natCast, hend, Outcome.ok_bind]
  dsimp only
  have hpairs : (classes.map Prod.snd).map (fun d => (d.classId, d)) = classes := by
    rw [List.map_map]
    have hsame : ∀ p ∈ classes, ((fun d : D2OClassDef => (d.classId, d)) ∘ Prod.snd) p = id p := fun p hp =>
      Prod.ext (hclassId p hp).symm rfl
    rw [List.map_congr_left hsame, List.map_id]
  rw [hpairs]
  rfl

/-- The pointer of a file that is read is not negative. -/
theorem fits_of_fromBytes {reader : D2OReader} (hsize : (d2oBytes ws index classCount table).length < 2 ^ 32)
    (h : D2OReader.fromBytes (d2oBytes ws index classCount table) = .ok reader) : 7 + ws.length < 2 ^ 31 := by
  by_contra hlarge
  obtain ⟨rest, hmagic⟩ := @readMagic_d2oBytes ws index classCount table
  have hpointer := reads_io (reads_int (Int32.ofNat (7 + ws.length))) 3 rest
  have hle : 7 + ws.length ≤ (d2oBytes ws index classCount table).length := by
    have hdrop := congrArg List.length (@drop_d2oBytes ws index classCount table)
    rw [List.length_drop, List.length_append, length_writeInt] at hdrop
    omega
  have hmod : (7 + ws.length) % 2 ^ 32 = 7 + ws.length := Nat.mod_eq_of_lt (by omega)
  have hseek : (d2oBytes ws index classCount table).length ≤ (0 + asU64 (Int32.ofNat (7 + ws.length))) % 2 ^ 64 := by
    rw [asU64_ofNat, hmod, if_neg hlarge]
    omega
  unfold D2OReader.fromBytes at h
  rw [hmagic, Outcome.ok_bind] at h
  dsimp only at h
  rw [hpointer, Outcome.ok_bind] at h
  dsimp only at h
  rw [Cursor.seek, List.drop_eq_nil_of_le hseek] at h
  cases h

end

/-! ### The objects of a written file -/

/-- An object stands at the offset under which it is found. -/
theorem writeObjects_lookup {classes : ClassTable} {objects : List (Int32 × Value)} : ∀ {position : Nat}
    {ws : List UInt8} {index : List (Int32 × Int32)}, writeObjects classes position objects = .ok (ws, index) →
    index.map Prod.fst = objects.map Prod.fst ∧ ∀ id value, objects.lookup id = some value → ∃ offset w,
      index.lookup id = some (Int32.ofNat offset) ∧ writeObject classes value = .ok w ∧
      offset + w.length ≤ position + ws.length ∧ ∀ data : List UInt8, ws <+: data.drop position →
        w <+: data.drop offset := by
  induction objects with
  | nil =>
    intro position ws index h
    obtain ⟨rfl, rfl⟩ := Prod.mk.inj (Outcome.ok.inj h)
    exact ⟨rfl, fun id value hvalue => nomatch hvalue⟩
  | cons object objects ih =>
    intro position ws index h
    obtain ⟨w, hw, h⟩ := Outcome.bind_eq_ok.1 h
    obtain ⟨⟨ws', index'⟩, hws, h⟩ := Outcome.bind_eq_ok.1 h
    obtain ⟨rfl, rfl⟩ := Prod.mk.inj (Outcome.ok.inj h)
    obtain ⟨hids, hobjects⟩ := ih hws
    refine ⟨by rw [List.map_cons, List.map_cons, hids], fun id value hvalue => ?_⟩
    rw [List.length_append]
    rw [List.lookup_cons] at hvalue
    by_cases hid : id = object.1
    · subst hid
      rw [beq_self_eq_true] at hvalue
      obtain rfl := Option.some.inj hvalue
      exact ⟨position, w, List.lookup_cons_self, hw, by omega, fun data hdata => (append_prefix_drop.1 hdata).1⟩
    · have hne : (id == object.1) = false := beq_false_of_ne hid
      rw [hne] at hvalue
      obtain ⟨offset, w', hlookup, hw', hend, hplace⟩ := hobjects id value hvalue
      refine ⟨offset, w', ?_, hw', by omega, fun data hdata => hplace data (append_prefix_drop.1 hdata).2⟩
      rw [List.lookup_cons, hne]
      exact hlookup

/-- A snapshot holds the edited objects, and the objects of the file where there is no edit. -/
theorem snapshot_eq_ok {reader : D2OReader} {edits : HashMap Int32 Value} {ids : List Int32} :
    ∀ {objects : List (Int32 × Value)}, snapshot reader edits ids = .ok objects →
    objects.map Prod.fst = ids ∧ ∀ id ∈ ids, (∀ v, edits.lookup id = some v → objects.lookup id = some v) ∧
      (edits.lookup id = none → ∃ v, reader.readObject id = .ok v ∧ objects.lookup id = some v) := by
  induction ids with
  | nil =>
    intro objects h
    obtain rfl := Outcome.ok.inj h
    exact ⟨rfl, fun id hid => absurd hid List.not_mem_nil⟩
  | cons id ids ih =>
    intro objects h
    have hcons : snapshot reader edits (id :: ids) =
        (match edits.lookup id with
          | some edited => .ok edited
          | none => reader.readObject id) >>= fun value =>
        snapshot reader edits ids >>= fun objects => .ok ((id, value) :: objects) := by
      rw [snapshot]
      cases edits.lookup id <;> rfl
    rw [hcons] at h
    obtain ⟨value, hvalue, h⟩ := Outcome.bind_eq_ok.1 h
    obtain ⟨objects', hobjects, h⟩ := Outcome.bind_eq_ok.1 h
    obtain rfl := Outcome.ok.inj h
    obtain ⟨hids, hall⟩ := ih hobjects
    refine ⟨by rw [List.map_cons, hids], fun id' hid' => ?_⟩
    by_cases hsame : id' = id
    · subst hsame
      rw [List.lookup_cons_self]
      cases hedit : edits.lookup id' with
      | none =>
        rw [hedit] at hvalue
        exact ⟨nofun, fun _ => ⟨value, hvalue, rfl⟩⟩
      | some edited =>
        rw [hedit] at hvalue
        obtain rfl := Outcome.ok.inj hvalue
        exact ⟨fun v hv => hv, nofun⟩
    · rw [List.lookup_cons, beq_false_of_ne hsame]
      exact hall id' ((List.mem_cons.1 hid').resolve_left hsame)

/-- All objects of a file without edits are those that the file holds. -/
theorem snapshot_empty {reader : D2OReader} {ids : List Int32} {objects : List (Int32 × Value)}
    (h : snapshot reader ∅ ids = .ok objects) {id : Int32} (hid : id ∈ ids) : ∃ content,
      reader.content id = .ok content ∧ objects.lookup id = some (content.value reader.classes) := by
  obtain ⟨v, hv, hlookup⟩ := ((snapshot_eq_ok h).2 id hid).2 rfl
  rw [readObject_eq] at hv
  obtain ⟨content, hcontent, hv⟩ := Outcome.bind_eq_ok.1 hv
  obtain rfl := Outcome.ok.inj hv
  exact ⟨content, hcontent, hlookup⟩

/-- Where every object can be read, all of them are. -/
theorem exists_snapshot {reader : D2OReader} {ids : List Int32}
    (h : ∀ id ∈ ids, ∃ content, reader.content id = .ok content) : ∃ objects, snapshot reader ∅ ids = .ok objects ∧
      ∀ p ∈ objects, p.1 ∈ ids ∧ ∃ content, reader.content p.1 = .ok content ∧
      p.2 = content.value reader.classes := by
  induction ids with
  | nil => exact ⟨[], rfl, fun p hp => absurd hp List.not_mem_nil⟩
  | cons id ids ih =>
    obtain ⟨content, hcontent⟩ := h id List.mem_cons_self
    obtain ⟨objects, hobjects, hall⟩ := ih fun id' hid' => h id' (List.mem_cons_of_mem id hid')
    have hread : reader.readObject id = .ok (content.value reader.classes) := by
      rw [readObject_eq, hcontent, Outcome.ok_bind]
    refine ⟨(id, content.value reader.classes) :: objects, ?_, fun p hp => ?_⟩
    · rw [snapshot]
      change reader.readObject id >>= _ = _
      rw [hread, Outcome.ok_bind]
      change snapshot reader ∅ ids >>= _ = _
      rw [hobjects, Outcome.ok_bind]
    · rcases List.mem_cons.1 hp with rfl | hp
      · exact ⟨List.mem_cons_self, content, hcontent, rfl⟩
      · exact ⟨List.mem_cons_of_mem id (hall p hp).1, (hall p hp).2⟩

/-- An object with its class before it. -/
def readObjectContent (classes : HashMap Int32 D2OClassDef) (fuel : Nat) : D2OCursor Content := do
  let classId ← io readInt
  readContentFields classes fuel classId

/-- The content of an object is what stands at its offset. -/
theorem content_eq {reader : D2OReader} {id : Int32} {offset : Nat} (hstart : reader.contentOffset = 0)
    (hlookup : reader.indexes.lookup id = some (Int32.ofNat offset)) (hoffset : offset < 2 ^ 31) :
    reader.content id = readObjectContent reader.classes (reader.data.length + 1) (.seek reader.data offset) >>=
      fun x => .ok x.1 := by
  have hseek : reader.seekObject id = .ok (.seek reader.data offset) := by
    have hmod : offset % 2 ^ 64 = offset := Nat.mod_eq_of_lt (by omega)
    rw [D2OReader.seekObject, hlookup, hstart]
    dsimp only
    rw [asU64_ofNat_of_lt hoffset, Nat.zero_add, hmod]
  rw [D2OReader.content, hseek, Outcome.ok_bind, readObjectContent, Wire.Reader.bind_apply]
  cases io readInt (Cursor.seek reader.data offset) <;> rfl

theorem isObject_of_content {reader : D2OReader} {id : Int32} {content : Content}
    (h : reader.content id = .ok content) : ∃ classId, IsObject reader.classes classId content := by
  obtain ⟨c, -, h⟩ := Outcome.bind_eq_ok.1 h
  obtain ⟨⟨classId, c'⟩, -, h⟩ := Outcome.bind_eq_ok.1 h
  obtain ⟨⟨content', c''⟩, hread, h⟩ := Outcome.bind_eq_ok.1 h
  obtain rfl := Outcome.ok.inj h
  exact ⟨classId, (hasType_of_readContent _).1 _ _ _ _ hread⟩

section

variable {classes : ClassTable} {table : HashMap Int32 D2OClassDef} {classId : Int32} {content : Content}

/-- An object is written with what its fields say. -/
theorem writeObject_eq_ok (htable : classes.Perm table.pairs) {classDef : D2OClassDef} {fields : List Content}
    {v : Value} (hrep : Representable classes (.object classId fields))
    (hlookup : table.lookup classId = some classDef)
    (hname : v.get? "_class" = some (.string classDef.name)) (hlength : classDef.fields.length = fields.length)
    (h : ∀ p ∈ classDef.fields.zip fields, ∃ u, v.get? p.1.name = some u ∧
      Represents table p.1.fieldType p.2 u) :
    writeObject classes v = .ok (Content.encode (.object classId fields)) := by
  cases hrep with
  | object hfind hplain hrep =>
    obtain rfl := Option.some.inj (hlookup.symm.trans (lookup_of_findClass htable hfind))
    have hwrite := @writeObjectFields_eq_ok classes (2 * v.depth + 1) _ _ _ hlength fun p hp => by
      obtain ⟨u, hu, hrepresents⟩ := h p hp
      have hdepth := Value.depth_of_get? hu
      exact ⟨u, hu, writeFieldValue_eq_encode htable hrepresents (hrep _ (List.of_mem_zip hp).2) (by omega)⟩
    rw [writeObject, hname]
    dsimp only [Option.bind_some, Value.asStr]
    rw [hfind]
    dsimp only
    rw [hwrite]
    rfl

/-- A representable object is written as it was read. -/
theorem writeObject_value (htable : classes.Perm table.pairs) (hobject : IsObject table classId content)
    (hrep : Representable classes content) : writeObject classes (content.value table) = .ok content.encode := by
  obtain ⟨classDef, fields, hlookup, rfl, hlength, htypes⟩ := hobject
  have hrep' := hrep
  cases hrep' with
  | object hfind hplain hfields =>
    obtain rfl := Option.some.inj (hlookup.symm.trans (lookup_of_findClass htable hfind))
    rw [Content.value, hlookup]
    dsimp only
    rw [Content.values_eq_map]
    obtain ⟨hclass, hget⟩ := @get?_value table _ hplain _ hlength
    exact writeObject_eq_ok htable hrep hlookup hclass hlength fun p hp =>
      ⟨_, hget p hp, represents_value htable (htypes p hp) (hfields _ (List.of_mem_zip hp).2)⟩

/-- A representable object is read back. -/
theorem reads_objectContent (hobject : IsObject table classId content) {fuel : Nat}
    (hfuel : content.encode.length < fuel) : Reads (readObjectContent table fuel) content.encode content := by
  obtain ⟨classDef, fields, hlookup, rfl, hlength, htypes⟩ := hobject
  rw [Content.encode, List.length_append, length_writeInt] at hfuel
  obtain ⟨n, rfl⟩ : ∃ n, fuel = n + 1 := ⟨fuel - 1, by omega⟩
  refine (reads_io (reads_int classId)).bind (reads_contentFields hlookup hlength fun p hp => ?_)
  have hle := length_encode_le (List.of_mem_zip hp).2
  exact reads_content (htypes p hp) (by omega)

/-- A plain object that is read again unchanged is representable. -/
theorem representable_of_readObjectContent (htable : classes.Perm table.pairs)
    (hobject : IsObject table classId content) (hplain : PlainObjects table content) {fuel pos : Nat}
    {w rest : List UInt8} {c' : Cursor} (hw : writeObject classes (content.value table) = .ok w)
    (hfuel : w.length < fuel) (hread : readObjectContent table fuel ⟨pos, w ++ rest⟩ = .ok (content, c')) :
    Representable classes content := by
  obtain ⟨classDef, fields, hlookup, rfl, hlength, htypes⟩ := hobject
  cases hplain with
  | object hlookup' hplain hplainFields =>
    obtain rfl := Option.some.inj (hlookup.symm.trans hlookup')
    rw [Content.value, hlookup] at hw
    dsimp only at hw
    rw [Content.values_eq_map, writeObject, (get?_value hplain hlength).1] at hw
    dsimp only [Option.bind_some, Value.asStr] at hw
    cases hfind : findClass classes classDef.name with
    | none =>
      rw [hfind] at hw
      cases hw
    | some found =>
      obtain ⟨foundId, foundDef⟩ := found
      rw [hfind] at hw
      obtain ⟨ws, hws, hw⟩ := Outcome.bind_eq_ok.1 hw
      obtain rfl := Outcome.ok.inj hw
      rw [List.length_append, length_writeInt] at hfuel
      rw [List.append_assoc, readObjectContent, Wire.Reader.bind_apply, reads_io (reads_int foundId),
        Outcome.ok_bind] at hread
      -- the object is read with the class it was written with
      obtain ⟨readDef, readFields, -, hsame, -⟩ := (hasType_of_readContent fuel).1 _ _ _ _ hread
      obtain ⟨rfl, -⟩ := Content.object.inj hsame
      obtain rfl := Option.some.inj (hlookup.symm.trans (lookup_of_findClass htable hfind))
      have hfields := (representable_fields hlookup hplain hlength
        (fun p hp => faithful htable (htypes p hp) (hplainFields _ (List.of_mem_zip hp).2)) hws (by omega) hread).1
      exact .object hfind hplain hfields

end

/-- The objects of a file that are written as they were read make its contents. -/
theorem writeObjects_encodes {reader : D2OReader} {classes : ClassTable} {ids : List Int32} : ∀ {position : Nat}
    {objects : List (Int32 × Value)} {ws : List UInt8} {index : List (Int32 × Int32)},
    snapshot reader ∅ ids = .ok objects → writeObjects classes position objects = .ok (ws, index) →
    (∀ id ∈ ids, ∀ content, reader.content id = .ok content →
      writeObject classes (content.value reader.classes) = .ok content.encode) →
    ∃ contents, reader.contents ids = .ok contents ∧ ws = Content.encodes contents := by
  induction ids with
  | nil =>
    intro position objects ws index h hws _
    obtain rfl := Outcome.ok.inj h
    obtain ⟨rfl, -⟩ := Prod.mk.inj (Outcome.ok.inj hws)
    exact ⟨[], rfl, rfl⟩
  | cons id ids ih =>
    intro position objects ws index h hws hwrite
    obtain ⟨value, hvalue, h⟩ := Outcome.bind_eq_ok.1 h
    obtain ⟨objects', hobjects, h⟩ := Outcome.bind_eq_ok.1 h
    obtain rfl := Outcome.ok.inj h
    change reader.readObject id = .ok value at hvalue
    rw [readObject_eq] at hvalue
    obtain ⟨content, hcontent, hvalue⟩ := Outcome.bind_eq_ok.1 hvalue
    obtain rfl := Outcome.ok.inj hvalue
    obtain ⟨w, hw, hws⟩ := Outcome.bind_eq_ok.1 hws
    obtain ⟨⟨ws', index'⟩, hws', hws⟩ := Outcome.bind_eq_ok.1 hws
    obtain ⟨rfl, -⟩ := Prod.mk.inj (Outcome.ok.inj hws)
    rw [hwrite id List.mem_cons_self content hcontent] at hw
    obtain rfl := Outcome.ok.inj hw
    obtain ⟨contents, hcontents, rfl⟩ := ih hobjects hws' fun id' hid' => hwrite id' (List.mem_cons_of_mem _ hid')
    refine ⟨content :: contents, ?_, rfl⟩
    rw [D2OReader.contents, hcontent, Outcome.ok_bind, hcontents, Outcome.ok_bind]

/-- Objects that can be written one by one are written one after the other. -/
theorem exists_writeObjects {classes : ClassTable} {objects : List (Int32 × Value)}
    (h : ∀ p ∈ objects, ∃ w, writeObject classes p.2 = .ok w) (position : Nat) :
    ∃ ws index, writeObjects classes position objects = .ok (ws, index) := by
  induction objects generalizing position with
  | nil => exact ⟨[], [], rfl⟩
  | cons p objects ih =>
    obtain ⟨id, value⟩ := p
    obtain ⟨w, hw⟩ := h (id, value) List.mem_cons_self
    obtain ⟨ws, index, hws⟩ := ih (fun p hp => h p (List.mem_cons_of_mem _ hp)) (position + w.length)
    refine ⟨w ++ ws, (id, Int32.ofNat position) :: index, ?_⟩
    dsimp only at hw
    rw [writeObjects, hw, Outcome.ok_bind, hws, Outcome.ok_bind]

/-! ### Saving a file -/

/-- What a file that was written consists of, and what the reader finds in it if it is not too large. -/
theorem fromBytes_writeD2o {data : List UInt8} {reader : D2OReader} {classes : ClassTable}
    {objects : List (Int32 × Value)} {bytes : List UInt8} (hdata : D2OReader.fromBytes data = .ok reader)
    (hclasses : classes.Perm reader.classes.pairs) (hids : objects.map Prod.fst = reader.objectIds)
    (hwrite : writeD2o classes objects = .ok bytes) :
    ∃ ws index table, writeObjects classes 7 objects = .ok (ws, index) ∧
      bytes = d2oBytes ws index classes.length table ∧ index.map Prod.fst = reader.objectIds ∧
      (7 + ws.length < 2 ^ 31 → D2OReader.fromBytes bytes = .ok (writtenReader classes index bytes)) := by
  obtain ⟨ws, index, table, hws, htable, rfl⟩ := writeD2o_eq_ok hwrite
  have hwell := wellFormed_of_fromBytes hdata
  have hindex : index.map Prod.fst = reader.objectIds := (writeObjects_lookup hws).1.trans hids
  have hlength := congrArg List.length hindex
  rw [D2OReader.objectIds, List.length_map, List.length_map] at hlength
  refine ⟨ws, index, table, hws, rfl, hindex, fun hfits => ?_⟩
  exact fromBytes_d2oBytes hfits (by rw [hlength]; exact hwell.indexes)
    (by rw [hclasses.length_eq]; exact hwell.classes) (fun p hp => hwell.classId p (hclasses.mem_iff.1 hp))
    (fun p hp => hwell.valid p (hclasses.mem_iff.1 hp)) htable

/-- An object of a written file is read from what its value was written as. -/
theorem content_written {reader : D2OReader} {classes : ClassTable} {objects : List (Int32 × Value)} {ws : List UInt8}
    {index : List (Int32 × Int32)} {table : List UInt8} (hclasses : classes.Perm reader.classes.pairs)
    (hws : writeObjects classes 7 objects = .ok (ws, index)) (hfits : 7 + ws.length < 2 ^ 31) {id : Int32} {v : Value}
    (hlookup : objects.lookup id = some v) :
    ∃ w offset rest, writeObject classes v = .ok w ∧
      w.length < (d2oBytes ws index classes.length table).length + 1 ∧
      (writtenReader classes index (d2oBytes ws index classes.length table)).content id =
        readObjectContent reader.classes ((d2oBytes ws index classes.length table).length + 1)
          ⟨offset, w ++ rest⟩ >>= fun x => .ok x.1 := by
  obtain ⟨offset, w, hindex, hw, hend, hplace⟩ := (writeObjects_lookup hws).2 id v hlookup
  obtain ⟨rest, hrest⟩ := hplace _ (@prefix_drop_d2oBytes _ index classes.length table)
  have hsize : w.length ≤ (d2oBytes ws index classes.length table).length := by
    have hle := congrArg List.length hrest
    rw [List.length_append, List.length_drop] at hle
    omega
  refine ⟨w, offset, rest, hw, Nat.lt_succ_of_le hsize, ?_⟩
  rw [content_eq rfl hindex (by omega), writtenReader]
  dsimp only
  rw [Cursor.seek, ← hrest, readObjectContent, readObjectContent]
  rw [funext (readContent_congr (HashMap.lookup_ofPairs_perm hclasses) _).1]

/-- Objects that are representable can be saved, as long as the classes of the file leave room in a vector. -/
theorem exists_saveD2o {data : List UInt8} {reader : D2OReader} {classes : ClassTable}
    (hdata : D2OReader.fromBytes data = .ok reader) (hclasses : classes.Perm reader.classes.pairs)
    (hread : ∀ id ∈ reader.objectIds, ∃ content, reader.content id = .ok content) (hsize : data.length < 2 ^ 62)
    (hsurvives : Survives reader classes) : ∃ bytes, saveD2o reader classes = .ok bytes := by
  obtain ⟨objects, hobjects, hall⟩ := exists_snapshot hread
  have hwrite : ∀ id ∈ reader.objectIds, ∀ content, reader.content id = .ok content →
      writeObject classes (content.value reader.classes) = .ok content.encode := fun id hid content hcontent =>
    writeObject_value hclasses (isObject_of_content hcontent).choose_spec
      (hsurvives.representable id hid content hcontent)
  have heach : ∀ p ∈ objects, ∃ w, writeObject classes p.2 = .ok w := by
    intro p hp
    obtain ⟨hid, content, hcontent, hvalue⟩ := hall p hp
    exact ⟨content.encode, by rw [hvalue, hwrite p.1 hid content hcontent]⟩
  obtain ⟨ws, index, hws⟩ := exists_writeObjects heach 7
  obtain ⟨table, htable, hle⟩ := exists_table hdata hclasses
  obtain ⟨contents, hcontents, hencodes⟩ := writeObjects_encodes hobjects hws hwrite
  have hfits : 7 + ws.length < 2 ^ 31 := hencodes ▸ hsurvives.fits contents hcontents
  have hindex := congrArg List.length ((writeObjects_lookup hws).1.trans (snapshot_eq_ok hobjects).1)
  rw [D2OReader.objectIds, List.length_map, List.length_map] at hindex
  have hroom : ¬isizeMax < (d2oBytes ws index classes.length table).length := by
    have hindexes := (wellFormed_of_fromBytes hdata).indexes
    rw [length_d2oBytes, isizeMax]
    omega
  refine ⟨d2oBytes ws index classes.length table, ?_⟩
  rw [saveD2o, hobjects, Outcome.ok_bind, writeD2o_eq hws htable, if_neg hroom]

/-- Saving a file without edits yields a file that keeps its objects if they are representable, and otherwise loses
one of them in whatever file it yields. -/
theorem kept_iff_survives {data : List UInt8} {reader : D2OReader} {classes : ClassTable}
    (hdata : D2OReader.fromBytes data = .ok reader) (hclasses : classes.Perm reader.classes.pairs) :
    ((∀ id ∈ reader.objectIds, ∃ content, reader.content id = .ok content) → data.length < 2 ^ 62 →
      Survives reader classes → ∃ bytes, saveD2o reader classes = .ok bytes ∧ Kept reader bytes) ∧
    ∀ bytes, saveD2o reader classes = .ok bytes → (Survives reader classes → Kept reader bytes) ∧
      ((∀ id ∈ reader.objectIds, ∀ content, reader.content id = .ok content → PlainObjects reader.classes content) →
        bytes.length < 2 ^ 32 → Kept reader bytes → Survives reader classes) := by
  have hsaved : ∀ bytes, saveD2o reader classes = .ok bytes → (Survives reader classes → Kept reader bytes) ∧
      ((∀ id ∈ reader.objectIds, ∀ content, reader.content id = .ok content → PlainObjects reader.classes content) →
        bytes.length < 2 ^ 32 → Kept reader bytes → Survives reader classes) := by
    intro bytes hsave
    obtain ⟨objects, hobjects, hwriteD2o⟩ := Outcome.bind_eq_ok.1 hsave
    obtain ⟨ws, index, table, hws, rfl, hids, hread⟩ :=
      fromBytes_writeD2o hdata hclasses (snapshot_eq_ok hobjects).1 hwriteD2o
    have hwrite : (∀ id ∈ reader.objectIds, ∀ content, reader.content id = .ok content →
        Representable classes content) → ∀ id ∈ reader.objectIds, ∀ content, reader.content id = .ok content →
          writeObject classes (content.value reader.classes) = .ok content.encode :=
      fun hrep id hid content hcontent =>
        writeObject_value hclasses (isObject_of_content hcontent).choose_spec (hrep id hid content hcontent)
    constructor
    · intro hsurvives
      obtain ⟨contents, hcontents, rfl⟩ := writeObjects_encodes hobjects hws (hwrite hsurvives.representable)
      have hfits := hsurvives.fits contents hcontents
      refine ⟨_, hread hfits, HashMap.lookup_ofPairs_perm hclasses, hids, fun id hid => ?_⟩
      obtain ⟨content, hcontent, hlookup⟩ := snapshot_empty hobjects hid
      obtain ⟨w, offset, rest, hw, hlength, hsaved⟩ := @content_written _ _ _ _ _ table hclasses hws hfits _ _ hlookup
      obtain ⟨classId, hobject⟩ := isObject_of_content hcontent
      obtain rfl := Outcome.ok.inj (hw.symm.trans (hwrite hsurvives.representable id hid content hcontent))
      rw [hsaved, reads_objectContent hobject hlength offset rest, Outcome.ok_bind, hcontent]
    · intro hplain hsize hkept
      obtain ⟨reader', hreader', -, -, hkept⟩ := hkept
      have hfits := fits_of_fromBytes hsize hreader'
      obtain rfl := Outcome.ok.inj (hreader'.symm.trans (hread hfits))
      have hrep : ∀ id ∈ reader.objectIds, ∀ content, reader.content id = .ok content →
          Representable classes content := by
        intro id hid content hcontent
        obtain ⟨content', hcontent', hlookup⟩ := snapshot_empty hobjects hid
        obtain rfl := Outcome.ok.inj (hcontent.symm.trans hcontent')
        obtain ⟨w, offset, rest, hw, hlength, hsaved⟩ :=
          @content_written _ _ _ _ _ table hclasses hws hfits _ _ hlookup
        rw [hkept id hid, hcontent] at hsaved
        obtain ⟨⟨content', c'⟩, hreadContent, hsame⟩ := Outcome.bind_eq_ok.1 hsaved.symm
        obtain rfl := Outcome.ok.inj hsame
        exact representable_of_readObjectContent hclasses (isObject_of_content hcontent).choose_spec
          (hplain id hid content' hcontent) hw hlength hreadContent
      refine ⟨hrep, fun contents hcontents => ?_⟩
      obtain ⟨contents', hcontents', rfl⟩ := writeObjects_encodes hobjects hws (hwrite hrep)
      obtain rfl := Outcome.ok.inj (hcontents.symm.trans hcontents')
      exact hfits
  refine ⟨fun hread hsize hsurvives => ?_, hsaved⟩
  obtain ⟨bytes, hbytes⟩ := exists_saveD2o hdata hclasses hread hsize hsurvives
  exact ⟨bytes, hbytes, (hsaved bytes hbytes).1 hsurvives⟩

def messageClass : D2OClassDef where
  classId := 1
  name := "Message"
  package := "data"
  fields := [{ name := "text", fieldType := .string }]

def messageTable : List UInt8 :=
  writeInt 1 ++ (writeUtf "Message" ++ (writeUtf "data" ++ (writeInt 1 ++ (writeUtf "text" ++ writeInt (-3)))))

/-- A file with one message. -/
def messageFile (text : List UInt8) : List UInt8 :=
  d2oBytes (Content.encode (.object 1 [.string text])) [(5, 7)] 1 messageTable

theorem fromBytes_messageFile : D2OReader.fromBytes (messageFile [104, 105]) =
    .ok (writtenReader [(1, messageClass)] [(5, 7)] (messageFile [104, 105])) := by
  have hvalid : messageClass.Valid := ⟨by decide, fun field hfield => by
    obtain rfl := List.mem_singleton.1 hfield
    trivial⟩
  have htable : writeEach writeClassDef [(1, messageClass)] = .ok messageTable := by decide +kernel
  have hread := @fromBytes_d2oBytes (Content.encode (.object 1 [.string [104, 105]])) [(5, 7)] messageTable
    [(1, messageClass)] (by decide) (by decide) (by decide)
    (fun p hp => by
      obtain rfl := List.mem_singleton.1 hp
      rfl)
    (fun p hp => by
      obtain rfl := List.mem_singleton.1 hp
      exact hvalid) htable
  exact hread

/-- A message of two letters is saved and kept. -/
theorem message_kept : ∃ reader bytes, D2OReader.fromBytes (messageFile [104, 105]) = .ok reader ∧
    saveD2o reader reader.classes.pairs = .ok bytes ∧ (Kept reader bytes ↔ Survives reader reader.classes.pairs) ∧
    Kept reader bytes := by
  have hcontent : (writtenReader [(1, messageClass)] [(5, 7)] (messageFile [104, 105])).content 5 =
      .ok (.object 1 [.string [104, 105]]) := by rfl
  have hread := fromBytes_messageFile
  have hplain : messageClass.Plain := ⟨by decide, by decide⟩
  have hclass : (writtenReader [(1, messageClass)] [(5, 7)] (messageFile [104, 105])).classes.lookup 1 =
      some messageClass := by decide +kernel
  have hids : (writtenReader [(1, messageClass)] [(5, 7)] (messageFile [104, 105])).objectIds = [5] := rfl
  have hone : ∀ id ∈ (writtenReader [(1, messageClass)] [(5, 7)] (messageFile [104, 105])).objectIds, ∀ content,
      (writtenReader [(1, messageClass)] [(5, 7)] (messageFile [104, 105])).content id = .ok content →
        content = .object 1 [.string [104, 105]] := by
    intro id hid content h
    rw [hids] at hid
    obtain rfl := List.mem_singleton.1 hid
    exact (Outcome.ok.inj (hcontent.symm.trans h)).symm
  obtain ⟨hyields, hsaves⟩ := kept_iff_survives hread (List.Perm.refl _)
  have h : Survives (writtenReader [(1, messageClass)] [(5, 7)] (messageFile [104, 105]))
      (writtenReader [(1, messageClass)] [(5, 7)] (messageFile [104, 105])).classes.pairs := by
    constructor
    · intro id hid content hc
      obtain rfl := hone id hid content hc
      refine .object (show findClass _ messageClass.name = some (1, messageClass) from rfl) hplain fun c hc => ?_
      obtain rfl := List.mem_singleton.1 hc
      exact .string (by decide +kernel)
    · intro contents hcontents
      rw [hids, D2OReader.contents, hcontent] at hcontents
      obtain rfl := Outcome.ok.inj hcontents
      decide
  have hreadable : ∀ id ∈ (writtenReader [(1, messageClass)] [(5, 7)] (messageFile [104, 105])).objectIds,
      ∃ content, (writtenReader [(1, messageClass)] [(5, 7)] (messageFile [104, 105])).content id = .ok content := by
    intro id hid
    rw [hids] at hid
    obtain rfl := List.mem_singleton.1 hid
    exact ⟨_, hcontent⟩
  have hsave : saveD2o (writtenReader [(1, messageClass)] [(5, 7)] (messageFile [104, 105]))
      (writtenReader [(1, messageClass)] [(5, 7)] (messageFile [104, 105])).classes.pairs =
        .ok (messageFile [104, 105]) := by decide +kernel
  obtain ⟨bytes, hbytes, hkept⟩ := hyields hreadable (by decide) h
  obtain rfl := Outcome.ok.inj (hsave.symm.trans hbytes)
  obtain ⟨hkeeps, hsurvives⟩ := hsaves _ hsave
  refine ⟨_, _, hread, hsave, ⟨hsurvives (fun id hid content hc => ?_) (by decide), hkeeps⟩, hkept⟩
  obtain rfl := hone id hid content hc
  refine .object hclass hplain fun c hc => ?_
  obtain rfl := List.mem_singleton.1 hc
  exact .string _

/-- A message whose byte is not UTF-8 is replaced by a note, and no error is reported. -/
theorem message_replaced : ¬∀ data reader bytes, D2OReader.fromBytes data = .ok reader →
    saveD2o reader reader.classes.pairs = .ok bytes → Kept reader bytes := by
  intro h
  have hrun : (D2OReader.fromBytes (messageFile [255]) >>= fun reader =>
      saveD2o reader reader.classes.pairs >>= fun bytes =>
      D2OReader.fromBytes bytes >>= fun reader' =>
      reader.content 5 >>= fun content =>
      reader'.content 5 >>= fun content' =>
      .ok (reader.objectIds, content.encode.length, content'.encode.length)) = .ok ([5], 7, 29) := by decide +kernel
  obtain ⟨reader, hreader, hrun⟩ := Outcome.bind_eq_ok.1 hrun
  obtain ⟨bytes, hbytes, hrun⟩ := Outcome.bind_eq_ok.1 hrun
  obtain ⟨reader', hreader', hrun⟩ := Outcome.bind_eq_ok.1 hrun
  obtain ⟨content, hcontent, hrun⟩ := Outcome.bind_eq_ok.1 hrun
  obtain ⟨content', hcontent', hrun⟩ := Outcome.bind_eq_ok.1 hrun
  obtain ⟨hids, hlength⟩ := Prod.mk.inj (Outcome.ok.inj hrun)
  obtain ⟨saved, hsaved, -, -, hkept⟩ := h _ reader bytes hreader hbytes
  obtain rfl := Outcome.ok.inj (hreader'.symm.trans hsaved)
  have hsame := hkept 5 (by rw [hids]; exact List.mem_singleton_self 5)
  rw [hcontent, hcontent'] at hsame
  obtain rfl := Outcome.ok.inj hsame
  rw [Prod.mk.injEq] at hlength
  omega

end Otomai.DataReader
