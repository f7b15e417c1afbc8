import Otomai.DataReader.Editor

/-!
# Edits that are not lost

Along runs of the editor in which nothing disturbs a save between the moment it collects the objects and the moment it
drops the edits, every update that was answered with ok is pending or contained in the file.

* `Allowed`: what may happen next.
* `NothingLost`: every update is pending or contained in the file on disk.
* `inv_step`: what every step preserves.
* `nothing_lost`: after every request of such a run nothing is lost.
-/

namespace Otomai.DataReader

open Wire Trace BigEndianReader BigEndianWriter

/-! ### Objects and what they say -/

/-- The classes have distinct names, distinct field names other than `_class`, and ids other than the mark of null. -/
structure PlainTable (table : HashMap Int32 D2OClassDef) : Prop where
  plain : ∀ p ∈ table.pairs, p.2.Plain
  names : (table.pairs.map fun p => p.2.name).Nodup
  marker : table.lookup nullObjectMarker = none

/-- Where names are distinct, a class is found under its name in every order of the iteration. -/
theorem findClass_of_mem {classes : ClassTable} (hnodup : (classes.map fun p => p.2.name).Nodup)
    {p : Int32 × D2OClassDef} (hp : p ∈ classes) : findClass classes p.2.name = some p := by
  unfold findClass
  induction classes with
  | nil => exact absurd hp List.not_mem_nil
  | cons q classes ih =>
    rw [List.map_cons, List.nodup_cons] at hnodup
    rw [List.find?_cons]
    rcases List.mem_cons.1 hp with rfl | hp
    · rw [decide_eq_true rfl]
    · have hne : q.2.name ≠ p.2.name := fun h => hnodup.1 (List.mem_map.2 ⟨p, hp, h.symm⟩)
      rw [decide_eq_false hne]
      exact ih hnodup.2 hp

section

variable {classes : ClassTable} {table : HashMap Int32 D2OClassDef} {fieldType : D2OFieldType} {content : Content}
  {v : Value}

theorem hasType_of_represents (h : Represents table fieldType content v) : HasType table fieldType content := by
  induction h with
  | string hfits => exact .string hfits
  | nullString => exact .string (show (asBytes "null").length < 2 ^ 16 by decide)
  | vector hlength hcount hitems ih =>
    refine .vector hcount fun c hc => ?_
    obtain ⟨u, hu⟩ := exists_mem_zip_right hlength hc
    exact ih _ hu
  | null declared => exact .null declared
  | object hmarker hclass hname hlength hkeys hpresent hfields ih =>
    refine .object hmarker hclass hlength fun p hp => ?_
    obtain ⟨u, hu⟩ := Option.isSome_iff_exists.1 (hpresent p.1 (List.of_mem_zip hp).1)
    exact ih p hp u hu
  | _ => constructor

/-- What JSON says is representable with plain classes. -/
theorem representable_of_represents (hplain : PlainTable table) (hclasses : classes.Perm table.pairs)
    (h : Represents table fieldType content v) : Representable classes content := by
  have hnames : (classes.map fun p => p.2.name).Nodup := (hclasses.map _).nodup_iff.2 hplain.names
  induction h with
  | string hfits =>
    refine .string ?_
    rw [fromUTF8?_asBytes]
    rfl
  | nullString =>
    refine .string ?_
    rw [fromUTF8?_asBytes]
    rfl
  | number hbits hfinite hexact => exact .number hfinite
  | vector hlength hcount hitems ih =>
    refine .vector fun c hc => ?_
    obtain ⟨u, hu⟩ := exists_mem_zip_right hlength hc
    exact ih _ hu
  | object hmarker hclass hname hlength hkeys hpresent hfields ih =>
    rename_i declared classId classDef fields v
    have hmem : (classId, classDef) ∈ table.pairs := HashMap.lookup_eq_some.1 hclass
    refine .object (findClass_of_mem hnames (hclasses.mem_iff.2 hmem)) (hplain.plain _ hmem) fun c hc => ?_
    obtain ⟨field, hfield⟩ := exists_mem_zip_right hlength hc
    obtain ⟨u, hu⟩ := Option.isSome_iff_exists.1 (hpresent field (List.of_mem_zip hfield).1)
    exact ih _ hfield u hu
  | _ => constructor

end

/-! ### Conditions -/

/-- The object is one that the classes can hold, or one that the writer refuses in every order of the classes. -/
def Writable (table : HashMap Int32 D2OClassDef) (v : Value) : Prop :=
  (∃ classId fields, Represents table (.object 0) (.object classId fields) v) ∨
    ∀ classes : ClassTable, classes.Perm table.pairs → ∀ w, writeObject classes v ≠ .ok w

/-- The request has collected the objects and has not yet dropped the edits. -/
def Save.busy : Save → Bool
  | collected _ | copied _ | opened _ | written _ | uncached _ => true
  | _ => false

/-- The request has been answered. -/
def Save.finished : Save → Bool
  | saved _ | failed _ | panicked => true
  | _ => false

/-- No request is between collecting the objects and dropping the edits. -/
def Editor.Quiet (s : Editor) : Prop := ∀ save ∈ s.saves, save.busy = false

/-- An update comes while no save is busy, and brings an object that the file can hold for an id of its index; a save
collects the objects while no other one is busy, and they fit a file of thirty-one bits; the opened file is filled. -/
def Allowed (s : Editor) : EditorEvent → Prop
  | .update id body => s.Quiet ∧ ∀ obj, body.get? "object" = some obj → ∃ data reader, s.state.disk = some data ∧
      D2OReader.fromBytes data = .ok reader ∧ id ∈ reader.objectIds ∧ Writable reader.classes obj
  | .save => True
  | .proceed i surroundings => ∀ save, s.saves[i]? = some save →
    match save with
    | .loaded => ∀ reader, s.state.d2oCache = some reader → s.Quiet ∧ ∀ objects ws index,
        snapshot reader s.state.d2oEdits reader.objectIds = .ok objects →
        writeObjects (surroundings.classes reader) 7 objects = .ok (ws, index) → 7 + ws.length < 2 ^ 31
    | .opened _ => surroundings.fails = false
    | _ => True

/-- A request is answered by the step. -/
def Completes (s : Editor) : EditorEvent → Prop
  | .update _ _ => True
  | .save => False
  | .proceed i surroundings => ∃ save, s.saves[i]? = some save ∧ save.finished = false ∧
      (s.state.saveD2oFile surroundings save).2.finished = true

/-- The file holds the object under the id. -/
def Says (data : List UInt8) (id : Int32) (v : Value) : Prop :=
  ∃ reader classId fields, D2OReader.fromBytes data = .ok reader ∧ reader.content id = .ok (.object classId fields) ∧
    Represents reader.classes (.object 0) (.object classId fields) v

/-- The latest value of every update is pending, or a save that was answered with ok has written it and the file on
disk holds it; and the id is one of the file on disk, so that it can be saved. -/
def NothingLost (s : Editor) : Prop :=
  ∀ id v, s.answered.lookup id = some v →
    (s.state.d2oEdits.lookup id = some v ∨
      (∃ bytes, .saved bytes ∈ s.saves ∧ Says bytes id v) ∧ ∃ bytes, s.state.disk = some bytes ∧ Says bytes id v) ∧
    ∃ bytes reader, s.state.disk = some bytes ∧ D2OReader.fromBytes bytes = .ok reader ∧ id ∈ reader.objectIds

/-! ### Collecting the objects -/

/-- The reader reads a file with the classes and the ids of the first one. -/
structure Describes (first reader : D2OReader) : Prop where
  classes : reader.classes.pairs.Perm first.classes.pairs
  ids : reader.objectIds = first.objectIds

section

variable {first reader : D2OReader}

theorem represents_congr {table table' : HashMap Int32 D2OClassDef}
    (hsame : ∀ classId, table'.lookup classId = table.lookup classId) {fieldType : D2OFieldType} {content : Content}
    {v : Value} (h : Represents table fieldType content v) : Represents table' fieldType content v := by
  induction h with
  | object hmarker hclass hname hlength hkeys hpresent hfields ih =>
    exact .object hmarker ((hsame _).trans hclass) hname hlength hkeys hpresent ih
  | vector hlength hcount hitems ih => exact .vector hlength hcount ih
  | int h => exact .int h
  | bool b => exact .bool b
  | string h => exact .string h
  | nullString => exact .nullString
  | number h hfinite hexact => exact .number h hfinite hexact
  | i18n h => exact .i18n h
  | uint h => exact .uint h
  | null declared => exact .null declared

/-- The reader finds the object under the id. -/
def Holds (reader : D2OReader) (id : Int32) (v : Value) : Prop :=
  ∃ classId fields, reader.content id = .ok (.object classId fields) ∧
    Represents reader.classes (.object 0) (.object classId fields) v

/-- An object that JSON says is written. -/
theorem writeObject_of_represents {classes : ClassTable} {table : HashMap Int32 D2OClassDef}
    (hplain : PlainTable table) (hclasses : classes.Perm table.pairs) {declared classId : Int32}
    {fields : List Content}
    {v : Value} (h : Represents table (.object declared) (.object classId fields) v) :
    writeObject classes v = .ok (Content.encode (.object classId fields)) ∧
      IsObject table classId (.object classId fields) := by
  have hrep := representable_of_represents hplain hclasses h
  have htype := hasType_of_represents h
  cases h with
  | object hmarker hclass hname hlength hkeys hpresent hfields =>
    refine ⟨writeObject_eq_ok hclasses hrep hclass hname hlength fun p hp => ?_, ?_⟩
    · obtain ⟨u, hu⟩ := Option.isSome_iff_exists.1 (hpresent p.1 (List.of_mem_zip hp).1)
      exact ⟨u, hu, hfields p hp u hu⟩
    · cases htype with
      | object _ hclass' hlength' htypes => exact ⟨_, fields, hclass', rfl, hlength', htypes⟩

/-- What is collected and written holds the pending objects, and the objects that the file held before. -/
theorem holds_of_collected {data : List UInt8} {edits : HashMap Int32 Value} {objects : List (Int32 × Value)}
    {classes : ClassTable} {bytes : List UInt8} (hread : D2OReader.fromBytes data = .ok reader)
    (hplain : PlainTable reader.classes) (hclasses : classes.Perm reader.classes.pairs)
    (hobjects : snapshot reader edits reader.objectIds = .ok objects) (hwrite : writeD2o classes objects = .ok bytes)
    (hfits : ∀ ws index, writeObjects classes 7 objects = .ok (ws, index) → 7 + ws.length < 2 ^ 31) :
    ∃ reader', D2OReader.fromBytes bytes = .ok reader' ∧ Describes reader reader' ∧
      ∀ id ∈ reader.objectIds, ∀ v,
        (edits.lookup id = some v ∧ Writable reader.classes v) ∨ (edits.lookup id = none ∧ Holds reader id v) →
        Holds reader' id v := by
  obtain ⟨hids, hall⟩ := snapshot_eq_ok hobjects
  obtain ⟨ws, index, table, hws, rfl, hindex, hsaved⟩ := fromBytes_writeD2o hread hclasses hids hwrite
  have hperm : (writtenReader classes index (d2oBytes ws index classes.length table)).classes.pairs.Perm
      reader.classes.pairs := HashMap.pairs_ofPairs_perm hclasses
  refine ⟨_, hsaved (hfits ws index hws), ⟨hperm, hindex⟩, fun id hid v hv => ?_⟩
  -- the value that is written for the id, and a content that says both this value and the wanted one
  have hvalue : ∃ u, objects.lookup id = some u ∧ ∀ w, writeObject classes u = .ok w → ∃ classId fields,
      Represents reader.classes (.object 0) (.object classId fields) u ∧
      Represents reader.classes (.object 0) (.object classId fields) v := by
    rcases hv with ⟨hedit, ⟨classId, fields, h⟩ | hrefused⟩ | ⟨hedit, classId, fields, hcontent, h⟩
    · exact ⟨v, (hall id hid).1 v hedit, fun _ _ => ⟨classId, fields, h, h⟩⟩
    · exact ⟨v, (hall id hid).1 v hedit, fun w hw => absurd hw (hrefused classes hclasses w)⟩
    · obtain ⟨u, hu, hlookup⟩ := (hall id hid).2 hedit
      rw [readObject_eq, hcontent, Outcome.ok_bind] at hu
      obtain rfl := Outcome.ok.inj hu
      exact ⟨_, hlookup, fun _ _ => ⟨classId, fields, represents_value hclasses (hasType_of_represents h)
        (representable_of_represents hplain hclasses h), h⟩⟩
  obtain ⟨u, hlookup, hsays⟩ := hvalue
  obtain ⟨w, offset, rest, hw, hlength, hcontent⟩ :=
    @content_written _ _ _ _ _ table hclasses hws (hfits ws index hws) _ _ hlookup
  obtain ⟨classId, fields, hu, hv⟩ := hsays w hw
  obtain ⟨hw', hobject⟩ := writeObject_of_represents hplain hclasses hu
  obtain rfl := Outcome.ok.inj (hw.symm.trans hw')
  refine ⟨classId, fields, ?_, represents_congr (HashMap.lookup_of_perm hperm) hv⟩
  rw [hcontent, reads_objectContent hobject hlength offset rest, Outcome.ok_bind]

end

/-! ### The invariant -/

section

variable {first : D2OReader}

/-- The file holds every update that is not pending. -/
def FileOk (first : D2OReader) (edits : HashMap Int32 Value) (answered : List (Int32 × Value)) (data : List UInt8) :
    Prop :=
  ∃ reader, D2OReader.fromBytes data = .ok reader ∧ Describes first reader ∧
    ∀ id v, answered.lookup id = some v → edits.lookup id = some v ∨ Holds reader id v

/-- What a file without pending edits holds can be read from it. -/
theorem FileOk.says {answered : List (Int32 × Value)} {data : List UInt8} (h : FileOk first ∅ answered data)
    {id : Int32} {v : Value} (hv : answered.lookup id = some v) : Says data id v := by
  obtain ⟨reader, hread, -, hall⟩ := h
  obtain ⟨classId, fields, hcontent, hsays⟩ := (hall id v hv).resolve_left nofun
  exact ⟨reader, classId, fields, hread, hcontent, hsays⟩

namespace AppState

/-- What is cached is what is on disk. -/
def CacheOk (state : AppState) : Prop :=
  ∀ reader, state.d2oCache = some reader → ∃ data, state.disk = some data ∧ D2OReader.fromBytes data = .ok reader

def DiskOk (first : D2OReader) (state : AppState) (answered : List (Int32 × Value)) : Prop :=
  ∃ data, state.disk = some data ∧ FileOk first state.d2oEdits answered data

/-- The file is cached, and its mutex can be taken. -/
def Alive (state : AppState) : Prop := state.cachePoisoned = false ∧ state.d2oCache ≠ none

/-- What is known of the state while a save has come this far. -/
def Inv (first : D2OReader) (state : AppState) (answered : List (Int32 × Value)) : Save → Prop
  | .collected bytes | .copied bytes =>
    FileOk first ∅ answered bytes ∧ state.DiskOk first answered ∧ state.CacheOk ∧ state.Alive
  | .opened bytes => FileOk first ∅ answered bytes ∧ state.disk = some [] ∧ state.Alive
  | .written bytes => FileOk first ∅ answered bytes ∧ state.disk = some bytes ∧ state.Alive
  | .uncached bytes => FileOk first ∅ answered bytes ∧ state.disk = some bytes ∧ state.CacheOk
  | _ => state.DiskOk first answered ∧ state.CacheOk

variable {state state' : AppState} {answered : List (Int32 × Value)} {current : Save}

theorem inv_of_not_busy (h : current.busy = false) :
    state.Inv first answered current ↔ state.DiskOk first answered ∧ state.CacheOk := by
  cases current <;> first | exact Iff.rfl | cases h

/-- Where no save can depend on the cache, the cache and the mutexes may change. -/
theorem Inv.of_not_alive (h : state.Inv first answered current) (hdead : current.busy = true → ¬state.Alive)
    (hdisk : state'.disk = state.disk) (hedits : state'.d2oEdits = state.d2oEdits)
    (hcache : state.CacheOk → state'.CacheOk) : state'.Inv first answered current := by
  have hdiskOk : state.DiskOk first answered → state'.DiskOk first answered := by
    rintro ⟨data, hdata, hfile⟩
    exact ⟨data, hdisk.trans hdata, by rwa [hedits]⟩
  cases current with
  | collected bytes => exact absurd h.2.2.2 (hdead rfl)
  | copied bytes => exact absurd h.2.2.2 (hdead rfl)
  | opened bytes => exact absurd h.2.2 (hdead rfl)
  | written bytes => exact absurd h.2.2 (hdead rfl)
  | uncached bytes => exact ⟨h.1, hdisk.trans h.2.1, hcache h.2.2⟩
  | _ => exact ⟨hdiskOk h.1, hcache h.2⟩

/-- Unless the file is about to be filled, it holds every update that is not pending. -/
theorem Inv.diskOk (h : state.Inv first answered current) (hopened : ∀ bytes, current ≠ .opened bytes) :
    state.DiskOk first answered := by
  have hweaken : ∀ {bytes}, FileOk first ∅ answered bytes → FileOk first state.d2oEdits answered bytes := by
    rintro bytes ⟨reader, hread, hdescribes, hall⟩
    exact ⟨reader, hread, hdescribes, fun id v hv => .inr ((hall id v hv).resolve_left nofun)⟩
  cases current with
  | collected bytes => exact h.2.1
  | copied bytes => exact h.2.1
  | opened bytes => exact absurd rfl (hopened bytes)
  | written bytes => exact ⟨bytes, h.2.1, hweaken h.1⟩
  | uncached bytes => exact ⟨bytes, h.2.1, hweaken h.1⟩
  | _ => exact h.1

/-! ### What the sections do -/

/-- An update that is answered with ok changes the edits only. -/
theorem updateD2oObject_eq_some {state : AppState} {id : Int32} {body : Value} {next : AppState × Value}
    (h : state.updateD2oObject id body = some next) :
    body.get? "object" = some next.2 ∧ next.1 = { state with d2oEdits := state.d2oEdits.insert id next.2 } := by
  unfold updateD2oObject at h
  split at h
  · cases h
  rename_i obj hbody
  split at h
  · cases h
  obtain rfl := Option.some.inj h
  exact ⟨hbody, rfl⟩

/-- Loading fills an empty cache from the file, or finds it full, or fails. -/
theorem ensureD2oLoaded_cases (state : AppState) (surroundings : Surroundings) :
    (∀ bytes, (state.ensureD2oLoaded surroundings).2 ≠ .saved bytes) ∧
    (state.ensureD2oLoaded surroundings).2.busy = false ∧
    (state.ensureD2oLoaded surroundings).1.disk = state.disk ∧
    (state.ensureD2oLoaded surroundings).1.d2oEdits = state.d2oEdits ∧
    (state.CacheOk → (state.ensureD2oLoaded surroundings).1.CacheOk) ∧
    (state.Alive → (state.ensureD2oLoaded surroundings) = (state, .loaded)) := by
  unfold ensureD2oLoaded
  split
  · rename_i hpoisoned
    refine ⟨nofun, rfl, rfl, rfl, id, fun halive => ?_⟩
    rw [halive.1] at hpoisoned
    cases hpoisoned
  split
  · exact ⟨nofun, rfl, rfl, rfl, id, fun _ => rfl⟩
  rename_i hcache
  split
  · exact ⟨nofun, rfl, rfl, rfl, id, fun halive => absurd hcache halive.2⟩
  rename_i data hdata
  split
  · rename_i reader hread
    refine ⟨nofun, rfl, rfl, rfl, fun _ reader' hreader' => ?_, fun halive => absurd hcache halive.2⟩
    obtain rfl := Option.some.inj hreader'
    split at hdata
    · cases hdata
    · exact ⟨data, hdata, hread⟩
  · exact ⟨nofun, rfl, rfl, rfl, id, fun halive => absurd hcache halive.2⟩
  · exact ⟨nofun, rfl, rfl, rfl, id, fun halive => absurd hcache halive.2⟩

theorem copy_cases (state : AppState) (surroundings : Surroundings) (bytes : List UInt8) :
    state.copy surroundings bytes = (state, .failed .backup) ∨
      state.copy surroundings bytes = (state, .copied bytes) := by
  unfold copy
  split
  · exact .inl rfl
  · exact .inr rfl

/-- Collecting the objects gives the bytes of a file, or fails and leaves the file, the cache and the edits as they
are. -/
theorem collect_cases (state : AppState) (surroundings : Surroundings) :
    (∃ reader objects bytes, state.Alive ∧ state.d2oCache = some reader ∧
      snapshot reader state.d2oEdits reader.objectIds = .ok objects ∧
      writeD2o (surroundings.classes reader) objects = .ok bytes ∧
      state.collect surroundings = (state, .collected bytes)) ∨
    ((∀ bytes, (state.collect surroundings).2 ≠ .saved bytes) ∧ (state.collect surroundings).2.busy = false ∧
      (state.collect surroundings).1.disk = state.disk ∧
      (state.collect surroundings).1.d2oEdits = state.d2oEdits ∧
      (state.collect surroundings).1.d2oCache = state.d2oCache) := by
  unfold collect
  split
  · exact .inr ⟨nofun, rfl, rfl, rfl, rfl⟩
  rename_i hpoisoned
  split
  · exact .inr ⟨nofun, rfl, rfl, rfl, rfl⟩
  rename_i reader hcache
  split
  · exact .inr ⟨nofun, rfl, rfl, rfl, rfl⟩
  split
  · rename_i objects hobjects
    split
    · rename_i bytes hbytes
      refine .inl ⟨reader, objects, bytes, ⟨Bool.eq_false_of_not_eq_true hpoisoned, ?_⟩, hcache,
        hobjects, hbytes, rfl⟩
      rw [hcache]
      exact Option.some_ne_none reader
    · exact .inr ⟨nofun, rfl, rfl, rfl, rfl⟩
    · exact .inr ⟨nofun, rfl, rfl, rfl, rfl⟩
  · exact .inr ⟨nofun, rfl, rfl, rfl, rfl⟩
  · exact .inr ⟨nofun, rfl, rfl, rfl, rfl⟩

end AppState

end

/-! ### Steps -/

/-- What is known of the editor, of whose saves only the one at `i` may be busy. -/
structure Editor.Inv (first : D2OReader) (s : Editor) (i : Nat) (current : Save) : Prop where
  pending : ∀ id v, s.state.d2oEdits.lookup id = some v → s.answered.lookup id = some v
  allowed : ∀ id v, s.answered.lookup id = some v → id ∈ first.objectIds ∧ Writable first.classes v
  confirmed : ∀ id v, s.answered.lookup id = some v →
    s.state.d2oEdits.lookup id = some v ∨ ∃ bytes, .saved bytes ∈ s.saves ∧ Says bytes id v
  only : ∀ j save, s.saves[j]? = some save → save.busy = true → j = i ∧ save = current
  listed : current.busy = true → s.saves[i]? = some current
  state : s.state.Inv first s.answered current

section

variable {first : D2OReader} {s : Editor} {i : Nat} {current : Save}

theorem Editor.Inv.not_busy (h : s.Inv first i current) (hquiet : s.Quiet) : current.busy = false := by
  by_contra hbusy
  have hbusy := Bool.eq_true_of_not_eq_false hbusy
  have hfalse := hquiet current (List.mem_of_getElem? (h.listed hbusy))
  rw [hbusy] at hfalse
  cases hfalse

theorem mem_set_saved {saves : List Save} {j : Nat} {save save' : Save} (hj : saves[j]? = some save)
    (hkeep : ∀ bytes, save = .saved bytes → save' = .saved bytes) {bytes : List UInt8} (h : .saved bytes ∈ saves) :
    .saved bytes ∈ saves.set j save' := by
  obtain ⟨k, hk⟩ := List.mem_iff_getElem?.1 h
  by_cases hjk : j = k
  · subst hjk
    obtain rfl := Option.some.inj (hj.symm.trans hk)
    obtain rfl := hkeep bytes rfl
    exact List.mem_of_getElem? (List.getElem?_set_self (List.getElem?_eq_some_iff.1 hj).1)
  · refine List.mem_of_getElem? (i := k) ?_
    rw [List.getElem?_set_ne hjk]
    exact hk

/-- A save that goes on while another one may be busy. -/
theorem Editor.Inv.other (h : s.Inv first i current) {j : Nat} {save save' : Save} (hj : s.saves[j]? = some save)
    (hsave : save.busy = false) (hsave' : save'.busy = false)
    (hkeep : ∀ bytes, save = .saved bytes → save' = .saved bytes)
    {state' : AppState} (hedits : state'.d2oEdits = s.state.d2oEdits)
    (hstate : state'.Inv first s.answered current) :
    Editor.Inv first { s with state := state', saves := s.saves.set j save' } i current where
  pending := by
    dsimp only
    rw [hedits]
    exact h.pending
  allowed := h.allowed
  confirmed := by
    intro id v hv
    dsimp only at hv ⊢
    rw [hedits]
    rcases h.confirmed id v hv with hpending | ⟨bytes, hbytes, hsays⟩
    · exact .inl hpending
    · exact .inr ⟨bytes, mem_set_saved hj hkeep hbytes, hsays⟩
  only := by
    intro k save'' hk hbusy
    dsimp only at hk
    by_cases hjk : j = k
    · subst hjk
      rw [List.getElem?_set_self (List.getElem?_eq_some_iff.1 hj).1] at hk
      obtain rfl := Option.some.inj hk
      rw [hsave'] at hbusy
      cases hbusy
    · rw [List.getElem?_set_ne hjk] at hk
      exact h.only k save'' hk hbusy
  listed := by
    intro hbusy
    have hi := h.listed hbusy
    by_cases hji : j = i
    · subst hji
      obtain rfl := Option.some.inj (hj.symm.trans hi)
      rw [hsave] at hbusy
      cases hbusy
    · dsimp only
      rw [List.getElem?_set_ne hji]
      exact hi
  state := hstate

/-- A save that is busy, or becomes busy while no other one is. -/
theorem Editor.Inv.own (h : s.Inv first i current) {j : Nat} {save save' : Save} (hj : s.saves[j]? = some save)
    (hsave : save.busy = true ∨ current.busy = false) (hkeep : ∀ bytes, save ≠ .saved bytes) {state' : AppState}
    (hpending : ∀ id v, state'.d2oEdits.lookup id = some v → s.state.d2oEdits.lookup id = some v)
    (hconfirmed : ∀ id v, s.answered.lookup id = some v → s.state.d2oEdits.lookup id = some v →
      state'.d2oEdits.lookup id = some v ∨ ∃ bytes, save' = .saved bytes ∧ Says bytes id v)
    (hstate : state'.Inv first s.answered save') :
    Editor.Inv first { s with state := state', saves := s.saves.set j save' } j save' where
  pending := fun id v hv => h.pending id v (hpending id v hv)
  allowed := h.allowed
  confirmed := by
    intro id v hv
    have hself : (s.saves.set j save')[j]? = some save' := List.getElem?_set_self (List.getElem?_eq_some_iff.1 hj).1
    rcases h.confirmed id v hv with hedit | ⟨bytes, hbytes, hsays⟩
    · rcases hconfirmed id v hv hedit with hedit' | ⟨bytes, rfl, hsays⟩
      · exact .inl hedit'
      · exact .inr ⟨bytes, List.mem_of_getElem? hself, hsays⟩
    · exact .inr ⟨bytes, mem_set_saved hj (fun bytes' h' => absurd h' (hkeep bytes')) hbytes, hsays⟩
  only := by
    intro k save'' hk hbusy
    dsimp only at hk
    by_cases hjk : j = k
    · subst hjk
      rw [List.getElem?_set_self (List.getElem?_eq_some_iff.1 hj).1] at hk
      exact ⟨rfl, (Option.some.inj hk).symm⟩
    · rw [List.getElem?_set_ne hjk] at hk
      obtain ⟨rfl, rfl⟩ := h.only k save'' hk hbusy
      rcases hsave with hsave | hquiet
      · exact absurd (h.only j save hj hsave).1 hjk
      · rw [hquiet] at hbusy
        cases hbusy
  listed := fun _ => List.getElem?_set_self (List.getElem?_eq_some_iff.1 hj).1
  state := hstate

/-- An update adds an object that is pending. -/
theorem Editor.Inv.update (h : s.Inv first i current) (hquiet : current.busy = false) {id : Int32} {obj : Value}
    (hid : id ∈ first.objectIds) (hobj : Writable first.classes obj) :
    Editor.Inv first { s with
      state := { s.state with d2oEdits := s.state.d2oEdits.insert id obj }
      answered := (id, obj) :: s.answered } i current := by
  have hlookup : ∀ {id' v}, ((id, obj) :: s.answered).lookup id' = some v →
      (id' = id ∧ v = obj) ∨ (id' ≠ id ∧ s.answered.lookup id' = some v) := by
    intro id' v hv
    rw [List.lookup_cons] at hv
    by_cases hsame : id' = id
    · subst hsame
      rw [beq_self_eq_true] at hv
      exact .inl ⟨rfl, (Option.some.inj hv).symm⟩
    · rw [beq_false_of_ne hsame] at hv
      exact .inr ⟨hsame, hv⟩
  obtain ⟨⟨data, hdata, reader, hread, hdescribes, hall⟩, hcache⟩ := (AppState.inv_of_not_busy hquiet).1 h.state
  constructor
  · intro id' v hv
    dsimp only at hv ⊢
    rw [List.lookup_cons]
    by_cases hsame : id' = id
    · subst hsame
      rw [beq_self_eq_true]
      rwa [AList.lookup_insert] at hv
    · rw [beq_false_of_ne hsame]
      rw [AList.lookup_insert_ne hsame] at hv
      exact h.pending id' v hv
  · intro id' v hv
    rcases hlookup hv with ⟨rfl, rfl⟩ | ⟨-, hv⟩
    · exact ⟨hid, hobj⟩
    · exact h.allowed id' v hv
  · intro id' v hv
    dsimp only
    rcases hlookup hv with ⟨rfl, rfl⟩ | ⟨hne, hv⟩
    · exact .inl (AList.lookup_insert _)
    · rw [AList.lookup_insert_ne hne]
      exact h.confirmed id' v hv
  · exact h.only
  · exact h.listed
  · refine (AppState.inv_of_not_busy hquiet).2 ⟨⟨data, hdata, reader, hread, hdescribes, fun id' v hv => ?_⟩, hcache⟩
    rcases hlookup hv with ⟨rfl, rfl⟩ | ⟨hne, hv⟩
    · exact .inl (AList.lookup_insert _)
    · dsimp only
      rw [AList.lookup_insert_ne hne]
      exact hall id' v hv

end

/-! ### Runs -/

theorem PlainTable.of_perm {table table' : HashMap Int32 D2OClassDef} (h : PlainTable table)
    (hperm : table'.pairs.Perm table.pairs) : PlainTable table' where
  plain p hp := h.plain p (hperm.mem_iff.1 hp)
  names := (hperm.map _).nodup_iff.2 h.names
  marker := (HashMap.lookup_of_perm hperm _).trans h.marker

theorem Writable.of_perm {table table' : HashMap Int32 D2OClassDef} {v : Value} (h : Writable table v)
    (hperm : table'.pairs.Perm table.pairs) : Writable table' v := by
  rcases h with ⟨classId, fields, h⟩ | hrefused
  · exact .inl ⟨classId, fields, represents_congr (HashMap.lookup_of_perm hperm) h⟩
  · exact .inr fun classes hclasses => hrefused classes (hclasses.trans hperm)

theorem Surroundings.classes_perm (surroundings : Surroundings) (reader : D2OReader) :
    (surroundings.classes reader).Perm reader.classes.pairs := by
  unfold Surroundings.classes
  split
  · assumption
  · exact List.Perm.refl _

section

variable {first : D2OReader} {s : Editor} {i : Nat} {current : Save}

/-- The bytes that a save has collected hold every update. -/
theorem Editor.Inv.fileOk (hplain : PlainTable first.classes) (h : s.Inv first i current)
    (hquiet : current.busy = false) {reader : D2OReader} {objects : List (Int32 × Value)} {classes : ClassTable}
    {bytes : List UInt8} (hcache : s.state.d2oCache = some reader) (hclasses : classes.Perm reader.classes.pairs)
    (hobjects : snapshot reader s.state.d2oEdits reader.objectIds = .ok objects)
    (hwrite : writeD2o classes objects = .ok bytes)
    (hfits : ∀ ws index, writeObjects classes 7 objects = .ok (ws, index) → 7 + ws.length < 2 ^ 31) :
    FileOk first ∅ s.answered bytes := by
  obtain ⟨⟨data, hdata, reader', hread, hdescribes, hall⟩, hcacheOk⟩ := (AppState.inv_of_not_busy hquiet).1 h.state
  obtain ⟨data', hdata', hread'⟩ := hcacheOk reader hcache
  obtain rfl := Option.some.inj (hdata.symm.trans hdata')
  obtain rfl := Outcome.ok.inj (hread.symm.trans hread')
  obtain ⟨saved, hsaved, hdescribes', hholds⟩ :=
    holds_of_collected hread (hplain.of_perm hdescribes.classes) hclasses hobjects hwrite hfits
  refine ⟨saved, hsaved, ⟨hdescribes'.classes.trans hdescribes.classes, hdescribes'.ids.trans hdescribes.ids⟩,
    fun id v hv => .inr ?_⟩
  obtain ⟨hid, hwritable⟩ := h.allowed id v hv
  refine hholds id (by rw [hdescribes.ids]; exact hid) v ?_
  cases hedit : s.state.d2oEdits.lookup id with
  | none => exact .inr ⟨rfl, (hall id v hv).resolve_left (by rw [hedit]; exact nofun)⟩
  | some u =>
    obtain rfl := Option.some.inj ((h.pending id u hedit).symm.trans hv)
    exact .inl ⟨rfl, hwritable.of_perm hdescribes.classes⟩

/-- What the next section of a save preserves. -/
theorem Editor.Inv.proceed (hplain : PlainTable first.classes) (h : s.Inv first i current) {j : Nat}
    {surroundings : Surroundings} (hallowed : Allowed s (.proceed j surroundings)) :
    ∃ k next, Editor.Inv first (act s (.proceed j surroundings)) k next ∧
      (Completes s (.proceed j surroundings) → ∀ bytes, next ≠ .opened bytes) := by
  cases hj : s.saves[j]? with
  | none =>
    have hstep : act s (.proceed j surroundings) = s := by
      show Editor.step s _ = s
      rw [Editor.step, hj]
    rw [hstep]
    refine ⟨i, current, h, ?_⟩
    rintro ⟨save, hsave, -⟩
    rw [hj] at hsave
    cases hsave
  | some save =>
    have hstep : act s (.proceed j surroundings) = { s with
        state := (s.state.saveD2oFile surroundings save).1
        saves := s.saves.set j (s.state.saveD2oFile surroundings save).2 } := by
      show Editor.step s _ = _
      rw [Editor.step, hj]
    have hcompletes : Completes s (.proceed j surroundings) → save.finished = false ∧
        (s.state.saveD2oFile surroundings save).2.finished = true := by
      rintro ⟨save', hsave', hfinished⟩
      obtain rfl := Option.some.inj (hj.symm.trans hsave')
      exact hfinished
    have hcondition := hallowed save hj
    rw [hstep]
    have hown : save.busy = true → j = i ∧ save = current := h.only j save hj
    cases save with
    | arrived =>
      obtain ⟨hsaved, hbusy, hdisk, hedits, hcache, halive⟩ :=
        AppState.ensureD2oLoaded_cases s.state surroundings
      by_cases hdead : current.busy = true ∧ s.state.Alive
      · -- the busy save has the file in the cache, so nothing needs to be loaded
        have hnext : s.state.saveD2oFile surroundings .arrived = (s.state, .loaded) := halive hdead.2
        rw [hnext] at hcompletes ⊢
        refine ⟨i, current, h.other hj rfl rfl nofun rfl h.state, fun hdone => ?_⟩
        cases (hcompletes hdone).2
      · refine ⟨i, current, h.other hj rfl hbusy nofun hedits
          (h.state.of_not_alive (fun hcurrent ha => hdead ⟨hcurrent, ha⟩) hdisk hedits hcache), ?_⟩
        rintro - bytes rfl
        exact hdead ⟨rfl, h.state.2.2⟩
    | loaded =>
      rcases AppState.collect_cases s.state surroundings with
        ⟨reader, objects, bytes, halive, hcache, hobjects, hwrite, hnext⟩ | ⟨hsaved, hbusy, hdisk, hedits, hcache⟩
      · obtain ⟨hquiet, hfits⟩ := hcondition reader hcache
        have hcurrent := h.not_busy hquiet
        have hnext : s.state.saveD2oFile surroundings .loaded = (s.state, .collected bytes) := hnext
        rw [hnext]
        obtain ⟨hdiskOk, hcacheOk⟩ := (AppState.inv_of_not_busy hcurrent).1 h.state
        have hfile := h.fileOk hplain hcurrent hcache (surroundings.classes_perm reader) hobjects hwrite
          fun ws index => hfits objects ws index hobjects
        exact ⟨j, .collected bytes, h.own hj (.inr hcurrent) nofun (fun _ _ hv => hv) (fun _ _ _ hv => .inl hv)
          ⟨hfile, hdiskOk, hcacheOk, halive⟩, fun _ => nofun⟩
      · -- a busy save would have the file in the cache, and then no other one may collect the objects
        have hdead : current.busy = true → ¬s.state.Alive := by
          intro hcurrent halive
          obtain ⟨reader, hreader⟩ := Option.ne_none_iff_exists'.1 halive.2
          rw [h.not_busy (hcondition reader hreader).1] at hcurrent
          cases hcurrent
        refine ⟨i, current, h.other hj rfl hbusy nofun hedits (h.state.of_not_alive hdead hdisk hedits ?_), ?_⟩
        · intro hcacheOk reader hreader
          obtain ⟨data, hdata, hread⟩ := hcacheOk reader (hcache.symm.trans hreader)
          exact ⟨data, hdisk.trans hdata, hread⟩
        · rintro - bytes rfl
          exact hdead rfl h.state.2.2
    | collected bytes =>
      obtain ⟨rfl, rfl⟩ := hown rfl
      obtain ⟨hfile, hdiskOk, hcacheOk, halive⟩ := h.state
      rcases AppState.copy_cases s.state surroundings bytes with hnext | hnext
      · have hnext : s.state.saveD2oFile surroundings (.collected bytes) = (s.state, .failed .backup) := hnext
        rw [hnext]
        exact ⟨j, _, h.own hj (.inl rfl) nofun (fun _ _ hv => hv) (fun _ _ _ hv => .inl hv) ⟨hdiskOk, hcacheOk⟩,
          fun _ => nofun⟩
      · have hnext : s.state.saveD2oFile surroundings (.collected bytes) = (s.state, .copied bytes) := hnext
        rw [hnext]
        exact ⟨j, _, h.own hj (.inl rfl) nofun (fun _ _ hv => hv) (fun _ _ _ hv => .inl hv)
          ⟨hfile, hdiskOk, hcacheOk, halive⟩, fun _ => nofun⟩
    | copied bytes =>
      obtain ⟨rfl, rfl⟩ := hown rfl
      obtain ⟨hfile, hdiskOk, hcacheOk, halive⟩ := h.state
      cases hfails : surroundings.fails with
      | true =>
        have hnext : s.state.saveD2oFile surroundings (.copied bytes) = (s.state, .failed (.write none)) :=
          if_pos hfails
        rw [hnext]
        exact ⟨j, _, h.own hj (.inl rfl) nofun (fun _ _ hv => hv) (fun _ _ _ hv => .inl hv) ⟨hdiskOk, hcacheOk⟩,
          fun _ => nofun⟩
      | false =>
        have hnext : s.state.saveD2oFile surroundings (.copied bytes) =
            ({ s.state with disk := some [] }, .opened bytes) := if_neg (by rw [hfails]; exact nofun)
        rw [hnext] at hcompletes ⊢
        refine ⟨j, _, h.own hj (.inl rfl) nofun (fun _ _ hv => hv) (fun _ _ _ hv => .inl hv) ⟨hfile, rfl, halive⟩,
          fun hdone => ?_⟩
        cases (hcompletes hdone).2
    | opened bytes =>
      obtain ⟨rfl, rfl⟩ := hown rfl
      obtain ⟨hfile, hdisk, halive⟩ := h.state
      have hnext : s.state.saveD2oFile surroundings (.opened bytes) = (s.state.overwritten bytes, .written bytes) :=
        if_neg (by rw [show surroundings.fails = false from hcondition]; exact nofun)
      rw [hnext]
      refine ⟨j, _, h.own hj (.inl rfl) nofun (fun _ _ hv => hv) (fun _ _ _ hv => .inl hv) ⟨hfile, ?_, halive⟩,
        fun _ => nofun⟩
      show some (bytes ++ (s.state.disk.getD []).drop bytes.length) = some bytes
      rw [hdisk, Option.getD_some, List.drop_nil, List.append_nil]
    | written bytes =>
      obtain ⟨rfl, rfl⟩ := hown rfl
      obtain ⟨hfile, hdisk, halive⟩ := h.state
      have hnext : s.state.saveD2oFile surroundings (.written bytes) =
          ({ s.state with d2oCache := none }, .uncached bytes) := if_neg (by rw [halive.1]; exact nofun)
      rw [hnext]
      exact ⟨j, _, h.own hj (.inl rfl) nofun (fun _ _ hv => hv) (fun _ _ _ hv => .inl hv)
        ⟨hfile, hdisk, nofun⟩, fun _ => nofun⟩
    | uncached bytes =>
      obtain ⟨rfl, rfl⟩ := hown rfl
      have hdiskOk := h.state.diskOk nofun
      obtain ⟨hfile, hdisk, hcacheOk⟩ := h.state
      cases hpoisoned : s.state.editsPoisoned with
      | true =>
        have hnext : s.state.saveD2oFile surroundings (.uncached bytes) = (s.state, .panicked) := if_pos hpoisoned
        rw [hnext]
        exact ⟨j, _, h.own hj (.inl rfl) nofun (fun _ _ hv => hv) (fun _ _ _ hv => .inl hv) ⟨hdiskOk, hcacheOk⟩,
          fun _ => nofun⟩
      | false =>
        have hnext : s.state.saveD2oFile surroundings (.uncached bytes) =
            ({ s.state with d2oEdits := ∅ }, .saved bytes) := if_neg (by rw [hpoisoned]; exact nofun)
        rw [hnext]
        refine ⟨j, _, h.own hj (.inl rfl) nofun nofun (fun id v hv _ => .inr ⟨bytes, rfl, hfile.says hv⟩)
          ⟨⟨bytes, hdisk, hfile⟩, hcacheOk⟩, fun _ => nofun⟩
    | saved bytes =>
      exact ⟨i, current, h.other hj rfl rfl (fun _ hsame => hsame) rfl h.state,
        fun hdone => absurd (hcompletes hdone).1 nofun⟩
    | failed e =>
      exact ⟨i, current, h.other hj rfl rfl (fun _ hsame => hsame) rfl h.state,
        fun hdone => absurd (hcompletes hdone).1 nofun⟩
    | panicked =>
      exact ⟨i, current, h.other hj rfl rfl (fun _ hsame => hsame) rfl h.state,
        fun hdone => absurd (hcompletes hdone).1 nofun⟩

/-- What every step preserves. -/
theorem Editor.Inv.step (hplain : PlainTable first.classes) (h : s.Inv first i current) {e : EditorEvent}
    (hallowed : Allowed s e) :
    ∃ j next, Editor.Inv first (act s e) j next ∧ (Completes s e → ∀ bytes, next ≠ .opened bytes) := by
  cases e with
  | update id body =>
    obtain ⟨hquiet, hobj⟩ := hallowed
    have hbusy := h.not_busy hquiet
    have hopened : ∀ bytes, current ≠ .opened bytes := by
      rintro bytes rfl
      cases hbusy
    refine ⟨i, current, ?_, fun _ => hopened⟩
    show Editor.Inv first (Editor.step s (.update id body)) i current
    rw [Editor.step]
    cases hupdate : s.state.updateD2oObject id body with
    | none => exact h
    | some next =>
      obtain ⟨hbody, hstate⟩ := AppState.updateD2oObject_eq_some hupdate
      obtain ⟨data, reader, hdata, hread, hid, hwritable⟩ := hobj next.2 hbody
      obtain ⟨data', hdata', reader', hread', hdescribes, -⟩ := h.state.diskOk hopened
      obtain rfl := Option.some.inj (hdata.symm.trans hdata')
      obtain rfl := Outcome.ok.inj (hread.symm.trans hread')
      rw [hdescribes.ids] at hid
      dsimp only
      rw [hstate]
      exact h.update hbusy hid (hwritable.of_perm hdescribes.classes.symm)
  | save =>
    refine ⟨i, current, ⟨h.pending, h.allowed, fun id v hv => ?_, fun j save hj hbusy => ?_,
      fun hbusy => ?_, h.state⟩,
      fun hcompletes => hcompletes.elim⟩
    · rcases h.confirmed id v hv with hpending | ⟨bytes, hbytes, hsays⟩
      · exact .inl hpending
      · exact .inr ⟨bytes, List.mem_append_left _ hbytes, hsays⟩
    · rcases Nat.lt_or_ge j s.saves.length with hlt | hge
      · exact h.only j save ((List.getElem?_append_left hlt).symm.trans hj) hbusy
      · -- the request that has just arrived
        have hnew := (List.getElem?_append_right hge).symm.trans hj
        obtain rfl := List.mem_singleton.1 (List.mem_of_getElem? hnew)
        cases hbusy
    · have hi := h.listed hbusy
      exact (List.getElem?_append_left (List.getElem?_eq_some_iff.1 hi).1).trans hi
  | proceed j surroundings => exact h.proceed hplain hallowed

theorem Describes.refl (reader : D2OReader) : Describes reader reader := ⟨List.Perm.refl _, rfl⟩

theorem Editor.inv_start {data : List UInt8} {reader : D2OReader} (hdata : D2OReader.fromBytes data = .ok reader) :
    Editor.Inv reader (.start (some data)) 0 .panicked where
  pending := nofun
  allowed := nofun
  confirmed := nofun
  only := nofun
  listed := nofun
  state := ⟨⟨data, rfl, reader, hdata, Describes.refl reader, nofun⟩, nofun⟩

/-- The invariant says that nothing is lost. -/
theorem Editor.Inv.nothingLost (h : s.Inv first i current) (hopened : ∀ bytes, current ≠ .opened bytes) :
    NothingLost s := by
  intro id v hv
  obtain ⟨data, hdata, reader, hread, hdescribes, hall⟩ := h.state.diskOk hopened
  have hid := (h.allowed id v hv).1
  rw [← hdescribes.ids] at hid
  refine ⟨?_, data, reader, hdata, hread, hid⟩
  rcases h.confirmed id v hv with hpending | hconfirmed
  · exact .inl hpending
  · rcases hall id v hv with hpending | ⟨classId, fields, hcontent, hsays⟩
    · exact .inl hpending
    · exact .inr ⟨hconfirmed, data, hdata, reader, classId, fields, hread, hcontent, hsays⟩

end

/-- After every request nothing is lost, along a run in which no save is disturbed. -/
theorem nothing_lost {data : List UInt8} {reader : D2OReader} (hdata : D2OReader.fromBytes data = .ok reader)
    (hplain : PlainTable reader.classes) {es : List EditorEvent} {e : EditorEvent}
    (hallowed : Along Allowed (Editor.start (some data)) (es ++ [e]))
    (hcompletes : Completes (after (Editor.start (some data)) es) e) :
    NothingLost (after (Editor.start (some data)) (es ++ [e])) := by
  obtain ⟨hes, he, -⟩ := along_append.1 hallowed
  have hstep : ∀ s e, (∃ i current, Editor.Inv reader s i current) → Allowed s e →
      ∃ i current, Editor.Inv reader (act s e) i current := by
    rintro s e ⟨i, current, h⟩ hallowed
    obtain ⟨j, next, hnext, -⟩ := h.step hplain hallowed
    exact ⟨j, next, hnext⟩
  obtain ⟨i, current, hinv⟩ := (hes.invariant hstep ⟨0, .panicked, Editor.inv_start hdata⟩).2
  obtain ⟨j, next, hnext, hopened⟩ := hinv.step hplain he
  rw [after_append]
  exact hnext.nothingLost (hopened hcompletes)

/-! ### A message that is edited -/

def undisturbed : Surroundings where
  fails := false
  writtenBefore := 0
  classOrder := []

def okMessage : Value := .object [("_class", .string "Message"), ("text", .string "ok")]

def okUpdate : EditorEvent := .update 5 (.object [("object", okMessage)])

/-- The editor of a file with a message of two letters. -/
def messageEditor : Editor := .start (some (messageFile [104, 105]))

/-- The message is edited, and the file is saved. -/
def savingRun : List EditorEvent := okUpdate :: .save :: List.replicate 6 (.proceed 0 undisturbed)

/-- The message is edited after the objects were collected. -/
def disturbedRun : List EditorEvent :=
  .save :: .proceed 0 undisturbed :: .proceed 0 undisturbed :: okUpdate :: List.replicate 4 (.proceed 0 undisturbed)

theorem pairs_messageFile : (writtenReader [(1, messageClass)] [(5, 7)] (messageFile [104, 105])).classes.pairs =
    [(1, messageClass)] := by decide +kernel

theorem plainTable_messageFile {table : HashMap Int32 D2OClassDef} (h : table.pairs = [(1, messageClass)]) :
    PlainTable table where
  plain p hp := by
    rw [h] at hp
    obtain rfl := List.mem_singleton.1 hp
    exact ⟨by decide, by decide⟩
  names := by
    rw [h]
    decide
  marker := by
    cases hmarker : table.lookup nullObjectMarker with
    | none => rfl
    | some classDef =>
      have hmem := HashMap.lookup_eq_some.1 hmarker
      rw [h] at hmem
      cases (Prod.mk.inj (List.mem_singleton.1 hmem)).1

theorem represents_okMessage :
    Represents (writtenReader [(1, messageClass)] [(5, 7)] (messageFile [104, 105])).classes
    (.object 0) (.object 1 [.string (asBytes "ok")]) okMessage := by
  have hlookup : (writtenReader [(1, messageClass)] [(5, 7)] (messageFile [104, 105])).classes.lookup 1 =
      some messageClass := by
    rw [HashMap.lookup_eq_some, pairs_messageFile]
    exact List.mem_singleton_self _
  refine .object (by decide) hlookup rfl rfl (fun name u hu => ?_) (fun field hfield => ?_) fun p hp u hu => ?_
  · change List.lookup name [("_class", _), ("text", _)] = some u at hu
    rw [List.lookup_cons, List.lookup_cons] at hu
    by_cases hclass : name = "_class"
    · exact .inl hclass
    · rw [beq_false_of_ne hclass] at hu
      by_cases htext : name = "text"
      · exact .inr (List.mem_singleton.2 htext)
      · rw [beq_false_of_ne htext] at hu
        cases hu
  · obtain rfl := List.mem_singleton.1 hfield
    rfl
  · obtain rfl := List.mem_singleton.1 hp
    obtain rfl := Option.some.inj hu
    exact .string (by decide)

/-- A section of a busy save is allowed where the file system does not fail. -/
theorem allowed_busy {s : Editor} (h : s.saves[0]?.map Save.busy = some true) :
    Allowed s (.proceed 0 undisturbed) := by
  intro save hsave
  have hfills : undisturbed.fails = false := rfl
  rw [hsave] at h
  cases save with
  | loaded => cases h
  | opened bytes => exact hfills
  | _ => trivial

/-- The objects of the message are collected while nothing disturbs the save. -/
theorem allowed_collect : Allowed (after messageEditor [okUpdate, .save, .proceed 0 undisturbed])
    (.proceed 0 undisturbed) := by
  intro save _
  have hfills : undisturbed.fails = false := rfl
  cases save with
  | loaded =>
    intro reader hreader
    have hall : (after messageEditor [okUpdate, .save, .proceed 0 undisturbed]).saves.all (fun save => !save.busy) =
        true := by decide +kernel
    refine ⟨fun save hsave => ?_, fun objects ws index hobjects hws => ?_⟩
    · simpa using List.all_eq_true.1 hall save hsave
    · have hlength : ((after messageEditor [okUpdate, .save, .proceed 0 undisturbed]).state.d2oCache.elim (.ok 0)
          fun reader =>
            snapshot reader (after messageEditor [okUpdate, .save, .proceed 0 undisturbed]).state.d2oEdits
              reader.objectIds >>= fun objects =>
            writeObjects (undisturbed.classes reader) 7 objects >>= fun x => .ok x.1.length) =
          (.ok 8 : Outcome D2OError Nat) := by decide +kernel
      rw [hreader, Option.elim_some] at hlength
      rw [hobjects, Outcome.ok_bind, hws, Outcome.ok_bind] at hlength
      have height : ws.length = 8 := Outcome.ok.inj hlength
      omega
  | opened bytes => exact hfills
  | _ => trivial

/-- An edit that is saved is not lost. -/
theorem nothing_lost_saving : NothingLost (after messageEditor (savingRun ++ [.proceed 0 undisturbed])) := by
  refine nothing_lost fromBytes_messageFile (plainTable_messageFile pairs_messageFile) ?_ ?_
  · have hupdate : Allowed messageEditor okUpdate := by
      refine ⟨nofun, fun obj hobj => ⟨messageFile [104, 105], _, rfl, fromBytes_messageFile, by decide, ?_⟩⟩
      obtain rfl : obj = okMessage := (Option.some.inj hobj).symm
      exact .inl ⟨1, _, represents_okMessage⟩
    have hload : Allowed (after messageEditor [okUpdate, .save]) (.proceed 0 undisturbed) := by
      intro save hsave
      obtain rfl : Save.arrived = save := Option.some.inj hsave
      trivial
    refine ⟨hupdate, trivial, hload, allowed_collect, allowed_busy ?_, allowed_busy ?_, allowed_busy ?_,
      allowed_busy ?_, allowed_busy ?_, trivial⟩
    · decide +kernel
    · decide +kernel
    · decide +kernel
    · decide +kernel
    · decide +kernel
  · have hlast : ((after messageEditor savingRun).saves[0]?.map fun save =>
        (save.finished, ((after messageEditor savingRun).state.saveD2oFile undisturbed save).2.finished)) =
          some (false, true) := by decide +kernel
    obtain ⟨save, hsave, hfinished⟩ := Option.map_eq_some_iff.1 hlast
    obtain ⟨hbefore, hafter⟩ := Prod.mk.inj hfinished
    exact ⟨save, hsave, hbefore, hafter⟩

/-- An edit that comes between the moments at which a save collects the objects and drops the edits is lost. -/
theorem disturbing_edit_lost : ¬∀ es e, Completes (after messageEditor es) e →
    NothingLost (after messageEditor (es ++ [e])) := by
  intro h
  have hlast : ((after messageEditor disturbedRun).saves[0]?.map fun save =>
      (save.finished, ((after messageEditor disturbedRun).state.saveD2oFile undisturbed save).2.finished)) =
        some (false, true) := by decide +kernel
  obtain ⟨save, hsave, hfinished⟩ := Option.map_eq_some_iff.1 hlast
  obtain ⟨hbefore, hafter⟩ := Prod.mk.inj hfinished
  have hlost := h disturbedRun (.proceed 0 undisturbed) ⟨save, hsave, hbefore, hafter⟩
  -- the update was answered, it is not pending any more, and the file holds the message of before
  have hpending : (after messageEditor (disturbedRun ++ [.proceed 0 undisturbed])).state.d2oEdits.keys = [] := by
    decide +kernel
  have hdisk : ((after messageEditor (disturbedRun ++ [.proceed 0 undisturbed])).state.disk.elim .panic
      fun bytes => D2OReader.fromBytes bytes >>= fun reader => reader.content 5 >>= fun content =>
        .ok (reader.classes.pairs, content.encode)) =
      (.ok ([(1, messageClass)], [0, 0, 0, 1, 0, 2, 104, 105]) : Outcome D2OError _) := by decide +kernel
  have hanswered : ((after messageEditor (disturbedRun ++ [.proceed 0 undisturbed])).answered.lookup 5).map
      (writeObject [(1, messageClass)]) = some (.ok [0, 0, 0, 1, 0, 2, 111, 107]) := by decide +kernel
  obtain ⟨v, hv, hwrite⟩ := Option.map_eq_some_iff.1 hanswered
  obtain ⟨hkept, -⟩ := hlost 5 v hv
  rcases hkept with hedit | ⟨-, bytes, hbytes, reader, classId, fields, hread, hcontent, hsays⟩
  · have hkey := AList.mem_keys.1 (AList.lookup_isSome.1 (Option.isSome_of_eq_some hedit))
    rw [hpending] at hkey
    exact absurd hkey List.not_mem_nil
  · rw [hbytes, Option.elim_some, hread, Outcome.ok_bind, hcontent, Outcome.ok_bind] at hdisk
    obtain ⟨hpairs, hencode⟩ := Prod.mk.inj (Outcome.ok.inj hdisk)
    have hwritten := (writeObject_of_represents (plainTable_messageFile hpairs) (List.Perm.refl _) hsays).1
    rw [hencode, hpairs, hwrite] at hwritten
    exact absurd (Outcome.ok.inj hwritten) (by decide)

end Otomai.DataReader
