import Otomai.Combat.Effects
import Otomai.DataReader.D2o
import Otomai.Quests.State

/-!
# Importing game data

`ImportDb` of the data tool puts the objects of the D2O files that it finds into the table `game_data`, under the
names of their files.  The world server looks objects up in the table under names of its own.

* `imported_found`: an object that was imported is found under the name of its file.
* `import_changes_nothing`: what is found under a name without the extension is what was found before the import.
* `found_iff`: so the world server finds the objects of some files only if the table held them before.
-/

namespace Otomai.DataReader

open Wire

/-! ### The table -/

/-- A row of `game_data`. -/
structure GameDataRow where
  fileName : String
  objectId : Int32
  className : String
  data : Value

/-- The table `game_data`: the class and the data of an object, by the name of its file and its id. -/
abbrev GameTable := HashMap (String × Int32) (String × Value)

/-- The database refuses some data, such as strings with a NUL character. -/
structure Database where
  accepts : Value → Bool

namespace GameTable

def upsertGameData (db : Database) (t : GameTable) (row : GameDataRow) : Option GameTable :=
  if db.accepts row.data then some (t.insert (row.fileName, row.objectId) (row.className, row.data)) else none

def getGameData (t : GameTable) (fileName : String) (objectId : Int32) : Option GameDataRow :=
  (t.lookup (fileName, objectId)).map fun p => ⟨fileName, objectId, p.1, p.2⟩

def getAllGameData (t : GameTable) (fileName : String) : List GameDataRow :=
  ((t.pairs.filter fun p => p.1.1 = fileName).map fun p => ⟨p.1.1, p.1.2, p.2.1, p.2.2⟩).insertionSort
    fun a b => a.objectId ≤ b.objectId

end GameTable

/-! ### The import -/

/-- `Path::extension`: what stands behind the last dot of a file name, unless nothing stands before it. -/
def extension (fileName : String) : Option String :=
  let reversed := fileName.toList.reverse
  match reversed.dropWhile (· ≠ '.') with
  | _ :: before =>
    if before = [] ∨ fileName = ".." then none else some (.ofList (reversed.takeWhile (· ≠ '.')).reverse)
  | [] => none

/-- `obj.get("_class")`, if it is a string. -/
def className (obj : Value) : String := ((obj.get? "_class").bind Value.asStr).getD "Unknown"

/-- An error of the database ends the command. -/
inductive ImportError where
  | refused
  deriving DecidableEq, Repr

/-- The objects of a file are imported under its name; those that cannot be read are left out. -/
def importObjects (db : Database) (name : String) (reader : D2OReader) :
    List Int32 → GameTable → Outcome ImportError Unit × GameTable
  | [], t => (.ok (), t)
  | id :: ids, t =>
    match reader.readObject id with
    | .ok obj =>
      match t.upsertGameData db { fileName := name, objectId := id, className := className obj, data := obj } with
      | some t => importObjects db name reader ids t
      | none => (.err .refused, t)
    | .err _ => importObjects db name reader ids t
    | .panic => (.panic, t)
    | .exhausted => (.exhausted, t)

/-- Some D2O files are imported; those that cannot be read are left out. -/
def importFiles (db : Database) : List (String × List UInt8) → GameTable → Outcome ImportError Unit × GameTable
  | [], t => (.ok (), t)
  | (name, data) :: files, t =>
    match D2OReader.fromBytes data with
    | .ok reader =>
      match importObjects db name reader reader.objectIds t with
      | (.ok (), t) => importFiles db files t
      | stopped => stopped
    | .err _ => importFiles db files t
    | .panic => (.panic, t)
    | .exhausted => (.exhausted, t)

/-- The D2O part of `ImportDb`, for the names and the contents of the files below the input directory. -/
def importD2o (db : Database) (files : List (String × List UInt8)) (t : GameTable) :
    Outcome ImportError Unit × GameTable :=
  importFiles db (files.filter fun f => extension f.1 = some "d2o") t

/-! ### The world server -/

/-- The names under which the world server looks objects up: spells, quests and characters of the game. -/
def lookupNames : List String :=
  ["Spells", "SpellLevels", "Npcs", "Quests", "QuestSteps", "QuestObjectives", "QuestStepRewards"]

namespace GameTable

open Machine Combat

/-- `effect_id.classify()`, if it has an element. -/
def elementOf (effectId : Int) : Option Element :=
  match classify effectId with
  | .damage e | .lifeSteal e | .poison e => some e
  | _ => none

/-- A number of an object, as `i64`. -/
def int? (d : Value) (name : String) : Option Int := (d.get? name).bind fun v => v.asI64.map Int64.toInt

def parseEffect (e : Value) : Option SpellEffect :=
  (int? e "effectId").map fun id =>
    let effectId := wrap32 id
    let diceNum := ((e.get? "diceNum").or (e.get? "value")).bind fun v => v.asI64.map Int64.toInt
    { effectId, diceNum := wrap32 (diceNum.getD 0), diceSide := wrap32 ((int? e "diceSide").getD 0),
      duration := wrap32 ((int? e "duration").getD 0), element := (elementOf effectId).getD .neutral }

def parseEffects (val : Option Value) : List SpellEffect :=
  ((val.bind Value.asArray).getD []).filterMap parseEffect

/-- The spell level of an object of `SpellLevels`. -/
def spellData (d : Value) : SpellData where
  apCost := wrap16 ((int? d "apCost").getD 3)
  minRange := wrap16 ((int? d "minRange").getD 1)
  range := wrap16 ((int? d "range").getD 6)
  castInLine := ((d.get? "castInLine").bind Value.asBool).getD false
  castInDiagonal := ((d.get? "castInDiagonal").bind Value.asBool).getD false
  castTestLos := ((d.get? "castTestLos").bind Value.asBool).getD false
  maxCastPerTurn := wrap16 ((int? d "maxCastPerTurn").getD 0)
  maxCastPerTarget := wrap16 ((int? d "maxCastPerTarget").getD 0)
  needFreeCell := ((d.get? "needFreeCell").bind Value.asBool).getD false
  needTakenCell := ((d.get? "needTakenCell").bind Value.asBool).getD false
  criticalHitProbability := wrap16 ((int? d "criticalHitProbability").getD 0)
  effects := parseEffects (d.get? "effects")
  criticalEffects := parseEffects (d.get? "criticalEffect")

/-- `load_spell_data`; the levels of a spell are counted from one. -/
def loadSpellData (t : GameTable) (spellId : Int32) (spellLevel : Nat) : Option SpellData := do
  let spell ← t.getGameData "Spells" spellId
  let levelIds ← (spell.data.get? "spellLevels").bind Value.asArray
  let levelIdx := min (spellLevel - 1) (levelIds.length - 1)
  let levelId ← (levelIds[levelIdx]?).bind Value.asI64
  let level ← t.getGameData "SpellLevels" levelId.toInt32
  some (spellData level.data)

/-- What the quests look up in the table. -/
def gameData (t : GameTable) : Quests.GameData where
  objects fileName := (t.getAllGameData fileName).map fun row => (row.objectId.toInt, row.data)

/-- Each object of the files `<Name>.d2o` is found under the name `Name` that the world server uses. -/
def Found (files : List (String × List UInt8)) (t : GameTable) : Prop :=
  ∀ name ∈ lookupNames, ∀ data, (name ++ ".d2o", data) ∈ files → ∀ reader, D2OReader.fromBytes data = .ok reader →
    ∀ id ∈ reader.objectIds, ∀ obj, reader.readObject id = .ok obj →
      ∃ row, t.getGameData name id = some row ∧ row.data = obj ∧ row ∈ t.getAllGameData name

end GameTable

/-! ### What an import leaves alone -/

section

variable {db : Database} {name : String} {reader : D2OReader} {P : GameTable → Prop}

/-- What the rows of the objects of a file keep, the import of the file keeps. -/
theorem importObjects_induction
    (hinsert : ∀ t id obj, reader.readObject id = .ok obj → P t → P (t.insert (name, id) (className obj, obj)))
    {ids : List Int32} {t : GameTable} (ht : P t) : P (importObjects db name reader ids t).2 := by
  induction ids generalizing t with
  | nil => exact ht
  | cons id ids ih =>
    unfold importObjects
    cases hobj : reader.readObject id with
    | ok obj =>
      dsimp only
      unfold GameTable.upsertGameData
      by_cases haccepts : db.accepts obj
      · rw [if_pos haccepts]
        exact ih (hinsert t id obj hobj ht)
      · rw [if_neg haccepts]
        exact ht
    | err e => exact ih ht
    | panic => exact ht
    | exhausted => exact ht

theorem importFiles_induction {files : List (String × List UInt8)}
    (hinsert : ∀ f ∈ files, ∀ t id v, P t → P (t.insert (f.1, id) v)) {t : GameTable} (ht : P t) :
    P (importFiles db files t).2 := by
  induction files generalizing t with
  | nil => exact ht
  | cons f files ih =>
    have hrest : ∀ {t : GameTable}, P t → P (importFiles db files t).2 :=
      fun ht => ih (fun g hg => hinsert g (List.mem_cons_of_mem f hg)) ht
    unfold importFiles
    cases D2OReader.fromBytes f.2 with
    | ok reader =>
      have hfile : P (importObjects db f.1 reader reader.objectIds t).2 :=
        importObjects_induction (fun u id obj _ hu => hinsert f List.mem_cons_self u id _ hu) ht
      dsimp only
      generalize importObjects db f.1 reader reader.objectIds t = r at hfile
      obtain ⟨stop, t'⟩ := r
      cases stop with
      | ok u => exact hrest hfile
      | err e => exact hfile
      | panic => exact hfile
      | exhausted => exact hfile
    | err e => exact hrest ht
    | panic => exact ht
    | exhausted => exact ht

end

theorem extension_lookupName : ∀ name ∈ lookupNames, extension name = none := by decide +kernel

namespace GameTable

variable {t t' : GameTable} {name : String}

/-- The rows of a file. -/
def rowsOf (t : GameTable) (name : String) : List ((String × Int32) × String × Value) :=
  t.pairs.filter fun p => p.1.1 = name

theorem getAllGameData_congr (h : t'.rowsOf name = t.rowsOf name) :
    t'.getAllGameData name = t.getAllGameData name := by
  unfold getAllGameData
  unfold rowsOf at h
  rw [h]

theorem mem_rowsOf {id : Int32} {v : String × Value} :
    ((name, id), v) ∈ t.rowsOf name ↔ t.lookup (name, id) = some v := by
  rw [rowsOf, List.mem_filter, HashMap.lookup_eq_some]
  simp

theorem getGameData_congr (h : t'.rowsOf name = t.rowsOf name) (id : Int32) :
    t'.getGameData name id = t.getGameData name id := by
  have hlookup : t'.lookup (name, id) = t.lookup (name, id) := by
    refine Option.ext fun v => ?_
    rw [← mem_rowsOf, h, mem_rowsOf]
  rw [getGameData, hlookup, getGameData]

/-- A row of a file is found under its id. -/
theorem mem_getAllGameData {row : GameDataRow} :
    row ∈ t.getAllGameData name ↔ row.fileName = name ∧ t.getGameData name row.objectId = some row := by
  rw [getAllGameData, List.mem_insertionSort, List.mem_map]
  constructor
  · rintro ⟨⟨⟨fileName, id⟩, v⟩, hp, rfl⟩
    obtain ⟨hmem, hname⟩ := List.mem_filter.1 hp
    obtain rfl : fileName = name := by simpa using hname
    refine ⟨rfl, ?_⟩
    rw [getGameData, HashMap.lookup_eq_some.2 hmem]
    rfl
  · rintro ⟨rfl, h⟩
    obtain ⟨v, hv, hrow⟩ := Option.map_eq_some_iff.1 h
    refine ⟨((row.fileName, row.objectId), v), ?_, hrow⟩
    exact List.mem_filter.2 ⟨HashMap.lookup_eq_some.1 hv, by simp⟩

end GameTable

/-- Under a name that is not the name of a D2O file, an import changes nothing. -/
theorem import_changes_nothing (db : Database) (files : List (String × List UInt8)) (t : GameTable) {name : String}
    (h : extension name ≠ some "d2o") : (importD2o db files t).2.rowsOf name = t.rowsOf name := by
  refine @importFiles_induction _ (fun u => u.rowsOf name = t.rowsOf name) _ (fun f hf u id v hu => ?_) t rfl
  have hext : extension f.1 = some "d2o" := by simpa using (List.mem_filter.1 hf).2
  have hne : f.1 ≠ name := fun heq => h (heq ▸ hext)
  rw [← hu]
  exact @HashMap.filter_pairs_insert _ _ _ u (f.1, id) (fun key => decide (key.1 = name)) (by simpa using hne) v

/-! ### What an import adds -/

/-- An object that is imported is found under the name of its file. -/
theorem importObjects_found {db : Database} {name : String} {reader : D2OReader} {ids : List Int32} {t t' : GameTable}
    (h : importObjects db name reader ids t = (.ok (), t')) {id : Int32} (hid : id ∈ ids) {obj : Value}
    (hobj : reader.readObject id = .ok obj) : t'.lookup (name, id) = some (className obj, obj) := by
  induction ids generalizing t with
  | nil => exact absurd hid List.not_mem_nil
  | cons id' ids ih =>
    unfold importObjects at h
    rcases List.mem_cons.1 hid with rfl | hid
    · rw [hobj] at h
      dsimp only at h
      unfold GameTable.upsertGameData at h
      by_cases haccepts : db.accepts obj
      · rw [if_pos haccepts] at h
        -- the same object is read wherever its id stands again
        have hkeep := @importObjects_induction db name reader
          (fun u => u.lookup (name, id) = some (className obj, obj)) (fun u id' obj' hobj' hu => by
            by_cases hsame : id' = id
            · subst hsame
              obtain rfl := Outcome.ok.inj (hobj.symm.trans hobj')
              exact AList.lookup_insert _
            · rw [AList.lookup_insert_ne (by simpa using fun heq => hsame heq.symm)]
              exact hu) ids _ (AList.lookup_insert t)
        change importObjects db name reader ids (t.insert (name, id) (className obj, obj)) = _ at h
        rw [h] at hkeep
        exact hkeep
      · rw [if_neg haccepts] at h
        cases h
    · cases hread : reader.readObject id' with
      | ok obj' =>
        rw [hread] at h
        dsimp only at h
        unfold GameTable.upsertGameData at h
        by_cases haccepts : db.accepts obj'
        · rw [if_pos haccepts] at h
          exact ih h hid
        · rw [if_neg haccepts] at h
          cases h
      | err e =>
        rw [hread] at h
        exact ih h hid
      | panic =>
        rw [hread] at h
        cases h
      | exhausted =>
        rw [hread] at h
        cases h

theorem importFiles_found {db : Database} {files : List (String × List UInt8)} (hnodup : (files.map Prod.fst).Nodup)
    {t t' : GameTable} (h : importFiles db files t = (.ok (), t')) {f : String × List UInt8} (hf : f ∈ files)
    {reader : D2OReader} (hreader : D2OReader.fromBytes f.2 = .ok reader) {id : Int32} (hid : id ∈ reader.objectIds)
    {obj : Value} (hobj : reader.readObject id = .ok obj) : t'.lookup (f.1, id) = some (className obj, obj) := by
  induction files generalizing t with
  | nil => exact absurd hf List.not_mem_nil
  | cons g files ih =>
    rw [List.map_cons, List.nodup_cons] at hnodup
    unfold importFiles at h
    rcases List.mem_cons.1 hf with rfl | hf
    · rw [hreader] at h
      dsimp only at h
      cases hfile : importObjects db f.1 reader reader.objectIds t with
      | mk stop u =>
        rw [hfile] at h
        cases stop with
        | ok v =>
          have hfound := importObjects_found hfile hid hobj
          -- the files behind it have other names
          have hkeep := @importFiles_induction db (fun u => u.lookup (f.1, id) = some (className obj, obj)) files
            (fun g hg w id' v hw => by
              have hne : f.1 ≠ g.1 := fun heq => hnodup.1 (heq ▸ List.mem_map_of_mem hg)
              rw [AList.lookup_insert_ne (by simp [hne])]
              exact hw) u hfound
          change importFiles db files u = (.ok (), t') at h
          rw [h] at hkeep
          exact hkeep
        | err e => cases h
        | panic => cases h
        | exhausted => cases h
    · cases hread : D2OReader.fromBytes g.2 with
      | ok reader' =>
        rw [hread] at h
        dsimp only at h
        cases hfile : importObjects db g.1 reader' reader'.objectIds t with
        | mk stop u =>
          rw [hfile] at h
          cases stop with
          | ok v => exact ih hnodup.2 h hf
          | err e => cases h
          | panic => cases h
          | exhausted => cases h
      | err e =>
        rw [hread] at h
        exact ih hnodup.2 h hf
      | panic =>
        rw [hread] at h
        cases h
      | exhausted =>
        rw [hread] at h
        cases h

/-- An object of a file is found under the name of the file after an import, if no two files have the same name. -/
theorem imported_found {db : Database} {files : List (String × List UInt8)} (hnodup : (files.map Prod.fst).Nodup)
    {t t' : GameTable} (h : importD2o db files t = (.ok (), t')) {name : String} {data : List UInt8}
    (hf : (name, data) ∈ files) (hext : extension name = some "d2o") {reader : D2OReader}
    (hreader : D2OReader.fromBytes data = .ok reader) {id : Int32} (hid : id ∈ reader.objectIds) {obj : Value}
    (hobj : reader.readObject id = .ok obj) :
    ∃ row, t'.getGameData name id = some row ∧ row.data = obj ∧ row ∈ t'.getAllGameData name := by
  have hlookup : t'.lookup (name, id) = some (className obj, obj) :=
    importFiles_found (hnodup.sublist (List.filter_sublist.map _)) h (List.mem_filter.2 ⟨hf, by simpa using hext⟩)
      hreader hid hobj
  have hget : t'.getGameData name id = some ⟨name, id, className obj, obj⟩ := by
    rw [GameTable.getGameData, hlookup]
    rfl
  exact ⟨_, hget, rfl, GameTable.mem_getAllGameData.2 ⟨rfl, hget⟩⟩

/-! ### What the world server finds -/

theorem rowsOf_import (db : Database) (files : List (String × List UInt8)) (t : GameTable) {name : String}
    (hname : name ∈ lookupNames) : (importD2o db files t).2.rowsOf name = t.rowsOf name := by
  refine import_changes_nothing db files t ?_
  rw [extension_lookupName name hname]
  exact (Option.some_ne_none _).symm

/-- Spells are loaded as they were before the import. -/
theorem loadSpellData_import (db : Database) (files : List (String × List UInt8)) (t : GameTable) (spellId : Int32)
    (spellLevel : Nat) :
    (importD2o db files t).2.loadSpellData spellId spellLevel = t.loadSpellData spellId spellLevel := by
  have hspells :=
    GameTable.getGameData_congr (rowsOf_import db files t (show "Spells" ∈ lookupNames by decide +kernel))
  have hlevels :=
    GameTable.getGameData_congr (rowsOf_import db files t (show "SpellLevels" ∈ lookupNames by decide +kernel))
  unfold GameTable.loadSpellData
  simp only [hspells, hlevels]

/-- The quests see the objects that they saw before the import. -/
theorem gameData_import (db : Database) (files : List (String × List UInt8)) (t : GameTable) {name : String}
    (hname : name ∈ lookupNames) : (importD2o db files t).2.gameData.objects name = t.gameData.objects name := by
  unfold GameTable.gameData
  dsimp only
  rw [GameTable.getAllGameData_congr (rowsOf_import db files t hname)]

open GameTable in
/-- The world server finds the objects of some files after their import if and only if it found them before. -/
theorem found_iff (db : Database) (files : List (String × List UInt8)) (t : GameTable) :
    (Found files (importD2o db files t).2 ↔ Found files t) ∧
    (Found files (importD2o db files ∅).2 ↔
      ∀ name ∈ lookupNames, ∀ data, (name ++ ".d2o", data) ∈ files → ∀ reader, D2OReader.fromBytes data = .ok reader →
        ∀ id ∈ reader.objectIds, ∀ obj, reader.readObject id ≠ .ok obj) := by
  have hsame : ∀ t : GameTable, Found files (importD2o db files t).2 ↔ Found files t := by
    intro t
    refine forall₂_congr fun name hname => forall₂_congr fun data hdata => forall₂_congr fun reader hreader => ?_
    refine forall₂_congr fun id hid => forall₂_congr fun obj hobj => ?_
    have hrows := rowsOf_import db files t hname
    rw [getGameData_congr hrows, getAllGameData_congr hrows]
  refine ⟨hsame t, (hsame ∅).trans ?_⟩
  refine forall₂_congr fun name hname => forall₂_congr fun data hdata => forall₂_congr fun reader hreader => ?_
  refine forall₂_congr fun id hid => forall_congr' fun obj => ?_
  constructor
  · intro h hobj
    obtain ⟨row, hrow, -⟩ := h hobj
    cases hrow
  · exact fun h hobj => absurd hobj h

/-- A file with one object of a class without fields. -/
def spellsFile : List UInt8 :=
  [68, 50, 79, 0, 0, 0, 11, 0, 0, 0, 1, 0, 0, 0, 8, 0, 0, 0, 1, 0, 0, 0, 7, 0, 0, 0, 1, 0, 0, 0, 1, 0, 0, 0,
    0, 0, 0, 0, 0]

/-- The object of `Spells.d2o` is found under this name, and not under `Spells`. -/
theorem spells_not_found :
    ((importD2o ⟨fun _ => true⟩ [("Spells.d2o", spellsFile)] ∅).2.getGameData "Spells.d2o" 1).isSome = true ∧
    ¬GameTable.Found [("Spells.d2o", spellsFile)] (importD2o ⟨fun _ => true⟩ [("Spells.d2o", spellsFile)] ∅).2 := by
  refine ⟨by decide +kernel, fun h => ?_⟩
  have hmissing :
    ((importD2o ⟨fun _ => true⟩ [("Spells.d2o", spellsFile)] ∅).2.getGameData "Spells" 1).isNone = true := by
    decide +kernel
  have hread : ((D2OReader.fromBytes spellsFile).toOption.bind fun reader =>
      if 1 ∈ reader.objectIds then (reader.readObject 1).toOption else none).isSome = true := by decide +kernel
  obtain ⟨obj, hobj⟩ := Option.isSome_iff_exists.1 hread
  obtain ⟨reader, hreader, hobj⟩ := Option.bind_eq_some_iff.1 hobj
  by_cases hid : (1 : Int32) ∈ reader.objectIds
  · rw [if_pos hid] at hobj
    obtain ⟨row, hrow, -⟩ := h "Spells" (by decide +kernel) spellsFile (by decide +kernel) reader
      (Outcome.toOption_eq_some.1 hreader) 1 hid obj (Outcome.toOption_eq_some.1 hobj)
    rw [hrow] at hmissing
    cases hmissing
  · rw [if_neg hid] at hobj
    cases hobj

end Otomai.DataReader
