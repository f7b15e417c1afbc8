import Otomai.Common.Dlm
import Otomai.Common.Path
import Otomai.DataReader.D2p
import Otomai.Memo.Table
import Otomai.Text.Numeral

/-!
# The maps of the world server

At its start the server reads the archives of maps of a directory, one after the other, and keeps each map as it is; a
map is parsed when a task first asks for it.  All tasks share the parsed maps.

* `newest_insertArchives`: a map is kept as the last archive has it that has it.
* `maps_served`: what the tasks are given.
-/

namespace Otomai.World

open Wire DataReader Common

/-! ### Reading the archives -/

/-- What follows the last dot of a file name that does not begin with it. -/
def extension (name : List Char) : Option (List Char) :=
  match Text.cutLast '.' name with
  | some (stem, ext) => if stem = [] then none else some ext
  | none => none

/-- The archives of a directory: files `maps*.d2p` with what they hold, if it can be read, by their names. -/
def d2pPaths (dir : List (String × Option (List UInt8))) : List (String × Option (List UInt8)) :=
  (dir.filter fun p => extension p.1.toList = some "d2p".toList ∧ "maps".toList <+: p.1.toList).insertionSort
    fun p q => p.1 ≤ q.1

/-- The number of a map from its file name, such as `3/154010883.dlm`. -/
def mapIdOf (fname : String) : Option Int :=
  let name := match Text.cutLast '/' fname.toList with
    | some (_, name) => name
    | none => fname.toList
  if ".dlm".toList <:+ name then Text.parseSigned (2 ^ 63) (name.take (name.length - 4)) else none

def insertFile (reader : DataReader.World.D2PReader) (rawMaps : HashMap Int (List UInt8)) (fname : String) :
    HashMap Int (List UInt8) :=
  if ".dlm".toList <:+ fname.toList then
    match mapIdOf fname with
    | some mapId =>
      match reader.readFile fname with
      | .ok data => rawMaps.insert mapId data
      | _ => rawMaps
    | none => rawMaps
  else rawMaps

inductive LoadError where
  | readingMapsDirectory
  | readingFile (path : String)
  | opening (path : String) (e : DataReader.World.D2PReader.Error)

def openArchive (path : String) : Option (List UInt8) → Outcome LoadError DataReader.World.D2PReader
  | some data => (DataReader.World.D2PReader.fromBytes data).mapErr (.opening path)
  | none => .err (.readingFile path)

/-- The archives one after the other; the files of an archive come in an order that the server does not choose. -/
def insertArchives (order : List String → List String) (rawMaps : HashMap Int (List UInt8)) :
    List (String × Option (List UInt8)) → Outcome LoadError (HashMap Int (List UInt8))
  | [] => .ok rawMaps
  | (path, file) :: paths => do
    let reader ← openArchive path file
    insertArchives order ((order reader.filenames).foldl (insertFile reader) rawMaps) paths

/-- A map that the parser accepts has as many cells as the grid. -/
structure ParsedMap where
  map : Dlm.MapData
  size : map.cells.length = mapCellsCount

/-- What walks, fights and transitions need of a map. -/
def ParsedMap.grid (m : ParsedMap) : MapData where
  topNeighbourId := m.map.topNeighbourId.toInt
  bottomNeighbourId := m.map.bottomNeighbourId.toInt
  leftNeighbourId := m.map.leftNeighbourId.toInt
  rightNeighbourId := m.map.rightNeighbourId.toInt
  cells := m.map.cells.map fun c => ⟨c.mov, c.nonWalkableDuringRp, c.los⟩
  size := by rw [List.length_map, m.size]

structure MapCache where
  rawMaps : HashMap Int (List UInt8)
  parsed : HashMap Int ParsedMap

namespace MapCache

def loadFromDir (order : List String → List String) (dir : Option (List (String × Option (List UInt8)))) :
    Outcome LoadError MapCache :=
  match dir with
  | some dir => do
    let rawMaps ← insertArchives order ∅ (d2pPaths dir)
    .ok ⟨rawMaps, ∅⟩
  | none => .err .readingMapsDirectory

def empty : MapCache := ⟨∅, ∅⟩

def rawCount (cache : MapCache) : Nat := cache.rawMaps.keys.length

end MapCache

/-! ### Asking for maps -/

def defaultMapKey : List UInt8 := "649ae451ca33ec53bbcbcc33becf15f4".toList.map fun c => UInt8.ofNat c.toNat

section

variable (decompress : List UInt8 → Option (List UInt8))

/-- `parse_dlm`. -/
def parseDlm (data : List UInt8) : Outcome Dlm.Error ParsedMap :=
  match h : Dlm.parseDlmWithKey decompress data defaultMapKey with
  | .ok map => .ok ⟨map, Dlm.length_cells h⟩
  | .err e => .err e
  | .panic => .panic
  | .exhausted => .exhausted

namespace MapCache

variable (cache : MapCache)

/-- What `get` computes where the map has not been parsed: it fails on a map that it does not have, and on one that
cannot be parsed. -/
def source (mapId : Int) : Outcome (Option Dlm.Error) ParsedMap :=
  match cache.rawMaps.lookup mapId with
  | some raw => (parseDlm decompress raw).mapErr some
  | none => .err none

/-- The parsed maps and the calls of `get` after some steps: each call reads the parsed maps under the lock, parses
without it, and writes under the lock. -/
def calls (es : List (Memo.Event Int)) : Memo.Table Int ParsedMap :=
  Memo.run (cache.source decompress) ⟨cache.parsed, []⟩ es

def parsedCount (s : Memo.Table Int ParsedMap) : Nat := s.stored.keys.length

/-- The maps as they are in the archives. -/
def maps (mapId : Int) : Option ParsedMap :=
  match cache.source decompress mapId with
  | .ok map => some map
  | _ => none

end MapCache

end

/-- `get_neighbour`, from the answer of `get`. -/
def getNeighbour (answer : Option ParsedMap) (direction : MapDirection) : Option Int :=
  answer.bind fun m => m.grid.neighbour direction

/-- `is_cell_walkable`, from the answer of `get`. -/
def isCellWalkable (answer : Option ParsedMap) (cellId : UInt16) : Bool :=
  answer.any fun m => m.grid.walkable cellId.toNat

/-- A neighbour is a map of a positive id. -/
theorem pos_of_getNeighbour {answer : Option ParsedMap} {direction : MapDirection} {mapId : Int}
    (h : getNeighbour answer direction = some mapId) : 0 < mapId := by
  obtain ⟨m, -, hm⟩ := Option.bind_eq_some_iff.1 h
  obtain ⟨hpos, heq⟩ := Option.ite_none_right_eq_some.1 hm
  rw [← Option.some.inj heq]
  exact hpos

/-- Only cells of the grid are walkable. -/
theorem lt_of_isCellWalkable {answer : Option ParsedMap} {cellId : UInt16} (h : isCellWalkable answer cellId = true) :
    cellId.toNat < mapCellsCount := by
  obtain ⟨m, -, hm⟩ := (Option.any_eq_true _ _).1 h
  exact MapData.lt_of_walkable hm

/-! ### What is kept of the archives -/

/-- What the data tool writes. -/
structure Archive where
  files : HashMap String (List UInt8)
  properties : HashMap String String
  names_fit : ∀ p ∈ files.pairs, Fits p.1
  properties_fit : ∀ p ∈ properties.pairs, Fits p.1 ∧ Fits p.2
  small : (writeD2p files properties).length < 2 ^ 32

namespace Archive

def bytes (a : Archive) : List UInt8 := writeD2p a.files a.properties

/-- The archive has these bytes as a map. -/
def Has (a : Archive) (mapId : Int) (data : List UInt8) : Prop :=
  ∃ name, a.files.lookup name = some data ∧ mapIdOf name = some mapId

end Archive

/-- A map of the last archive that has it. -/
inductive Newest (mapId : Int) : List Archive → Option (List UInt8) → Prop where
  | absent {archives : List Archive} (h : ∀ a ∈ archives, ∀ data, ¬a.Has mapId data) : Newest mapId archives none
  | last {before after : List Archive} {a : Archive} {data : List UInt8} (h : a.Has mapId data)
    (hafter : ∀ b ∈ after, ∀ data, ¬b.Has mapId data) : Newest mapId (before ++ a :: after) (some data)

/-- The whole name ends as its last part does. -/
theorem suffix_of_mapIdOf {fname : String} {mapId : Int} (h : mapIdOf fname = some mapId) :
    ".dlm".toList <:+ fname.toList := by
  unfold mapIdOf at h
  dsimp only at h
  cases hcut : Text.cutLast '/' fname.toList with
  | none =>
    rw [hcut] at h
    exact (Option.ite_none_right_eq_some.1 h).1
  | some p =>
    rw [hcut] at h
    refine (Option.ite_none_right_eq_some.1 h).1.trans ?_
    rw [Text.eq_of_cutLast hcut]
    exact (List.suffix_cons _ _).trans (List.suffix_append _ _)

/-- The pair that a file of an archive adds. -/
def pairOf (reader : DataReader.World.D2PReader) (fname : String) : Option (Int × List UInt8) :=
  match mapIdOf fname, reader.readFile fname with
  | some mapId, .ok data => some (mapId, data)
  | _, _ => none

theorem foldl_insertFile (reader : DataReader.World.D2PReader) (rawMaps : HashMap Int (List UInt8))
    (names : List String) :
    names.foldl (insertFile reader) rawMaps = rawMaps.insertAll (names.filterMap (pairOf reader)) := by
  induction names generalizing rawMaps with
  | nil => rfl
  | cons fname names ih =>
    rw [List.foldl_cons, ih, insertFile]
    cases hid : mapIdOf fname with
    | none =>
      have hpair : pairOf reader fname = none := by simp only [pairOf, hid]
      rw [List.filterMap_cons_none hpair]
      simp
    | some mapId =>
      rw [if_pos (suffix_of_mapIdOf hid)]
      cases hread : reader.readFile fname with
      | ok data =>
        have hpair : pairOf reader fname = some (mapId, data) := by simp only [pairOf, hid, hread]
        rw [List.filterMap_cons_some hpair]
        rfl
      | _ =>
        have hpair : pairOf reader fname = none := by simp only [pairOf, hid, hread]
        rw [List.filterMap_cons_none hpair]

/-- The readers of the data tool and of the world server have the files that were packed. -/
theorem Archive.exists_reader (a : Archive) :
    ∃ reader, DataReader.World.D2PReader.fromBytes a.bytes = .ok reader ∧
      ∀ name data, (name ∈ reader.filenames ∧ reader.readFile name = .ok data) ↔ a.files.lookup name = some data := by
  have hfrom := fromBytes_writeD2p a.names_fit a.properties_fit a.small
  have hunpacks : Unpacks a.files a.properties (packedReader a.files a.properties) := unpacks_packedReader a.small
  obtain ⟨reader, hreader, hagrees⟩ := world_agrees hfrom
  refine ⟨reader, hreader, fun name data => ⟨fun h => ?_, fun h => ⟨?_, ?_⟩⟩⟩
  · have hname := (hunpacks.filenames name).1 (hagrees.filenames.mem_iff.1 h.1)
    obtain ⟨packed, hpacked⟩ := Option.isSome_iff_exists.1 (AList.lookup_isSome.2 hname)
    have hread := (hagrees.readFile name data).1 h.2
    rw [hunpacks.readFile name packed hpacked] at hread
    rw [hpacked, Outcome.ok.inj hread]
  · refine hagrees.filenames.mem_iff.2 ((hunpacks.filenames name).2 ?_)
    exact AList.lookup_isSome.1 (Option.isSome_of_eq_some h)
  · exact (hagrees.readFile name data).2 (hunpacks.readFile name data h)

/-- In whatever order the files come, an archive adds the maps that it has. -/
theorem Archive.mem_pairs {a : Archive} {reader : DataReader.World.D2PReader} {order : List String → List String}
    (horder : ∀ names, (order names).Perm names)
    (hreader : ∀ name data, (name ∈ reader.filenames ∧ reader.readFile name = .ok data) ↔
      a.files.lookup name = some data) {mapId : Int} {data : List UInt8} :
    (mapId, data) ∈ (order reader.filenames).filterMap (pairOf reader) ↔ a.Has mapId data := by
  rw [List.mem_filterMap]
  constructor
  · rintro ⟨name, hname, hpair⟩
    unfold pairOf at hpair
    split at hpair
    · rename_i id bytes hid hread
      obtain ⟨rfl, rfl⟩ := Prod.mk.inj (Option.some.inj hpair)
      exact ⟨name, (hreader name bytes).1 ⟨(horder _).mem_iff.1 hname, hread⟩, hid⟩
    · cases hpair
  · rintro ⟨name, hlookup, hid⟩
    obtain ⟨hname, hread⟩ := (hreader name data).2 hlookup
    exact ⟨name, (horder _).mem_iff.2 hname, by simp only [pairOf, hid, hread]⟩

/-- A map is kept as the last archive has it that has it. -/
theorem newest_insertArchives {order : List String → List String} (horder : ∀ names, (order names).Perm names)
    (archives : List Archive) (paths : List (String × Option (List UInt8)))
    (hpaths : paths.map Prod.snd = archives.map fun a => some a.bytes) (rawMaps : HashMap Int (List UInt8)) :
    ∃ rawMaps', insertArchives order rawMaps paths = .ok rawMaps' ∧ ∀ mapId,
      (∃ data, rawMaps'.lookup mapId = some data ∧ Newest mapId archives (some data)) ∨
        (∀ a ∈ archives, ∀ data, ¬a.Has mapId data) ∧ rawMaps'.lookup mapId = rawMaps.lookup mapId := by
  induction archives generalizing paths rawMaps with
  | nil =>
    obtain rfl := List.map_eq_nil_iff.1 hpaths
    exact ⟨rawMaps, rfl, fun mapId => .inr ⟨fun a ha => absurd ha List.not_mem_nil, rfl⟩⟩
  | cons a archives ih =>
    obtain ⟨⟨path, file⟩, paths, rfl, hfile, hrest⟩ := List.map_eq_cons_iff.1 hpaths
    obtain rfl : file = some a.bytes := hfile
    obtain ⟨reader, hfrom, hreader⟩ := a.exists_reader
    obtain ⟨rawMaps', hinsert, hlookup⟩ := ih paths hrest ((order reader.filenames).foldl (insertFile reader) rawMaps)
    refine ⟨rawMaps', ?_, fun mapId => ?_⟩
    · rw [insertArchives, openArchive, hfrom, Outcome.mapErr_ok, Outcome.ok_bind]
      exact hinsert
    · rcases hlookup mapId with ⟨data, hdata, hnewest⟩ | ⟨hnone, hdata⟩
      · refine .inl ⟨data, hdata, ?_⟩
        cases hnewest with
        | @last before after b _ h hafter => exact @Newest.last mapId (a :: before) after b data h hafter
      · rw [foldl_insertFile] at hdata
        -- no later archive has the map: it is this one's, or from before
        by_cases hkey : mapId ∈ ((order reader.filenames).filterMap (pairOf reader)).map Prod.fst
        · have hmem := (@HashMap.mem_insertAll _ _ _ rawMaps _ _).2 (.inr hkey)
          obtain ⟨data, hlast⟩ := Option.isSome_iff_exists.1 (AList.lookup_isSome.2 hmem)
          rcases HashMap.split_of_lookup_insertAll hlast with ⟨qs, rs, hpairs, -⟩ | ⟨hnot, -⟩
          · have hhas : a.Has mapId data := (Archive.mem_pairs horder hreader).1 (by rw [hpairs]; simp)
            exact .inl ⟨data, hdata.trans hlast, @Newest.last mapId [] archives a data hhas hnone⟩
          · exact absurd hkey hnot
        · refine .inr ⟨fun b hb data hhas => ?_, hdata.trans (HashMap.lookup_insertAll_of_notMem hkey)⟩
          rcases List.mem_cons.1 hb with rfl | hb
          · exact hkey (List.mem_map.2 ⟨(mapId, data), (Archive.mem_pairs horder hreader).2 hhas, rfl⟩)
          · exact hnone b hb data hhas

/-! ### What the tasks are given -/

variable {decompress : List UInt8 → Option (List UInt8)} {cache : MapCache}

/-- The map stands for an encrypted part of negative length. -/
def Unreadable (decompress : List UInt8 → Option (List UInt8)) (data : List UInt8) : Prop :=
  ∃ content, Dlm.content decompress data = some content ∧ Dlm.NegativeLength content

theorem ends_parseDlm (data : List UInt8) : (parseDlm decompress data).Ends ↔ ¬Unreadable decompress data := by
  have hends := Dlm.ends_parseDlmWithKey decompress data defaultMapKey
  have hsame : (parseDlm decompress data).Ends ↔ (Dlm.parseDlmWithKey decompress data defaultMapKey).Ends := by
    unfold parseDlm
    split <;> simp [*]
  rw [hsame, hends, Unreadable]
  simp

/-- Calls that share the parsed maps. -/
structure Served (decompress : List UInt8 → Option (List UInt8)) (cache : MapCache) (es : List (Memo.Event Int)) :
    Prop where
  answered : ∀ (mapId : Int) (answer : Option ParsedMap),
    .answered mapId answer ∈ (cache.calls decompress es).threads → answer = cache.maps decompress mapId
  failed : ∀ mapId : Int, .failed mapId ∈ (cache.calls decompress es).threads →
    ∃ data, cache.rawMaps.lookup mapId = some data ∧ Unreadable decompress data
  /-- A parsed map stays. -/
  kept : ∀ (es' : List (Memo.Event Int)) (mapId : Int) (map : ParsedMap),
    (cache.calls decompress es).stored.lookup mapId = some map →
      (cache.calls decompress (es ++ es')).stored.lookup mapId = some map
  count : MapCache.parsedCount (cache.calls decompress es) ≤ cache.rawCount
  /-- After three steps of its own a call is done. -/
  ends : ∀ (es' : List (Memo.Event Int)) (i : Nat) (t : Memo.Thread Int ParsedMap),
    (cache.calls decompress es).threads[i]? = some t → 3 ≤ Memo.turns i es' →
      (∃ answer, (cache.calls decompress (es ++ es')).threads[i]? = some (.answered t.key answer)) ∨
        (cache.calls decompress (es ++ es')).threads[i]? = some (.failed t.key)

theorem maps_eq_of_answers {mapId : Int} {answer : Option ParsedMap}
    (h : Memo.Answers (cache.source decompress) mapId answer) : answer = cache.maps decompress mapId := by
  cases answer with
  | some map =>
    have hsource : cache.source decompress mapId = .ok map := h
    simp only [MapCache.maps, hsource]
  | none =>
    obtain ⟨e, hsource⟩ := h
    simp only [MapCache.maps, hsource]

theorem calls_append (es es' : List (Memo.Event Int)) :
    cache.calls decompress (es ++ es') = Memo.run (cache.source decompress) (cache.calls decompress es) es' :=
  List.foldl_append

theorem served (hparsed : cache.parsed = ∅) (es : List (Memo.Event Int)) : Served decompress cache es := by
  have hstart : Memo.Inv (cache.source decompress) ⟨cache.parsed, []⟩ := by
    refine ⟨fun key value hvalue => ?_, fun t ht => absurd ht List.not_mem_nil⟩
    rw [hparsed] at hvalue
    cases hvalue
  have hinv : Memo.Inv (cache.source decompress) (cache.calls decompress es) := hstart.run es
  refine ⟨fun mapId answer ht => ?_, fun mapId ht => ?_, fun es' mapId map hmap => ?_, ?_,
    fun es' i t hi hturns => ?_⟩
  · exact maps_eq_of_answers (hinv.threads _ ht)
  · have hfailed : ¬(cache.source decompress mapId).Ends := hinv.threads _ ht
    unfold MapCache.source at hfailed
    cases hdata : cache.rawMaps.lookup mapId with
    | none =>
      rw [hdata] at hfailed
      exact absurd trivial hfailed
    | some data =>
      rw [hdata] at hfailed
      refine ⟨data, rfl, ?_⟩
      by_contra hnot
      exact hfailed (Outcome.ends_mapErr.2 ((ends_parseDlm data).2 hnot))
  · rw [calls_append]
    exact Memo.lookup_run hinv es' hmap
  · refine hinv.sound.length_le fun mapId map hmap => ?_
    rw [← AList.mem_keys, ← AList.lookup_isSome]
    unfold MapCache.source at hmap
    cases hdata : cache.rawMaps.lookup mapId with
    | none =>
      rw [hdata] at hmap
      cases hmap
    | some data => rfl
  · rw [calls_append]
    exact Memo.ended_of_turns hi hturns

/-- In whatever order the files of an archive come, the server loads archives that the data tool has written, and
keeps each map as the last archive has it; and however the calls are interleaved, each is answered with that map. -/
theorem maps_served (decompress : List UInt8 → Option (List UInt8)) (order : List String → List String)
    (horder : ∀ names, (order names).Perm names) (dir : List (String × Option (List UInt8))) (archives : List Archive)
    (hdir : (d2pPaths dir).map Prod.snd = archives.map fun a => some a.bytes) :
    ∃ cache, MapCache.loadFromDir order (some dir) = .ok cache ∧
      (∀ mapId, Newest mapId archives (cache.rawMaps.lookup mapId)) ∧
      ∀ es : List (Memo.Event Int), Served decompress cache es := by
  obtain ⟨rawMaps, hinsert, hlookup⟩ := newest_insertArchives horder archives (d2pPaths dir) hdir ∅
  refine ⟨⟨rawMaps, ∅⟩, ?_, fun mapId => ?_, served rfl⟩
  · rw [MapCache.loadFromDir, hinsert, Outcome.ok_bind]
  · rcases hlookup mapId with ⟨data, hdata, hnewest⟩ | ⟨hnone, hdata⟩
    · rw [hdata]
      exact hnewest
    · rw [hdata]
      exact Newest.absent hnone

/-- Maps that do not end as maps do. -/
def sampleArchive : Archive where
  files := threeFiles
  properties := archiveProperties
  names_fit := by decide +kernel
  properties_fit := by decide +kernel
  small := by decide +kernel

def sampleDir : List (String × Option (List UInt8)) :=
  [("maps.txt", none), ("maps0.d2p", some sampleArchive.bytes), ("bitmaps.d2p", none)]

/-- Two tasks ask for the map at the same time. -/
def sampleCalls : List (Memo.Event Int) :=
  [.ask 154010883, .ask 154010883, .turn 0, .turn 1, .turn 1, .turn 0, .turn 0]

theorem maps_served_sample : ∃ cache, MapCache.loadFromDir id (some sampleDir) = .ok cache ∧
    Newest 154010883 [sampleArchive] (cache.rawMaps.lookup 154010883) ∧
    Served (fun _ => none) cache sampleCalls := by
  have hdir : (d2pPaths sampleDir).map Prod.snd = [some sampleArchive.bytes] := by decide +kernel
  obtain ⟨cache, hload, hnewest, hserved⟩ := maps_served (fun _ => none) id (fun names => List.Perm.refl names)
    sampleDir [sampleArchive] hdir
  exact ⟨cache, hload, hnewest 154010883, hserved sampleCalls⟩

end Otomai.World
