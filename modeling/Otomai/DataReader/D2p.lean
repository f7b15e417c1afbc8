import Otomai.DataReader.File

/-!
# Archives

`D2PReader` and `write_d2p` of the data tool, and the reader of the same format in the map cache of the world server.
An archive holds its files, then properties, then an index of the files; the last twenty-four bytes tell where these
parts begin.

* `unpacks_packedReader`: what `write_d2p` packed is what the data tool unpacks.
* `world_agrees`: an archive that the data tool accepts is accepted by the world server, with the same files.
-/

namespace Otomai.DataReader

open Wire BigEndianReader BigEndianWriter

/-- The last twenty-four bytes of an archive. -/
structure Footer where
  dataOffset : UInt32
  dataCount : UInt32
  indexOffset : UInt32
  indexCount : UInt32
  propertiesOffset : UInt32
  propertiesCount : UInt32
  deriving DecidableEq, Repr

def readFooter : BigEndianReader Footer := do
  let dataOffset ← readUint
  let dataCount ← readUint
  let indexOffset ← readUint
  let indexCount ← readUint
  let propertiesOffset ← readUint
  let propertiesCount ← readUint
  pure { dataOffset, dataCount, indexOffset, indexCount, propertiesOffset, propertiesCount }

/-! ### The data tool -/

structure D2PEntry where
  filename : String
  offset : UInt32
  length : UInt32
  deriving DecidableEq, Repr

structure D2PReader where
  data : List UInt8
  entries : HashMap String D2PEntry
  properties : HashMap String String

namespace D2PReader

inductive Error where
  | tooSmall
  | fileNotFound (filename : String)
  | outOfBounds (filename : String) (start stop size : Nat)
  | io (e : IoError)
  deriving DecidableEq, Repr

def Error.message : Error → String
  | tooSmall => "D2P file too small"
  | fileNotFound filename => "File '" ++ filename ++ "' not found in D2P"
  | outOfBounds filename start stop size =>
      "D2P entry '" ++ filename ++ "' out of bounds: " ++ toString start ++ ".." ++ toString stop ++
        " (file size " ++ toString size ++ ")"
  | io e => e.message

def readProperty : BigEndianReader (String × String) := do
  let key ← readUtf
  let value ← readUtf
  pure (key, value)

def readEntry (dataOffset : UInt32) : BigEndianReader (String × D2PEntry) := do
  let filename ← readUtf
  let offset ← readUint
  let length ← readUint
  pure (filename, { filename, offset := offset + dataOffset, length })

def fromBytes (data : List UInt8) : Outcome Error D2PReader :=
  if data.length < 26 then .err .tooSmall
  else do
    let (footer, _) ← (readFooter (.seek data (data.length - 24))).mapErr .io
    let (properties, _) ← (Wire.Reader.replicate readProperty footer.propertiesCount.toNat
      (.seek data footer.propertiesOffset.toNat)).mapErr .io
    let (entries, _) ← (Wire.Reader.replicate (readEntry footer.dataOffset) footer.indexCount.toNat
      (.seek data footer.indexOffset.toNat)).mapErr .io
    .ok { data, entries := .ofPairs entries, properties := .ofPairs properties }

def filenames (reader : D2PReader) : List String := reader.entries.keys.insertionSort (· ≤ ·)

def readFile (reader : D2PReader) (filename : String) : Outcome Error (List UInt8) :=
  match reader.entries.lookup filename with
  | none => .err (.fileNotFound filename)
  | some entry =>
    let start := entry.offset.toNat
    let stop := start + entry.length.toNat
    if reader.data.length < stop then .err (.outOfBounds filename start stop reader.data.length)
    else .ok ((reader.data.drop start).take (stop - start))

end D2PReader

/-! ### Packing -/

def writeFileEntry (e : String × UInt32 × UInt32) : List UInt8 := writeUtf e.1 ++ (writeUint e.2.1 ++ writeUint e.2.2)

def writeProperty (p : String × String) : List UInt8 := writeUtf p.1 ++ writeUtf p.2

def writeFooter (footer : Footer) : List UInt8 :=
  writeUint footer.dataOffset ++ (writeUint footer.dataCount ++ (writeUint footer.indexOffset ++
    (writeUint footer.indexCount ++ (writeUint footer.propertiesOffset ++ writeUint footer.propertiesCount))))

def writeD2p (files : HashMap String (List UInt8)) (properties : HashMap String String) : List UInt8 :=
  let buf := writeByte 2 ++ writeByte 1
  let dataOffset : UInt32 := 2
  let fileEntries := (place (fun p => writeBytes p.2) buf.length files.sorted).map fun q =>
    (q.1.1, UInt32.ofNat q.2 - dataOffset, UInt32.ofNat q.1.2.length)
  let buf := buf ++ files.sorted.flatMap fun p => writeBytes p.2
  let propertiesOffset := UInt32.ofNat buf.length
  let propertiesCount := UInt32.ofNat properties.sorted.length
  let buf := buf ++ properties.sorted.flatMap writeProperty
  let indexOffset := UInt32.ofNat buf.length
  let indexCount := UInt32.ofNat fileEntries.length
  let buf := buf ++ fileEntries.flatMap writeFileEntry
  let dataCount := indexOffset - dataOffset
  buf ++ writeFooter { dataOffset, dataCount, indexOffset, indexCount, propertiesOffset, propertiesCount }

/-! ### The world server -/

namespace World

/-- The length of the bytes that are replaced by one replacement character: the longest beginning of a character that
the next byte does not continue. -/
def invalidLength : List UInt8 → Nat
  | b₀ :: b₁ :: rest =>
    let continues (b : UInt8) : Bool := 0x80 ≤ b && b ≤ 0xBF
    let second : Bool :=
      if b₀ = 0xE0 then 0xA0 ≤ b₁ && b₁ ≤ 0xBF
      else if b₀ = 0xED then 0x80 ≤ b₁ && b₁ ≤ 0x9F
      else if 0xE1 ≤ b₀ && b₀ ≤ 0xEF then continues b₁
      else if b₀ = 0xF0 then 0x90 ≤ b₁ && b₁ ≤ 0xBF
      else if 0xF1 ≤ b₀ && b₀ ≤ 0xF3 then continues b₁
      else b₀ = 0xF4 && 0x80 ≤ b₁ && b₁ ≤ 0x8F
    if second then
      match rest with
      | b₂ :: _ => if 0xF0 ≤ b₀ && continues b₂ then 3 else 2
      | [] => 2
    else 1
  | _ => 1

/-- The characters of some bytes, one unit of fuel for each of them. -/
def lossyChars : Nat → List UInt8 → List Char
  | 0, _ => []
  | fuel + 1, v =>
    if v = [] then []
    else
      match (⟨v.toArray⟩ : ByteArray).utf8DecodeChar? 0 with
      | some c => c :: lossyChars fuel (v.drop c.utf8Size)
      | none => '\uFFFD' :: lossyChars fuel (v.drop (invalidLength v))

/-- `String::from_utf8_lossy`: a valid string as it is, otherwise with replacement characters. -/
def fromUtf8Lossy (v : List UInt8) : String :=
  match String.fromUTF8? ⟨v.toArray⟩ with
  | some s => s
  | none => String.ofList (lossyChars v.length v)

structure D2PEntry where
  offset : UInt32
  length : UInt32
  deriving DecidableEq, Repr

structure D2PReader where
  data : List UInt8
  entries : HashMap String D2PEntry

namespace D2PReader

inductive Error where
  | tooSmall
  | fileNotFound
  | outOfBounds
  | io (e : IoError)
  deriving DecidableEq, Repr

def Error.message : Error → String
  | tooSmall => "D2P file too small"
  | fileNotFound => "File not found in D2P"
  | outOfBounds => "D2P entry out of bounds"
  | io e => e.message

def readEntry (dataOffset : UInt32) : BigEndianReader (String × D2PEntry) := do
  let nameLen ← readUshort
  let nameBuf ← readBytes nameLen.toNat
  let name := fromUtf8Lossy nameBuf
  let offset ← readUint
  let length ← readUint
  pure (name, { offset := offset + dataOffset, length })

def fromBytes (data : List UInt8) : Outcome Error D2PReader :=
  if data.length < 26 then .err .tooSmall
  else do
    let (footer, _) ← (readFooter (.seek data (data.length - 24))).mapErr .io
    let (entries, _) ← (Wire.Reader.replicate (readEntry footer.dataOffset) footer.indexCount.toNat
      (.seek data footer.indexOffset.toNat)).mapErr .io
    .ok { data, entries := .ofPairs entries }

def filenames (reader : D2PReader) : List String := reader.entries.keys

def readFile (reader : D2PReader) (name : String) : Outcome Error (List UInt8) :=
  match reader.entries.lookup name with
  | none => .err .fileNotFound
  | some entry =>
    let start := entry.offset.toNat
    let stop := start + entry.length.toNat
    if reader.data.length < stop then .err .outOfBounds else .ok ((reader.data.drop start).take (stop - start))

end D2PReader

end World

/-! ### What was packed is unpacked -/

/-- The reader gives back these files and properties. -/
structure Unpacks (files : HashMap String (List UInt8)) (properties : HashMap String String) (reader : D2PReader) :
    Prop where
  filenames : ∀ name, name ∈ reader.filenames ↔ name ∈ files
  readFile : ∀ name data, files.lookup name = some data → reader.readFile name = .ok data
  properties : ∀ key, reader.properties.lookup key = properties.lookup key

theorem reads_footer (footer : Footer) : Reads readFooter (writeFooter footer) footer :=
  (reads_uint _).bind ((reads_uint _).bind ((reads_uint _).bind ((reads_uint _).bind ((reads_uint _).bind
    ((reads_uint _).map (Reads.pure _))))))

theorem reads_property {p : String × String} (h : Fits p.1 ∧ Fits p.2) :
    Reads D2PReader.readProperty (writeProperty p) p :=
  (reads_utf h.1).bind ((reads_utf h.2).map (Reads.pure _))

/-- The entry of the reader for an entry of the index. -/
def entryOf (dataOffset : UInt32) (e : String × UInt32 × UInt32) : String × D2PEntry :=
  (e.1, { filename := e.1, offset := e.2.1 + dataOffset, length := e.2.2 })

theorem reads_entry {dataOffset : UInt32} {e : String × UInt32 × UInt32} (h : Fits e.1) :
    Reads (D2PReader.readEntry dataOffset) (writeFileEntry e) (entryOf dataOffset e) :=
  (reads_utf h).bind ((reads_uint _).bind ((reads_uint _).map (Reads.pure _)))

section

variable (files : HashMap String (List UInt8)) (properties : HashMap String String)

def fileBytes : List UInt8 := files.sorted.flatMap fun p => writeBytes p.2

def propertyBytes : List UInt8 := properties.sorted.flatMap writeProperty

def placedFiles : List ((String × List UInt8) × Nat) := place (fun p => writeBytes p.2) 2 files.sorted

def fileEntries : List (String × UInt32 × UInt32) :=
  (placedFiles files).map fun q => (q.1.1, UInt32.ofNat q.2 - 2, UInt32.ofNat q.1.2.length)

def indexBytes : List UInt8 := (fileEntries files).flatMap writeFileEntry

def footerOf : Footer where
  dataOffset := 2
  dataCount := UInt32.ofNat (2 + (fileBytes files).length + (propertyBytes properties).length) - 2
  indexOffset := UInt32.ofNat (2 + (fileBytes files).length + (propertyBytes properties).length)
  indexCount := UInt32.ofNat (fileEntries files).length
  propertiesOffset := UInt32.ofNat (2 + (fileBytes files).length)
  propertiesCount := UInt32.ofNat properties.sorted.length

theorem writeD2p_eq : writeD2p files properties =
    [2, 1] ++ (fileBytes files ++ (propertyBytes properties ++ (indexBytes files ++
      writeFooter (footerOf files properties)))) := by
  have hheader : writeByte 2 ++ writeByte 1 = [2, 1] := rfl
  unfold writeD2p
  simp only [hheader, List.length_append, List.append_assoc, fileBytes, propertyBytes, indexBytes, fileEntries,
    placedFiles, footerOf, Nat.add_assoc]
  rfl

end

section

variable {files : HashMap String (List UInt8)} {properties : HashMap String String}

theorem length_writeFooter (footer : Footer) : (writeFooter footer).length = 24 := by
  simp [writeFooter]

/-- Where the parts of an archive stand. -/
theorem archive_parts (files : HashMap String (List UInt8)) (properties : HashMap String String) :
    fileBytes files <+: (writeD2p files properties).drop 2 ∧
    propertyBytes properties <+: (writeD2p files properties).drop (2 + (fileBytes files).length) ∧
    indexBytes files <+:
      (writeD2p files properties).drop (2 + (fileBytes files).length + (propertyBytes properties).length) ∧
    writeFooter (footerOf files properties) <+:
      (writeD2p files properties).drop ((writeD2p files properties).length - 24) ∧
    (writeD2p files properties).length =
      2 + (fileBytes files).length + (propertyBytes properties).length + (indexBytes files).length + 24 := by
  have hlength : (writeD2p files properties).length =
      2 + (fileBytes files).length + (propertyBytes properties).length + (indexBytes files).length + 24 := by
    simp only [writeD2p_eq, List.length_append, length_writeFooter, List.length_cons, List.length_nil]
    omega
  have h : fileBytes files ++ (propertyBytes properties ++ (indexBytes files ++
      writeFooter (footerOf files properties))) <+: (writeD2p files properties).drop 2 := by
    rw [writeD2p_eq]
    exact List.prefix_rfl
  rw [append_prefix_drop, append_prefix_drop, append_prefix_drop] at h
  have hend : (writeD2p files properties).length - 24 =
      2 + (fileBytes files).length + (propertyBytes properties).length + (indexBytes files).length := by omega
  rw [hend]
  exact ⟨h.1, h.2.1, h.2.2.1, h.2.2.2, hlength⟩

theorem map_fst_fileEntries (files : HashMap String (List UInt8)) :
    (fileEntries files).map Prod.fst = files.sorted.map Prod.fst := by
  have h := congrArg (List.map Prod.fst)
    (@map_fst_place _ (fun p : String × List UInt8 => writeBytes p.2) files.sorted 2)
  rw [← h, fileEntries, placedFiles, List.map_map, List.map_map]
  rfl

/-- The reader of a packed archive. -/
def packedReader (files : HashMap String (List UInt8)) (properties : HashMap String String) : D2PReader where
  data := writeD2p files properties
  entries := .ofPairs ((fileEntries files).map (entryOf 2))
  properties := .ofPairs properties.sorted

theorem fromBytes_writeD2p (hfiles : ∀ p ∈ files.pairs, Fits p.1)
    (hproperties : ∀ p ∈ properties.pairs, Fits p.1 ∧ Fits p.2)
    (hsize : (writeD2p files properties).length < 2 ^ 32) :
    D2PReader.fromBytes (writeD2p files properties) = .ok (packedReader files properties) := by
  obtain ⟨-, hP, hI, hF, hlength⟩ := archive_parts files properties
  have hfooter := (reads_footer (footerOf files properties)).seek hF
  have hcountP : properties.sorted.length ≤ (propertyBytes properties).length :=
    length_le_flatMap fun p _ => List.ne_nil_of_length_pos (by
      rw [writeProperty, List.length_append, length_writeUtf]
      omega)
  have hcountI : (fileEntries files).length ≤ (indexBytes files).length :=
    length_le_flatMap fun e _ => List.ne_nil_of_length_pos (by
      rw [writeFileEntry, List.length_append, length_writeUtf]
      omega)
  have hentry : ∀ e ∈ fileEntries files, Fits e.1 := by
    intro e he
    have hname : e.1 ∈ files.sorted.map Prod.fst := by
      rw [← map_fst_fileEntries]
      exact List.mem_map_of_mem he
    obtain ⟨p, hp, hname⟩ := List.mem_map.1 hname
    rw [← hname]
    exact hfiles p (HashMap.mem_sorted.1 hp)
  have hprops := (Reads.replicate properties.sorted fun p hp =>
    reads_property (hproperties p (HashMap.mem_sorted.1 hp))).seek hP
  have hindex := (Reads.replicate_map (fileEntries files) fun e he => @reads_entry 2 _ (hentry e he)).seek hI
  have hofNat : ∀ {n : Nat}, n < 2 ^ 32 → (UInt32.ofNat n).toNat = n := fun h => UInt32.toNat_ofNat_of_lt' h
  unfold D2PReader.fromBytes
  rw [if_neg (by omega), hfooter, Outcome.mapErr_ok, Outcome.ok_bind]
  dsimp only
  rw [footerOf, hofNat (by omega), hofNat (by omega), hprops, Outcome.mapErr_ok, Outcome.ok_bind]
  dsimp only
  rw [hofNat (by omega), hofNat (by omega), hindex]
  rfl

theorem lookup_packedReader {name : String} {data : List UInt8} (h : files.lookup name = some data) :
    ∃ offset, (packedReader files properties).entries.lookup name =
        some { filename := name, offset := UInt32.ofNat offset - 2 + 2, length := UInt32.ofNat data.length } ∧
      data <+: (writeD2p files properties).drop offset ∧ offset + data.length ≤ 2 + (fileBytes files).length := by
  have hmem := HashMap.mem_sorted.2 (HashMap.lookup_eq_some.1 h)
  rw [← @map_fst_place _ (fun p : String × List UInt8 => writeBytes p.2) files.sorted 2] at hmem
  obtain ⟨⟨p, offset⟩, hplace, hp⟩ := List.mem_map.1 hmem
  obtain rfl : p = (name, data) := hp
  obtain ⟨hpre, -, hle⟩ := place_prefix (archive_parts files properties).1 hplace
  refine ⟨offset, (HashMap.lookup_ofPairs ?_).2 ?_, hpre, hle⟩
  · have hkeys : ((fileEntries files).map (entryOf 2)).map Prod.fst = files.sorted.map Prod.fst := by
      rw [← map_fst_fileEntries, List.map_map]
      rfl
    rw [hkeys]
    exact files.nodup_sorted
  · exact List.mem_map_of_mem (f := entryOf 2) (List.mem_map_of_mem
      (f := fun q : (String × List UInt8) × Nat => (q.1.1, UInt32.ofNat q.2 - 2, UInt32.ofNat q.1.2.length)) hplace)

theorem unpacks_packedReader (hsize : (writeD2p files properties).length < 2 ^ 32) :
    Unpacks files properties (packedReader files properties) := by
  obtain ⟨-, -, -, -, hlength⟩ := archive_parts files properties
  refine ⟨fun name => ?_, fun name data h => ?_, fun key => ?_⟩
  · have hkeys : ((fileEntries files).map (entryOf 2)).map Prod.fst = files.sorted.map Prod.fst := by
      rw [← map_fst_fileEntries, List.map_map]
      rfl
    rw [D2PReader.filenames, List.mem_insertionSort, ← AList.mem_keys, packedReader, HashMap.mem_ofPairs, hkeys,
      HashMap.mem_map_fst_sorted]
  · obtain ⟨offset, hlookup, hpre, hle⟩ := @lookup_packedReader _ properties _ _ h
    have hoffset : (UInt32.ofNat offset - 2 + 2).toNat = offset := by
      rw [UInt32.sub_add_cancel]
      exact UInt32.toNat_ofNat_of_lt' (show offset < 2 ^ 32 by omega)
    have hdata : (UInt32.ofNat data.length).toNat = data.length :=
      UInt32.toNat_ofNat_of_lt' (show data.length < 2 ^ 32 by omega)
    have hbytes : (packedReader files properties).data = writeD2p files properties := rfl
    unfold D2PReader.readFile
    rw [hlookup]
    dsimp only
    rw [hoffset, hdata, hbytes, if_neg (by omega), Nat.add_sub_cancel_left]
    rw [← List.prefix_iff_eq_take.1 hpre]
  · refine Option.ext fun value => ?_
    rw [packedReader, HashMap.lookup_ofPairs properties.nodup_sorted, HashMap.mem_sorted, HashMap.lookup_eq_some]

end

/-! ### The two readers agree -/

/-- The two readers of an archive know the same files, and read them alike. -/
structure Agrees (reader : D2PReader) (world : World.D2PReader) : Prop where
  filenames : world.filenames.Perm reader.filenames
  readFile : ∀ name data, world.readFile name = .ok data ↔ reader.readFile name = .ok data
  readFile_err : ∀ name, (∃ e, world.readFile name = .err e) ↔ ∃ e, reader.readFile name = .err e

/-- What the world server keeps of an entry. -/
def D2PEntry.forWorld (entry : D2PEntry) : World.D2PEntry := { offset := entry.offset, length := entry.length }

theorem readEntry_forWorld {dataOffset : UInt32} {c c' : Cursor} {p : String × D2PEntry}
    (h : D2PReader.readEntry dataOffset c = .ok (p, c')) :
    World.D2PReader.readEntry dataOffset c = .ok ((p.1, p.2.forWorld), c') := by
  obtain ⟨⟨filename, c₁⟩, hname, h⟩ := Outcome.bind_eq_ok.1 h
  obtain ⟨⟨offset, c₂⟩, hoffset, h⟩ := Outcome.bind_eq_ok.1 h
  obtain ⟨⟨length, c₃⟩, hlength, h⟩ := Outcome.bind_eq_ok.1 h
  obtain ⟨rfl, rfl⟩ := Prod.mk.inj (Outcome.ok.inj h)
  obtain ⟨⟨nameLen, d⟩, hlen, hname⟩ := Outcome.bind_eq_ok.1 hname
  obtain ⟨⟨buf, d'⟩, hbuf, hname⟩ := Outcome.bind_eq_ok.1 hname
  dsimp only at hname hoffset hlength hbuf
  have hlossy : World.fromUtf8Lossy buf = filename ∧ d' = c₁ := by
    unfold World.fromUtf8Lossy
    cases hs : String.fromUTF8? ⟨buf.toArray⟩ with
    | none =>
      rw [hs] at hname
      cases hname
    | some s =>
      rw [hs] at hname
      exact Prod.mk.inj (Outcome.ok.inj hname)
  obtain ⟨rfl, rfl⟩ := hlossy
  simp only [World.D2PReader.readEntry, Wire.Reader.bind_apply, hlen, hbuf, hoffset, hlength, Outcome.ok_bind]
  rfl

/-- An archive that the data tool accepts is accepted by the world server, with the same files. -/
theorem world_agrees {data : List UInt8} {reader : D2PReader} (h : D2PReader.fromBytes data = .ok reader) :
    ∃ world, World.D2PReader.fromBytes data = .ok world ∧ Agrees reader world := by
  unfold D2PReader.fromBytes at h
  split at h
  · cases h
  rename_i hsize
  obtain ⟨⟨footer, c⟩, hfooter, h⟩ := Outcome.bind_eq_ok.1 h
  obtain ⟨⟨properties, c'⟩, -, h⟩ := Outcome.bind_eq_ok.1 h
  obtain ⟨⟨entries, c''⟩, hentries, h⟩ := Outcome.bind_eq_ok.1 h
  obtain rfl := Outcome.ok.inj h
  have hworld := Wire.Reader.replicate_ok_map (f := fun p : String × D2PEntry => (p.1, p.2.forWorld))
    (fun _ _ _ => readEntry_forWorld) _ (Outcome.mapErr_eq_ok.1 hentries)
  refine ⟨{ data, entries := .ofPairs (entries.map fun p => (p.1, p.2.forWorld)) }, ?_, ?_, fun name bytes => ?_,
    fun name => ?_⟩
  · unfold World.D2PReader.fromBytes
    rw [if_neg hsize, Outcome.mapErr_eq_ok.1 hfooter, Outcome.mapErr_ok, Outcome.ok_bind]
    dsimp only
    rw [hworld]
    rfl
  · have hkeys : (HashMap.ofPairs (entries.map fun p => (p.1, p.2.forWorld))).keys = (HashMap.ofPairs entries).keys :=
      HashMap.keys_ofPairs_map D2PEntry.forWorld entries
    rw [World.D2PReader.filenames, hkeys]
    exact (List.perm_insertionSort _ _).symm
  all_goals
    unfold World.D2PReader.readFile D2PReader.readFile
    rw [HashMap.lookup_ofPairs_map D2PEntry.forWorld]
    cases (HashMap.ofPairs entries).lookup name with
    | none => simp
    | some entry =>
      simp only [Option.map_some, D2PEntry.forWorld]
      split <;> simp

/-- What is packed is unpacked, and the two readers agree. -/
theorem d2p_round_trip_and_agreement :
    (∀ (files : HashMap String (List UInt8)) (properties : HashMap String String), (∀ p ∈ files.pairs, Fits p.1) →
      (∀ p ∈ properties.pairs, Fits p.1 ∧ Fits p.2) → (writeD2p files properties).length < 2 ^ 32 →
      ∃ reader, D2PReader.fromBytes (writeD2p files properties) = .ok reader ∧ Unpacks files properties reader) ∧
    ∀ (data : List UInt8) (reader : D2PReader), D2PReader.fromBytes data = .ok reader →
      ∃ world, World.D2PReader.fromBytes data = .ok world ∧ Agrees reader world :=
  ⟨fun _ _ hfiles hproperties hsize =>
    ⟨_, fromBytes_writeD2p hfiles hproperties hsize, unpacks_packedReader hsize⟩, fun _ _ => world_agrees⟩

/-- Three files, one of which is empty. -/
def threeFiles : HashMap String (List UInt8) :=
  .ofPairs [("0/154010883.dlm", [77, 1, 2]), ("0/154010884.dlm", []), ("été.dlm", [7, 7, 7, 7, 7])]

def archiveProperties : HashMap String String := .ofPairs [("version", "2.69"), ("link", "maps1.d2p"), ("note", "")]

theorem d2p_round_trip_and_agreement_threeFiles :
    (∃ reader, D2PReader.fromBytes (writeD2p threeFiles archiveProperties) = .ok reader ∧
      Unpacks threeFiles archiveProperties reader) ∧
    ∃ world, World.D2PReader.fromBytes (writeD2p threeFiles archiveProperties) = .ok world ∧
      Agrees (packedReader threeFiles archiveProperties) world := by
  have hfiles : ∀ p ∈ threeFiles.pairs, Fits p.1 := by decide +kernel
  have hproperties : ∀ p ∈ archiveProperties.pairs, Fits p.1 ∧ Fits p.2 := by decide +kernel
  have hsize : (writeD2p threeFiles archiveProperties).length < 2 ^ 32 := by decide +kernel
  exact ⟨d2p_round_trip_and_agreement.1 _ _ hfiles hproperties hsize,
    d2p_round_trip_and_agreement.2 _ _ (fromBytes_writeD2p hfiles hproperties hsize)⟩

end Otomai.DataReader
