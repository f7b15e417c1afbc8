import Otomai.Common.Grid
import Otomai.Io.Ends

/-!
# Map files

The parser of `dlm.rs`: a header, an encrypted part, and behind fixtures and layers the cells of the map.  The parser
only asks for memory for the encrypted part, by its length of thirty-two bits, which is read as a signed number.

* `ends_parseDlmWithKey`: it panics on an encrypted map of negative length, and on no other file.
* `length_cells`: a map that is parsed has as many cells as the grid.
-/

namespace Otomai.Common.Dlm

open Wire BigEndianReader

/-! ### The parser -/

structure CellData where
  mov : Bool
  nonWalkableDuringRp : Bool
  nonWalkableDuringFight : Bool
  los : Bool
  mapChangeData : UInt8
  floor : Int16
  speed : Int8
  moveZone : UInt8
  deriving DecidableEq, Repr

structure MapData where
  version : UInt8
  id : UInt32
  subAreaId : Int32
  topNeighbourId : Int32
  bottomNeighbourId : Int32
  leftNeighbourId : Int32
  rightNeighbourId : Int32
  cells : List CellData
  deriving DecidableEq, Repr

inductive Error where
  | context (message : String) (e : IoError)
  | decompressionFailed
  | invalidHeader (header : UInt8)
  | emptyKey (id : UInt32)
  | unknownElementType (elementType : UInt8)
  | io (e : IoError)
  deriving DecidableEq, Repr

/-- Two hexadecimal digits. -/
def hexByte (b : UInt8) : String :=
  String.ofList [(Nat.digitChar (b.toNat / 16)).toUpper, (Nat.digitChar (b.toNat % 16)).toUpper]

def Error.message : Error → String
  | context message _ => message
  | decompressionFailed => "zlib decompression failed"
  | invalidHeader header => "Invalid DLM header: expected 0x4D, got 0x" ++ hexByte header
  | emptyKey id => "Map " ++ toString id.toNat ++ " is encrypted but decryption key is empty"
  | unknownElementType elementType => "Unknown element type: " ++ toString elementType.toNat
  | io e => e.message

/-- `n as usize`. -/
def asUsize (n : Int) : Nat := (n % 2 ^ 64).toNat

abbrev DlmReader := Wire.Reader Error

/-- A reader of the cursor, with its errors as errors of the file. -/
def io {α : Type} (r : BigEndianReader α) : DlmReader α := fun c => (r c).mapErr .io

/-- A reader whose errors are told with a message. -/
def withContext {α : Type} (message : String) (r : BigEndianReader α) : DlmReader α :=
  fun c => (r c).mapErr (.context message)

def skipFixture : DlmReader Unit := do
  let _fixtureId ← io readInt
  let _offsetX ← io readShort
  let _offsetY ← io readShort
  let _rotation ← io readShort
  let _xScale ← io readShort
  let _yScale ← io readShort
  let _r ← io readByte
  let _g ← io readByte
  let _b ← io readByte
  let _alpha ← io readByte
  pure ()

def elementGraphical : UInt8 := 2

def elementSound : UInt8 := 33

def skipGraphicalElement (version : UInt8) : DlmReader Unit := do
  let _elementId ← io readUint
  let _hue ← io (Wire.Reader.replicate readByte 3)
  let _shadow ← io (Wire.Reader.replicate readByte 3)
  let _pixelOffset ← io (Wire.Reader.replicate readByte (if version ≤ 4 then 2 else 4))
  let _altitude ← io readByte
  let _identifier ← io readUint
  pure ()

def skipSoundElement : DlmReader Unit := do
  let _soundId ← io readInt
  let _baseVolume ← io readShort
  let _fullVolDist ← io readInt
  let _nullVolDist ← io readInt
  let _minDelay ← io readShort
  let _maxDelay ← io readShort
  pure ()

def skipElement (version : UInt8) : DlmReader Unit := do
  let elementType ← io readByte
  if elementType = elementGraphical then skipGraphicalElement version
  else if elementType = elementSound then skipSoundElement
  else Wire.Reader.fail (.unknownElementType elementType)

def skipLayerCell (version : UInt8) : DlmReader Unit := do
  let _cellId ← io readShort
  let elementsCount ← io readShort
  let _ ← Wire.Reader.replicate (skipElement version) (asUsize elementsCount.toInt)
  pure ()

def skipLayer (version : UInt8) : DlmReader Unit := do
  let _layerId ← io (Wire.Reader.replicate readByte (if 9 ≤ version then 1 else 4))
  let cellsCount ← io readShort
  let _ ← Wire.Reader.replicate (skipLayerCell version) (asUsize cellsCount.toInt)
  pure ()

/-- The flags of a cell: `mov`, `non_walkable_during_fight`, `non_walkable_during_rp` and `los`; from version 9 on two
of them are inverted. -/
def readFlags (version : UInt8) : DlmReader (Bool × Bool × Bool × Bool) := do
  if 9 ≤ version then
    let flags ← io readUshort
    pure (flags &&& 1 == 0, flags &&& 2 != 0, flags &&& 4 != 0, flags &&& 8 == 0)
  else
    let flags ← io readByte
    pure (flags &&& 1 != 0, flags &&& 4 != 0, false, flags &&& 2 != 0)

def readMoveZone (version : UInt8) : DlmReader UInt8 := if 5 < version then io readByte else pure 0

def readCellData (version : UInt8) : DlmReader CellData := do
  let floorRaw ← io readByte
  let floor := floorRaw.toInt8.toInt16 * 10
  if floorRaw.toInt8 = -128 then
    pure { mov := false, nonWalkableDuringRp := false, nonWalkableDuringFight := false, los := false,
           mapChangeData := 0, floor, speed := 0, moveZone := 0 }
  else
    let (mov, nonWalkableDuringFight, nonWalkableDuringRp, los) ← readFlags version
    let speed ← io readByte
    let mapChangeData ← io readByte
    let moveZone ← readMoveZone version
    let _linkedZone ← io (Wire.Reader.replicate readByte (if 10 < version ∧ moveZone ≠ 0 then 1 else 0))
    let _arrowByte ← io (Wire.Reader.replicate readByte (if 7 < version ∧ version < 9 then 1 else 0))
    pure { mov, nonWalkableDuringRp, nonWalkableDuringFight, los, mapChangeData, floor,
           speed := speed.toInt8, moveZone }

/-- What follows the encryption: the rest of the header, fixtures, layers and cells. -/
def readMap (version : UInt8) (id : UInt32) : DlmReader MapData := do
  let _relativeId ← io readUint
  let _mapType ← io readByte
  let subAreaId ← io readInt
  let topNeighbourId ← io readInt
  let bottomNeighbourId ← io readInt
  let leftNeighbourId ← io readInt
  let rightNeighbourId ← io readInt
  let _shadowBonus ← io readUint
  let _colors ← io (Wire.Reader.replicate readByte (if 9 ≤ version then 8 else if 3 ≤ version then 3 else 0))
  let _zoom ← io (Wire.Reader.replicate readByte (if 4 ≤ version then 6 else 0))
  let _tacticalTemplate ← io (Wire.Reader.replicate readByte (if 10 < version then 4 else 0))
  let bgCount ← io readByte
  let _ ← Wire.Reader.replicate skipFixture bgCount.toNat
  let fgCount ← io readByte
  let _ ← Wire.Reader.replicate skipFixture fgCount.toNat
  let _unknownInt ← io readInt
  let _groundCrc ← io readInt
  let layersCount ← io readByte
  let _ ← Wire.Reader.replicate (skipLayer version) layersCount.toNat
  let cells ← Wire.Reader.replicate (readCellData version) mapCellsCount
  pure { version, id, subAreaId, topNeighbourId, bottomNeighbourId, leftNeighbourId, rightNeighbourId, cells }

/-- The bytes are combined with those of the key, over and over. -/
def decrypt (key encData : List UInt8) : List UInt8 :=
  encData.zipIdx.map fun (byte, i) => byte ^^^ key.getD (i % key.length) 0

/-- The cursor behind the encryption header: from version 7 on, over the decrypted part if the map is encrypted. -/
def openData (key : List UInt8) (version : UInt8) (id : UInt32) (c : Cursor) : Outcome Error Cursor :=
  if version < 7 then .ok c
  else do
    let (encrypted, c) ← io readBoolean c
    let (_encryptionVersion, c) ← io readByte c
    let (dataLen, c) ← io readInt c
    if encrypted then do
      let (encData, _) ← io (readBytes (asUsize dataLen.toInt)) c
      if key = [] then .err (.emptyKey id) else .ok (.ofBytes (decrypt key encData))
    else .ok c

/-- The parser on a file that is not compressed, or not any more. -/
def parseContent (content key : List UInt8) : Outcome Error MapData := do
  let (header, c) ← withContext "reading header" readByte (.ofBytes content)
  if header ≠ 0x4D then .err (.invalidHeader header)
  else do
    let (version, c) ← withContext "reading version" readByte c
    let (id, c) ← withContext "reading map id" readUint c
    let c ← openData key version id c
    let (map, _) ← readMap version id c
    .ok map

/-- The content of a file; a file that does not begin with the header is compressed. -/
def content (decompress : List UInt8 → Option (List UInt8)) (data : List UInt8) : Option (List UInt8) :=
  if data.head? = some 0x4D then some data else decompress data

/-- `parse_dlm_with_key`, for a decompression of zlib data that fails on what it cannot decompress. -/
def parseDlmWithKey (decompress : List UInt8 → Option (List UInt8)) (data key : List UInt8) : Outcome Error MapData :=
  match content decompress data with
  | none => .err .decompressionFailed
  | some content => parseContent content key

/-! ### Every file is answered -/

theorem ends_io {α : Type} {r : BigEndianReader α} (h : AlwaysEnds r) : AlwaysEnds (io r) :=
  fun c => Outcome.ends_mapErr.2 (h c)

theorem ends_skipFixture : AlwaysEnds skipFixture := by
  unfold skipFixture
  refine (ends_io ends_readInt).bind fun _ => ?_
  refine (ends_io ends_readShort).bind fun _ => (ends_io ends_readShort).bind fun _ => ?_
  refine (ends_io ends_readShort).bind fun _ => ?_
  refine (ends_io ends_readShort).bind fun _ => (ends_io ends_readShort).bind fun _ => ?_
  refine (ends_io ends_readByte).bind fun _ => (ends_io ends_readByte).bind fun _ => ?_
  exact (ends_io ends_readByte).bind fun _ => (ends_io ends_readByte).bind fun _ => AlwaysEnds.pure _

theorem ends_bytes (n : Nat) : AlwaysEnds (io (Wire.Reader.replicate readByte n)) :=
  ends_io (ends_readByte.replicate n)

theorem ends_skipElement (version : UInt8) : AlwaysEnds (skipElement version) := by
  unfold skipElement
  refine (ends_io ends_readByte).bind fun elementType => ?_
  split_ifs
  · unfold skipGraphicalElement
    refine (ends_io ends_readUint).bind fun _ => (ends_bytes _).bind fun _ => (ends_bytes _).bind fun _ => ?_
    refine (ends_bytes _).bind fun _ => (ends_io ends_readByte).bind fun _ => ?_
    exact (ends_io ends_readUint).bind fun _ => AlwaysEnds.pure _
  · unfold skipSoundElement
    refine (ends_io ends_readInt).bind fun _ => (ends_io ends_readShort).bind fun _ => ?_
    refine (ends_io ends_readInt).bind fun _ => (ends_io ends_readInt).bind fun _ => ?_
    exact (ends_io ends_readShort).bind fun _ => (ends_io ends_readShort).bind fun _ => AlwaysEnds.pure _
  · exact AlwaysEnds.fail _

theorem ends_skipLayer (version : UInt8) : AlwaysEnds (skipLayer version) := by
  have hcell : AlwaysEnds (skipLayerCell version) := by
    unfold skipLayerCell
    refine (ends_io ends_readShort).bind fun _ => (ends_io ends_readShort).bind fun count => ?_
    exact ((ends_skipElement version).replicate _).bind fun _ => AlwaysEnds.pure _
  unfold skipLayer
  refine (ends_bytes _).bind fun _ => (ends_io ends_readShort).bind fun count => ?_
  exact (hcell.replicate _).bind fun _ => AlwaysEnds.pure _

theorem ends_readCellData (version : UInt8) : AlwaysEnds (readCellData version) := by
  have hflags : AlwaysEnds (readFlags version) := by
    unfold readFlags
    split_ifs
    · exact (ends_io ends_readUshort).bind fun _ => AlwaysEnds.pure _
    · exact (ends_io ends_readByte).bind fun _ => AlwaysEnds.pure _
  have hzone : AlwaysEnds (readMoveZone version) := by
    unfold readMoveZone
    split_ifs
    · exact ends_io ends_readByte
    · exact AlwaysEnds.pure 0
  unfold readCellData
  refine (ends_io ends_readByte).bind fun floorRaw => ?_
  by_cases hempty : floorRaw.toInt8 = -128
  · rw [if_pos hempty]
    exact AlwaysEnds.pure _
  · rw [if_neg hempty]
    refine hflags.bind fun flags => (ends_io ends_readByte).bind fun _ => (ends_io ends_readByte).bind fun _ => ?_
    exact hzone.bind fun _ => (ends_bytes _).bind fun _ => (ends_bytes _).bind fun _ => AlwaysEnds.pure _

theorem ends_readMap (version : UInt8) (id : UInt32) : AlwaysEnds (readMap version id) := by
  unfold readMap
  refine (ends_io ends_readUint).bind fun _ => (ends_io ends_readByte).bind fun _ => ?_
  refine (ends_io ends_readInt).bind fun _ => (ends_io ends_readInt).bind fun _ => ?_
  refine (ends_io ends_readInt).bind fun _ => (ends_io ends_readInt).bind fun _ => ?_
  refine (ends_io ends_readInt).bind fun _ => (ends_io ends_readUint).bind fun _ => ?_
  refine (ends_bytes _).bind fun _ => (ends_bytes _).bind fun _ => (ends_bytes _).bind fun _ => ?_
  refine (ends_io ends_readByte).bind fun _ => (ends_skipFixture.replicate _).bind fun _ => ?_
  refine (ends_io ends_readByte).bind fun _ => (ends_skipFixture.replicate _).bind fun _ => ?_
  refine (ends_io ends_readInt).bind fun _ => (ends_io ends_readInt).bind fun _ => ?_
  refine (ends_io ends_readByte).bind fun _ => ((ends_skipLayer version).replicate _).bind fun _ => ?_
  exact ((ends_readCellData version).replicate _).bind fun _ => AlwaysEnds.pure _

theorem asUsize_le_iff (n : Int32) : asUsize n.toInt ≤ isizeMax ↔ 0 ≤ n.toInt := by
  have hlt := n.toInt_lt
  have hle := n.le_toInt
  unfold asUsize isizeMax
  omega

/-- The bytes behind the identifier of a map say that it is encrypted and how long it is: less than nothing. -/
def NegativeHeader (u : List UInt8) : Prop :=
  ∃ encrypted encryptionVersion l₀ l₁ l₂ l₃ rest,
    u = encrypted :: encryptionVersion :: l₀ :: l₁ :: l₂ :: l₃ :: rest ∧ encrypted ≠ 0 ∧ 128 ≤ l₀

/-- The content of a file is that of an encrypted map of negative length. -/
def NegativeLength (content : List UInt8) : Prop :=
  ∃ version i₀ i₁ i₂ i₃ u,
    content = 0x4D :: version :: i₀ :: i₁ :: i₂ :: i₃ :: u ∧ 7 ≤ version ∧ NegativeHeader u

/-- The encrypted part is given memory unless its length is negative. -/
theorem ends_encrypted {key : List UInt8} {id : UInt32} {n : Int32} {c : Cursor} :
    (do
      let (encData, _) ← io (readBytes (asUsize n.toInt)) c
      if key = [] then .err (.emptyKey id) else .ok (.ofBytes (decrypt key encData)) : Outcome Error Cursor).Ends ↔
        0 ≤ n.toInt := by
  rw [← asUsize_le_iff, Outcome.ends_bind]
  by_cases hle : asUsize n.toInt ≤ isizeMax
  · refine iff_of_true ⟨ends_io (ends_readBytes hle) c, fun x _ => ?_⟩ hle
    by_cases hkey : key = []
    · simp [hkey]
    · simp [hkey]
  · refine iff_of_false (fun h => ?_) hle
    have hpanic : io (readBytes (asUsize n.toInt)) c = .panic := by
      rw [io, readBytes, if_pos (Nat.lt_of_not_le hle)]
      rfl
    rw [hpanic] at h
    exact h.1

theorem ends_openData (key : List UInt8) (version : UInt8) (id : UInt32) (c : Cursor) :
    (openData key version id c).Ends ↔ ¬(7 ≤ version ∧ NegativeHeader c.unread) := by
  obtain ⟨p, u⟩ := c
  unfold openData
  by_cases hold : version < 7
  · rw [if_pos hold]
    exact iff_of_true trivial fun h => absurd (UInt8.lt_of_lt_of_le hold h.1) (UInt8.lt_irrefl _)
  · have hnew : 7 ≤ version := UInt8.not_lt.1 hold
    rw [if_neg hold]
    -- a file that stops within the encryption header is answered with an error
    rcases u with _ | ⟨encrypted, _ | ⟨encryptionVersion, u⟩⟩
    · exact iff_of_true trivial (by rintro ⟨-, _, _, _, _, _, _, _, h, -⟩; cases h)
    · exact iff_of_true trivial (by rintro ⟨-, _, _, _, _, _, _, _, h, -⟩; cases h)
    · rcases four_or_fewer u with ⟨l₀, l₁, l₂, l₃, rest, rfl⟩ | hfew
      · obtain ⟨n, hread, hsign⟩ := readInt_four (p + 1 + 1) l₀ l₁ l₂ l₃ rest
        have hheader : NegativeHeader (encrypted :: encryptionVersion :: l₀ :: l₁ :: l₂ :: l₃ :: rest) ↔
            encrypted ≠ 0 ∧ 128 ≤ l₀ := by
          constructor
          · rintro ⟨_, _, _, _, _, _, _, h, henc, hle⟩
            simp only [List.cons.injEq] at h
            obtain ⟨rfl, -, rfl, -⟩ := h
            exact ⟨henc, hle⟩
          · rintro ⟨henc, hle⟩
            exact ⟨_, _, _, _, _, _, _, rfl, henc, hle⟩
        have hlen : io readInt ⟨p + 1 + 1, l₀ :: l₁ :: l₂ :: l₃ :: rest⟩ = .ok (n, ⟨p + 1 + 1 + 4, rest⟩) := by
          rw [io, hread]
          rfl
        have hbool : io readBoolean ⟨p, encrypted :: encryptionVersion :: l₀ :: l₁ :: l₂ :: l₃ :: rest⟩ =
            .ok (encrypted != 0, ⟨p + 1, encryptionVersion :: l₀ :: l₁ :: l₂ :: l₃ :: rest⟩) := rfl
        have hbyte : io readByte ⟨p + 1, encryptionVersion :: l₀ :: l₁ :: l₂ :: l₃ :: rest⟩ =
            .ok (encryptionVersion, ⟨p + 1 + 1, l₀ :: l₁ :: l₂ :: l₃ :: rest⟩) := rfl
        simp only [hbool, hbyte, hlen, Outcome.ok_bind]
        by_cases henc : encrypted = 0
        · subst henc
          exact iff_of_true trivial fun h => (hheader.1 h.2).1 rfl
        · have hset : (encrypted != 0) = true := by simpa using henc
          rw [if_pos hset, ends_encrypted, hsign, hheader]
          constructor
          · intro hlt h
            exact absurd (UInt8.lt_of_lt_of_le hlt h.2.2) (UInt8.lt_irrefl _)
          · intro h
            exact UInt8.not_le.1 fun hle => h ⟨hnew, henc, hle⟩
      · obtain ⟨e, hread⟩ := @readInt_fewer ⟨p + 1 + 1, u⟩ hfew
        have hlen : io readInt ⟨p + 1 + 1, u⟩ = .err (.io e) := by
          rw [io, hread]
          rfl
        have hbool : io readBoolean ⟨p, encrypted :: encryptionVersion :: u⟩ =
            .ok (encrypted != 0, ⟨p + 1, encryptionVersion :: u⟩) := rfl
        have hbyte : io readByte ⟨p + 1, encryptionVersion :: u⟩ = .ok (encryptionVersion, ⟨p + 1 + 1, u⟩) := rfl
        simp only [hbool, hbyte, hlen, Outcome.ok_bind]
        refine iff_of_true trivial ?_
        rintro ⟨-, _, _, _, _, _, _, _, h, -⟩
        simp only [List.cons.injEq] at h
        rw [h.2.2] at hfew
        simp only [List.length_cons] at hfew
        omega

theorem ends_parseContent (content key : List UInt8) : (parseContent content key).Ends ↔ ¬NegativeLength content := by
  unfold parseContent
  rcases content with _ | ⟨header, u⟩
  · exact iff_of_true trivial (by rintro ⟨_, _, _, _, _, _, h, -⟩; cases h)
  have hheader : withContext "reading header" readByte (.ofBytes (header :: u)) = .ok (header, ⟨1, u⟩) := rfl
  simp only [hheader, Outcome.ok_bind]
  by_cases hmagic : header = 0x4D
  · subst hmagic
    rw [if_neg (by simp)]
    rcases u with _ | ⟨version, u⟩
    · exact iff_of_true trivial (by rintro ⟨_, _, _, _, _, _, h, -⟩; cases h)
    have hversion : withContext "reading version" readByte ⟨1, version :: u⟩ = .ok (version, ⟨2, u⟩) := rfl
    simp only [hversion, Outcome.ok_bind]
    -- only where the map id is complete is a length reached
    rcases four_or_fewer u with ⟨i₀, i₁, i₂, i₃, rest, rfl⟩ | hfew
    · have hid : ∃ id, withContext "reading map id" readUint ⟨2, i₀ :: i₁ :: i₂ :: i₃ :: rest⟩ =
        .ok (id, ⟨6, rest⟩) :=
        ⟨_, rfl⟩
      obtain ⟨id, hid⟩ := hid
      simp only [hid, Outcome.ok_bind]
      rw [Outcome.ends_bind, ends_openData]
      have hrest : ∀ c, (do let (map, _) ← readMap version id c; .ok map : Outcome Error MapData).Ends := by
        intro c
        rw [Outcome.ends_bind]
        exact ⟨ends_readMap version id c, fun _ _ => trivial⟩
      constructor
      · rintro ⟨h, -⟩ ⟨_, _, _, _, _, _, hu, hnew, hneg⟩
        simp only [List.cons.injEq] at hu
        obtain ⟨-, rfl, -, -, -, -, rfl⟩ := hu
        exact h ⟨hnew, hneg⟩
      · exact fun h => ⟨fun hneg => h ⟨_, _, _, _, _, _, rfl, hneg.1, hneg.2⟩, fun c _ => hrest c⟩
    · obtain ⟨e, hid⟩ : ∃ e, withContext "reading map id" readUint ⟨2, u⟩ = .err e := by
        rcases Outcome.ends_iff.1 (ends_readUint ⟨2, u⟩) with ⟨⟨n, c'⟩, hok⟩ | ⟨e, herr⟩
        · have hlen := shrinks_readUint _ n c' hok
          change c'.unread.length + 4 ≤ u.length at hlen
          omega
        · refine ⟨.context "reading map id" e, ?_⟩
          rw [withContext, herr]
          rfl
      simp only [hid]
      refine iff_of_true trivial ?_
      rintro ⟨_, _, _, _, _, _, hu, -⟩
      simp only [List.cons.injEq] at hu
      rw [hu.2.2] at hfew
      simp only [List.length_cons] at hfew
      omega
  · rw [if_pos hmagic]
    refine iff_of_true trivial ?_
    rintro ⟨_, _, _, _, _, _, hu, -⟩
    exact hmagic (List.cons.inj hu).1

theorem length_of_readMap {version : UInt8} {id : UInt32} {c c' : Cursor} {map : MapData}
    (h : readMap version id c = .ok (map, c')) : map.cells.length = mapCellsCount := by
  unfold readMap at h
  iterate 19 obtain ⟨_, -, h⟩ := Outcome.bind_eq_ok.1 h
  obtain ⟨⟨cells, c₁⟩, hcells, h⟩ := Outcome.bind_eq_ok.1 h
  obtain ⟨rfl, -⟩ := Prod.mk.inj (Outcome.ok.inj h)
  exact Wire.Reader.length_of_replicate hcells

/-- A map that is parsed has as many cells as the grid. -/
theorem length_cells {decompress : List UInt8 → Option (List UInt8)} {data key : List UInt8} {map : MapData}
    (h : parseDlmWithKey decompress data key = .ok map) : map.cells.length = mapCellsCount := by
  unfold parseDlmWithKey at h
  cases hcontent : content decompress data with
  | none =>
    rw [hcontent] at h
    cases h
  | some content =>
    rw [hcontent] at h
    dsimp only at h
    unfold parseContent at h
    obtain ⟨⟨header, c₁⟩, -, h⟩ := Outcome.bind_eq_ok.1 h
    dsimp only at h
    by_cases hmagic : header ≠ 0x4D
    · rw [if_pos hmagic] at h
      cases h
    · rw [if_neg hmagic] at h
      obtain ⟨⟨version, c₂⟩, -, h⟩ := Outcome.bind_eq_ok.1 h
      obtain ⟨⟨id, c₃⟩, -, h⟩ := Outcome.bind_eq_ok.1 h
      obtain ⟨c₄, -, h⟩ := Outcome.bind_eq_ok.1 h
      obtain ⟨⟨read, c₅⟩, hread, h⟩ := Outcome.bind_eq_ok.1 h
      obtain rfl := Outcome.ok.inj h
      exact length_of_readMap hread

/-- The parser answers every file but an encrypted one of negative length. -/
theorem ends_parseDlmWithKey (decompress : List UInt8 → Option (List UInt8)) (data key : List UInt8) :
    (parseDlmWithKey decompress data key).Ends ↔ ∀ c, content decompress data = some c → ¬NegativeLength c := by
  unfold parseDlmWithKey
  cases content decompress data with
  | none => exact iff_of_true trivial fun c h => by cases h
  | some c =>
    dsimp only
    rw [ends_parseContent]
    constructor
    · intro h c' hc
      obtain rfl := Option.some.inj hc
      exact h
    · exact fun h => h c rfl

end Otomai.Common.Dlm
