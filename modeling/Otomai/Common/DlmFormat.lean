import Otomai.Common.Dlm
import Otomai.Io.RoundTrip

/-!
# The format of map files

Which texts the parser of map files accepts, as a grammar: records of cells behind a head whose fixtures and layers
are of no interest.  An encrypted file is parsed like the same file in the clear, since the part behind the encryption
is in the same grammar wherever it stands.

* `parses_readMap`: the parser accepts the grammar.
* `parse_transparent`: encryption does not show, and the cells are those of the records in order.
-/

namespace Otomai.Common.Dlm

open Wire BigEndianReader BigEndianWriter Recognizes

/-! ### The grammar -/

/-- A fixture takes eighteen bytes. -/
def Fixture (w : List UInt8) : Prop := w.length = 18

inductive Element (version : UInt8) : List UInt8 → Prop where
  | graphical {w : List UInt8} (hw : w.length = if version ≤ 4 then 17 else 19) :
    Element version (elementGraphical :: w)
  | sound {w : List UInt8} (hw : w.length = 18) : Element version (elementSound :: w)

inductive LayerCell (version : UInt8) : List UInt8 → Prop where
  | mk {elements : List UInt8} (cellId elementsCount : Int16)
      (helements : Many (Element version) (asUsize elementsCount.toInt) elements) :
      LayerCell version (writeShort cellId ++ (writeShort elementsCount ++ elements))

inductive Layer (version : UInt8) : List UInt8 → Prop where
  | mk {layerId cells : List UInt8} (cellsCount : Int16) (hlayerId : layerId.length = if 9 ≤ version then 1 else 4)
      (hcells : Many (LayerCell version) (asUsize cellsCount.toInt) cells) :
      Layer version (layerId ++ (writeShort cellsCount ++ cells))

/-- The flags of a cell; from version 9 on two of them are inverted, before it a cell that can be walked on can be so
during roleplay. -/
inductive Flags (version : UInt8) : List UInt8 → Bool × Bool × Bool × Bool → Prop where
  | new (h : 9 ≤ version) (flags : UInt16) :
      Flags version (writeUshort flags) (flags &&& 1 == 0, flags &&& 2 != 0, flags &&& 4 != 0, flags &&& 8 == 0)
  | old (h : version < 9) (flags : UInt8) :
      Flags version [flags] (flags &&& 1 != 0, flags &&& 4 != 0, false, flags &&& 2 != 0)

/-- The zone of a cell is written from version 6 on. -/
def Zone (version : UInt8) (w : List UInt8) (moveZone : UInt8) : Prop :=
  if 5 < version then w = [moveZone] else w = [] ∧ moveZone = 0

/-- The record of a cell: one byte for an empty cell. -/
inductive CellRecord (version : UInt8) : List UInt8 → CellData → Prop where
  | empty :
      CellRecord version [0x80]
        { mov := false, nonWalkableDuringRp := false, nonWalkableDuringFight := false, los := false,
          mapChangeData := 0, floor := -1280, speed := 0, moveZone := 0 }
  | cell {floorRaw speed mapChangeData moveZone : UInt8} {flags zone linkedZone arrow : List UInt8}
      {mov nonWalkableDuringFight nonWalkableDuringRp los : Bool} (hfloor : floorRaw ≠ 0x80)
      (hflags : Flags version flags (mov, nonWalkableDuringFight, nonWalkableDuringRp, los))
      (hzone : Zone version zone moveZone)
      (hlinked : linkedZone.length = if 10 < version ∧ moveZone ≠ 0 then 1 else 0)
      (harrow : arrow.length = if 7 < version ∧ version < 9 then 1 else 0) :
      CellRecord version (floorRaw :: (flags ++ speed :: mapChangeData :: (zone ++ (linkedZone ++ arrow))))
        { mov, nonWalkableDuringRp, nonWalkableDuringFight, los, mapChangeData, floor := floorRaw.toInt8.toInt16 * 10,
          speed := speed.toInt8, moveZone }

/-- How many bytes a version has for the shadow bonus, the colors, the zoom and the tactical mode. -/
def presentationLength (version : UInt8) : Nat :=
  4 + (if 9 ≤ version then 8 else if 3 ≤ version then 3 else 0) + (if 4 ≤ version then 6 else 0) +
    if 10 < version then 4 else 0

/-- Fixtures, eight bytes and layers. -/
inductive Scenery (version : UInt8) : List UInt8 → Prop where
  | mk {background foreground beforeLayers layers : List UInt8} (bgCount fgCount layersCount : UInt8)
      (hbackground : Many Fixture bgCount.toNat background) (hforeground : Many Fixture fgCount.toNat foreground)
      (hbefore : beforeLayers.length = 8) (hlayers : Many (Layer version) layersCount.toNat layers) :
      Scenery version (bgCount :: (background ++ fgCount :: (foreground ++ (beforeLayers ++ layersCount :: layers))))

/-- What stands before the cells of a map. -/
inductive Head (map : MapData) : List UInt8 → Prop where
  | mk {relativeIdAndType presentation scenery : List UInt8} (hstart : relativeIdAndType.length = 5)
      (hpresentation : presentation.length = presentationLength map.version)
        (hscenery : Scenery map.version scenery) :
      Head map (relativeIdAndType ++ (writeInt map.subAreaId ++ (writeInt map.topNeighbourId ++
        (writeInt map.bottomNeighbourId ++ (writeInt map.leftNeighbourId ++ (writeInt map.rightNeighbourId ++
        (presentation ++ scenery)))))))

/-- A map is its head and the records of its cells. -/
def Body (map : MapData) (w : List UInt8) : Prop :=
  ∃ head records, w = head ++ records.flatten ∧ Head map head ∧ map.cells.length = mapCellsCount ∧
    List.Forall₂ (CellRecord map.version) records map.cells

/-! ### The parser accepts the grammar -/

theorem parses_io {α : Type} {r : BigEndianReader α} {F : List UInt8 → α → Prop} (h : Parses r F) : Parses (io r) F :=
  h.mapErr Error.io

theorem skips_io {α : Type} {r : BigEndianReader α} {n : Nat} (h : Skips n r) : Skips n (io r) := h.mapErr Error.io

theorem skips_byte : Skips 1 (io readByte) := skips_io (skips_next _)

theorem skips_bytes (n : Nat) : Skips n (io (Wire.Reader.replicate readByte n)) :=
  skips_io (skips_replicate (skips_next _) n)

theorem skips_fixture : Skips 18 skipFixture := by
  unfold skipFixture
  refine @skips_bind _ _ _ _ _ 4 14 (skips_io skips_readInt) fun _ => ?_
  refine @skips_bind _ _ _ _ _ 2 12 (skips_io skips_readShort) fun _ => ?_
  refine @skips_bind _ _ _ _ _ 2 10 (skips_io skips_readShort) fun _ => ?_
  refine @skips_bind _ _ _ _ _ 2 8 (skips_io skips_readShort) fun _ => ?_
  refine @skips_bind _ _ _ _ _ 2 6 (skips_io skips_readShort) fun _ => ?_
  refine @skips_bind _ _ _ _ _ 2 4 (skips_io skips_readShort) fun _ => ?_
  refine @skips_bind _ _ _ _ _ 1 3 skips_byte fun _ => @skips_bind _ _ _ _ _ 1 2 skips_byte fun _ => ?_
  exact @skips_bind _ _ _ _ _ 1 1 skips_byte fun _ => skips_map skips_byte _

theorem skips_graphicalElement (version : UInt8) :
    Skips (if version ≤ 4 then 17 else 19) (skipGraphicalElement version) := by
  have hlen : (if version ≤ 4 then 17 else 19) = 4 + (3 + (3 + ((if version ≤ 4 then 2 else 4) + (1 + 4)))) := by
    split_ifs <;> rfl
  unfold skipGraphicalElement
  rw [hlen]
  refine skips_bind (skips_io skips_readUint) fun _ => skips_bind (skips_bytes 3) fun _ => ?_
  refine skips_bind (skips_bytes 3) fun _ => skips_bind (skips_bytes _) fun _ => ?_
  exact skips_bind skips_byte fun _ => skips_map (skips_io skips_readUint) _

theorem skips_soundElement : Skips 18 skipSoundElement := by
  unfold skipSoundElement
  refine @skips_bind _ _ _ _ _ 4 14 (skips_io skips_readInt) fun _ => ?_
  refine @skips_bind _ _ _ _ _ 2 12 (skips_io skips_readShort) fun _ => ?_
  refine @skips_bind _ _ _ _ _ 4 8 (skips_io skips_readInt) fun _ => ?_
  refine @skips_bind _ _ _ _ _ 4 4 (skips_io skips_readInt) fun _ => ?_
  exact @skips_bind _ _ _ _ _ 2 2 (skips_io skips_readShort) fun _ => skips_map (skips_io skips_readShort) _

theorem recognizes_skipElement (version : UInt8) : Recognizes (skipElement version) (Element version) := by
  have hrest : ∀ elementType : UInt8, Recognizes
      (if elementType = elementGraphical then skipGraphicalElement version
       else if elementType = elementSound then skipSoundElement
       else Wire.Reader.fail (.unknownElementType elementType))
      fun w => Element version (elementType :: w) := by
    intro elementType
    by_cases hgraphical : elementType = elementGraphical
    · rw [if_pos hgraphical, hgraphical]
      refine (skips_graphicalElement version).of_iff fun w => ⟨.graphical, ?_⟩
      rintro (⟨hw⟩ | _)
      exact hw
    · rw [if_neg hgraphical]
      by_cases hsound : elementType = elementSound
      · rw [if_pos hsound, hsound]
        refine skips_soundElement.of_iff fun w => ⟨.sound, ?_⟩
        rintro (_ | ⟨hw⟩)
        exact hw
      · rw [if_neg hsound]
        refine (Recognizes.fail _).of_iff fun w => ⟨False.elim, ?_⟩
        rintro (_ | _)
        · exact hgraphical rfl
        · exact hsound rfl
  unfold skipElement
  refine (Recognizes.after (parses_io parses_readByte) hrest).of_iff fun w => ?_
  constructor
  · rintro ⟨_, w, b, rfl, rfl, hw⟩
    exact hw
  · intro hw
    cases hw with
    | graphical hw => exact ⟨_, _, _, rfl, rfl, .graphical hw⟩
    | sound hw => exact ⟨_, _, _, rfl, rfl, .sound hw⟩

theorem recognizes_skipLayerCell (version : UInt8) : Recognizes (skipLayerCell version) (LayerCell version) := by
  unfold skipLayerCell
  refine (Recognizes.after (parses_io parses_readShort) fun _ => Recognizes.after
    (parses_io parses_readShort) fun count =>
    (recognizes_skipElement version).replicate (asUsize count.toInt) |>.bind fun _ =>
      Recognizes.pure ()).of_iff fun w => ?_
  constructor
  · rintro ⟨_, _, cellId, rfl, rfl, _, _, count, rfl, rfl, elements, _, rfl, helements, rfl⟩
    rw [List.append_nil]
    exact .mk cellId count helements
  · rintro ⟨cellId, count, helements⟩
    exact ⟨_, _, cellId, rfl, rfl, _, _, count, rfl, rfl, _, [], (List.append_nil _).symm, helements, rfl⟩

theorem recognizes_skipLayer (version : UInt8) : Recognizes (skipLayer version) (Layer version) := by
  unfold skipLayer
  refine ((skips_bytes _).bind fun _ => Recognizes.after (parses_io parses_readShort) fun count =>
    (recognizes_skipLayerCell version).replicate (asUsize count.toInt) |>.bind fun _ => Recognizes.pure ()).of_iff
      fun w => ?_
  constructor
  · rintro ⟨layerId, _, rfl, hlayerId, _, _, count, rfl, rfl, cells, _, rfl, hcells, rfl⟩
    rw [List.append_nil]
    exact .mk count hlayerId hcells
  · rintro ⟨count, hlayerId, hcells⟩
    exact ⟨_, _, rfl, hlayerId, _, _, count, rfl, rfl, _, [], (List.append_nil _).symm, hcells, rfl⟩

theorem parses_readFlags (version : UInt8) : Parses (readFlags version) (Flags version) := by
  unfold readFlags
  by_cases hnew : 9 ≤ version
  · rw [if_pos hnew]
    refine ((parses_io parses_readUshort).map _).of_iff fun w flags => ?_
    constructor
    · rintro ⟨n, rfl, rfl⟩
      exact .new hnew n
    · rintro (⟨-, n⟩ | ⟨hold, -⟩)
      · exact ⟨n, rfl, rfl⟩
      · exact absurd hnew (UInt8.not_le.2 hold)
  · rw [if_neg hnew]
    refine ((parses_io parses_readByte).map _).of_iff fun w flags => ?_
    constructor
    · rintro ⟨n, rfl, rfl⟩
      exact .old (UInt8.not_le.1 hnew) n
    · rintro (⟨h, -⟩ | ⟨-, n⟩)
      · exact absurd h hnew
      · exact ⟨n, rfl, rfl⟩

theorem parses_readMoveZone (version : UInt8) : Parses (readMoveZone version) (Zone version) := by
  unfold readMoveZone Zone
  split_ifs
  · exact parses_io parses_readByte
  · exact Parses.pure 0

theorem toInt8_eq_iff (b : UInt8) : b.toInt8 = -128 ↔ b = 0x80 := by
  constructor
  · intro h
    rw [← UInt8.toUInt8_toInt8 b, h]
    rfl
  · rintro rfl
    rfl

theorem parses_readCellData (version : UInt8) : Parses (readCellData version) (CellRecord version) := by
  -- the record of a cell that is not empty
  have hrest : ∀ floorRaw : UInt8, floorRaw ≠ 0x80 → Parses (do
      let flags ← readFlags version
      let speed ← io readByte
      let mapChangeData ← io readByte
      let moveZone ← readMoveZone version
      let _linkedZone ← io (Wire.Reader.replicate readByte (if 10 < version ∧ moveZone ≠ 0 then 1 else 0))
      let _arrowByte ← io (Wire.Reader.replicate readByte (if 7 < version ∧ version < 9 then 1 else 0))
      pure { mov := flags.1, nonWalkableDuringFight := flags.2.1, nonWalkableDuringRp := flags.2.2.1,
             los := flags.2.2.2, mapChangeData, floor := floorRaw.toInt8.toInt16 * 10, speed := speed.toInt8,
             moveZone : CellData })
      fun w cell => CellRecord version (floorRaw :: w) cell := by
    intro floorRaw hfloor
    refine ((parses_readFlags version).bind fun flags => (parses_io parses_readByte).bind fun speed =>
      (parses_io parses_readByte).bind fun mapChangeData => (parses_readMoveZone version).bind fun moveZone =>
      (skips_bytes _).before ((skips_bytes _).before (Parses.pure _))).of_iff fun w cell => ?_
    constructor
    · rintro ⟨flags, _, ⟨mov, fight, rp, los⟩, rfl, hflags, _, _, speed, rfl, rfl, _, _, mapChangeData,
        rfl, rfl, zone, _, moveZone, rfl, hzone, linkedZone, _, rfl, hlinked, arrow, _, rfl, harrow, rfl, rfl⟩
      rw [List.append_nil]
      show CellRecord version (floorRaw :: (flags ++ speed :: mapChangeData :: (zone ++ (linkedZone ++ arrow)))) _
      exact .cell hfloor hflags hzone hlinked harrow
    · intro h
      cases h with
      | empty => exact absurd rfl hfloor
      | cell _ hflags hzone hlinked harrow =>
        exact ⟨_, _, _, rfl, hflags, _, _, _, rfl, rfl, _, _, _, rfl, rfl, _, _, _, rfl, hzone, _, _, rfl,
          hlinked, _, _, (List.append_nil _).symm, harrow, rfl, rfl⟩
  unfold readCellData
  refine ((parses_io parses_readByte).bind (G := fun floorRaw w cell => CellRecord version (floorRaw :: w) cell)
    fun floorRaw => ?_).of_iff fun w cell => ?_
  · by_cases hempty : floorRaw.toInt8 = -128
    · obtain rfl := (toInt8_eq_iff floorRaw).1 hempty
      refine (Parses.pure _).of_iff fun w cell => ⟨?_, ?_⟩
      · rintro ⟨rfl, rfl⟩
        exact .empty
      · intro h
        cases h with
        | empty => exact ⟨rfl, rfl⟩
        | cell hfloor => exact absurd rfl hfloor
    · dsimp only
      rw [if_neg hempty]
      exact hrest floorRaw fun h => hempty ((toInt8_eq_iff floorRaw).2 h)
  · constructor
    · rintro ⟨_, w, b, rfl, rfl, hcell⟩
      exact hcell
    · intro h
      cases h with
      | empty => exact ⟨_, _, _, rfl, rfl, .empty⟩
      | cell hfloor hflags hzone hlinked harrow =>
        exact ⟨_, _, _, rfl, rfl, .cell hfloor hflags hzone hlinked harrow⟩

/-! ### Maps -/

theorem recognizes_skipFixture : Recognizes skipFixture Fixture := skips_fixture

/-- The shadow bonus, the colors, the zoom and the tactical mode. -/
theorem skips_presentation (version : UInt8) {α : Type} {k : DlmReader α} {F : List UInt8 → α → Prop}
    (hk : Parses k F) :
    Parses (do
      let _shadowBonus ← io readUint
      let _colors ← io (Wire.Reader.replicate readByte (if 9 ≤ version then 8 else if 3 ≤ version then 3 else 0))
      let _zoom ← io (Wire.Reader.replicate readByte (if 4 ≤ version then 6 else 0))
      let _tacticalTemplate ← io (Wire.Reader.replicate readByte (if 10 < version then 4 else 0))
      k)
      fun w v => ∃ w₁ w₂, w = w₁ ++ w₂ ∧ w₁.length = presentationLength version ∧ F w₂ v := by
  have hlen : presentationLength version = 4 + ((if 9 ≤ version then 8 else if 3 ≤ version then 3 else 0) +
      ((if 4 ≤ version then 6 else 0) + if 10 < version then 4 else 0)) := by
    unfold presentationLength
    omega
  rw [hlen]
  exact skips_before (skips_io skips_readUint) (skips_before (skips_bytes _) (skips_before (skips_bytes _)
    ((skips_bytes _).before hk)))

theorem scenery_before (version : UInt8) {α : Type} {k : DlmReader α} {F : List UInt8 → α → Prop} (hk : Parses k F) :
    Parses (do
      let bgCount ← io readByte
      let _ ← Wire.Reader.replicate skipFixture bgCount.toNat
      let fgCount ← io readByte
      let _ ← Wire.Reader.replicate skipFixture fgCount.toNat
      let _unknownInt ← io readInt
      let _groundCrc ← io readInt
      let layersCount ← io readByte
      let _ ← Wire.Reader.replicate (skipLayer version) layersCount.toNat
      k)
      fun w v => ∃ w₁ w₂, w = w₁ ++ w₂ ∧ Scenery version w₁ ∧ F w₂ v := by
  have hlayers := fun n => (recognizes_skipLayer version).replicate n
  have hfixtures := fun n => recognizes_skipFixture.replicate n
  refine ((parses_io parses_readByte).bind fun bgCount => (hfixtures _).before
    ((parses_io parses_readByte).bind fun fgCount =>
    (hfixtures _).before (skips_before (skips_io skips_readInt) ((skips_io skips_readInt).before
    ((parses_io parses_readByte).bind fun layersCount => (hlayers _).before hk))))).of_iff fun w v => ?_
  constructor
  · rintro ⟨_, _, bgCount, rfl, rfl, background, _, rfl, hbackground, _, _, fgCount, rfl, rfl, foreground, _,
      rfl, hforeground,
      before, _, rfl, hbefore, _, _, layersCount, rfl, rfl, layers, _, rfl, hmany, hv⟩
    refine ⟨_, _, ?_, .mk bgCount fgCount layersCount hbackground hforeground hbefore hmany, hv⟩
    simp only [List.append_assoc, writeByte, List.cons_append, List.nil_append]
  · rintro ⟨_, _, rfl, ⟨bgCount, fgCount, layersCount, hbackground, hforeground, hbefore, hmany⟩, hv⟩
    refine ⟨_, _, bgCount, ?_, rfl, _, _, rfl, hbackground, _, _, fgCount, rfl, rfl, _, _, rfl, hforeground, _,
      _, rfl, hbefore,
      _, _, layersCount, rfl, rfl, _, _, rfl, hmany, hv⟩
    simp only [List.append_assoc, writeByte, List.cons_append, List.nil_append]

/-- What follows the encryption is a map in the format of its version. -/
theorem parses_readMap (version : UInt8) (id : UInt32) :
    Parses (readMap version id) fun w map => map.version = version ∧ map.id = id ∧ Body map w := by
  have hcells := (parses_readCellData version).replicate mapCellsCount
  unfold readMap
  apply Parses.of_iff
  · exact skips_before (skips_io skips_readUint) (skips_byte.before ((parses_io parses_readInt).bind fun subAreaId =>
      (parses_io parses_readInt).bind fun top => (parses_io parses_readInt).bind fun bottom =>
      (parses_io parses_readInt).bind fun left => (parses_io parses_readInt).bind fun right =>
      skips_presentation version (scenery_before version (hcells.map _))))
  · intro w map
    constructor
    · rintro ⟨start, _, rfl, hstart, _, _, subAreaId, rfl, rfl, _, _, top, rfl, rfl, _, _, bottom, rfl, rfl,
        _, _, left, rfl,
        rfl, _, _, right, rfl, rfl, presentation, _, rfl, hpresentation, scenery, _, rfl, hscenery, cells,
        ⟨records, rfl, hlen, hall⟩, rfl⟩
      refine ⟨rfl, rfl, _, records, ?_, .mk hstart hpresentation hscenery, hlen, hall⟩
      simp only [List.append_assoc]
    · rintro ⟨rfl, rfl, _, records, rfl, ⟨hstart, hpresentation, hscenery⟩, hlen, hall⟩
      refine ⟨_, _, ?_, hstart, _, _, _, rfl, rfl, _, _, _, rfl, rfl, _, _, _, rfl, rfl, _, _, _, rfl, rfl, _,
        _, _, rfl, rfl,
        _, _, rfl, hpresentation, _, _, rfl, hscenery, _, ⟨records, rfl, hlen, hall⟩, rfl⟩
      simp only [List.append_assoc]

/-! ### Files -/

/-- A file of a version that knows encryption, before it is compressed. -/
def mapFile (version : UInt8) (id : UInt32) (encrypted encryptionVersion : UInt8) (dataLen : Int32)
    (part : List UInt8) : List UInt8 :=
  0x4D :: version :: (writeUint id ++ encrypted :: encryptionVersion :: (writeInt dataLen ++ part))

/-- The file holds a map of this version and identifier, written in these bytes. -/
inductive Opens (key : List UInt8) : List UInt8 → UInt8 → UInt32 → List UInt8 → Prop where
  | old {version : UInt8} (h : version < 7) (id : UInt32) (body : List UInt8) :
      Opens key (0x4D :: version :: (writeUint id ++ body)) version id body
  | clear {version : UInt8} (h : 7 ≤ version) (id : UInt32) (encryptionVersion : UInt8) (dataLen : Int32)
      (body : List UInt8) : Opens key (mapFile version id 0 encryptionVersion dataLen body) version id body
  | encrypted {version encrypted : UInt8} {dataLen : Int32} {part : List UInt8} (h : 7 ≤ version)
      (hencrypted : encrypted ≠ 0) (hkey : key ≠ []) (hlen : dataLen.toInt = part.length) (id : UInt32)
      (encryptionVersion : UInt8) (rest : List UInt8) :
      Opens key (mapFile version id encrypted encryptionVersion dataLen (part ++ rest)) version id (decrypt key part)

/-- Combining with the key twice changes nothing. -/
theorem decrypt_decrypt (key body : List UInt8) : decrypt key (decrypt key body) = body := by
  refine List.ext_getElem (by simp [decrypt]) fun i hi hi' => ?_
  simp only [decrypt, List.getElem_map, List.getElem_zipIdx]
  rw [UInt8.xor_assoc, UInt8.xor_self, UInt8.xor_zero]

theorem length_decrypt (key body : List UInt8) : (decrypt key body).length = body.length := by simp [decrypt]

/-- The same map, or an error in both cases. -/
def SameResult (x y : Outcome Error MapData) : Prop :=
  (∃ map, x = .ok map ∧ y = .ok map) ∨ ∃ e e', x = .err e ∧ y = .err e'

theorem asUsize_eq {n : Int32} {k : Nat} (h : n.toInt = k) : asUsize n.toInt = k := by
  have hlt := n.toInt_lt
  unfold asUsize
  omega

theorem reads_io {α : Type} {r : BigEndianReader α} {w : List UInt8} {v : α} (h : Reads r w v) :
    Reads (io r) w v := by
  intro p rest
  rw [io, h p rest]
  rfl

theorem parseContent_start (version : UInt8) (id : UInt32) (rest key : List UInt8) :
    parseContent (0x4D :: version :: (writeUint id ++ rest)) key =
      openData key version id ⟨6, rest⟩ >>= fun c => readMap version id c >>= fun x => .ok x.1 := by
  have hheader : withContext "reading header" readByte (.ofBytes (0x4D :: version :: (writeUint id ++ rest))) =
      .ok (0x4D, ⟨1, version :: (writeUint id ++ rest)⟩) := rfl
  have hversion : withContext "reading version" readByte ⟨1, version :: (writeUint id ++ rest)⟩ =
      .ok (version, ⟨2, writeUint id ++ rest⟩) := rfl
  have hid : withContext "reading map id" readUint ⟨2, writeUint id ++ rest⟩ = .ok (id, ⟨6, rest⟩) := by
    rw [withContext, reads_uint id 2 rest]
    rfl
  unfold parseContent
  simp only [hheader, hversion, hid, Outcome.ok_bind]
  rfl

/-- From version 7 on the header of the encryption is read. -/
theorem openData_header {version : UInt8} (h : 7 ≤ version) (key : List UInt8) (id : UInt32)
    (encrypted encryptionVersion : UInt8) (dataLen : Int32) (rest : List UInt8) :
    openData key version id ⟨6, encrypted :: encryptionVersion :: (writeInt dataLen ++ rest)⟩ =
      if (encrypted != 0) = true then do
        let (encData, _) ← io (readBytes (asUsize dataLen.toInt)) ⟨12, rest⟩
        if key = [] then .err (.emptyKey id) else .ok (.ofBytes (decrypt key encData))
      else .ok ⟨12, rest⟩ := by
  have hencrypted : io readBoolean ⟨6, encrypted :: encryptionVersion :: (writeInt dataLen ++ rest)⟩ =
      .ok (encrypted != 0, ⟨7, encryptionVersion :: (writeInt dataLen ++ rest)⟩) := rfl
  have hversion : io readByte ⟨7, encryptionVersion :: (writeInt dataLen ++ rest)⟩ =
      .ok (encryptionVersion, ⟨8, writeInt dataLen ++ rest⟩) := rfl
  have hlen : io readInt ⟨8, writeInt dataLen ++ rest⟩ = .ok (dataLen, ⟨12, rest⟩) := by
    rw [io, reads_int dataLen 8 rest]
    rfl
  rw [openData, if_neg (UInt8.not_lt.2 h)]
  simp only [hencrypted, hversion, hlen, Outcome.ok_bind]

/-- What the parser reads is what the file holds. -/
theorem parseContent_of_opens {key content body : List UInt8} {version : UInt8} {id : UInt32}
    (h : Opens key content version id body) :
    ∃ p, parseContent content key = readMap version id ⟨p, body⟩ >>= fun x => .ok x.1 := by
  cases h with
  | old hold =>
    refine ⟨6, ?_⟩
    rw [parseContent_start, openData, if_pos hold]
    rfl
  | clear hnew id encryptionVersion dataLen body =>
    refine ⟨12, ?_⟩
    rw [mapFile, parseContent_start, openData_header hnew]
    rfl
  | @encrypted _ encrypted dataLen part hnew hencrypted hkey hlen id encryptionVersion rest =>
    refine ⟨0, ?_⟩
    have hset : (encrypted != 0) = true := by simpa using hencrypted
    have hsize : part.length ≤ isizeMax := by
      have hlt := dataLen.toInt_lt
      unfold isizeMax
      omega
    have hread : io (readBytes (asUsize dataLen.toInt)) ⟨12, part ++ rest⟩ =
      .ok (part, ⟨12 + part.length, rest⟩) := by
      rw [asUsize_eq hlen]
      exact reads_io (reads_bytes hsize) 12 rest
    rw [mapFile, parseContent_start, openData_header hnew, if_pos hset]
    simp only [hread, Outcome.ok_bind]
    rw [if_neg hkey]
    rfl

/-- A file that is opened holds something. -/
theorem opens_of_openData {key u : List UInt8} {version : UInt8} {id : UInt32} {c : Cursor}
    (h : openData key version id ⟨6, u⟩ = .ok c) :
    Opens key (0x4D :: version :: (writeUint id ++ u)) version id c.unread := by
  by_cases hold : version < 7
  · rw [openData, if_pos hold] at h
    obtain rfl := Outcome.ok.inj h
    exact .old hold id u
  · have hnew : 7 ≤ version := UInt8.not_lt.1 hold
    have hheader := h
    rw [openData, if_neg hold] at hheader
    obtain ⟨⟨_, c₁⟩, hencrypted, hheader⟩ := Outcome.bind_eq_ok.1 hheader
    obtain ⟨⟨encryptionVersion, c₂⟩, hversion, hheader⟩ := Outcome.bind_eq_ok.1 hheader
    obtain ⟨⟨dataLen, c₃⟩, hlen, -⟩ := Outcome.bind_eq_ok.1 hheader
    -- from version 7 on there is a second header, read piece by piece
    obtain ⟨w₁, hw₁, b, rfl, -⟩ := ((parses_io (parses_readByte.map (· != 0))).sound _ _ _ hencrypted)
    obtain ⟨w₂, hw₂, rfl⟩ := (parses_io parses_readByte).sound _ _ _ hversion
    obtain ⟨w₃, hw₃, rfl⟩ := (parses_io parses_readInt).sound _ _ _ hlen
    dsimp only at hw₁ hw₂ hw₃
    rw [hw₃] at hw₂
    rw [hw₂] at hw₁
    obtain rfl := hw₁
    change openData key version id ⟨6, b :: encryptionVersion :: (writeInt dataLen ++ c₃.unread)⟩ = .ok c at h
    rw [openData_header hnew] at h
    by_cases hset : (b != 0) = true
    · rw [if_pos hset] at h
      obtain ⟨⟨part, c₄⟩, hpart, h⟩ := Outcome.bind_eq_ok.1 h
      have hencrypted : b ≠ 0 := by simpa using hset
      -- a negative length would ask for more bytes than there can be
      have hsize : asUsize dataLen.toInt ≤ isizeMax := by
        refine Nat.not_lt.1 fun hlt => ?_
        rw [io, readBytes, if_pos hlt] at hpart
        cases hpart
      have hsign := (asUsize_le_iff dataLen).1 hsize
      rw [readBytes, if_neg (Nat.not_lt.2 hsize)] at hpart
      obtain ⟨w, hw, hlength, rfl⟩ := (parses_io (Parses.take _ _)).sound _ _ _ hpart
      dsimp only at hw h
      rw [hw]
      by_cases hkey : key = []
      · rw [if_pos hkey] at h
        cases h
      · rw [if_neg hkey] at h
        obtain rfl := Outcome.ok.inj h
        refine .encrypted hnew hencrypted hkey ?_ id encryptionVersion c₄.unread
        have hlt := dataLen.toInt_lt
        unfold asUsize at hlength
        omega
    · rw [if_neg hset] at h
      obtain rfl := Outcome.ok.inj h
      obtain rfl : b = 0 := by simpa using hset
      exact .clear hnew id encryptionVersion dataLen c₃.unread

/-- A file that is parsed holds the map. -/
theorem body_of_parseContent {key content : List UInt8} {map : MapData} (h : parseContent content key = .ok map) :
    ∃ body w rest, Opens key content map.version map.id body ∧ body = w ++ rest ∧ Body map w := by
  unfold parseContent at h
  obtain ⟨⟨header, c₁⟩, hheader, h⟩ := Outcome.bind_eq_ok.1 h
  dsimp only at h
  by_cases hmagic : header ≠ 0x4D
  · rw [if_pos hmagic] at h
    cases h
  · rw [if_neg hmagic] at h
    obtain rfl := not_not.1 hmagic
    obtain ⟨⟨version, c₂⟩, hversion, h⟩ := Outcome.bind_eq_ok.1 h
    obtain ⟨⟨id, c₃⟩, hid, h⟩ := Outcome.bind_eq_ok.1 h
    obtain ⟨c₄, hopen, h⟩ := Outcome.bind_eq_ok.1 h
    obtain ⟨⟨map, c₅⟩, hread, h⟩ := Outcome.bind_eq_ok.1 h
    obtain rfl := Outcome.ok.inj h
    obtain ⟨w, hw, rfl, rfl, hbody⟩ := (parses_readMap version id).sound _ _ _ hread
    obtain ⟨_, u₁, rfl, rfl, rfl⟩ := (parses_readByte.mapErr _).ok_iff.1 hheader
    obtain ⟨_, u₂, rfl, rfl, rfl⟩ := (parses_readByte.mapErr _).ok_iff.1 hversion
    obtain ⟨_, u₃, rfl, rfl, rfl⟩ := (parses_readUint.mapErr _).ok_iff.1 hid
    have hsix : 0 + (writeByte 0x4D).length + (writeByte map.version).length + (writeUint map.id).length = 6 := by
      rw [writeUint, length_bigEndian]
      rfl
    rw [hsix] at hopen
    exact ⟨c₄.unread, w, c₅.unread, opens_of_openData hopen, hw, hbody⟩

/-- The bytes of a map with a fixture in its background and a layer, in which a cell has an image and a sound; only
the first cell of the map is not empty. -/
def furnishedBody : List UInt8 :=
  [0, 0, 0, 9, 0, 0, 0, 0, 95, 0, 0, 0, 2, 0, 0, 0, 3, 0, 0, 0, 4, 0, 0, 0, 5] ++ List.replicate 22 0 ++
    1 :: List.replicate 18 7 ++ 0 :: List.replicate 8 0 ++
    [1, 0, 0, 1, 0, 42, 0, 2] ++ 2 :: List.replicate 19 1 ++ 33 :: List.replicate 18 1 ++
    [1, 0, 6, 5, 9, 3, 8] ++ List.replicate (mapCellsCount - 1) 0x80

def furnishedMap : MapData where
  version := 11
  id := 1
  subAreaId := 95
  topNeighbourId := 2
  bottomNeighbourId := 3
  leftNeighbourId := 4
  rightNeighbourId := 5
  cells :=
    { mov := true, nonWalkableDuringRp := true, nonWalkableDuringFight := true, los := true, mapChangeData := 9,
      floor := 10, speed := 5, moveZone := 3 } ::
    List.replicate (mapCellsCount - 1)
      { mov := false, nonWalkableDuringRp := false, nonWalkableDuringFight := false, los := false, mapChangeData := 0,
        floor := -1280, speed := 0, moveZone := 0 }

end Otomai.Common.Dlm
