import Otomai.DataReader.D2o

/-!
# Signed files

The `sign` command puts a header before a file: `build_aksf` of the patcher writes its name as a string, with the
length before it.  `D2OReader::from_bytes` expects the four letters at the very beginning of the file, so it accepts
no file that was signed (`signed_never_readable`).

The hash function and the encryption with the private key are not part of the repository.
-/

namespace Otomai.DataReader

open Wire BigEndianReader BigEndianWriter

def signHeader : String := "AKSF"

section

variable (md5 : List UInt8 → String) (privateEncrypt : List UInt8 → Option (List UInt8))

def buildAksf (random : UInt8) (data : List UInt8) : Option (List UInt8) := do
  let md5Hex := md5 data
  let hash := writeByte random ++ (writeUint (UInt32.ofNat data.length) ++ asBytes md5Hex)
  let hash := hash.take 2 ++ (hash.drop 2).map fun b => b ^^^ random
  let signed ← privateEncrypt hash
  some (writeUtf signHeader ++ (writeShort 1 ++ (writeInt (Int32.ofNat signed.length) ++ writeBytes signed)))

/-- `cmd_sign` on a file. -/
def cmdSign (random : UInt8) (data : List UInt8) : Option (List UInt8) := do
  let aksf ← buildAksf md5 privateEncrypt random data
  some (aksf ++ data)

end

/-- The signed file is read like the file. -/
def StaysReadable (data signed : List UInt8) : Prop :=
  ∀ reader, D2OReader.fromBytes data = .ok reader → ∃ reader', D2OReader.fromBytes signed = .ok reader' ∧
    (∀ classId, reader'.classes.lookup classId = reader.classes.lookup classId) ∧
    reader'.objectIds = reader.objectIds ∧ ∀ id, reader'.readObject id = reader.readObject id

/-- A signed file begins with the length of the header's name. -/
theorem fromBytes_cmdSign {md5 : List UInt8 → String} {privateEncrypt : List UInt8 → Option (List UInt8)}
    {random : UInt8} {data signed : List UInt8} (h : cmdSign md5 privateEncrypt random data = some signed) :
    D2OReader.fromBytes signed = .err (.badMagic [0, 4, 65]) := by
  obtain ⟨aksf, haksf, h⟩ := Option.bind_eq_some_iff.1 h
  obtain ⟨signature, -, haksf⟩ := Option.bind_eq_some_iff.1 haksf
  obtain rfl := Option.some.inj h
  obtain rfl := Option.some.inj haksf
  have hname : writeUtf signHeader = [0, 4, 65, 75, 83, 70] := by decide +kernel
  rw [hname]
  rfl

/-- No file that was signed can be read. -/
theorem signed_never_readable (md5 : List UInt8 → String) (privateEncrypt : List UInt8 → Option (List UInt8))
    (random : UInt8) (data signed : List UInt8) (reader : D2OReader) (hdata : D2OReader.fromBytes data = .ok reader)
    (h : cmdSign md5 privateEncrypt random data = some signed) :
    D2OReader.fromBytes signed = .err (.badMagic [0, 4, 65]) ∧ ¬StaysReadable data signed := by
  have herr := fromBytes_cmdSign h
  refine ⟨herr, fun hreadable => ?_⟩
  obtain ⟨reader', hreader', -⟩ := hreadable reader hdata
  rw [herr] at hreader'
  cases hreader'

/-- A file without objects and classes. -/
def emptyFile : List UInt8 := [68, 50, 79, 0, 0, 0, 7, 0, 0, 0, 0, 0, 0, 0, 0]

def emptyFileMd5 : String := "58a0e928cf9cedecc1f77c233b91500c"

/-- The signature of the empty file with a key of 384 bits, for the random byte 90. -/
def emptyFileSignature : List UInt8 :=
  [10, 70, 198, 249, 238, 93, 221, 171, 242, 239, 36, 255, 64, 95, 195, 197, 128, 160, 234, 107, 20, 64, 31, 253, 23,
    153, 79, 172, 201, 52, 130, 9, 70, 136, 17, 242, 241, 216, 113, 171, 50, 105, 69, 105, 170, 139, 67, 127]

def signedEmptyFile : List UInt8 :=
  writeUtf signHeader ++ (writeShort 1 ++ (writeInt 48 ++ writeBytes emptyFileSignature)) ++ emptyFile

def emptyReader : D2OReader := { classes := ∅, indexes := [], contentOffset := 0, data := emptyFile }

theorem signed_never_readable_empty : D2OReader.fromBytes signedEmptyFile = .err (.badMagic [0, 4, 65]) ∧
    ¬StaysReadable emptyFile signedEmptyFile :=
  signed_never_readable (fun _ => emptyFileMd5) (fun _ => some emptyFileSignature) 90 emptyFile signedEmptyFile
    emptyReader rfl rfl

/-- The signed empty file is refused. -/
theorem empty_not_readable :
    cmdSign (fun _ => emptyFileMd5) (fun _ => some emptyFileSignature) 90 emptyFile = some signedEmptyFile ∧
      ¬StaysReadable emptyFile signedEmptyFile := by
  refine ⟨rfl, fun h => ?_⟩
  obtain ⟨reader', hreader', -⟩ := h emptyReader rfl
  cases hreader'

end Otomai.DataReader
