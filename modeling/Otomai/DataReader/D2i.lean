import Otomai.DataReader.File

/-!
# Translation files

`D2IReader` and `write_d2i` of the data tool.  A file starts with a pointer to its index; the strings stand between
the two.  The index tells for each text where its string begins, and where its variant without accents begins if it
has one; two more sections hold the named texts and the order of the ids.

* `ReadsBack`: the reader gives back the texts that were written, and no others.
* `Storable`: all strings have at most 65535 bytes, every variant without accents belongs to a text, and the sections
  are small enough for their 32-bit lengths.
* `readsBack_of_storable`, `storable_of_readsBack`: that is what it takes.
-/

namespace Otomai.DataReader

open Wire BigEndianReader BigEndianWriter

/-- A section of a file: its length in bytes, then its entries. -/
def readSection {α : Type} (readEntry : BigEndianReader α) : BigEndianReader (List α) := fun c => do
  let (length, c) ← readInt c
  let stop := (c.position + asU64 length) % 2 ^ 64
  Wire.Reader.upTo stop readEntry (c.unread.length + 1) c

/-! ### Reading -/

/-- An entry of the text index: the key, where its string begins, and where the one without accents begins. -/
structure IndexEntry where
  key : Int32
  pointer : UInt32
  diacriticalPointer : Option UInt32
  deriving DecidableEq, Repr

def readIndexEntry : BigEndianReader IndexEntry := do
  let key ← readInt
  let hasDiacritical ← readBoolean
  let pointer ← readUint
  if hasDiacritical then
    let diacriticalPointer ← readUint
    pure ⟨key, pointer, some diacriticalPointer⟩
  else pure ⟨key, pointer, none⟩

def readNamedEntry : BigEndianReader (String × UInt32) := do
  let textKey ← readUtf
  let pointer ← readUint
  pure (textKey, pointer)

structure D2IReader where
  data : List UInt8
  textIndexes : HashMap Int32 UInt32
  undiacriticalIndexes : HashMap Int32 UInt32
  namedTextIndexes : HashMap String UInt32
  sortIndexes : HashMap Int32 Int32

namespace D2IReader

/-- The reader of a file with these entries; `sort_counter` numbers the ids of the last section. -/
def ofEntries (data : List UInt8) (entries : List IndexEntry) (named : List (String × UInt32)) (ids : List Int32) :
    D2IReader where
  data
  textIndexes := .ofPairs (entries.map fun e => (e.key, e.pointer))
  undiacriticalIndexes := .ofPairs (entries.filterMap fun e => e.diacriticalPointer.map (e.key, ·))
  namedTextIndexes := .ofPairs named
  sortIndexes := .ofPairs (ids.zipIdx.map fun p => (p.1, Int32.ofNat p.2))

def fromBytes (data : List UInt8) : Outcome IoError D2IReader := do
  let (indexesPointer, _) ← readInt (.ofBytes data)
  let (entries, c) ← readSection readIndexEntry (.seek data (asU64 indexesPointer))
  let (named, c) ← readSection readNamedEntry c
  let (ids, _) ← readSection readInt c
  .ok (ofEntries data entries named ids)

/-- The errors of the lookups. -/
inductive Error where
  | textIdNotFound (key : Int32)
  | namedTextNotFound (key : String)
  | io (e : IoError)
  deriving DecidableEq, Repr

def Error.message : Error → String
  | textIdNotFound key => "Text ID " ++ toString key.toInt ++ " not found"
  | namedTextNotFound key => "Named text '" ++ key ++ "' not found"
  | io e => e.message

def readStringAt (reader : D2IReader) (offset : UInt32) : Outcome Error String := do
  let (text, _) ← (readUtf (.seek reader.data offset.toNat)).mapErr .io
  .ok text

def getText (reader : D2IReader) (key : Int32) : Outcome Error String :=
  match reader.textIndexes.lookup key with
  | some offset => reader.readStringAt offset
  | none => .err (.textIdNotFound key)

def getUndiacriticalText (reader : D2IReader) (key : Int32) : Outcome Error (Option String) :=
  match reader.undiacriticalIndexes.lookup key with
  | some offset => do
    let text ← reader.readStringAt offset
    .ok (some text)
  | none => .ok none

def getNamedText (reader : D2IReader) (key : String) : Outcome Error String :=
  match reader.namedTextIndexes.lookup key with
  | some offset => reader.readStringAt offset
  | none => .err (.namedTextNotFound key)

def textIds (reader : D2IReader) : List Int32 := reader.textIndexes.keys.insertionSort (· ≤ ·)

def namedTextKeys (reader : D2IReader) : List String := reader.namedTextIndexes.keys.insertionSort (· ≤ ·)

end D2IReader

/-! ### Writing -/

def writeIndexEntry (e : IndexEntry) : List UInt8 :=
  writeInt e.key ++ (writeBoolean e.diacriticalPointer.isSome ++ (writeUint e.pointer ++
    match e.diacriticalPointer with
    | some diacriticalPointer => writeUint diacriticalPointer
    | none => []))

def writeNamedEntry (e : String × UInt32) : List UInt8 := writeUtf e.1 ++ writeUint e.2

section

variable {κ : Type}

/-- The strings of some texts, one after the other. -/
def writeStrings (texts : List (κ × String)) : List UInt8 := texts.flatMap fun p => writeUtf p.2

/-- Where the strings of some texts begin when they are written from a position on, as `u32`. -/
def offsets (position : Nat) (texts : List (κ × String)) : List (κ × UInt32) :=
  (place (fun p => writeUtf p.2) position texts).map fun q => (q.1.1, UInt32.ofNat q.2)

end

/-- The variants without accents that are written: those of the texts. -/
def undiacriticalTexts (texts undiacritical : HashMap Int32 String) : List (Int32 × String) :=
  texts.sorted.filterMap fun p => (undiacritical.lookup p.1).map (p.1, ·)

def writeD2i (texts undiacritical : HashMap Int32 String) (namedTexts : HashMap String String) :
    Outcome IoError (List UInt8) :=
  let buf := writeInt 0
  let textOffsets := offsets buf.length texts.sorted
  let buf := buf ++ writeStrings texts.sorted
  let undiacriticalOffsets : HashMap Int32 UInt32 :=
    .ofPairs (offsets buf.length (undiacriticalTexts texts undiacritical))
  let buf := buf ++ writeStrings (undiacriticalTexts texts undiacritical)
  let namedOffsets := offsets buf.length namedTexts.sorted
  let buf := buf ++ writeStrings namedTexts.sorted
  let indexesPointer := Int32.ofNat buf.length
  let indexSection := textOffsets.flatMap fun e => writeIndexEntry ⟨e.1, e.2, undiacriticalOffsets.lookup e.1⟩
  let buf := buf ++ (writeInt (Int32.ofNat indexSection.length) ++ indexSection)
  let namedSection := namedOffsets.flatMap writeNamedEntry
  let buf := buf ++ (writeInt (Int32.ofNat namedSection.length) ++ namedSection)
  let sortSection := texts.sorted.flatMap fun p => writeInt p.1
  let buf := buf ++ (writeInt (Int32.ofNat texts.sorted.length * 4) ++ sortSection)
  let buf := writeInt indexesPointer ++ buf.drop 4
  -- a vector cannot grow beyond the largest allocation
  if isizeMax < buf.length then .panic else .ok buf

/-! ### What a file keeps -/

/-- The reader gives back the texts that were written, and no others. -/
structure ReadsBack (texts undiacritical : HashMap Int32 String) (namedTexts : HashMap String String)
    (reader : D2IReader) : Prop where
  textIds : ∀ key, key ∈ reader.textIds ↔ key ∈ texts
  text : ∀ key text, texts.lookup key = some text → reader.getText key = .ok text
  undiacriticalText : ∀ key, reader.getUndiacriticalText key = .ok (undiacritical.lookup key)
  namedTextKeys : ∀ key, key ∈ reader.namedTextKeys ↔ key ∈ namedTexts
  namedText : ∀ key text, namedTexts.lookup key = some text → reader.getNamedText key = .ok text
  sortIndexes : ∀ key ∈ texts, ∀ key' ∈ texts, key < key' →
    ∃ i j, reader.sortIndexes.lookup key = some i ∧ reader.sortIndexes.lookup key' = some j ∧ i < j

/-- The bytes that some texts take. -/
def stringsSize {κ : Type} (texts : List (κ × String)) : Nat := (texts.map fun p => 2 + (asBytes p.2).length).sum

/-- What it takes to be kept in a file. -/
structure Storable (texts undiacritical : HashMap Int32 String) (namedTexts : HashMap String String) : Prop where
  textsFit : ∀ p ∈ texts.pairs, Fits p.2
  undiacriticalFit : ∀ p ∈ undiacritical.pairs, p.1 ∈ texts ∧ Fits p.2
  namedTextsFit : ∀ p ∈ namedTexts.pairs, Fits p.1 ∧ Fits p.2
  stringsFit : 4 + (stringsSize texts.pairs + stringsSize undiacritical.pairs + stringsSize namedTexts.pairs) < 2 ^ 31
  indexFits : 9 * texts.pairs.length + 4 * undiacritical.pairs.length < 2 ^ 31
  namedFits : (namedTexts.pairs.map fun p => 6 + (asBytes p.1).length).sum < 2 ^ 31

/-! ### Sections -/

/-- A section as it is written: the length in bytes, then the entries. -/
def writeSection {α : Type} (write : α → List UInt8) (as : List α) : List UInt8 :=
  writeInt (Int32.ofNat (as.flatMap write).length) ++ as.flatMap write

section

variable {α : Type} {r : BigEndianReader α} {write : α → List UInt8} {as : List α}

/-- A section is read back. -/
theorem readSection_writeSection (hreads : ∀ a ∈ as, Reads r (write a) a) (hne : ∀ a ∈ as, write a ≠ [])
    (hlength : (as.flatMap write).length < 2 ^ 31) {position : Nat} {rest : List UInt8}
    (hposition : position + (writeSection write as).length ≤ isizeMax) :
    readSection r ⟨position, writeSection write as ++ rest⟩ =
      .ok (as, ⟨position + (writeSection write as).length, rest⟩) := by
  have hcount := length_le_flatMap hne
  have hint := reads_int (Int32.ofNat (as.flatMap write).length) position (as.flatMap write ++ rest)
  have htable := @upTo_flatMap _ _ _ _ _ hreads hne ((as.flatMap write ++ rest).length + 1) (position + 4) rest
    (by rw [List.length_append]; omega)
  unfold writeSection at hposition ⊢
  rw [List.length_append, length_writeInt] at hposition ⊢
  rw [readSection, List.append_assoc, hint]
  show Wire.Reader.upTo ((position + (writeInt _).length + asU64 _) % 2 ^ 64) r _ _ = _
  unfold isizeMax at hposition
  rw [length_writeInt, asU64_ofNat_of_lt hlength, Nat.mod_eq_of_lt (by omega), htable, Nat.add_assoc]

/-- A section whose length does not fit thirty-one bits is not read to its end. -/
theorem readSection_short (hreads : ∀ a ∈ as, Reads r (write a) a) (hlongest : ∀ a ∈ as, (write a).length ≤ 2 ^ 17)
    (hr : Consumes r) (hlength : 2 ^ 31 ≤ (as.flatMap write).length) {position : Nat}
    {rest : List UInt8} {bs : List α}
    {c : Cursor} (hposition : position + (writeSection write as ++ rest).length ≤ isizeMax)
    (h : readSection r ⟨position, writeSection write as ++ rest⟩ = .ok (bs, c)) :
    bs <+: as ∧ bs.length < as.length := by
  have hne : as ≠ [] := by
    rintro rfl
    exact absurd hlength (Nat.not_le.2 (Nat.two_pow_pos 31))
  have hint := reads_int (Int32.ofNat (as.flatMap write).length) position (as.flatMap write ++ rest)
  unfold writeSection at hposition h
  rw [List.length_append, List.length_append, length_writeInt] at hposition
  rw [readSection, List.append_assoc, hint] at h
  change Wire.Reader.upTo ((position + (writeInt _).length + asU64 _) % 2 ^ 64) r _ _ = _ at h
  rw [length_writeInt, asU64_ofNat] at h
  unfold isizeMax at hposition
  generalize hm : (as.flatMap write).length % 2 ^ 32 = m at h
  -- the section ends too early, or behind the end of the file
  by_cases hsmall : m < 2 ^ 31
  · rw [if_pos hsmall, Nat.mod_eq_of_lt (by omega)] at h
    exact upTo_short hreads hlongest hne (by omega) h
  · rw [if_neg hsmall] at h
    by_cases hend : position + 4 + (2 ^ 64 - 2 ^ 32 + m) < 2 ^ 64
    · rw [Nat.mod_eq_of_lt hend] at h
      obtain ⟨htotal, hstop⟩ := upTo_stops hr h
      rw [List.length_append] at htotal
      dsimp only at htotal
      omega
    · have hwrap : (position + 4 + (2 ^ 64 - 2 ^ 32 + m)) % 2 ^ 64 = position + 4 + m - 2 ^ 32 := by omega
      rw [hwrap] at h
      exact upTo_short hreads hlongest hne (by omega) h

theorem readSection_forall {Q : α → Prop} (hr : ∀ c a c', r c = .ok (a, c') → Q a) {c c' : Cursor}
    (h : readSection r c = .ok (as, c')) : ∀ a ∈ as, Q a := by
  obtain ⟨⟨length, d⟩, -, h⟩ := Outcome.bind_eq_ok.1 h
  exact upTo_forall hr h

end

theorem reads_indexEntry (e : IndexEntry) : Reads readIndexEntry (writeIndexEntry e) e := by
  obtain ⟨key, pointer, diacriticalPointer⟩ := e
  refine (reads_int key).bind ((reads_boolean _).bind ((reads_uint pointer).bind ?_))
  cases diacriticalPointer with
  | none => exact Reads.pure _
  | some diacriticalPointer => exact (reads_uint diacriticalPointer).map (Reads.pure _)

theorem consumes_readIndexEntry : Consumes readIndexEntry := by
  refine consumes_readInt.bind fun key => consumes_readBoolean.bind fun hasDiacritical => ?_
  refine consumes_readUint.bind fun pointer => ?_
  cases hasDiacritical with
  | true => exact consumes_readUint.bind fun _ => Consumes.pure _
  | false => exact Consumes.pure _

theorem consumes_readNamedEntry : Consumes readNamedEntry :=
  consumes_readUtf.bind fun _ => consumes_readUint.bind fun _ => Consumes.pure _

theorem fits_of_readNamedEntry {c c' : Cursor} {e : String × UInt32} (h : readNamedEntry c = .ok (e, c')) :
    Fits e.1 := by
  obtain ⟨⟨name, d⟩, hname, h⟩ := Outcome.bind_eq_ok.1 h
  obtain ⟨⟨pointer, d'⟩, -, h⟩ := Outcome.bind_eq_ok.1 h
  obtain ⟨rfl, -⟩ := Prod.mk.inj (Outcome.ok.inj h)
  exact fits_of_readUtf hname

theorem reads_namedEntry {e : String × UInt32} (h : Fits e.1) : Reads readNamedEntry (writeNamedEntry e) e :=
  (reads_utf h).bind ((reads_uint e.2).map (Reads.pure _))

end Otomai.DataReader
