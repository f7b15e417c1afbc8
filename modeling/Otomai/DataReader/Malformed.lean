import Otomai.Common.Dlm
import Otomai.DataReader.D2i
import Otomai.DataReader.D2oRoundTrip
import Otomai.DataReader.D2p
import Otomai.Io.Ends

/-!
# Malformed files

The readers of the data tool when every overflow of an addition panics, as it does in a debug build.  Where such a
reader does not panic it does what the reader of a release build does.

* `ends_d2iFromBytes`: the lengths of the sections of a translation file must not wrap around at its beginning.
* `ends_d2oFromBytes`, `ends_readObject`: nor may the pointers of an object file, and its counts must not be negative.
* `ends_d2pFromBytes`: the offsets of an archive must fit thirty-two bits.
* `readers_end_iff`: every other file is answered with a value or an error.
-/

namespace Otomai.DataReader

open Wire BigEndianReader

/-- `a + b` of two `u64`, with a check. -/
def addU64 {ε : Type} (a b : Nat) : Outcome ε Nat := if 2 ^ 64 ≤ a + b then .panic else .ok (a + b)

/-- A number of thirty-two bits may be added to a position after it was cast to `u64`: it is not negative, or it is
less than the position is far from the beginning. -/
def Addable (position : Nat) (n : Int32) : Prop := 0 ≤ n.toInt ∨ position + n.toInt < 0

theorem addable_iff {position : Nat} {n : Int32} (h : position ≤ isizeMax) :
    Addable position n ↔ position + asU64 n < 2 ^ 64 := by
  have hlt := n.toInt_lt
  have hle := n.le_toInt
  unfold isizeMax at h
  unfold Addable asU64
  omega

section

variable {ε α : Type} {position : Nat} {n : Int32} {k : Nat → Outcome ε α}

theorem addU64_panic (h : position ≤ isizeMax) (hn : ¬Addable position n) :
    (addU64 position (asU64 n) : Outcome ε Nat) = .panic := by
  rw [addable_iff h] at hn
  exact if_pos (Nat.not_lt.1 hn)

theorem addU64_ok (h : position ≤ isizeMax) (hn : Addable position n) :
    (addU64 position (asU64 n) : Outcome ε Nat) = .ok ((position + asU64 n) % 2 ^ 64) := by
  rw [addable_iff h] at hn
  rw [addU64, if_neg (Nat.not_le.2 hn), Nat.mod_eq_of_lt hn]

theorem guards_addU64 (position offset : Nat) :
    (addU64 position offset : Outcome ε Nat).Guards (.ok ((position + offset) % 2 ^ 64)) := by
  by_cases h : 2 ^ 64 ≤ position + offset
  · left
    rw [addU64, if_pos h]
  · right
    rw [addU64, if_neg h, Nat.mod_eq_of_lt (Nat.not_le.1 h)]

end

/-- The cursor stands in the file, or nothing is left behind it. -/
def InFile (data : List UInt8) (c : Cursor) : Prop := c.unread = [] ∨ c.position + c.unread.length = data.length

theorem inFile_seek (data : List UInt8) (p : Nat) : InFile data (.seek data p) := by
  by_cases hp : p ≤ data.length
  · right
    show p + (data.drop p).length = data.length
    rw [List.length_drop]
    omega
  · left
    exact List.drop_eq_nil_of_le (by omega)

/-- Behind what was read the cursor stands in the file. -/
theorem InFile.read {ε α : Type} {data : List UInt8} {r : Wire.Reader ε α} {c c' : Cursor} {a : α} {n : Nat}
    (hc : InFile data c) (hr : Consumes r) (hshrinks : Shrinks (n + 1) r) (h : r c = .ok (a, c')) :
    c'.position + c'.unread.length = data.length := by
  have htotal := hr c a c' h
  have hlen := hshrinks c a c' h
  rcases hc with hnil | hin
  · rw [hnil, List.length_nil] at hlen
    omega
  · omega

/-! ### Translation files -/

/-- A section of a file, the end of which is computed with a check. -/
def readSectionChecked {α : Type} (readEntry : BigEndianReader α) : BigEndianReader (List α) := fun c => do
  let (length, c) ← readInt c
  let stop ← addU64 c.position (asU64 length)
  Wire.Reader.upTo stop readEntry (c.unread.length + 1) c

/-- The ids of the last section, numbered with a counter of thirty-two bits, as many as the fuel allows. -/
def readSortIdsFrom (stop : Nat) : Nat → Nat → BigEndianReader (List Int32)
  | 0, _ => Wire.Reader.exhausted
  | fuel + 1, counter => fun c =>
    if c.position < stop then do
      let (id, c) ← readInt c
      if counter + 1 = 2 ^ 31 then .panic
      else do
        let (ids, c) ← readSortIdsFrom stop fuel (counter + 1) c
        .ok (id :: ids, c)
    else .ok ([], c)

def readSortIds : BigEndianReader (List Int32) := fun c => do
  let (length, c) ← readInt c
  let stop ← addU64 c.position (asU64 length)
  readSortIdsFrom stop (c.unread.length + 1) 0 c

/-- `from_bytes` of a debug build. -/
def D2IReader.fromBytesChecked (data : List UInt8) : Outcome IoError D2IReader := do
  let (indexesPointer, _) ← readInt (.ofBytes data)
  let (entries, c) ← readSectionChecked readIndexEntry (.seek data (asU64 indexesPointer))
  let (named, c) ← readSectionChecked readNamedEntry c
  let (ids, _) ← readSortIds c
  .ok (ofEntries data entries named ids)

/-- The length of the section at the cursor may be added to where it stands. -/
def SectionFits (c : Cursor) : Prop := ∀ length c', readInt c = .ok (length, c') → Addable c'.position length

/-- The section is not of negative length, or not so long that its ids cannot be counted. -/
def SortIdsFit (c : Cursor) : Prop :=
  ∀ length c', readInt c = .ok (length, c') → 0 ≤ length.toInt ∨ c'.unread.length < 2 ^ 33

section

variable {α : Type} {r : BigEndianReader α} {data : List UInt8} {c : Cursor}

theorem checks_readSection (r : BigEndianReader α) : Checks (readSectionChecked r) (readSection r) := by
  intro c
  refine (Outcome.Guards.refl (readInt c)).bind fun x => ?_
  exact (guards_addU64 _ _).bind fun stop => Outcome.Guards.refl _

theorem ends_readSectionChecked (hr : AlwaysEnds r) (hshrinks : Shrinks 1 r) (hc : InFile data c)
    (hdata : data.length ≤ isizeMax) : (readSectionChecked r c).Ends ↔ SectionFits c := by
  unfold readSectionChecked
  rw [Outcome.ends_bind]
  have hstep : ∀ length c', readInt c = .ok (length, c') →
      ((addU64 c'.position (asU64 length) >>= fun stop =>
        Wire.Reader.upTo stop r (c'.unread.length + 1) c').Ends ↔ Addable c'.position length) := by
    intro length c' hlength
    have hin := hc.read consumes_readInt shrinks_readInt hlength
    have hposition : c'.position ≤ isizeMax := by omega
    by_cases hadd : Addable c'.position length
    · rw [addU64_ok hposition hadd, Outcome.ok_bind]
      exact iff_of_true (ends_upTo hr hshrinks (Nat.lt_succ_self _)) hadd
    · rw [addU64_panic hposition hadd, Outcome.panic_bind]
      exact iff_of_false id hadd
  constructor
  · rintro ⟨-, h⟩ length c' hlength
    exact (hstep length c' hlength).1 (h (length, c') hlength)
  · intro h
    exact ⟨ends_readInt c, fun x hx => (hstep x.1 x.2 hx).2 (h x.1 x.2 hx)⟩

theorem InFile.section (hc : InFile data c) (hr : Consumes r) {as : List α} {c' : Cursor}
    (h : readSection r c = .ok (as, c')) : InFile data c' := by
  obtain ⟨⟨length, d⟩, hlength, h⟩ := Outcome.bind_eq_ok.1 h
  have hin := hc.read consumes_readInt shrinks_readInt hlength
  have htotal := (upTo_stops hr h).1
  right
  exact htotal.trans hin

theorem readSortIdsFrom_of_le {stop fuel counter : Nat} (h : stop ≤ c.position) :
    readSortIdsFrom stop (fuel + 1) counter c = .ok ([], c) := if_neg (Nat.not_lt.2 h)

theorem readSortIdsFrom_of_lt {stop fuel counter : Nat} (h : c.position < stop) :
    readSortIdsFrom stop (fuel + 1) counter c = (do
      let (id, c) ← readInt c
      if counter + 1 = 2 ^ 31 then .panic
      else do
        let (ids, c) ← readSortIdsFrom stop fuel (counter + 1) c
        .ok (id :: ids, c)) := if_pos h

/-- The counter overflows if there are as many ids as it takes. -/
theorem ends_readSortIdsFrom {stop fuel counter : Nat} {c : Cursor} (hfuel : c.unread.length < fuel)
    (hcounter : counter < 2 ^ 31) : (readSortIdsFrom stop fuel counter c).Ends ↔
      ¬(c.position + 4 * (2 ^ 31 - 1 - counter) < stop ∧ 4 * (2 ^ 31 - counter) ≤ c.unread.length) := by
  induction fuel generalizing counter c with
  | zero => omega
  | succ fuel ih =>
    by_cases hlt : c.position < stop
    · rw [readSortIdsFrom_of_lt hlt]
      by_cases henough : 4 ≤ c.unread.length
      · obtain ⟨n, c', hn, hposition, hunread⟩ := readInt_enough henough
        rw [hn, Outcome.ok_bind]
        dsimp only
        by_cases hlast : counter + 1 = 2 ^ 31
        · rw [if_pos hlast]
          exact iff_of_false id (by omega)
        · have hnext := @ih (counter + 1) c' (by omega) (by omega)
          rw [if_neg hlast, Outcome.ends_bind, hnext]
          constructor
          · rintro ⟨h, -⟩
            omega
          · intro h
            exact ⟨by omega, fun _ _ => trivial⟩
      · obtain ⟨e, he⟩ := readInt_fewer (Nat.lt_of_not_le henough)
        rw [he, Outcome.err_bind]
        exact iff_of_true trivial (by omega)
    · rw [readSortIdsFrom_of_le (Nat.not_lt.1 hlt)]
      exact iff_of_true trivial (by omega)

theorem checks_readSortIdsFrom (stop fuel counter : Nat) :
    Checks (readSortIdsFrom stop fuel counter) (Wire.Reader.upTo stop readInt fuel) := by
  induction fuel generalizing counter with
  | zero => exact Checks.refl _
  | succ fuel ih =>
    intro c
    by_cases hlt : c.position < stop
    · rw [readSortIdsFrom_of_lt hlt, Wire.Reader.upTo_of_lt hlt]
      refine (Outcome.Guards.refl (readInt c)).bind fun x => ?_
      by_cases hlast : counter + 1 = 2 ^ 31
      · left
        dsimp only
        rw [if_pos hlast]
      · dsimp only
        rw [if_neg hlast]
        exact (ih (counter + 1) x.2).bind fun y => Outcome.Guards.refl _
    · right
      rw [readSortIdsFrom_of_le (Nat.not_lt.1 hlt), Wire.Reader.upTo_of_le (Nat.not_lt.1 hlt)]

theorem ends_readSortIds (hc : InFile data c) (hdata : data.length ≤ isizeMax) :
    (readSortIds c).Ends ↔ SectionFits c ∧ SortIdsFit c := by
  have hstep : ∀ length c', readInt c = .ok (length, c') →
      ((addU64 c'.position (asU64 length) >>= fun stop => readSortIdsFrom stop (c'.unread.length + 1) 0 c').Ends ↔
        Addable c'.position length ∧ (0 ≤ length.toInt ∨ c'.unread.length < 2 ^ 33)) := by
    intro length c' hlength
    have hin := hc.read consumes_readInt shrinks_readInt hlength
    have hposition : c'.position ≤ isizeMax := by omega
    by_cases hadd : Addable c'.position length
    · have hsum := (addable_iff hposition).1 hadd
      rw [addU64_ok hposition hadd, Outcome.ok_bind, Nat.mod_eq_of_lt hsum,
        ends_readSortIdsFrom (Nat.lt_succ_self _) (by omega)]
      -- a length that is not negative is too small for the counter, and a negative one is huge
      have hlt := length.toInt_lt
      have hle := length.le_toInt
      unfold asU64
      constructor
      · exact fun h => ⟨hadd, by omega⟩
      · rintro ⟨-, h⟩
        omega
    · rw [addU64_panic hposition hadd, Outcome.panic_bind]
      exact iff_of_false id fun h => hadd h.1
  unfold readSortIds
  rw [Outcome.ends_bind]
  constructor
  · rintro ⟨-, h⟩
    have hends := fun length c' hlength => (hstep length c' hlength).1 (h (length, c') hlength)
    exact ⟨fun length c' hlength => (hends length c' hlength).1, fun length c' hlength => (hends length c' hlength).2⟩
  · rintro ⟨hfits, hids⟩
    exact ⟨ends_readInt c, fun x hx => (hstep x.1 x.2 hx).2 ⟨hfits x.1 x.2 hx, hids x.1 x.2 hx⟩⟩

theorem checks_readSortIds : Checks readSortIds (readSection readInt) := by
  intro c
  refine (Outcome.Guards.refl (readInt c)).bind fun x => ?_
  exact (guards_addU64 _ _).bind fun stop => checks_readSortIdsFrom stop _ 0 x.2

end

namespace D2IReader

/-- The places of a file where its sections begin. -/
def IndexAt (data : List UInt8) (c : Cursor) : Prop :=
  ∃ pointer c₀, readInt (.ofBytes data) = .ok (pointer, c₀) ∧ c = .seek data (asU64 pointer)

def NamedAt (data : List UInt8) (c : Cursor) : Prop :=
  ∃ c₀ entries, IndexAt data c₀ ∧ readSection readIndexEntry c₀ = .ok (entries, c)

def SortAt (data : List UInt8) (c : Cursor) : Prop :=
  ∃ c₀ named, NamedAt data c₀ ∧ readSection readNamedEntry c₀ = .ok (named, c)

/-- No length of a section wraps around. -/
structure Sound (data : List UInt8) : Prop where
  index : ∀ c, IndexAt data c → SectionFits c
  named : ∀ c, NamedAt data c → SectionFits c
  sort : ∀ c, SortAt data c → SectionFits c ∧ SortIdsFit c

end D2IReader

theorem ends_readIndexEntry : AlwaysEnds readIndexEntry := by
  refine ends_readInt.bind fun _ => ends_readBoolean.bind fun hasDiacritical => ends_readUint.bind fun _ => ?_
  cases hasDiacritical with
  | true => exact ends_readUint.bind fun _ => AlwaysEnds.pure _
  | false => exact AlwaysEnds.pure _

theorem shrinks_readIndexEntry : Shrinks 1 readIndexEntry := by
  refine Shrinks.mono (@Shrinks.bind _ _ _ _ _ 4 1 shrinks_readInt fun _ => ?_) (by omega)
  refine @Shrinks.bind _ _ _ _ _ 1 0 shrinks_readBoolean fun hasDiacritical => ?_
  refine @Shrinks.bind _ _ _ _ _ 0 0 (shrinks_readUint.mono (by omega)) fun _ => ?_
  cases hasDiacritical with
  | true => exact (shrinks_readUint.bind fun _ => Shrinks.pure _).mono (by omega)
  | false => exact Shrinks.pure _

theorem ends_readNamedEntry : AlwaysEnds readNamedEntry :=
  ends_readUtf.bind fun _ => ends_readUint.bind fun _ => AlwaysEnds.pure _

theorem shrinks_readNamedEntry : Shrinks 1 readNamedEntry :=
  (shrinks_readUtf.bind fun _ => shrinks_readUint.bind fun _ => Shrinks.pure _).mono (by omega)

/-- A translation file is read without a panic if and only if no length of its sections wraps around. -/
theorem ends_d2iFromBytes {data : List UInt8} (hdata : data.length ≤ isizeMax) :
    (D2IReader.fromBytesChecked data).Ends ↔ D2IReader.Sound data := by
  have hindex : ∀ c, D2IReader.IndexAt data c → InFile data c := by
    rintro c ⟨pointer, c₀, -, rfl⟩
    exact inFile_seek data _
  have hnamed : ∀ c, D2IReader.NamedAt data c → InFile data c := by
    rintro c ⟨c₀, entries, hc₀, hentries⟩
    exact (hindex c₀ hc₀).section consumes_readIndexEntry hentries
  have hsort : ∀ c, D2IReader.SortAt data c → InFile data c := by
    rintro c ⟨c₀, named, hc₀, hread⟩
    exact (hnamed c₀ hc₀).section consumes_readNamedEntry hread
  have hfirst : ∀ c, D2IReader.IndexAt data c → ((readSectionChecked readIndexEntry c).Ends ↔ SectionFits c) :=
    fun c hc => ends_readSectionChecked ends_readIndexEntry shrinks_readIndexEntry (hindex c hc) hdata
  have hsecond : ∀ c, D2IReader.NamedAt data c → ((readSectionChecked readNamedEntry c).Ends ↔ SectionFits c) :=
    fun c hc => ends_readSectionChecked ends_readNamedEntry shrinks_readNamedEntry (hnamed c hc) hdata
  have hthird : ∀ c, D2IReader.SortAt data c → ((readSortIds c).Ends ↔ SectionFits c ∧ SortIdsFit c) :=
    fun c hc => ends_readSortIds (hsort c hc) hdata
  unfold D2IReader.fromBytesChecked
  rw [Outcome.ends_bind]
  constructor
  · rintro ⟨-, h⟩
    refine ⟨?_, ?_, ?_⟩
    · rintro c ⟨pointer, c₀, hpointer, rfl⟩
      have hends := h (pointer, c₀) hpointer
      rw [Outcome.ends_bind] at hends
      exact (hfirst _ ⟨pointer, c₀, hpointer, rfl⟩).1 hends.1
    · rintro c ⟨_, entries, ⟨pointer, c₀, hpointer, rfl⟩, hentries⟩
      have hends := h (pointer, c₀) hpointer
      rw [Outcome.ends_bind] at hends
      rw [← (checks_readSection readIndexEntry _).eq_of_ends hends.1] at hentries
      have hrest := hends.2 (entries, c) hentries
      rw [Outcome.ends_bind] at hrest
      exact (hsecond c ⟨_, entries, ⟨pointer, c₀, hpointer, rfl⟩, (checks_readSection _ _).ok hentries⟩).1 hrest.1
    · rintro c ⟨d, named, ⟨_, entries, ⟨pointer, c₀, hpointer, rfl⟩, hentries⟩, hread⟩
      have hends := h (pointer, c₀) hpointer
      rw [Outcome.ends_bind] at hends
      rw [← (checks_readSection readIndexEntry _).eq_of_ends hends.1] at hentries
      have hrest := hends.2 (entries, d) hentries
      rw [Outcome.ends_bind] at hrest
      rw [← (checks_readSection readNamedEntry _).eq_of_ends hrest.1] at hread
      have hlast := hrest.2 (named, c) hread
      rw [Outcome.ends_bind] at hlast
      exact (hthird c ⟨d, named, ⟨_, entries, ⟨pointer, c₀, hpointer, rfl⟩, (checks_readSection _ _).ok hentries⟩,
        (checks_readSection _ _).ok hread⟩).1 hlast.1
  · rintro ⟨hfits₁, hfits₂, hfits₃⟩
    refine ⟨ends_readInt _, ?_⟩
    rintro ⟨pointer, c₀⟩ hpointer
    have hc₁ : D2IReader.IndexAt data (.seek data (asU64 pointer)) := ⟨pointer, c₀, hpointer, rfl⟩
    rw [Outcome.ends_bind]
    refine ⟨(hfirst _ hc₁).2 (hfits₁ _ hc₁), ?_⟩
    rintro ⟨entries, c₂⟩ hentries
    have hc₂ : D2IReader.NamedAt data c₂ := ⟨_, entries, hc₁, (checks_readSection _ _).ok hentries⟩
    rw [Outcome.ends_bind]
    refine ⟨(hsecond _ hc₂).2 (hfits₂ _ hc₂), ?_⟩
    rintro ⟨named, c₃⟩ hread
    have hc₃ : D2IReader.SortAt data c₃ := ⟨c₂, named, hc₂, (checks_readSection _ _).ok hread⟩
    rw [Outcome.ends_bind]
    exact ⟨(hthird _ hc₃).2 (hfits₃ _ hc₃), fun _ _ => trivial⟩

/-- A debug build panics or reads what a release build reads. -/
theorem guards_d2iFromBytes (data : List UInt8) :
    (D2IReader.fromBytesChecked data).Guards (D2IReader.fromBytes data) := by
  refine (Outcome.Guards.refl _).bind fun x => (checks_readSection _ _).bind fun y => ?_
  exact (checks_readSection _ _).bind fun z => (checks_readSortIds _).bind fun w => Outcome.Guards.refl _

/-- A text is looked up without a panic. -/
theorem ends_getText (reader : D2IReader) (key : Int32) : (reader.getText key).Ends := by
  unfold D2IReader.getText
  cases reader.textIndexes.lookup key with
  | some offset =>
    show (reader.readStringAt offset).Ends
    unfold D2IReader.readStringAt
    rw [Outcome.ends_bind, Outcome.ends_mapErr]
    exact ⟨ends_readUtf _, fun _ _ => trivial⟩
  | none => trivial

/-! ### Object files -/

/-- `from_bytes` of a debug build. -/
def D2OReader.fromBytesChecked (data : List UInt8) : Outcome D2OError D2OReader := do
  let (contentOffset, c) ← readMagic data
  let (indexesPointer, _) ← io readInt c
  let start ← addU64 contentOffset (asU64 indexesPointer)
  let (indexesLength, c) ← io readInt (.seek data start)
  let (indexes, c) ← readCounted (indexesLength.toInt.tdiv 8) readIndex c
  let (classCount, c) ← io readInt c
  let (classes, _) ← Wire.Reader.replicate readClassDef classCount.toInt.toNat c
  .ok { classes := .ofPairs (classes.map fun d => (d.classId, d)), indexes, contentOffset, data }

/-- `read_object` of a debug build. -/
def D2OReader.readObjectChecked (reader : D2OReader) (objectId : Int32) : Outcome D2OError Value :=
  match reader.indexes.lookup objectId with
  | none => .err .objectIdNotFound
  | some offset => do
    let start ← addU64 reader.contentOffset (asU64 offset)
    let (classId, c) ← io readInt (.seek reader.data start)
    let (value, _) ← readObjectFields reader.classes (reader.data.length + 1) classId c
    .ok value

/-- The number of the fields of a class, behind its id and names. -/
def readFieldCount : D2OCursor Int32 := do
  let _classId ← io readInt
  let _name ← io readUtf
  let _package ← io readUtf
  io readInt

namespace D2OReader

/-- The places of a file where its index and its classes begin. -/
def IndexesAt (data : List UInt8) (c : Cursor) : Prop :=
  ∃ contentOffset c₀ pointer c₁, readMagic data = .ok (contentOffset, c₀) ∧ io readInt c₀ = .ok (pointer, c₁) ∧
    c = .seek data ((contentOffset + asU64 pointer) % 2 ^ 64)

def ClassAt (data : List UInt8) (c : Cursor) : Prop :=
  ∃ c₀ length c₁ indexes c₂ count c₃ k classes, IndexesAt data c₀ ∧ io readInt c₀ = .ok (length, c₁) ∧
    readCounted (length.toInt.tdiv 8) readIndex c₁ = .ok (indexes, c₂) ∧ io readInt c₂ = .ok (count, c₃) ∧
    k < count.toInt.toNat ∧ Wire.Reader.replicate readClassDef k c₃ = .ok (classes, c)

/-- The pointer to the index does not wrap around, and neither the index nor a class has fewer entries than none. -/
structure Sound (data : List UInt8) : Prop where
  pointer : ∀ contentOffset c pointer c', readMagic data = .ok (contentOffset, c) →
    io readInt c = .ok (pointer, c') → Addable contentOffset pointer
  indexes : ∀ c, IndexesAt data c → ∀ length c', io readInt c = .ok (length, c') → -8 < length.toInt
  classes : ∀ c, ClassAt data c → ∀ count c', readFieldCount c = .ok (count, c') → 0 ≤ count.toInt

end D2OReader

theorem alwaysEnds_io {α : Type} {r : BigEndianReader α} (h : AlwaysEnds r) : AlwaysEnds (io r) :=
  fun c => Outcome.ends_mapErr.2 (h c)

theorem shrinks_io {α : Type} {r : BigEndianReader α} {n : Nat} (h : Shrinks n r) : Shrinks n (io r) :=
  fun c a c' hr => h c a c' (io_eq_ok.1 hr)

theorem ends_readFieldTypeFrom {fuel : Nat} {c : Cursor} (hfuel : c.unread.length < fuel) :
    (readFieldTypeFrom fuel c).Ends := by
  induction fuel generalizing c with
  | zero => omega
  | succ fuel ih =>
    rw [readFieldTypeFrom, Wire.Reader.bind_apply, Outcome.ends_bind]
    refine ⟨alwaysEnds_io ends_readInt c, fun x hx => ?_⟩
    have hlen := shrinks_io shrinks_readInt c x.1 x.2 hx
    split_ifs
    · trivial
    · trivial
    · trivial
    · trivial
    · trivial
    · trivial
    · rw [Wire.Reader.bind_apply, Outcome.ends_bind]
      refine ⟨alwaysEnds_io ends_readUtf x.2, fun y hy => ?_⟩
      have hname := shrinks_io shrinks_readUtf x.2 y.1 y.2 hy
      rw [Wire.Reader.bind_apply, Outcome.ends_bind]
      exact ⟨ih (by omega), fun _ _ => trivial⟩
    · trivial
    · trivial

theorem ends_readFieldDef : AlwaysEnds readFieldDef :=
  (alwaysEnds_io ends_readUtf).bind fun _ => AlwaysEnds.bind (fun _ => ends_readFieldTypeFrom (Nat.lt_succ_self _))
    fun _ => AlwaysEnds.pure _

theorem ends_readIndex : AlwaysEnds readIndex :=
  (alwaysEnds_io ends_readInt).bind fun _ => (alwaysEnds_io ends_readInt).bind fun _ => AlwaysEnds.pure _

theorem ends_readCounted {α : Type} {r : D2OCursor α} (hr : AlwaysEnds r) {count : Int} {c : Cursor} :
    (readCounted count r c).Ends ↔ 0 ≤ count := by
  unfold readCounted
  by_cases hneg : count < 0
  · rw [if_pos hneg]
    exact iff_of_false id (Int.not_le.2 hneg)
  · rw [if_neg hneg]
    exact iff_of_true (hr.replicate _ c) (Int.not_lt.1 hneg)

/-- A class is read if the number of its fields is not negative. -/
theorem ends_readClassDef {c : Cursor} :
    (readClassDef c).Ends ↔ ∀ count c', readFieldCount c = .ok (count, c') → 0 ≤ count.toInt := by
  constructor
  · intro h count c' hcount
    obtain ⟨x, hx, hcount⟩ := Outcome.bind_eq_ok.1 hcount
    obtain ⟨y, hy, hcount⟩ := Outcome.bind_eq_ok.1 hcount
    obtain ⟨z, hz, hcount⟩ := Outcome.bind_eq_ok.1 hcount
    have hname := (Outcome.ends_bind.1 h).2 x hx
    have hpackage := (Outcome.ends_bind.1 hname).2 y hy
    have hlast := (Outcome.ends_bind.1 hpackage).2 z hz
    have hfields := (Outcome.ends_bind.1 hlast).2 (count, c') hcount
    exact (ends_readCounted ends_readFieldDef).1 (Outcome.ends_bind.1 hfields).1
  · intro h
    refine Outcome.ends_bind.2 ⟨alwaysEnds_io ends_readInt c, fun x hx => ?_⟩
    refine Outcome.ends_bind.2 ⟨alwaysEnds_io ends_readUtf _, fun y hy => ?_⟩
    refine Outcome.ends_bind.2 ⟨alwaysEnds_io ends_readUtf _, fun z hz => ?_⟩
    refine Outcome.ends_bind.2 ⟨alwaysEnds_io ends_readInt _, fun w hw => ?_⟩
    have hcount : 0 ≤ w.1.toInt :=
      h w.1 w.2 (Outcome.bind_eq_ok.2 ⟨x, hx, Outcome.bind_eq_ok.2 ⟨y, hy, Outcome.bind_eq_ok.2 ⟨z, hz, hw⟩⟩⟩)
    exact Outcome.ends_bind.2 ⟨(ends_readCounted ends_readFieldDef).2 hcount, fun _ _ => trivial⟩

theorem ends_readMagic (data : List UInt8) : (D2OReader.readMagic data).Ends := by
  unfold D2OReader.readMagic
  refine Outcome.ends_bind.2 ⟨alwaysEnds_io (AlwaysEnds.take _ 3) _, ?_⟩
  rintro ⟨start, c⟩ -
  dsimp only
  by_cases hsigned : start = D2OReader.signedMagic
  · rw [if_pos hsigned]
    refine Outcome.ends_bind.2 ⟨alwaysEnds_io ends_readByte c, fun x _ => ?_⟩
    refine Outcome.ends_bind.2 ⟨alwaysEnds_io ends_readShort _, fun y _ => ?_⟩
    refine Outcome.ends_bind.2 ⟨alwaysEnds_io ends_readInt _, fun z _ => ?_⟩
    by_cases hneg : (z.2.position : Int) + z.1.toInt < 0
    · rw [if_pos hneg]
      trivial
    · rw [if_neg hneg]
      refine Outcome.ends_bind.2 ⟨alwaysEnds_io (AlwaysEnds.take _ 3) _, ?_⟩
      rintro ⟨start', c'⟩ -
      dsimp only
      by_cases hmagic : start' = D2OReader.magic
      · rw [if_pos hmagic]
        trivial
      · rw [if_neg hmagic]
        trivial
  · rw [if_neg hsigned]
    by_cases hmagic : start = D2OReader.magic
    · rw [if_pos hmagic]
      trivial
    · rw [if_neg hmagic]
      trivial

/-- The content of a file begins in it. -/
theorem contentOffset_le {data : List UInt8} {contentOffset : Nat} {c : Cursor}
    (h : D2OReader.readMagic data = .ok (contentOffset, c)) : contentOffset ≤ data.length := by
  unfold D2OReader.readMagic at h
  obtain ⟨⟨start, c₁⟩, -, h⟩ := Outcome.bind_eq_ok.1 h
  dsimp only at h
  by_cases hsigned : start = D2OReader.signedMagic
  · rw [if_pos hsigned] at h
    obtain ⟨x, -, h⟩ := Outcome.bind_eq_ok.1 h
    obtain ⟨y, -, h⟩ := Outcome.bind_eq_ok.1 h
    obtain ⟨z, -, h⟩ := Outcome.bind_eq_ok.1 h
    by_cases hneg : (z.2.position : Int) + z.1.toInt < 0
    · rw [if_pos hneg] at h
      cases h
    · rw [if_neg hneg] at h
      obtain ⟨⟨start', c'⟩, hstart, h⟩ := Outcome.bind_eq_ok.1 h
      have hlen := Shrinks.take _ 3 _ _ _ (io_eq_ok.1 hstart)
      change c'.unread.length + 3 ≤ (data.drop _).length at hlen
      rw [List.length_drop] at hlen
      dsimp only at h
      by_cases hmagic : start' = D2OReader.magic
      · rw [if_pos hmagic] at h
        obtain ⟨rfl, -⟩ := Prod.mk.inj (Outcome.ok.inj h)
        omega
      · rw [if_neg hmagic] at h
        cases h
  · rw [if_neg hsigned] at h
    by_cases hmagic : start = D2OReader.magic
    · rw [if_pos hmagic] at h
      obtain ⟨rfl, -⟩ := Prod.mk.inj (Outcome.ok.inj h)
      exact Nat.zero_le _
    · rw [if_neg hmagic] at h
      cases h

/-- An object file is read without a panic if and only if its pointer does not wrap around and it has no negative
count. -/
theorem ends_d2oFromBytes {data : List UInt8} (hdata : data.length ≤ isizeMax) :
    (D2OReader.fromBytesChecked data).Ends ↔ D2OReader.Sound data := by
  have hclasses : ∀ {n : Nat} {c : Cursor}, (Wire.Reader.replicate readClassDef n c).Ends ↔
      ∀ k < n, ∀ classes c', Wire.Reader.replicate readClassDef k c = .ok (classes, c') →
        ∀ count c'', readFieldCount c' = .ok (count, c'') → 0 ≤ count.toInt := by
    intro n c
    rw [(Checks.refl readClassDef).ends_replicate]
    simp only [ends_readClassDef]
  have hcounted : ∀ {length : Int32} {c : Cursor},
      (readCounted (length.toInt.tdiv 8) readIndex c).Ends ↔ -8 < length.toInt := by
    intro length c
    rw [ends_readCounted ends_readIndex]
    rcases Int.le_total 0 length.toInt with hpos | hneg
    · exact iff_of_true (Int.tdiv_nonneg hpos (by omega)) (by omega)
    · have hdiv : length.toInt.tdiv 8 = -(-length.toInt / 8) := by
        rw [← Int.tdiv_eq_ediv_of_nonneg (by omega), Int.neg_tdiv, Int.neg_neg]
      omega
  unfold D2OReader.fromBytesChecked
  constructor
  · intro h
    have hpointer : ∀ contentOffset c pointer c', D2OReader.readMagic data = .ok (contentOffset, c) →
        io readInt c = .ok (pointer, c') → Addable contentOffset pointer ∧
          ∀ length c₂, io readInt (.seek data ((contentOffset + asU64 pointer) % 2 ^ 64)) = .ok (length, c₂) →
            -8 < length.toInt ∧ ∀ indexes c₃, readCounted (length.toInt.tdiv 8) readIndex c₂ = .ok (indexes, c₃) →
              ∀ count c₄, io readInt c₃ = .ok (count, c₄) →
                (Wire.Reader.replicate readClassDef count.toInt.toNat c₄).Ends := by
      intro contentOffset c pointer c' hmagic hread
      have hoffset : contentOffset ≤ isizeMax := (contentOffset_le hmagic).trans hdata
      have hfirst := (Outcome.ends_bind.1 h).2 _ hmagic
      have hsecond := (Outcome.ends_bind.1 hfirst).2 _ hread
      dsimp only at hsecond
      by_cases hadd : Addable contentOffset pointer
      · rw [addU64_ok hoffset hadd, Outcome.ok_bind] at hsecond
        refine ⟨hadd, fun length c₂ hlength => ?_⟩
        have hthird := Outcome.ends_bind.1 ((Outcome.ends_bind.1 hsecond).2 _ hlength)
        refine ⟨hcounted.1 hthird.1, fun indexes c₃ hindexes count c₄ hcount => ?_⟩
        have hlast := (Outcome.ends_bind.1 (hthird.2 _ hindexes)).2 _ hcount
        exact (Outcome.ends_bind.1 hlast).1
      · rw [addU64_panic hoffset hadd, Outcome.panic_bind] at hsecond
        exact absurd hsecond id
    refine ⟨fun contentOffset c pointer c' hmagic hread => (hpointer _ c _ c' hmagic hread).1, ?_, ?_⟩
    · rintro c ⟨contentOffset, c₀, pointer, c₁, hmagic, hread, rfl⟩ length c' hlength
      exact ((hpointer _ c₀ _ c₁ hmagic hread).2 length c' hlength).1
    · rintro c ⟨_, length, c₁, indexes, c₂, count, c₃, k, classes,
        ⟨contentOffset, d₀, pointer, d₁, hmagic, hread, rfl⟩,
        hlength, hindexes, hcount, hk, hread'⟩
      have hends := ((hpointer _ d₀ _ d₁ hmagic hread).2 length c₁ hlength).2 indexes c₂ hindexes count c₃ hcount
      exact hclasses.1 hends k hk classes c hread'
  · rintro ⟨hpointer, hlengths, hcounts⟩
    refine Outcome.ends_bind.2 ⟨ends_readMagic data, ?_⟩
    rintro ⟨contentOffset, c₀⟩ hmagic
    refine Outcome.ends_bind.2 ⟨alwaysEnds_io ends_readInt _, ?_⟩
    rintro ⟨pointer, c₁⟩ hread
    have hoffset : contentOffset ≤ isizeMax := (contentOffset_le hmagic).trans hdata
    have hplace : D2OReader.IndexesAt data (.seek data ((contentOffset + asU64 pointer) % 2 ^ 64)) :=
      ⟨contentOffset, c₀, pointer, c₁, hmagic, hread, rfl⟩
    dsimp only
    rw [addU64_ok hoffset (hpointer _ _ _ _ hmagic hread), Outcome.ok_bind]
    refine Outcome.ends_bind.2 ⟨alwaysEnds_io ends_readInt _, ?_⟩
    rintro ⟨length, c₂⟩ hlength
    refine Outcome.ends_bind.2 ⟨hcounted.2 (hlengths _ hplace length c₂ hlength), ?_⟩
    rintro ⟨indexes, c₃⟩ hindexes
    refine Outcome.ends_bind.2 ⟨alwaysEnds_io ends_readInt _, ?_⟩
    rintro ⟨count, c₄⟩ hcount
    refine Outcome.ends_bind.2 ⟨hclasses.2 fun k hk classes c hread' => ?_, fun _ _ => trivial⟩
    exact hcounts c ⟨_, length, c₂, indexes, c₃, count, c₄, k, classes, hplace, hlength, hindexes, hcount, hk, hread'⟩

/-- A debug build panics or reads what a release build reads. -/
theorem guards_d2oFromBytes (data : List UInt8) :
    (D2OReader.fromBytesChecked data).Guards (D2OReader.fromBytes data) := by
  refine (Outcome.Guards.refl _).bind fun x => (Outcome.Guards.refl _).bind fun y => ?_
  exact (guards_addU64 _ _).bind fun start => Outcome.Guards.refl _

section

variable (classes : HashMap Int32 D2OClassDef)

/-- Values are read forwards. -/
theorem shrinks_readFieldValue (fuel : Nat) :
    (∀ classId, Shrinks 0 (D2OReader.readObjectFields classes fuel classId)) ∧
    ∀ fieldType, Shrinks 0 (D2OReader.readFieldValue classes fuel fieldType) := by
  induction fuel with
  | zero => exact ⟨fun _ _ _ _ h => (by cases h), fun _ _ _ _ h => (by cases h)⟩
  | succ fuel ih =>
    obtain ⟨hobject, hvalue⟩ := ih
    refine ⟨fun classId => ?_, fun fieldType => ?_⟩
    · unfold D2OReader.readObjectFields
      cases classes.lookup classId with
      | none => exact Shrinks.fail 0 _
      | some classDef =>
        exact @Shrinks.bind _ _ _ _ _ 0 0 (Shrinks.forEach (fun _ => hvalue _) _) fun _ => Shrinks.pure _
    · have hint : Shrinks 0 (io readInt) := shrinks_io (shrinks_readInt.mono (by omega))
      unfold D2OReader.readFieldValue
      cases fieldType with
      | int => exact @Shrinks.bind _ _ _ _ _ 0 0 hint fun _ => Shrinks.pure _
      | bool => exact (shrinks_io (shrinks_readBoolean.mono (Nat.zero_le 1))).bind fun _ => Shrinks.pure _
      | string =>
        refine @Shrinks.bind _ _ _ _ _ 0 0 (shrinks_io (shrinks_readUshort.mono (Nat.zero_le 2))) fun len => ?_
        exact @Shrinks.bind _ _ _ _ _ 0 0 (shrinks_io ((shrinks_readBytes _).mono (Nat.zero_le _))) fun _ =>
          Shrinks.pure _
      | number => exact (shrinks_io (shrinks_readDouble.mono (Nat.zero_le 8))).bind fun _ => Shrinks.pure _
      | i18n => exact @Shrinks.bind _ _ _ _ _ 0 0 hint fun _ => Shrinks.pure _
      | uint => exact (shrinks_io (shrinks_readUint.mono (Nat.zero_le 4))).bind fun _ => Shrinks.pure _
      | vector typeName inner =>
        refine @Shrinks.bind _ _ _ _ _ 0 0 hint fun count => ?_
        exact @Shrinks.bind _ _ _ _ _ 0 0 ((hvalue inner).replicate _) fun _ => Shrinks.pure _
      | object classId =>
        refine @Shrinks.bind _ _ _ _ _ 0 0 hint fun actualClassId => ?_
        by_cases hnull : actualClassId = nullObjectMarker
        · rw [if_pos hnull]
          exact Shrinks.pure _
        · rw [if_neg hnull]
          exact hobject actualClassId

/-- Each value in another is behind four bytes of its own, so the bytes of the file bound how deep values are
nested. -/
theorem ends_readFieldValue (fuel : Nat) :
    (∀ classId c, c.unread.length + 1 < fuel → (D2OReader.readObjectFields classes fuel classId c).Ends) ∧
    ∀ fieldType c, c.unread.length < fuel → (D2OReader.readFieldValue classes fuel fieldType c).Ends := by
  induction fuel with
  | zero =>
    refine ⟨fun _ c hc => ?_, fun _ c hc => ?_⟩
    · omega
    · omega
  | succ fuel ih =>
    obtain ⟨hobject, hvalue⟩ := ih
    refine ⟨fun classId c hc => ?_, fun fieldType c hc => ?_⟩
    · unfold D2OReader.readObjectFields
      cases classes.lookup classId with
      | none => trivial
      | some classDef =>
        have hfields := @ends_forEach _ _ _ _ _
          (fun field : D2OFieldDef => (shrinks_readFieldValue classes fuel).2 field.fieldType)
          classDef.fields (fun field _ c' hc' => hvalue field.fieldType c' (by omega)) c (Nat.le_refl c.unread.length)
        exact Outcome.ends_bind.2 ⟨hfields, fun _ _ => trivial⟩
    · unfold D2OReader.readFieldValue
      cases fieldType with
      | int => exact (alwaysEnds_io ends_readInt).bind (fun _ => AlwaysEnds.pure _) c
      | bool => exact (alwaysEnds_io ends_readBoolean).bind (fun _ => AlwaysEnds.pure _) c
      | string =>
        refine (alwaysEnds_io ends_readUshort).bind (fun len => ?_) c
        exact (alwaysEnds_io (ends_readBytes (toNat_le_isizeMax len))).bind fun _ => AlwaysEnds.pure _
      | number => exact (alwaysEnds_io ends_readDouble).bind (fun _ => AlwaysEnds.pure _) c
      | i18n => exact (alwaysEnds_io ends_readInt).bind (fun _ => AlwaysEnds.pure _) c
      | uint => exact (alwaysEnds_io ends_readUint).bind (fun _ => AlwaysEnds.pure _) c
      | vector typeName inner =>
        refine Outcome.ends_bind.2 ⟨alwaysEnds_io ends_readInt c, ?_⟩
        rintro ⟨count, c'⟩ hcount
        have hlen : c'.unread.length + 4 ≤ c.unread.length := shrinks_io shrinks_readInt c count c' hcount
        have hitems := ends_replicate_of_le ((shrinks_readFieldValue classes fuel).2 inner)
          (fun d hd => hvalue inner d (by omega)) count.toInt.toNat (Nat.le_refl c'.unread.length)
        exact Outcome.ends_bind.2 ⟨hitems, fun _ _ => trivial⟩
      | object classId =>
        refine Outcome.ends_bind.2 ⟨alwaysEnds_io ends_readInt c, ?_⟩
        rintro ⟨actualClassId, c'⟩ hread
        have hlen : c'.unread.length + 4 ≤ c.unread.length := shrinks_io shrinks_readInt c actualClassId c' hread
        by_cases hnull : actualClassId = nullObjectMarker
        · simp only [hnull, if_pos]
          trivial
        · simp only [if_neg hnull]
          exact hobject actualClassId c' (by omega)

end

/-- An object is read without a panic if and only if its offset does not wrap around. -/
theorem ends_readObject {reader : D2OReader} (hoffset : reader.contentOffset ≤ isizeMax) (objectId : Int32) :
    (reader.readObjectChecked objectId).Ends ↔
      ∀ offset, reader.indexes.lookup objectId = some offset → Addable reader.contentOffset offset := by
  unfold D2OReader.readObjectChecked
  cases reader.indexes.lookup objectId with
  | none => exact iff_of_true trivial fun offset h => by cases h
  | some offset =>
    dsimp only
    by_cases hadd : Addable reader.contentOffset offset
    · rw [addU64_ok hoffset hadd, Outcome.ok_bind]
      refine iff_of_true (Outcome.ends_bind.2 ⟨alwaysEnds_io ends_readInt _, ?_⟩) ?_
      · rintro ⟨classId, c⟩ hread
        have hlen := shrinks_io shrinks_readInt _ classId c hread
        change c.unread.length + 4 ≤ (reader.data.drop _).length at hlen
        rw [List.length_drop] at hlen
        have hvalue := (ends_readFieldValue reader.classes (reader.data.length + 1)).1 classId c (by omega)
        exact Outcome.ends_bind.2 ⟨hvalue, fun _ _ => trivial⟩
      · rintro _ ⟨rfl⟩
        exact hadd
    · rw [addU64_panic hoffset hadd, Outcome.panic_bind]
      exact iff_of_false id fun h => hadd (h offset rfl)

/-- A debug build panics or reads what a release build reads. -/
theorem guards_readObject (reader : D2OReader) (objectId : Int32) :
    (reader.readObjectChecked objectId).Guards (reader.readObject objectId) := by
  unfold D2OReader.readObjectChecked D2OReader.readObject D2OReader.seekObject
  cases reader.indexes.lookup objectId with
  | none => exact Outcome.Guards.refl _
  | some offset => exact (guards_addU64 _ _).bind fun start => Outcome.Guards.refl _

/-! ### Archives -/

/-- `a + b` of two `u32`, with a check. -/
def addU32 {ε : Type} (a b : UInt32) : Wire.Reader ε UInt32 :=
  fun c => if 2 ^ 32 ≤ a.toNat + b.toNat then .panic else .ok (a + b, c)

/-- An entry of the index of an archive, as it is written. -/
def readFileEntry : BigEndianReader (String × UInt32 × UInt32) := do
  let filename ← readUtf
  let offset ← readUint
  let length ← readUint
  pure (filename, offset, length)

namespace D2PReader

/-- An entry of the index in a debug build. -/
def readEntryChecked (dataOffset : UInt32) : BigEndianReader (String × D2PEntry) := do
  let filename ← readUtf
  let offset ← readUint
  let length ← readUint
  let offset ← addU32 offset dataOffset
  pure (filename, { filename, offset, length })

/-- `from_bytes` of a debug build. -/
def fromBytesChecked (data : List UInt8) : Outcome Error D2PReader :=
  if data.length < 26 then .err .tooSmall
  else do
    let (footer, _) ← (readFooter (.seek data (data.length - 24))).mapErr .io
    let (properties, _) ← (Wire.Reader.replicate readProperty footer.propertiesCount.toNat
      (.seek data footer.propertiesOffset.toNat)).mapErr .io
    let (entries, _) ← (Wire.Reader.replicate (readEntryChecked footer.dataOffset) footer.indexCount.toNat
      (.seek data footer.indexOffset.toNat)).mapErr .io
    .ok { data, entries := .ofPairs entries, properties := .ofPairs properties }

/-- The places of an archive where an entry of its index begins, with the offset of the files. -/
def EntryAt (data : List UInt8) (dataOffset : UInt32) (c : Cursor) : Prop :=
  26 ≤ data.length ∧ ∃ footer c₀ properties c₁ k entries, readFooter (.seek data (data.length - 24)) =
    .ok (footer, c₀) ∧
    Wire.Reader.replicate readProperty footer.propertiesCount.toNat (.seek data footer.propertiesOffset.toNat) =
      .ok (properties, c₁) ∧
    k < footer.indexCount.toNat ∧
    Wire.Reader.replicate (readEntry footer.dataOffset) k (.seek data footer.indexOffset.toNat) = .ok (entries, c) ∧
    dataOffset = footer.dataOffset

/-- The offsets of the files fit thirty-two bits when they are counted from the beginning of the archive. -/
def Sound (data : List UInt8) : Prop :=
  ∀ dataOffset c, EntryAt data dataOffset c → ∀ filename offset length c',
    readFileEntry c = .ok ((filename, offset, length), c') → offset.toNat + dataOffset.toNat < 2 ^ 32

end D2PReader

/-- An offset of the index in the world server, with the name before it. -/
def World.readOffset : BigEndianReader (String × UInt32) := do
  let nameLen ← readUshort
  let nameBuf ← readBytes nameLen.toNat
  let offset ← readUint
  pure (fromUtf8Lossy nameBuf, offset)

namespace World.D2PReader

/-- An entry of the index in a debug build. -/
def readEntryChecked (dataOffset : UInt32) : BigEndianReader (String × D2PEntry) := do
  let nameLen ← readUshort
  let nameBuf ← readBytes nameLen.toNat
  let name := fromUtf8Lossy nameBuf
  let offset ← readUint
  let offset ← addU32 offset dataOffset
  let length ← readUint
  pure (name, { offset, length })

/-- `from_bytes` of a debug build. -/
def fromBytesChecked (data : List UInt8) : Outcome Error D2PReader :=
  if data.length < 26 then .err .tooSmall
  else do
    let (footer, _) ← (readFooter (.seek data (data.length - 24))).mapErr .io
    let (entries, _) ← (Wire.Reader.replicate (readEntryChecked footer.dataOffset) footer.indexCount.toNat
      (.seek data footer.indexOffset.toNat)).mapErr .io
    .ok { data, entries := .ofPairs entries }

/-- The places of an archive where an entry of its index begins, with the offset of the files. -/
def EntryAt (data : List UInt8) (dataOffset : UInt32) (c : Cursor) : Prop :=
  26 ≤ data.length ∧ ∃ footer c₀ k entries, readFooter (.seek data (data.length - 24)) = .ok (footer, c₀) ∧
    k < footer.indexCount.toNat ∧
    Wire.Reader.replicate (readEntry footer.dataOffset) k (.seek data footer.indexOffset.toNat) = .ok (entries, c) ∧
    dataOffset = footer.dataOffset

/-- The offsets of the files fit thirty-two bits when they are counted from the beginning of the archive. -/
def Sound (data : List UInt8) : Prop :=
  ∀ dataOffset c, EntryAt data dataOffset c → ∀ name offset c', readOffset c = .ok ((name, offset), c') →
    offset.toNat + dataOffset.toNat < 2 ^ 32

end World.D2PReader

section

variable {ε : Type} {offset dataOffset : UInt32}

theorem checks_addU32 (offset dataOffset : UInt32) :
    Checks (addU32 offset dataOffset : Wire.Reader ε UInt32) (pure (offset + dataOffset)) := by
  intro c
  unfold addU32
  by_cases h : 2 ^ 32 ≤ offset.toNat + dataOffset.toNat
  · left
    rw [if_pos h]
  · right
    rw [if_neg h]
    rfl

theorem ends_addU32 {c : Cursor} :
    ((addU32 offset dataOffset : Wire.Reader ε UInt32) c).Ends ↔ offset.toNat + dataOffset.toNat < 2 ^ 32 := by
  unfold addU32
  by_cases h : 2 ^ 32 ≤ offset.toNat + dataOffset.toNat
  · rw [if_pos h]
    exact iff_of_false id (Nat.not_lt.2 h)
  · rw [if_neg h]
    exact iff_of_true trivial (Nat.lt_of_not_le h)

end

theorem checks_readEntry (dataOffset : UInt32) :
    Checks (D2PReader.readEntryChecked dataOffset) (D2PReader.readEntry dataOffset) := by
  refine (Checks.refl readUtf).bind fun filename => (Checks.refl readUint).bind fun offset => ?_
  refine (Checks.refl readUint).bind fun length => ?_
  exact (checks_addU32 offset dataOffset).bind fun sum =>
    Checks.refl (pure (filename, D2PEntry.mk filename sum length))

theorem checks_worldReadEntry (dataOffset : UInt32) :
    Checks (World.D2PReader.readEntryChecked dataOffset) (World.D2PReader.readEntry dataOffset) := by
  refine (Checks.refl readUshort).bind fun nameLen => (Checks.refl (readBytes nameLen.toNat)).bind fun nameBuf => ?_
  refine (Checks.refl readUint).bind fun offset => ?_
  exact (checks_addU32 offset dataOffset).bind fun sum => (Checks.refl readUint).bind fun length =>
    Checks.refl (pure (World.fromUtf8Lossy nameBuf, World.D2PEntry.mk sum length))

theorem ends_readEntryChecked {dataOffset : UInt32} {c : Cursor} :
    (D2PReader.readEntryChecked dataOffset c).Ends ↔ ∀ filename offset length c',
      readFileEntry c = .ok ((filename, offset, length), c') → offset.toNat + dataOffset.toNat < 2 ^ 32 := by
  constructor
  · intro h filename offset length c' hread
    obtain ⟨x, hx, hread⟩ := Outcome.bind_eq_ok.1 hread
    obtain ⟨y, hy, hread⟩ := Outcome.bind_eq_ok.1 hread
    obtain ⟨z, hz, hread⟩ := Outcome.bind_eq_ok.1 hread
    obtain ⟨hvalues, -⟩ := Prod.mk.inj (Outcome.ok.inj hread)
    obtain ⟨-, hvalues⟩ := Prod.mk.inj hvalues
    obtain ⟨rfl, -⟩ := Prod.mk.inj hvalues
    have hname := (Outcome.ends_bind.1 h).2 x hx
    have hoffset := (Outcome.ends_bind.1 hname).2 y hy
    have hsum := (Outcome.ends_bind.1 hoffset).2 z hz
    exact ends_addU32.1 (Outcome.ends_bind.1 hsum).1
  · intro h
    refine Outcome.ends_bind.2 ⟨ends_readUtf c, fun x hx => ?_⟩
    refine Outcome.ends_bind.2 ⟨ends_readUint _, fun y hy => ?_⟩
    refine Outcome.ends_bind.2 ⟨ends_readUint _, fun z hz => ?_⟩
    have hread : readFileEntry c = .ok ((x.1, y.1, z.1), z.2) :=
      Outcome.bind_eq_ok.2 ⟨x, hx, Outcome.bind_eq_ok.2 ⟨y, hy, Outcome.bind_eq_ok.2 ⟨z, hz, rfl⟩⟩⟩
    exact Outcome.ends_bind.2 ⟨ends_addU32.2 (h x.1 y.1 z.1 z.2 hread), fun _ _ => trivial⟩

theorem ends_worldReadEntryChecked {dataOffset : UInt32} {c : Cursor} :
    (World.D2PReader.readEntryChecked dataOffset c).Ends ↔ ∀ name offset c',
      World.readOffset c = .ok ((name, offset), c') → offset.toNat + dataOffset.toNat < 2 ^ 32 := by
  constructor
  · intro h name offset c' hread
    obtain ⟨x, hx, hread⟩ := Outcome.bind_eq_ok.1 hread
    obtain ⟨y, hy, hread⟩ := Outcome.bind_eq_ok.1 hread
    obtain ⟨z, hz, hread⟩ := Outcome.bind_eq_ok.1 hread
    obtain ⟨hvalues, -⟩ := Prod.mk.inj (Outcome.ok.inj hread)
    obtain ⟨-, rfl⟩ := Prod.mk.inj hvalues
    have hlen := (Outcome.ends_bind.1 h).2 x hx
    have hname := (Outcome.ends_bind.1 hlen).2 y hy
    have hsum := (Outcome.ends_bind.1 hname).2 z hz
    exact ends_addU32.1 (Outcome.ends_bind.1 hsum).1
  · intro h
    refine Outcome.ends_bind.2 ⟨ends_readUshort c, fun x hx => ?_⟩
    refine Outcome.ends_bind.2 ⟨ends_readBytes (toNat_le_isizeMax x.1) _, fun y hy => ?_⟩
    refine Outcome.ends_bind.2 ⟨ends_readUint _, fun z hz => ?_⟩
    have hread : World.readOffset c = .ok ((World.fromUtf8Lossy y.1, z.1), z.2) :=
      Outcome.bind_eq_ok.2 ⟨x, hx, Outcome.bind_eq_ok.2 ⟨y, hy, Outcome.bind_eq_ok.2 ⟨z, hz, rfl⟩⟩⟩
    refine Outcome.ends_bind.2 ⟨ends_addU32.2 (h _ z.1 z.2 hread), fun w _ => ?_⟩
    exact Outcome.ends_bind.2 ⟨ends_readUint _, fun _ _ => trivial⟩

theorem ends_readFooter : AlwaysEnds readFooter := by
  refine ends_readUint.bind fun _ => ends_readUint.bind fun _ => ends_readUint.bind fun _ => ?_
  exact ends_readUint.bind fun _ => ends_readUint.bind fun _ => ends_readUint.bind fun _ => AlwaysEnds.pure _

theorem ends_readProperty : AlwaysEnds D2PReader.readProperty :=
  ends_readUtf.bind fun _ => ends_readUtf.bind fun _ => AlwaysEnds.pure _

/-- An archive is read without a panic if and only if the offsets of its files fit. -/
theorem ends_d2pFromBytes (data : List UInt8) : (D2PReader.fromBytesChecked data).Ends ↔ D2PReader.Sound data := by
  unfold D2PReader.fromBytesChecked
  by_cases hsmall : data.length < 26
  · rw [if_pos hsmall]
    refine iff_of_true trivial ?_
    rintro dataOffset c ⟨hlarge, -⟩
    exact absurd hlarge (Nat.not_le.2 hsmall)
  · rw [if_neg hsmall]
    constructor
    · rintro h dataOffset c ⟨-, footer, c₀, properties, c₁, k, entries, hfooter, hproperties, hk, hentries, rfl⟩
      have hfirst := (Outcome.ends_bind.1 h).2 _ (Outcome.mapErr_eq_ok.2 hfooter)
      have hsecond := (Outcome.ends_bind.1 hfirst).2 _ (Outcome.mapErr_eq_ok.2 hproperties)
      have hall := Outcome.ends_mapErr.1 (Outcome.ends_bind.1 hsecond).1
      exact ends_readEntryChecked.1 ((checks_readEntry _).ends_replicate.1 hall k hk entries c hentries)
    · intro h
      refine Outcome.ends_bind.2 ⟨Outcome.ends_mapErr.2 (ends_readFooter _), fun footer hfooter => ?_⟩
      refine Outcome.ends_bind.2 ⟨Outcome.ends_mapErr.2 (ends_readProperty.replicate _ _),
        fun properties hproperties => ?_⟩
      refine Outcome.ends_bind.2 ⟨Outcome.ends_mapErr.2 ?_, fun _ _ => trivial⟩
      refine (checks_readEntry _).ends_replicate.2 fun k hk entries c hentries => ?_
      refine ends_readEntryChecked.2 (h footer.1.dataOffset c ⟨Nat.not_lt.1 hsmall, footer.1, footer.2, properties.1,
        properties.2, k, entries, Outcome.mapErr_eq_ok.1 hfooter, Outcome.mapErr_eq_ok.1 hproperties, hk,
          hentries, rfl⟩)

theorem ends_worldFromBytes (data : List UInt8) :
    (World.D2PReader.fromBytesChecked data).Ends ↔ World.D2PReader.Sound data := by
  unfold World.D2PReader.fromBytesChecked
  by_cases hsmall : data.length < 26
  · rw [if_pos hsmall]
    refine iff_of_true trivial ?_
    rintro dataOffset c ⟨hlarge, -⟩
    exact absurd hlarge (Nat.not_le.2 hsmall)
  · rw [if_neg hsmall]
    constructor
    · rintro h dataOffset c ⟨-, footer, c₀, k, entries, hfooter, hk, hentries, rfl⟩
      have hfirst := (Outcome.ends_bind.1 h).2 _ (Outcome.mapErr_eq_ok.2 hfooter)
      have hall := Outcome.ends_mapErr.1 (Outcome.ends_bind.1 hfirst).1
      exact ends_worldReadEntryChecked.1 ((checks_worldReadEntry _).ends_replicate.1 hall k hk entries c hentries)
    · intro h
      refine Outcome.ends_bind.2 ⟨Outcome.ends_mapErr.2 (ends_readFooter _), fun footer hfooter => ?_⟩
      refine Outcome.ends_bind.2 ⟨Outcome.ends_mapErr.2 ?_, fun _ _ => trivial⟩
      refine (checks_worldReadEntry _).ends_replicate.2 fun k hk entries c hentries => ?_
      exact ends_worldReadEntryChecked.2 (h footer.1.dataOffset c
        ⟨Nat.not_lt.1 hsmall, footer.1, footer.2, k, entries, Outcome.mapErr_eq_ok.1 hfooter, hk, hentries, rfl⟩)

/-- A debug build panics or reads what a release build reads. -/
theorem guards_d2pFromBytes (data : List UInt8) :
    (D2PReader.fromBytesChecked data).Guards (D2PReader.fromBytes data) := by
  unfold D2PReader.fromBytesChecked D2PReader.fromBytes
  by_cases hsmall : data.length < 26
  · rw [if_pos hsmall, if_pos hsmall]
    exact Outcome.Guards.refl _
  · rw [if_neg hsmall, if_neg hsmall]
    refine (Outcome.Guards.refl _).bind fun footer => (Outcome.Guards.refl _).bind fun properties => ?_
    exact (((checks_readEntry _).replicate _ _).mapErr _).bind fun _ => Outcome.Guards.refl _

theorem guards_worldFromBytes (data : List UInt8) :
    (World.D2PReader.fromBytesChecked data).Guards (World.D2PReader.fromBytes data) := by
  unfold World.D2PReader.fromBytesChecked World.D2PReader.fromBytes
  by_cases hsmall : data.length < 26
  · rw [if_pos hsmall, if_pos hsmall]
    exact Outcome.Guards.refl _
  · rw [if_neg hsmall, if_neg hsmall]
    refine (Outcome.Guards.refl _).bind fun footer => ?_
    exact (((checks_worldReadEntry _).replicate _ _).mapErr _).bind fun _ => Outcome.Guards.refl _

/-- A file of an archive is looked up without a panic. -/
theorem ends_readFile (reader : D2PReader) (filename : String) : (reader.readFile filename).Ends := by
  unfold D2PReader.readFile
  cases reader.entries.lookup filename with
  | none => trivial
  | some entry =>
    dsimp only
    split_ifs <;> trivial

theorem ends_worldReadFile (reader : World.D2PReader) (name : String) : (reader.readFile name).Ends := by
  unfold World.D2PReader.readFile
  cases reader.entries.lookup name with
  | none => trivial
  | some entry =>
    dsimp only
    split_ifs <;> trivial

/-! ### All readers -/

open Common in
/-- The readers answer a file with a value or an error if and only if none of its numbers is out of place: no negative
length of an encrypted map, no pointer, offset or length that wraps around when it is added to a position, and no
negative count. -/
theorem readers_end_iff {data : List UInt8} (hdata : data.length ≤ isizeMax)
    (decompress : List UInt8 → Option (List UInt8)) (key : List UInt8) :
    ((Dlm.parseDlmWithKey decompress data key).Ends ↔
      ∀ content, Dlm.content decompress data = some content → ¬Dlm.NegativeLength content) ∧
    ((D2OReader.fromBytesChecked data).Ends ↔ D2OReader.Sound data) ∧
    (∀ reader objectId, D2OReader.fromBytesChecked data = .ok reader →
      ((reader.readObjectChecked objectId).Ends ↔
        ∀ offset, reader.indexes.lookup objectId = some offset → Addable reader.contentOffset offset)) ∧
    ((D2IReader.fromBytesChecked data).Ends ↔ D2IReader.Sound data) ∧
    (∀ reader : D2IReader, ∀ id, (reader.getText id).Ends) ∧
    ((D2PReader.fromBytesChecked data).Ends ↔ D2PReader.Sound data) ∧
    (∀ reader : D2PReader, ∀ filename, (reader.readFile filename).Ends) ∧
    ((World.D2PReader.fromBytesChecked data).Ends ↔ World.D2PReader.Sound data) ∧
    ∀ reader : World.D2PReader, ∀ name, (reader.readFile name).Ends := by
  refine ⟨Dlm.ends_parseDlmWithKey decompress data key, ends_d2oFromBytes hdata, fun reader objectId hreader => ?_,
    ends_d2iFromBytes hdata, ends_getText, ends_d2pFromBytes data, ends_readFile, ends_worldFromBytes data,
    ends_worldReadFile⟩
  refine ends_readObject ?_ objectId
  obtain ⟨⟨contentOffset, c⟩, hmagic, h⟩ := Outcome.bind_eq_ok.1 hreader
  obtain ⟨x, -, h⟩ := Outcome.bind_eq_ok.1 h
  obtain ⟨start, -, h⟩ := Outcome.bind_eq_ok.1 h
  obtain ⟨y, -, h⟩ := Outcome.bind_eq_ok.1 h
  obtain ⟨z, -, h⟩ := Outcome.bind_eq_ok.1 h
  obtain ⟨w, -, h⟩ := Outcome.bind_eq_ok.1 h
  obtain ⟨v, -, h⟩ := Outcome.bind_eq_ok.1 h
  obtain rfl := Outcome.ok.inj h
  exact (contentOffset_le hmagic).trans hdata

/-- The text index of a file of eight bytes is one byte shorter than nothing. -/
theorem readers_end_iff_shortIndex : ¬D2IReader.Sound [0, 0, 0, 4, 255, 255, 255, 255] := by
  have h := (@readers_end_iff [0, 0, 0, 4, 255, 255, 255, 255] (by decide) (fun _ => none) []).2.2.2.1
  rw [← h]
  decide +kernel

/-- Files of each kind that are not answered. -/
theorem malformed_files :
    (∀ decompress key,
      ¬(Common.Dlm.parseDlmWithKey decompress [0x4D, 7, 0, 0, 0, 0, 1, 0, 255, 255, 255, 255] key).Ends) ∧
    ¬(D2OReader.fromBytesChecked [68, 50, 79, 0, 0, 0, 7, 255, 255, 255, 248]).Ends ∧
    ¬(D2OReader.fromBytesChecked [65, 75, 83, 70, 0, 1, 0, 0, 0, 0, 68, 50, 79, 0, 0, 0, 7, 0, 0, 0, 8,
      0, 0, 0, 1, 255,
      255, 255, 255, 0, 0, 0, 0] >>= fun reader => reader.readObjectChecked 1).Ends ∧
    ¬(D2IReader.fromBytesChecked [0, 0, 0, 4, 255, 255, 255, 255]).Ends ∧
    ¬(D2PReader.fromBytesChecked [2, 1, 0, 0, 255, 255, 255, 255, 0, 0, 0, 0, 0, 0, 0, 1, 0, 0, 0, 0, 0,
      0, 0, 2, 0, 0,
      0, 1, 0, 0, 0, 0, 0, 0, 0, 0]).Ends := by
  refine ⟨fun decompress key => ?_, by decide +kernel, by decide +kernel, by decide +kernel, by decide +kernel⟩
  rw [Common.Dlm.ends_parseDlmWithKey]
  intro h
  exact h _ rfl ⟨7, 0, 0, 0, 0, [1, 0, 255, 255, 255, 255], rfl, by decide, 1, 0, 255, 255, 255, 255, [], rfl,
    by decide, by decide⟩

end Otomai.DataReader
