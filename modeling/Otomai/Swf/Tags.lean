import Mathlib.Algebra.Group.Nat.Defs
import Mathlib.Data.List.Basic

/-!
# Tag streams

The body of a Flash file is a header, the first five bits of which tell how long it is, and a stream of tags.  A tag
has a type of ten bits and data; the length of the data stands in six bits beside the type, or, in a long tag, in four
bytes behind them.

* `nextTag_bytes`: a tag that was written is the next one of its stream.
* `exists_tags`: every stream is one of tags, up to a last one that is cut off.
* `eq_of_tags`: there is one way to read a stream.
-/

namespace Swf

/-! ### Numbers -/

/-- The last bytes of a number, the lowest first. -/
def littleEndian : Nat → Nat → List UInt8
  | 0, _ => []
  | k + 1, n => UInt8.ofNat n :: littleEndian k (n / 256)

def ofLittleEndian : List UInt8 → Nat
  | [] => 0
  | b :: bs => b.toNat + 256 * ofLittleEndian bs

@[simp] theorem length_littleEndian (k n : Nat) : (littleEndian k n).length = k := by
  induction k generalizing n with
  | zero => rfl
  | succ k ih => rw [littleEndian, List.length_cons, ih]

theorem ofLittleEndian_littleEndian (k n : Nat) : ofLittleEndian (littleEndian k n) = n % 256 ^ k := by
  induction k generalizing n with
  | zero => simp [littleEndian, ofLittleEndian, Nat.mod_one]
  | succ k ih =>
    have hbyte : (UInt8.ofNat n).toNat = n % 256 := UInt8.toNat_ofNat'
    rw [littleEndian, ofLittleEndian, ih, hbyte, Nat.pow_succ', Nat.mod_mul]

/-! ### Tags -/

/-- A tag in its short or its long form. -/
structure Tag where
  tagType : Nat
  long : Bool
  data : List UInt8
  tagType_lt : tagType < 1024
  fits : data.length < if long then 2 ^ 32 else 63
  deriving DecidableEq

namespace Tag

/-- What stands before the data. -/
def header (t : Tag) : List UInt8 :=
  if t.long then littleEndian 2 (t.tagType * 64 + 63) ++ littleEndian 4 t.data.length
  else littleEndian 2 (t.tagType * 64 + t.data.length)

def bytes (t : Tag) : List UInt8 := t.header ++ t.data

theorem bytes_ne_nil (t : Tag) : t.bytes ≠ [] := by
  have hheader : 2 ≤ t.header.length := by
    unfold header
    by_cases hlong : t.long
    · simp [hlong]
    · simp [hlong]
  intro h
  rw [bytes, List.append_eq_nil_iff] at h
  rw [h.1] at hheader
  exact absurd hheader (by simp)

theorem ext_data {t t' : Tag} (htype : t.tagType = t'.tagType) (hlong : t.long = t'.long) (hdata : t.data = t'.data) :
    t = t' := by
  cases t
  cases t'
  cases htype
  cases hlong
  cases hdata
  rfl

end Tag

/-- What the bytes of a stream begin with: nothing, a part of a tag that has no length, a tag without all its data, or
a tag and the rest of the stream. -/
inductive Next where
  | finished
  | broken
  | cut
  | tag (tagType : Nat) (header data rest : List UInt8)
  deriving DecidableEq, Repr

/-- A tag of a length that was read. -/
def sized (tagType : Nat) (header : List UInt8) (length : Nat) (rest : List UInt8) : Next :=
  if rest.length < length then .cut else .tag tagType header (rest.take length) (rest.drop length)

def nextTag : List UInt8 → Next
  | [] => .finished
  | [_] => .broken
  | b₀ :: b₁ :: rest =>
    let codeAndLength := ofLittleEndian [b₀, b₁]
    if codeAndLength % 64 = 63 then
      match rest with
      | l₀ :: l₁ :: l₂ :: l₃ :: rest =>
        sized (codeAndLength / 64) [b₀, b₁, l₀, l₁, l₂, l₃] (ofLittleEndian [l₀, l₁, l₂, l₃]) rest
      | _ => .broken
    else sized (codeAndLength / 64) [b₀, b₁] (codeAndLength % 64) rest

/-- What may stand behind the tags of a stream: nothing, or a tag without all its data. -/
def CutOff (tail : List UInt8) : Prop := tail = [] ∨ nextTag tail = .cut

instance (tail : List UInt8) : Decidable (CutOff tail) := inferInstanceAs (Decidable (_ ∨ _))

theorem sized_append {tagType length : Nat} {header data : List UInt8} (h : length = data.length)
    (rest : List UInt8) :
    sized tagType header length (data ++ rest) = .tag tagType header data rest := by
  subst h
  rw [sized, if_neg (by simp), List.take_left, List.drop_left]

/-- A tag that was written is read again. -/
theorem nextTag_bytes (t : Tag) (rest : List UInt8) :
    nextTag (t.bytes ++ rest) = .tag t.tagType t.header t.data rest := by
  have htype := t.tagType_lt
  have hfits := t.fits
  unfold Tag.bytes Tag.header
  by_cases hlong : t.long
  · rw [if_pos hlong] at hfits ⊢
    -- the low six bits say that the length follows in four bytes
    have hcode : ofLittleEndian (littleEndian 2 (t.tagType * 64 + 63)) = t.tagType * 64 + 63 := by
      rw [ofLittleEndian_littleEndian]
      omega
    have hlength : ofLittleEndian (littleEndian 4 t.data.length) = t.data.length := by
      rw [ofLittleEndian_littleEndian]
      omega
    simp only [littleEndian] at hcode hlength
    simp only [littleEndian, List.cons_append, List.nil_append, nextTag]
    rw [hcode, if_pos (by omega), sized_append hlength]
    congr 1
    omega
  · rw [if_neg hlong] at hfits ⊢
    -- the low six bits are the length
    have hcode : ofLittleEndian (littleEndian 2 (t.tagType * 64 + t.data.length)) =
      t.tagType * 64 + t.data.length := by
      rw [ofLittleEndian_littleEndian]
      omega
    simp only [littleEndian] at hcode
    simp only [littleEndian, List.cons_append, List.nil_append, nextTag]
    rw [hcode, if_neg (by omega), sized_append (by omega)]
    congr 1
    omega

theorem littleEndian_ofLittleEndian (bs : List UInt8) : littleEndian bs.length (ofLittleEndian bs) = bs := by
  induction bs with
  | nil => rfl
  | cons b bs ih =>
    have hlt := b.toNat_lt
    have hbyte : UInt8.ofNat (b.toNat + 256 * ofLittleEndian bs) = b := by
      apply UInt8.toNat_inj.1
      rw [UInt8.toNat_ofNat']
      omega
    have hrest : (b.toNat + 256 * ofLittleEndian bs) / 256 = ofLittleEndian bs := by omega
    rw [List.length_cons, ofLittleEndian, littleEndian, hbyte, hrest, ih]

theorem ofLittleEndian_lt (bs : List UInt8) : ofLittleEndian bs < 256 ^ bs.length := by
  rw [← littleEndian_ofLittleEndian bs, ofLittleEndian_littleEndian, length_littleEndian]
  exact Nat.mod_lt _ (Nat.pow_pos (by decide))

theorem sized_eq_tag {tagType length tagType' : Nat} {header header' data rest rest' : List UInt8}
    (h : sized tagType header length rest = .tag tagType' header' data rest') :
    tagType' = tagType ∧ header' = header ∧ data.length = length ∧ data ++ rest' = rest := by
  unfold sized at h
  by_cases hlt : rest.length < length
  · rw [if_pos hlt] at h
    cases h
  · rw [if_neg hlt] at h
    cases h
    refine ⟨rfl, rfl, ?_, List.take_append_drop length rest⟩
    rw [List.length_take]
    omega

/-- What is read as a tag was written as one. -/
theorem exists_tag {raw header data rest : List UInt8} {tagType : Nat}
    (h : nextTag raw = .tag tagType header data rest) :
    ∃ t : Tag, raw = t.bytes ++ rest := by
  rcases raw with _ | ⟨b₀, _ | ⟨b₁, raw⟩⟩
  · cases h
  · cases h
  have hcode := ofLittleEndian_lt [b₀, b₁]
  have hbytes := littleEndian_ofLittleEndian [b₀, b₁]
  simp only [List.length_cons, List.length_nil] at hcode hbytes
  unfold nextTag at h
  dsimp only at h
  by_cases hlong : ofLittleEndian [b₀, b₁] % 64 = 63
  · rw [if_pos hlong] at h
    rcases raw with _ | ⟨l₀, _ | ⟨l₁, _ | ⟨l₂, _ | ⟨l₃, raw⟩⟩⟩⟩
    · cases h
    · cases h
    · cases h
    · cases h
    · obtain ⟨-, -, hdata, hrest⟩ := sized_eq_tag h
      have hlength := ofLittleEndian_lt [l₀, l₁, l₂, l₃]
      have hlengthBytes := littleEndian_ofLittleEndian [l₀, l₁, l₂, l₃]
      simp only [List.length_cons, List.length_nil] at hlength hlengthBytes
      refine ⟨⟨ofLittleEndian [b₀, b₁] / 64, true, data, by omega, by rw [hdata, if_pos rfl]; omega⟩, ?_⟩
      -- type and length make up the code that was read
      have hsum : ofLittleEndian [b₀, b₁] / 64 * 64 + 63 = ofLittleEndian [b₀, b₁] := by omega
      unfold Tag.bytes Tag.header
      simp only [if_pos, hsum, hdata]
      rw [hbytes, hlengthBytes, ← hrest]
      simp
  · rw [if_neg hlong] at h
    obtain ⟨-, -, hdata, hrest⟩ := sized_eq_tag h
    refine ⟨⟨ofLittleEndian [b₀, b₁] / 64, false, data, by omega, by rw [hdata, if_neg Bool.false_ne_true]; omega⟩,
      ?_⟩
    have hsum : ofLittleEndian [b₀, b₁] / 64 * 64 + ofLittleEndian [b₀, b₁] % 64 = ofLittleEndian [b₀, b₁] := by omega
    unfold Tag.bytes Tag.header
    simp only [Bool.false_eq_true, if_false, hdata, hsum]
    rw [hbytes, ← hrest]
    simp

/-- Every stream is one of tags, up to a last one that is cut off. -/
theorem exists_tags (raw : List UInt8) :
    ∃ tags tail, raw = (tags : List Tag).flatMap Tag.bytes ++ tail ∧ (CutOff tail ∨ nextTag tail = .broken) := by
  induction hn : raw.length using Nat.strongRecOn generalizing raw with
  | ind n ih =>
    cases hnext : nextTag raw with
    | finished =>
      have hnil : raw = [] := by
        rcases raw with _ | ⟨b₀, _ | ⟨b₁, raw⟩⟩
        · rfl
        · cases hnext
        · unfold nextTag sized at hnext
          dsimp only at hnext
          split_ifs at hnext
          split at hnext
          · split_ifs at hnext
          · cases hnext
      exact ⟨[], raw, rfl, .inl (.inl hnil)⟩
    | broken => exact ⟨[], raw, rfl, .inr hnext⟩
    | cut => exact ⟨[], raw, rfl, .inl (.inr hnext)⟩
    | tag tagType header data rest =>
      obtain ⟨t, rfl⟩ := exists_tag hnext
      have hpos := List.length_pos_iff.2 t.bytes_ne_nil
      rw [List.length_append] at hn
      obtain ⟨tags, tail, hrest, htail⟩ := ih rest.length (by omega) rest rfl
      exact ⟨t :: tags, tail, by rw [List.flatMap_cons, List.append_assoc, ← hrest], htail⟩

/-- No tag can be read from the bytes. -/
def NoTag (tail : List UInt8) : Prop := ∀ tagType header data rest, nextTag tail ≠ .tag tagType header data rest

theorem noTag_nil : NoTag [] := by
  rintro _ _ _ _ ⟨⟩

theorem noTag_of_cut {tail : List UInt8} (h : nextTag tail = .cut) : NoTag tail := by
  intro _ _ _ _ htag
  rw [h] at htag
  cases htag

theorem noTag_of_broken {tail : List UInt8} (h : nextTag tail = .broken) : NoTag tail := by
  intro _ _ _ _ htag
  rw [h] at htag
  cases htag

theorem CutOff.noTag {tail : List UInt8} (h : CutOff tail) : NoTag tail := by
  rcases h with rfl | hcut
  · exact noTag_nil
  · exact noTag_of_cut hcut

theorem Tag.length_header (t : Tag) : t.header.length = if t.long then 6 else 2 := by
  unfold Tag.header
  split
  · rw [List.length_append, length_littleEndian, length_littleEndian]
  · exact length_littleEndian 2 _

/-- There is one way to read a stream. -/
theorem eq_of_tags {tags tags' : List Tag} {tail tail' : List UInt8}
    (h : tags.flatMap Tag.bytes ++ tail = tags'.flatMap Tag.bytes ++ tail') (htail : NoTag tail)
    (htail' : NoTag tail') :
    tags = tags' ∧ tail = tail' := by
  induction tags generalizing tags' with
  | nil =>
    cases tags' with
    | nil => exact ⟨rfl, h⟩
    | cons t' tags' =>
      have hnext := nextTag_bytes t' (tags'.flatMap Tag.bytes ++ tail')
      rw [← List.append_assoc, ← List.flatMap_cons, ← h] at hnext
      exact absurd hnext (htail _ _ _ _)
  | cons t tags ih =>
    have hnext := nextTag_bytes t (tags.flatMap Tag.bytes ++ tail)
    rw [← List.append_assoc, ← List.flatMap_cons, h] at hnext
    cases tags' with
    | nil => exact absurd hnext (htail' _ _ _ _)
    | cons t' tags' =>
      rw [List.flatMap_cons, List.append_assoc, nextTag_bytes] at hnext
      obtain ⟨htype, hheader, hdata, hrest⟩ := Next.tag.inj hnext
      have hlong : t'.long = t.long := by
        have hlength := congrArg List.length hheader
        rw [Tag.length_header, Tag.length_header] at hlength
        cases hl : t.long <;> cases hl' : t'.long <;> simp [hl, hl'] at hlength ⊢
      obtain ⟨rfl, rfl⟩ := ih hrest.symm
      exact ⟨by rw [Tag.ext_data htype hlong hdata], rfl⟩

/-! ### Bodies -/

/-- The header of a body: a rectangle of four numbers of as many bits as the first five bits tell, and four bytes. -/
def headerLength (first : UInt8) : Nat := (5 + first.toNat / 8 * 4 + 7) / 8 + 4

/-- A header and its tags. -/
structure Body where
  header : List UInt8
  tags : List Tag
  header_complete : ∃ first rest, header = first :: rest ∧ header.length = headerLength first

def Body.bytes (b : Body) : List UInt8 := b.header ++ b.tags.flatMap Tag.bytes

theorem Body.headerLength_le (b : Body) {first : UInt8} {rest tail : List UInt8}
    (h : b.bytes ++ tail = first :: rest) :
    headerLength first ≤ (first :: rest).length := by
  obtain ⟨first', rest', hheader, hlength⟩ := b.header_complete
  rw [← h, Body.bytes, List.append_assoc, List.length_append, hlength]
  rw [Body.bytes, hheader, List.cons_append, List.cons_append] at h
  rw [(List.cons.inj h).1]
  exact Nat.le_add_right _ _

/-- There is one way to read a body. -/
theorem Body.eq_of_bytes {b b' : Body} {tail tail' : List UInt8} (h : b.bytes ++ tail = b'.bytes ++ tail')
    (htail : NoTag tail) (htail' : NoTag tail') : b = b' ∧ tail = tail' := by
  obtain ⟨first, rest, hheader, hlength⟩ := b.header_complete
  obtain ⟨first', rest', hheader', hlength'⟩ := b'.header_complete
  rw [Body.bytes, Body.bytes, List.append_assoc, List.append_assoc] at h
  have hfirst : first = first' := by
    rw [hheader, hheader', List.cons_append, List.cons_append] at h
    exact (List.cons.inj h).1
  have hsame : b.header.length = b'.header.length := by rw [hlength, hlength', hfirst]
  obtain ⟨hheaders, hstreams⟩ := List.append_inj h hsame
  obtain ⟨htags, rfl⟩ := eq_of_tags hstreams htail htail'
  cases b
  cases b'
  cases hheaders
  cases htags
  exact ⟨rfl, rfl⟩

/-- Every byte string that is long enough for its header is a body, up to a last tag that is cut off. -/
theorem exists_body {first : UInt8} {rest : List UInt8} (h : headerLength first ≤ (first :: rest).length) :
    ∃ (b : Body) (tail : List UInt8), first :: rest = b.bytes ++ tail ∧ (CutOff tail ∨ nextTag tail = .broken) := by
  have hpos : headerLength first = headerLength first - 1 + 1 := by
    unfold headerLength
    omega
  obtain ⟨tags, tail, hstream, htail⟩ := exists_tags ((first :: rest).drop (headerLength first))
  refine ⟨⟨(first :: rest).take (headerLength first), tags, first, rest.take (headerLength first - 1), ?_, ?_⟩,
    tail, ?_,
    htail⟩
  · rw [hpos, List.take_succ_cons, Nat.add_sub_cancel]
  · rw [List.length_take]
    omega
  · rw [Body.bytes, List.append_assoc, ← hstream, List.take_append_drop]

end Swf
