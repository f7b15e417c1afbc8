import Otomai.Swf.Tags
import Otomai.Wire.Reader

/-!
# Patching the keys of a Flash file

`swf_patch.rs` of the key generator replaces two binary assets of a Flash file: the first one that contains
`DofusPublicKey`, and the first other one that contains `BEGIN PUBLIC KEY`.

* `patchFrom_tags`: on a stream of tags, this is done to the tags.
-/

namespace Otomai.GeneratorRsa

open Swf Wire

/-! ### The program -/

/-- Compression and decompression of zlib; what is not compressed data is not decompressed. -/
structure Zlib where
  compress : List UInt8 → List UInt8
  decompress : List UInt8 → Option (List UInt8)
  decompress_compress : ∀ bytes, decompress (compress bytes) = some bytes

inductive Error where
  | tooSmall
  | unsupportedCompression (compression : List UInt8)
  | zlib
  | bodyTooSmall
  deriving DecidableEq, Repr

def tagDefineBinaryData : Nat := 87

/-- `DofusPublicKey`. -/
def dofusPublicKey : List UInt8 := [68, 111, 102, 117, 115, 80, 117, 98, 108, 105, 99, 75, 101, 121]

/-- `BEGIN PUBLIC KEY`. -/
def beginPublicKey : List UInt8 := [66, 69, 71, 73, 78, 32, 80, 85, 66, 76, 73, 67, 32, 75, 69, 89]

/-- The parts of `n` bytes that follow each other in some data, one for each place. -/
def windows (n : Nat) (data : List UInt8) : List (List UInt8) :=
  (List.range (data.length + 1 - n)).map fun i => (data.drop i).take n

def containsPattern (data pattern : List UInt8) : Bool := (windows pattern.length data).any fun w => w == pattern

/-- A binary asset, always as a long tag. -/
def writeBinaryDataTag (characterIdBytes newData : List UInt8) : List UInt8 :=
  let tagDataLen := 2 + 4 + newData.length
  littleEndian 2 (tagDefineBinaryData * 64 + 63) ++ littleEndian 4 tagDataLen ++
    (characterIdBytes ++ List.replicate 4 0 ++ newData)

/-- What was replaced so far. -/
structure Progress where
  sigReplaced : Bool
  pemReplaceCount : Nat
  deriving DecidableEq, Repr

section

variable (signatureBin verifyKey : List UInt8)

/-- The bytes that are written for a tag. -/
def patchTag (p : Progress) (tagType : Nat) (header tagData : List UInt8) : List UInt8 × Progress :=
  if tagType = tagDefineBinaryData ∧ 6 < tagData.length then
    let binaryData := tagData.drop 6
    if !p.sigReplaced && containsPattern binaryData dofusPublicKey then
      (writeBinaryDataTag (tagData.take 2) signatureBin, { p with sigReplaced := true })
    else if p.pemReplaceCount == 0 && containsPattern binaryData beginPublicKey then
      (writeBinaryDataTag (tagData.take 2) verifyKey, { p with pemReplaceCount := p.pemReplaceCount + 1 })
    else (header ++ tagData, p)
  else (header ++ tagData, p)

/-- The loop over the tags, one unit of fuel for each of them and one for the end. -/
def patchFrom : Nat → Progress → List UInt8 → Outcome Error (List UInt8 × Progress)
  | 0, _, _ => .exhausted
  | fuel + 1, p, raw =>
    match nextTag raw with
    | .finished => .ok ([], p)
    -- the loop is left without the bytes that are too few for a tag
    | .broken => .ok ([], p)
    | .cut => .ok (raw, p)
    | .tag tagType header tagData rest =>
      let (bytes, p) := patchTag signatureBin verifyKey p tagType header tagData
      (patchFrom fuel p rest).bind fun (output, p) => .ok (bytes ++ output, p)

def patchTags : List UInt8 → Outcome Error (List UInt8 × Nat × Nat)
  -- `raw[0]`
  | [] => .panic
  | first :: rest =>
    let raw := first :: rest
    let headerLen := headerLength first
    if raw.length < headerLen then .err .bodyTooSmall
    else
      (patchFrom signatureBin verifyKey (raw.length + 1) ⟨false, 0⟩ (raw.drop headerLen)).bind fun (output, p) =>
        .ok (raw.take headerLen ++ output, if p.sigReplaced then 1 else 0, p.pemReplaceCount)

end

/-- `FWS`. -/
def fws : List UInt8 := [70, 87, 83]

/-- `CWS`. -/
def cws : List UInt8 := [67, 87, 83]

/-- The body of a file. -/
def openBody (zlib : Zlib) (compression content : List UInt8) : Outcome Error (List UInt8) :=
  if compression = fws then .ok content
  else if compression = cws then
    match zlib.decompress content with
    | some decompressed => .ok decompressed
    | none => .err .zlib
  else .err (.unsupportedCompression compression)

/-- What follows the length in a file with a body. -/
def closeBody (zlib : Zlib) (compression patchedTags : List UInt8) : List UInt8 :=
  if compression = fws then patchedTags else zlib.compress patchedTags

def patchSwf (zlib : Zlib) (swfData signatureBin verifyKey : List UInt8) : Outcome Error (List UInt8) :=
  if swfData.length < 8 then .err .tooSmall
  else do
    let compression := swfData.take 3
    let version := (swfData.drop 3).take 1
    let raw ← openBody zlib compression (swfData.drop 8)
    let (patchedTags, _sigCount, _pemCount) ← patchTags signatureBin verifyKey raw
    let newFileLength := 8 + patchedTags.length
    .ok (compression ++ version ++ littleEndian 4 newFileLength ++ closeBody zlib compression patchedTags)

/-! ### Patterns -/

theorem containsPattern_iff {data pattern : List UInt8} :
    containsPattern data pattern = true ↔ pattern <:+: data := by
  unfold containsPattern windows
  rw [List.any_map, List.any_eq_true]
  constructor
  · rintro ⟨i, -, hi⟩
    have htake : (data.drop i).take pattern.length = pattern := by simpa using hi
    rw [← htake]
    exact (List.take_prefix _ _).isInfix.trans (List.drop_suffix _ _).isInfix
  · rintro ⟨s, t, rfl⟩
    refine ⟨s.length, ?_, ?_⟩
    · rw [List.mem_range]
      simp only [List.length_append]
      omega
    · simp [List.append_assoc]

/-! ### Tags -/

/-- The tag is a binary asset, and the pattern stands in what follows its character id and four reserved bytes. -/
def Holds (pattern : List UInt8) (t : Tag) : Prop := t.tagType = tagDefineBinaryData ∧ pattern <:+: t.data.drop 6

instance (pattern : List UInt8) (t : Tag) : Decidable (Holds pattern t) := inferInstanceAs (Decidable (_ ∧ _))

/-- A tag that holds a pattern has more than six bytes. -/
theorem Holds.length_lt {pattern : List UInt8} {t : Tag} (h : Holds pattern t) (hne : pattern ≠ []) :
    6 < t.data.length := by
  have hlength := h.2.length_le
  have hpos := List.length_pos_iff.2 hne
  rw [List.length_drop] at hlength
  omega

/-- What is written behind the tags: a last tag that is cut off is copied, fewer bytes are lost. -/
def leftover (tail : List UInt8) : List UInt8 := if nextTag tail = .cut then tail else []

section

variable (signatureBin verifyKey : List UInt8)

/-- The bytes that are written for each of some tags. -/
def patchedFrom : Progress → List Tag → List (List UInt8)
  | _, [] => []
  | p, t :: tags =>
    if p.sigReplaced = false ∧ Holds dofusPublicKey t then
      writeBinaryDataTag (t.data.take 2) signatureBin :: patchedFrom { p with sigReplaced := true } tags
    else if p.pemReplaceCount = 0 ∧ Holds beginPublicKey t then
      writeBinaryDataTag (t.data.take 2) verifyKey ::
        patchedFrom { p with pemReplaceCount := p.pemReplaceCount + 1 } tags
    else t.bytes :: patchedFrom p tags

/-- What is replaced when some tags were written. -/
def progressFrom : Progress → List Tag → Progress
  | p, [] => p
  | p, t :: tags =>
    if p.sigReplaced = false ∧ Holds dofusPublicKey t then progressFrom { p with sigReplaced := true } tags
    else if p.pemReplaceCount = 0 ∧ Holds beginPublicKey t then
      progressFrom { p with pemReplaceCount := p.pemReplaceCount + 1 } tags
    else progressFrom p tags

theorem patchTag_eq (p : Progress) (t : Tag) :
    patchTag signatureBin verifyKey p t.tagType t.header t.data =
      if p.sigReplaced = false ∧ Holds dofusPublicKey t then
        (writeBinaryDataTag (t.data.take 2) signatureBin, { p with sigReplaced := true })
      else if p.pemReplaceCount = 0 ∧ Holds beginPublicKey t then
        (writeBinaryDataTag (t.data.take 2) verifyKey, { p with pemReplaceCount := p.pemReplaceCount + 1 })
      else (t.bytes, p) := by
  unfold patchTag
  by_cases hbinary : t.tagType = tagDefineBinaryData ∧ 6 < t.data.length
  · have hholds : ∀ pattern, Holds pattern t ↔ containsPattern (t.data.drop 6) pattern = true := by
      intro pattern
      rw [containsPattern_iff]
      exact and_iff_right hbinary.1
    rw [if_pos hbinary]
    simp only [hholds, Bool.and_eq_true, Bool.not_eq_true', beq_iff_eq]
    rfl
  · have hnone : ∀ pattern, pattern ≠ [] → ¬Holds pattern t :=
      fun pattern hne h => hbinary ⟨h.1, h.length_lt hne⟩
    have hdofus := hnone dofusPublicKey (by decide)
    have hbegin := hnone beginPublicKey (by decide)
    rw [if_neg hbinary, if_neg fun h => hdofus h.2, if_neg fun h => hbegin h.2]
    rfl

/-- On a stream of tags, and what is left behind them, the loop writes what is written for the tags. -/
theorem patchFrom_tags {tail : List UInt8} (htail : NoTag tail) {tags : List Tag} {p : Progress} {fuel : Nat}
    (hfuel : tags.length < fuel) :
    patchFrom signatureBin verifyKey fuel p (tags.flatMap Tag.bytes ++ tail) =
      .ok ((patchedFrom signatureBin verifyKey p tags).flatten ++ leftover tail, progressFrom p tags) := by
  induction tags generalizing p fuel with
  | nil =>
    obtain ⟨fuel, rfl⟩ := Nat.exists_eq_succ_of_ne_zero (Nat.ne_zero_of_lt hfuel)
    rw [List.flatMap_nil, List.nil_append, patchFrom, leftover]
    -- no tag begins in the tail, so the loop stops there
    cases hnext : nextTag tail with
    | finished => rfl
    | broken => rfl
    | cut => rfl
    | tag tagType header data rest => exact absurd hnext (htail tagType header data rest)
  | cons t tags ih =>
    obtain ⟨fuel, rfl⟩ := Nat.exists_eq_succ_of_ne_zero (Nat.ne_zero_of_lt hfuel)
    rw [List.length_cons, Nat.succ_lt_succ_iff] at hfuel
    rw [List.flatMap_cons, List.append_assoc, patchFrom, nextTag_bytes]
    dsimp only
    rw [patchTag_eq, patchedFrom, progressFrom]
    by_cases hsignature : p.sigReplaced = false ∧ Holds dofusPublicKey t
    · simp only [if_pos hsignature]
      rw [ih hfuel, Outcome.bind, List.flatten_cons, List.append_assoc]
    · simp only [if_neg hsignature]
      by_cases hverify : p.pemReplaceCount = 0 ∧ Holds beginPublicKey t
      · simp only [if_pos hverify]
        rw [ih hfuel, Outcome.bind, List.flatten_cons, List.append_assoc]
      · simp only [if_neg hverify]
        rw [ih hfuel, Outcome.bind, List.flatten_cons, List.append_assoc]

end

end Otomai.GeneratorRsa
