import Mathlib.Algebra.Order.BigOperators.Group.List
import Mathlib.Algebra.Order.Ring.Nat
import Otomai.GeneratorRsa.SwfPatch
import Otomai.Wire.Table

/-!
# The two keys of a Flash file

Which tags of a file the patch replaces, and what the patch makes of a whole file.

* `Patched`: the first tag that holds `DofusPublicKey` and the first other tag that holds `BEGIN PUBLIC KEY` have new
  payloads, and all other tags are as they were.
* `Patched.twice`: the keys that were put into a file are the ones that are replaced in it.
* `patchSwf_correct_iff`: the files that are patched or refused as they should be.
-/

namespace Otomai.GeneratorRsa

open Swf Wire

/-! ### Which tags are replaced -/

/-- The tag at a place of the stream holds a pattern. -/
def HoldsAt (pattern : List UInt8) (tags : List Tag) (i : Nat) : Prop := ∃ t, tags[i]? = some t ∧ Holds pattern t

/-- The first tag that holds `DofusPublicKey`. -/
def IsSignature (tags : List Tag) (i : Nat) : Prop :=
  HoldsAt dofusPublicKey tags i ∧ ∀ j < i, ¬HoldsAt dofusPublicKey tags j

/-- The first tag that holds `BEGIN PUBLIC KEY`, apart from the first one that holds `DofusPublicKey`. -/
def IsVerifyKey (tags : List Tag) (i : Nat) : Prop :=
  ¬IsSignature tags i ∧ HoldsAt beginPublicKey tags i ∧ ∀ j < i, HoldsAt beginPublicKey tags j → IsSignature tags j

instance (pattern : List UInt8) (tags : List Tag) (i : Nat) : Decidable (HoldsAt pattern tags i) :=
  decidable_of_iff (∃ t ∈ tags[i]?, Holds pattern t) Iff.rfl

instance (tags : List Tag) (i : Nat) : Decidable (IsSignature tags i) :=
  inferInstanceAs (Decidable (HoldsAt dofusPublicKey tags i ∧ ∀ j < i, ¬HoldsAt dofusPublicKey tags j))

instance (tags : List Tag) (i : Nat) : Decidable (IsVerifyKey tags i) :=
  inferInstanceAs (Decidable (¬IsSignature tags i ∧ HoldsAt beginPublicKey tags i ∧
    ∀ j < i, HoldsAt beginPublicKey tags j → IsSignature tags j))

/-- A binary asset in a long tag, with another payload and the same character id. -/
structure Replaces (key : List UInt8) (t t' : Tag) : Prop where
  tagType_eq : t'.tagType = tagDefineBinaryData
  long_eq : t'.long = true
  data_eq : t'.data = t.data.take 2 ++ List.replicate 4 0 ++ key

/-- Two tags have new payloads, and all others are as they were. -/
structure Patched (signatureBin verifyKey : List UInt8) (tags tags' : List Tag) : Prop where
  length_eq : tags'.length = tags.length
  signature : ∀ i t, tags[i]? = some t → IsSignature tags i → ∃ t', tags'[i]? = some t' ∧ Replaces signatureBin t t'
  verifyKey : ∀ i t, tags[i]? = some t → IsVerifyKey tags i → ∃ t', tags'[i]? = some t' ∧ Replaces verifyKey t t'
  others : ∀ i t, tags[i]? = some t → ¬IsSignature tags i → ¬IsVerifyKey tags i → tags'[i]? = some t

section

variable {pattern : List UInt8} {t : Tag} {tags : List Tag}

@[simp] theorem holdsAt_zero : HoldsAt pattern (t :: tags) 0 ↔ Holds pattern t := by simp [HoldsAt]

@[simp] theorem holdsAt_succ {i : Nat} : HoldsAt pattern (t :: tags) (i + 1) ↔ HoldsAt pattern tags i := by
  simp [HoldsAt]

/-- A tag that holds one of the patterns has a character id. -/
theorem exists_of_holdsAt {i : Nat} (hne : pattern ≠ []) (h : HoldsAt pattern tags i) :
    ∃ t, tags[i]? = some t ∧ 2 ≤ t.data.length := by
  obtain ⟨t, ht, hholds⟩ := h
  have hlength := hholds.length_lt hne
  exact ⟨t, ht, by omega⟩

theorem IsSignature.exists {i : Nat} (h : IsSignature tags i) : ∃ t, tags[i]? = some t ∧ 2 ≤ t.data.length :=
  exists_of_holdsAt (by decide) h.1

theorem IsVerifyKey.exists {i : Nat} (h : IsVerifyKey tags i) : ∃ t, tags[i]? = some t ∧ 2 ≤ t.data.length :=
  exists_of_holdsAt (by decide) h.2.1

/-! ### The loop replaces these tags -/

/-- What is left of `IsSignature` when some tags were passed. -/
def SignatureFrom (p : Progress) (tags : List Tag) (i : Nat) : Prop := p.sigReplaced = false ∧ IsSignature tags i

/-- What is left of `IsVerifyKey` when some tags were passed. -/
def VerifyKeyFrom (p : Progress) (tags : List Tag) (i : Nat) : Prop :=
  p.pemReplaceCount = 0 ∧ ¬SignatureFrom p tags i ∧ HoldsAt beginPublicKey tags i ∧
    ∀ j < i, HoldsAt beginPublicKey tags j → SignatureFrom p tags j

/-- What is replaced when a tag was passed. -/
def Progress.pass (p : Progress) (t : Tag) : Progress :=
  if p.sigReplaced = false ∧ Holds dofusPublicKey t then { p with sigReplaced := true }
  else if p.pemReplaceCount = 0 ∧ Holds beginPublicKey t then { p with pemReplaceCount := p.pemReplaceCount + 1 }
  else p

variable {p : Progress} {i : Nat}

theorem signatureFrom_zero : SignatureFrom p (t :: tags) 0 ↔ p.sigReplaced = false ∧ Holds dofusPublicKey t := by
  simp [SignatureFrom, IsSignature]

theorem verifyKeyFrom_zero : VerifyKeyFrom p (t :: tags) 0 ↔
    ¬(p.sigReplaced = false ∧ Holds dofusPublicKey t) ∧ p.pemReplaceCount = 0 ∧ Holds beginPublicKey t := by
  rw [VerifyKeyFrom, signatureFrom_zero, holdsAt_zero]
  constructor
  · rintro ⟨hcount, hsignature, hholds, -⟩
    exact ⟨hsignature, hcount, hholds⟩
  · rintro ⟨hsignature, hcount, hholds⟩
    exact ⟨hcount, hsignature, hholds, fun j hj => absurd hj (Nat.not_lt_zero j)⟩

theorem signatureFrom_succ : SignatureFrom p (t :: tags) (i + 1) ↔ SignatureFrom (p.pass t) tags i := by
  have hpass : (p.pass t).sigReplaced = false ↔ p.sigReplaced = false ∧ ¬Holds dofusPublicKey t := by
    unfold Progress.pass
    split_ifs <;> simp_all
  unfold SignatureFrom IsSignature
  rw [hpass, holdsAt_succ]
  constructor
  · rintro ⟨hreplaced, hholds, hfirst⟩
    refine ⟨⟨hreplaced, ?_⟩, hholds, fun j hj => ?_⟩
    · have h := hfirst 0 (Nat.succ_pos i)
      rwa [holdsAt_zero] at h
    · have h := hfirst (j + 1) (Nat.succ_lt_succ hj)
      rwa [holdsAt_succ] at h
  · rintro ⟨⟨hreplaced, hhead⟩, hholds, hfirst⟩
    refine ⟨hreplaced, hholds, fun j hj => ?_⟩
    cases j with
    | zero => rwa [holdsAt_zero]
    | succ j =>
      rw [holdsAt_succ]
      exact hfirst j (Nat.lt_of_succ_lt_succ hj)

theorem verifyKeyFrom_succ : VerifyKeyFrom p (t :: tags) (i + 1) ↔ VerifyKeyFrom (p.pass t) tags i := by
  have hpass : (p.pass t).pemReplaceCount = 0 ↔
      p.pemReplaceCount = 0 ∧ (Holds beginPublicKey t → SignatureFrom p (t :: tags) 0) := by
    rw [signatureFrom_zero]
    unfold Progress.pass
    split_ifs <;> simp_all
  unfold VerifyKeyFrom
  rw [hpass, signatureFrom_succ, holdsAt_succ]
  constructor
  · rintro ⟨hcount, hsignature, hholds, hfirst⟩
    refine ⟨⟨hcount, fun h => hfirst 0 (Nat.succ_pos i) (holdsAt_zero.2 h)⟩, hsignature, hholds, fun j hj h => ?_⟩
    exact signatureFrom_succ.1 (hfirst (j + 1) (Nat.succ_lt_succ hj) (holdsAt_succ.2 h))
  · rintro ⟨⟨hcount, hhead⟩, hsignature, hholds, hfirst⟩
    refine ⟨hcount, hsignature, hholds, fun j hj h => ?_⟩
    cases j with
    | zero => exact hhead (holdsAt_zero.1 h)
    | succ j => exact signatureFrom_succ.2 (hfirst j (Nat.lt_of_succ_lt_succ hj) (holdsAt_succ.1 h))

variable (signatureBin verifyKey : List UInt8)

theorem patchedFrom_cons : patchedFrom signatureBin verifyKey p (t :: tags) =
    (if p.sigReplaced = false ∧ Holds dofusPublicKey t then writeBinaryDataTag (t.data.take 2) signatureBin
      else if p.pemReplaceCount = 0 ∧ Holds beginPublicKey t then writeBinaryDataTag (t.data.take 2) verifyKey
      else t.bytes) :: patchedFrom signatureBin verifyKey (p.pass t) tags := by
  unfold Progress.pass
  rw [patchedFrom]
  split_ifs <;> rfl

theorem length_patchedFrom (p : Progress) (tags : List Tag) :
    (patchedFrom signatureBin verifyKey p tags).length = tags.length := by
  induction tags generalizing p with
  | nil => rfl
  | cons t tags ih => rw [patchedFrom_cons, List.length_cons, List.length_cons, ih]

/-- At each place of the stream the loop writes what the tag is replaced with. -/
theorem getElem?_patchedFrom {t' : Tag} (h : tags[i]? = some t') :
    (SignatureFrom p tags i →
      (patchedFrom signatureBin verifyKey p tags)[i]? = some (writeBinaryDataTag (t'.data.take 2) signatureBin)) ∧
    (VerifyKeyFrom p tags i →
      (patchedFrom signatureBin verifyKey p tags)[i]? = some (writeBinaryDataTag (t'.data.take 2) verifyKey)) ∧
    (¬SignatureFrom p tags i → ¬VerifyKeyFrom p tags i →
      (patchedFrom signatureBin verifyKey p tags)[i]? = some t'.bytes) := by
  induction tags generalizing p i with
  | nil => simp at h
  | cons t tags ih =>
    rw [patchedFrom_cons]
    cases i with
    | zero =>
      obtain rfl : t = t' := by simpa using h
      rw [signatureFrom_zero, verifyKeyFrom_zero]
      refine ⟨fun hs => ?_, fun ⟨hs, hv⟩ => ?_, fun hs hv => ?_⟩
      · simp only [if_pos hs, List.getElem?_cons_zero]
      · simp only [if_neg hs, if_pos hv, List.getElem?_cons_zero]
      · simp only [if_neg hs, if_neg fun h => hv ⟨hs, h⟩, List.getElem?_cons_zero]
    | succ i =>
      rw [signatureFrom_succ, verifyKeyFrom_succ, List.getElem?_cons_succ]
      exact ih (by simpa using h)

end

namespace Replaces

variable {key pattern : List UInt8} {t t' : Tag}

theorem bytes_eq (h : Replaces key t t') (hlength : 2 ≤ t.data.length) :
    t'.bytes = writeBinaryDataTag (t.data.take 2) key := by
  have hdata : t'.data.length = 2 + 4 + key.length := by
    rw [h.data_eq]
    simp only [List.length_append, List.length_take, List.length_replicate]
    omega
  unfold Tag.bytes Tag.header writeBinaryDataTag
  rw [if_pos h.long_eq, h.tagType_eq, hdata, h.data_eq]

/-- A long tag has six bytes before its data, and the key stands behind six bytes of the data. -/
theorem length_bytes (h : Replaces key t t') (hlength : 2 ≤ t.data.length) : t'.bytes.length = 12 + key.length := by
  rw [h.bytes_eq hlength, writeBinaryDataTag]
  simp only [List.length_append, List.length_take, List.length_replicate, length_littleEndian]
  omega

theorem holds_iff (h : Replaces key t t') (hlength : 2 ≤ t.data.length) : Holds pattern t' ↔ pattern <:+: key := by
  have hdrop : t'.data.drop 6 = key := by
    rw [h.data_eq]
    refine List.drop_left' ?_
    simp only [List.length_append, List.length_take, List.length_replicate]
    omega
  unfold Holds
  rw [hdrop]
  exact and_iff_right h.tagType_eq

/-- The tag has the payload that it would get. -/
theorem again (h : Replaces key t t') (hlength : 2 ≤ t.data.length) : Replaces key t' t' where
  tagType_eq := h.tagType_eq
  long_eq := h.long_eq
  data_eq := by
    have htake : t'.data.take 2 = t.data.take 2 := by
      rw [h.data_eq, List.append_assoc, List.take_left' (by rw [List.length_take]; omega)]
    rw [htake, h.data_eq]

theorem exists_tag (key : List UInt8) (t : Tag) (h : 12 + key.length < 2 ^ 32) : ∃ t', Replaces key t t' := by
  refine ⟨⟨tagDefineBinaryData, true, t.data.take 2 ++ List.replicate 4 0 ++ key, by decide, ?_⟩, rfl, rfl, rfl⟩
  simp only [List.length_append, List.length_take, List.length_replicate, if_pos]
  omega

end Replaces

/-! ### Patched streams -/

/-- How long the tags are with two new keys. -/
def lengthWith (signatureBin verifyKey : List UInt8) (tags : List Tag) : Nat :=
  (tags.mapIdx fun i t => if IsSignature tags i then 12 + signatureBin.length
    else if IsVerifyKey tags i then 12 + verifyKey.length else t.bytes.length).sum

theorem le_lengthWith {signatureBin verifyKey : List UInt8} {tags : List Tag} {i : Nat} {t : Tag}
    (ht : tags[i]? = some t) :
    (if IsSignature tags i then 12 + signatureBin.length
      else if IsVerifyKey tags i then 12 + verifyKey.length else t.bytes.length) ≤
      lengthWith signatureBin verifyKey tags := by
  refine List.le_sum_of_mem (List.mem_of_getElem? (i := i) ?_)
  rw [List.getElem?_mapIdx, ht]
  rfl

/-- A stream that is not too long can be patched. -/
theorem exists_patched {signatureBin verifyKey : List UInt8} {tags : List Tag}
    (h : lengthWith signatureBin verifyKey tags < 2 ^ 32) : ∃ tags', Patched signatureBin verifyKey tags tags' := by
  have hplace (i : Nat) (t : Tag) : ∃ t', tags[i]? = some t → (IsSignature tags i → Replaces signatureBin t t') ∧
      (IsVerifyKey tags i → Replaces verifyKey t t') ∧ (¬IsSignature tags i → ¬IsVerifyKey tags i → t' = t) := by
    by_cases ht : tags[i]? = some t
    · have hlt := Nat.lt_of_le_of_lt (le_lengthWith ht) h
      by_cases hs : IsSignature tags i
      · rw [if_pos hs] at hlt
        obtain ⟨t', hreplaces⟩ := Replaces.exists_tag signatureBin t hlt
        exact ⟨t', fun _ => ⟨fun _ => hreplaces, fun hv => absurd hs hv.1, fun h => absurd hs h⟩⟩
      · rw [if_neg hs] at hlt
        by_cases hv : IsVerifyKey tags i
        · rw [if_pos hv] at hlt
          obtain ⟨t', hreplaces⟩ := Replaces.exists_tag verifyKey t hlt
          exact ⟨t', fun _ => ⟨fun h => absurd h hs, fun _ => hreplaces, fun _ h => absurd hv h⟩⟩
        · exact ⟨t, fun _ => ⟨fun h => absurd h hs, fun h => absurd h hv, fun _ _ => rfl⟩⟩
    · exact ⟨t, fun h => absurd h ht⟩
  choose f hf using hplace
  have hget {i : Nat} {t : Tag} (ht : tags[i]? = some t) : (tags.mapIdx f)[i]? = some (f i t) := by
    rw [List.getElem?_mapIdx, ht]
    rfl
  refine ⟨tags.mapIdx f, List.length_mapIdx, fun i t ht hs => ?_, fun i t ht hv => ?_, fun i t ht hs hv => ?_⟩
  · exact ⟨f i t, hget ht, (hf i t ht).1 hs⟩
  · exact ⟨f i t, hget ht, (hf i t ht).2.1 hv⟩
  · rw [hget ht, (hf i t ht).2.2 hs hv]

namespace Patched

variable {signatureBin verifyKey : List UInt8} {tags tags' : List Tag} {pattern : List UInt8} {i : Nat}

variable (h : Patched signatureBin verifyKey tags tags')

include h

/-- The loop does what the patch is for. -/
theorem patchedFrom_eq : patchedFrom signatureBin verifyKey ⟨false, 0⟩ tags = tags'.map Tag.bytes := by
  have hsignature : ∀ i, SignatureFrom ⟨false, 0⟩ tags i ↔ IsSignature tags i := by simp [SignatureFrom]
  have hverify : ∀ i, VerifyKeyFrom ⟨false, 0⟩ tags i ↔ IsVerifyKey tags i := by
    simp [VerifyKeyFrom, IsVerifyKey, hsignature]
  refine List.ext_getElem? fun i => ?_
  rw [List.getElem?_map]
  cases ht : tags[i]? with
  | some t =>
    obtain ⟨hs, hv, hothers⟩ := getElem?_patchedFrom (p := ⟨false, 0⟩) signatureBin verifyKey ht
    rw [hsignature] at hs hothers
    rw [hverify] at hv hothers
    by_cases his : IsSignature tags i
    · obtain ⟨t', ht', hreplaces⟩ := h.signature i t ht his
      obtain ⟨t₀, ht₀, hlength⟩ := his.exists
      obtain rfl := Option.some.inj (ht.symm.trans ht₀)
      rw [hs his, ht', Option.map_some, hreplaces.bytes_eq hlength]
    · by_cases hiv : IsVerifyKey tags i
      · obtain ⟨t', ht', hreplaces⟩ := h.verifyKey i t ht hiv
        obtain ⟨t₀, ht₀, hlength⟩ := hiv.exists
        obtain rfl := Option.some.inj (ht.symm.trans ht₀)
        rw [hv hiv, ht', Option.map_some, hreplaces.bytes_eq hlength]
      · rw [hothers his hiv, h.others i t ht his hiv, Option.map_some]
  | none =>
    have hle := List.getElem?_eq_none_iff.1 ht
    have hlength := h.length_eq
    rw [List.getElem?_eq_none_iff.2 (by rw [length_patchedFrom]; exact hle), List.getElem?_eq_none_iff.2 (by omega)]
    rfl

theorem length_flatMap : (tags'.flatMap Tag.bytes).length = lengthWith signatureBin verifyKey tags := by
  rw [List.length_flatMap, lengthWith]
  congr 1
  refine List.ext_getElem? fun i => ?_
  rw [List.getElem?_map, List.getElem?_mapIdx]
  cases ht : tags[i]? with
  | some t =>
    rw [Option.map_some]
    by_cases hs : IsSignature tags i
    · obtain ⟨t', ht', hreplaces⟩ := h.signature i t ht hs
      obtain ⟨t₀, ht₀, hlength⟩ := hs.exists
      obtain rfl := Option.some.inj (ht.symm.trans ht₀)
      rw [ht', Option.map_some, hreplaces.length_bytes hlength, if_pos hs]
    · by_cases hv : IsVerifyKey tags i
      · obtain ⟨t', ht', hreplaces⟩ := h.verifyKey i t ht hv
        obtain ⟨t₀, ht₀, hlength⟩ := hv.exists
        obtain rfl := Option.some.inj (ht.symm.trans ht₀)
        rw [ht', Option.map_some, hreplaces.length_bytes hlength, if_neg hs, if_pos hv]
      · rw [h.others i t ht hs hv, Option.map_some, if_neg hs, if_neg hv]
  | none =>
    have hle := List.getElem?_eq_none_iff.1 ht
    have hlength := h.length_eq
    rw [List.getElem?_eq_none_iff.2 (by omega)]
    rfl

/-! ### Patching twice -/

theorem holdsAt_signature (hi : IsSignature tags i) : HoldsAt pattern tags' i ↔ pattern <:+: signatureBin := by
  obtain ⟨t, ht, hlength⟩ := hi.exists
  obtain ⟨t', ht', hreplaces⟩ := h.signature i t ht hi
  unfold HoldsAt
  rw [ht', ← hreplaces.holds_iff hlength]
  simp

theorem holdsAt_verifyKey (hi : IsVerifyKey tags i) : HoldsAt pattern tags' i ↔ pattern <:+: verifyKey := by
  obtain ⟨t, ht, hlength⟩ := hi.exists
  obtain ⟨t', ht', hreplaces⟩ := h.verifyKey i t ht hi
  unfold HoldsAt
  rw [ht', ← hreplaces.holds_iff hlength]
  simp

theorem holdsAt_others (hi : ¬IsSignature tags i) (hi' : ¬IsVerifyKey tags i) :
    HoldsAt pattern tags' i ↔ HoldsAt pattern tags i := by
  unfold HoldsAt
  cases ht : tags[i]? with
  | some t => rw [h.others i t ht hi hi']
  | none =>
    have hle : tags'.length ≤ i := by
      rw [h.length_eq]
      exact List.getElem?_eq_none_iff.1 ht
    rw [List.getElem?_eq_none_iff.2 hle]

/-- In the patched stream the same tags are to be replaced as in the original one. -/
theorem isSignature_iff (hdofus : dofusPublicKey <:+: signatureBin) (hverify : ¬dofusPublicKey <:+: verifyKey) :
    IsSignature tags' i ↔ IsSignature tags i := by
  have hholds : ∀ {j}, HoldsAt dofusPublicKey tags' j → HoldsAt dofusPublicKey tags j := by
    intro j hj
    by_cases hs : IsSignature tags j
    · exact hs.1
    · by_cases hv : IsVerifyKey tags j
      · exact absurd ((h.holdsAt_verifyKey hv).1 hj) hverify
      · exact (h.holdsAt_others hs hv).1 hj
  constructor
  · rintro ⟨hi, hfirst⟩
    refine ⟨hholds hi, fun j => ?_⟩
    -- the first tag that held the pattern holds it still
    induction j using Nat.strongRecOn with
    | ind j ih =>
      intro hj hold
      have hs : IsSignature tags j := ⟨hold, fun k hk => ih k hk (Nat.lt_trans hk hj)⟩
      exact hfirst j hj ((h.holdsAt_signature hs).2 hdofus)
  · intro hs
    exact ⟨(h.holdsAt_signature hs).2 hdofus, fun j hj hold => hs.2 j hj (hholds hold)⟩

theorem isVerifyKey_iff (hdofus : dofusPublicKey <:+: signatureBin) (hbegin : beginPublicKey <:+: verifyKey)
    (hverify : ¬dofusPublicKey <:+: verifyKey) : IsVerifyKey tags' i ↔ IsVerifyKey tags i := by
  have hsignature : ∀ j, IsSignature tags' j ↔ IsSignature tags j := fun j => h.isSignature_iff hdofus hverify
  have hholds : ∀ {j}, ¬IsSignature tags j → (HoldsAt beginPublicKey tags' j ↔ HoldsAt beginPublicKey tags j) := by
    intro j hs
    by_cases hv : IsVerifyKey tags j
    · exact iff_of_true ((h.holdsAt_verifyKey hv).2 hbegin) hv.2.1
    · exact h.holdsAt_others hs hv
  unfold IsVerifyKey
  simp only [hsignature]
  constructor
  · rintro ⟨hs, hi, hfirst⟩
    refine ⟨hs, (hholds hs).1 hi, fun j hj hold => ?_⟩
    by_contra hnot
    exact hnot (hfirst j hj ((hholds hnot).2 hold))
  · rintro ⟨hs, hi, hfirst⟩
    refine ⟨hs, (hholds hs).2 hi, fun j hj hold => ?_⟩
    by_contra hnot
    exact hnot (hfirst j hj ((hholds hnot).1 hold))

/-- Patching a patched stream with the same keys changes nothing. -/
theorem twice (hdofus : dofusPublicKey <:+: signatureBin) (hbegin : beginPublicKey <:+: verifyKey)
    (hverify : ¬dofusPublicKey <:+: verifyKey) : Patched signatureBin verifyKey tags' tags' where
  length_eq := rfl
  signature i t' ht' hi := by
    have hs := (h.isSignature_iff hdofus hverify).1 hi
    obtain ⟨t, ht, hlength⟩ := hs.exists
    obtain ⟨t₁, ht₁, hreplaces⟩ := h.signature i t ht hs
    obtain rfl := Option.some.inj (ht'.symm.trans ht₁)
    exact ⟨t', ht', hreplaces.again hlength⟩
  verifyKey i t' ht' hi := by
    have hv := (h.isVerifyKey_iff hdofus hbegin hverify).1 hi
    obtain ⟨t, ht, hlength⟩ := hv.exists
    obtain ⟨t₁, ht₁, hreplaces⟩ := h.verifyKey i t ht hv
    obtain rfl := Option.some.inj (ht'.symm.trans ht₁)
    exact ⟨t', ht', hreplaces.again hlength⟩
  others i t' ht' _ _ := ht'

end Patched

/-! ### Files -/

/-- The body of a file, which may be compressed. -/
def IsBody (zlib : Zlib) (swfData raw : List UInt8) : Prop :=
  8 ≤ swfData.length ∧ (swfData.take 3 = fws ∧ swfData.drop 8 = raw ∨
    swfData.take 3 = cws ∧ zlib.decompress (swfData.drop 8) = some raw)

/-- The length that stands in a file. -/
def fileLength (swfData : List UInt8) : Nat := ofLittleEndian ((swfData.drop 4).take 4)

/-- A file with the compression and the version of another one, and its own length and body. -/
def rebuilt (zlib : Zlib) (swfData raw : List UInt8) : List UInt8 :=
  swfData.take 3 ++ (swfData.drop 3).take 1 ++ littleEndian 4 (8 + raw.length) ++ closeBody zlib (swfData.take 3) raw

section

variable {zlib : Zlib} {swfData raw raw' signatureBin verifyKey : List UInt8}

theorem IsBody.unique (h : IsBody zlib swfData raw) (h' : IsBody zlib swfData raw') : raw = raw' := by
  obtain ⟨-, ⟨hfws, rfl⟩ | ⟨hcws, hraw⟩⟩ := h
  · obtain ⟨-, ⟨-, rfl⟩ | ⟨hcws, -⟩⟩ := h'
    · rfl
    · rw [hfws] at hcws
      exact absurd hcws (by decide)
  · obtain ⟨-, ⟨hfws, -⟩ | ⟨-, hraw'⟩⟩ := h'
    · rw [hcws] at hfws
      exact absurd hfws (by decide)
    · exact Option.some.inj (hraw.symm.trans hraw')

theorem take_rebuilt (h : 8 ≤ swfData.length) : (rebuilt zlib swfData raw).take 4 = swfData.take 4 := by
  have hfour : swfData.take 3 ++ (swfData.drop 3).take 1 = swfData.take 4 := by rw [← List.take_add]
  rw [rebuilt, hfour, List.append_assoc, List.take_left' (by rw [List.length_take]; omega)]

theorem take_three_rebuilt (h : 8 ≤ swfData.length) : (rebuilt zlib swfData raw).take 3 = swfData.take 3 := by
  have htake := congrArg (List.take 3) (@take_rebuilt zlib swfData raw h)
  rwa [List.take_take, List.take_take] at htake

theorem length_rebuilt (h : 8 ≤ swfData.length) : 8 ≤ (rebuilt zlib swfData raw).length := by
  unfold rebuilt
  simp only [List.length_append, List.length_take, List.length_drop, length_littleEndian]
  omega

theorem drop_rebuilt (h : 8 ≤ swfData.length) :
    (rebuilt zlib swfData raw).drop 4 = littleEndian 4 (8 + raw.length) ++ closeBody zlib (swfData.take 3) raw := by
  rw [rebuilt, List.append_assoc, List.drop_left']
  simp only [List.length_append, List.length_take, List.length_drop]
  omega

theorem fileLength_rebuilt (h : 8 ≤ swfData.length) (hlt : 8 + raw.length < 2 ^ 32) :
    fileLength (rebuilt zlib swfData raw) = 8 + raw.length := by
  rw [fileLength, drop_rebuilt h, List.take_left' (length_littleEndian 4 _), ofLittleEndian_littleEndian]
  exact Nat.mod_eq_of_lt (Nat.lt_of_lt_of_le hlt (by decide))

theorem fileLength_lt (swfData : List UInt8) : fileLength swfData < 2 ^ 32 := by
  refine Nat.lt_of_lt_of_le (ofLittleEndian_lt _) ?_
  have hlength : ((swfData.drop 4).take 4).length ≤ 4 := List.length_take_le _ _
  exact Nat.pow_le_pow_right (by decide : 0 < 256) hlength

/-- What is written is read again. -/
theorem IsBody.rebuilt (h : IsBody zlib swfData raw) : IsBody zlib (rebuilt zlib swfData raw') raw' := by
  have hcontent : (GeneratorRsa.rebuilt zlib swfData raw').drop 8 = closeBody zlib (swfData.take 3) raw' := by
    have height : (GeneratorRsa.rebuilt zlib swfData raw').drop 8 =
        ((GeneratorRsa.rebuilt zlib swfData raw').drop 4).drop 4 := by rw [List.drop_drop]
    rw [height, drop_rebuilt h.1, List.drop_left' (length_littleEndian 4 _)]
  refine ⟨length_rebuilt h.1, ?_⟩
  rw [take_three_rebuilt h.1, hcontent, closeBody]
  obtain ⟨-, ⟨hfws, -⟩ | ⟨hcws, -⟩⟩ := h
  · exact .inl ⟨hfws, if_pos hfws⟩
  · rw [hcws, if_neg (by decide)]
    exact .inr ⟨rfl, zlib.decompress_compress raw'⟩

theorem rebuilt_rebuilt (h : 8 ≤ swfData.length) :
    GeneratorRsa.rebuilt zlib (GeneratorRsa.rebuilt zlib swfData raw) raw' =
      GeneratorRsa.rebuilt zlib swfData raw' := by
  have hversion : ((GeneratorRsa.rebuilt zlib swfData raw).drop 3).take 1 = (swfData.drop 3).take 1 := by
    have hdrop := congrArg (List.drop 3) (@take_rebuilt zlib swfData raw h)
    rwa [List.drop_take, List.drop_take] at hdrop
  rw [GeneratorRsa.rebuilt, hversion, take_three_rebuilt h]
  rfl

theorem patchSwf_of_isBody (h : IsBody zlib swfData raw) :
    patchSwf zlib swfData signatureBin verifyKey =
      patchTags signatureBin verifyKey raw >>= fun r => .ok (GeneratorRsa.rebuilt zlib swfData r.1) := by
  obtain ⟨hlength, hraw⟩ := h
  have hopen : openBody zlib (swfData.take 3) (swfData.drop 8) = .ok raw := by
    unfold openBody
    rcases hraw with ⟨hfws, hraw⟩ | ⟨hcws, hraw⟩
    · rw [if_pos hfws, hraw]
    · rw [hcws, if_neg (by decide), if_pos rfl, hraw]
  rw [patchSwf, if_neg (Nat.not_lt.2 hlength)]
  simp only [hopen, Outcome.ok_bind]
  rfl

/-- The body of a file, with what is left behind its tags. -/
theorem patchTags_body (signatureBin verifyKey : List UInt8) (b : Body) {tail : List UInt8} (htail : NoTag tail) :
    patchTags signatureBin verifyKey (b.bytes ++ tail) =
      .ok (b.header ++ ((patchedFrom signatureBin verifyKey ⟨false, 0⟩ b.tags).flatten ++ leftover tail),
        if (progressFrom ⟨false, 0⟩ b.tags).sigReplaced then 1 else 0,
        (progressFrom ⟨false, 0⟩ b.tags).pemReplaceCount) := by
  obtain ⟨first, rest, hheader, hlength⟩ := b.header_complete
  have hraw : b.bytes ++ tail = b.header ++ (b.tags.flatMap Tag.bytes ++ tail) := by
    rw [Body.bytes, List.append_assoc]
  have hcons : b.bytes ++ tail = first :: (rest ++ (b.tags.flatMap Tag.bytes ++ tail)) := by
    rw [hraw, hheader, List.cons_append]
  have hcount : b.tags.length ≤ (b.tags.flatMap Tag.bytes).length :=
    length_le_flatMap fun t _ => t.bytes_ne_nil
  have hfuel : b.tags.length < (b.bytes ++ tail).length + 1 := by
    rw [hraw]
    simp only [List.length_append]
    omega
  have hsize : ¬(b.bytes ++ tail).length < headerLength first := by
    rw [hraw, List.length_append, hlength]
    omega
  have hloop := @patchFrom_tags signatureBin verifyKey tail htail b.tags ⟨false, 0⟩ _ hfuel
  have htake : (b.bytes ++ tail).take (headerLength first) = b.header := by rw [hraw, List.take_left' hlength]
  have hdrop : (b.bytes ++ tail).drop (headerLength first) = b.tags.flatMap Tag.bytes ++ tail := by
    rw [hraw, List.drop_left' hlength]
  rw [hcons] at hsize hloop htake hdrop ⊢
  unfold patchTags
  simp only [if_neg hsize, htake, hdrop, hloop, Outcome.bind]

/-- A file with whole tags. -/
theorem patchSwf_body {b : Body} {tags' : List Tag} (h : IsBody zlib swfData b.bytes)
    (hpatched : Patched signatureBin verifyKey b.tags tags') :
    patchSwf zlib swfData signatureBin verifyKey =
      .ok (GeneratorRsa.rebuilt zlib swfData (b.header ++ tags'.flatMap Tag.bytes)) := by
  have hbody := patchTags_body signatureBin verifyKey b noTag_nil
  have hleft : leftover [] = [] := rfl
  rw [List.append_nil, hleft, List.append_nil, hpatched.patchedFrom_eq, ← List.flatMap_def] at hbody
  rw [patchSwf_of_isBody h, hbody]
  rfl

end

/-! ### Correct answers -/

/-- The keys as they are generated: the one for the signature contains `DofusPublicKey`, and the text of the other one
contains `BEGIN PUBLIC KEY` and does not happen to contain `DofusPublicKey`. -/
def Genuine (signatureBin verifyKey : List UInt8) : Prop :=
  dofusPublicKey <:+: signatureBin ∧ beginPublicKey <:+: verifyKey ∧ ¬dofusPublicKey <:+: verifyKey

instance (signatureBin verifyKey : List UInt8) : Decidable (Genuine signatureBin verifyKey) :=
  inferInstanceAs (Decidable (_ ∧ _ ∧ _))

/-- A patched file: the two key assets are replaced, and nothing else is changed but the length. -/
structure IsPatch (zlib : Zlib) (signatureBin verifyKey swfData : List UInt8) (b : Body) (patched : List UInt8)
    (b' : Body) : Prop where
  body : IsBody zlib patched b'.bytes
  header_eq : b'.header = b.header
  tags : Patched signatureBin verifyKey b.tags b'.tags
  compression_version : patched.take 4 = swfData.take 4
  length : fileLength patched = 8 + b'.bytes.length

/-- A file with a header and whole tags is patched, and a second time with genuine keys this changes nothing; any
other file is answered with an error. -/
def Correct (zlib : Zlib) (swfData signatureBin verifyKey : List UInt8) : Prop :=
  (∀ b : Body, IsBody zlib swfData b.bytes → ∃ patched b',
    patchSwf zlib swfData signatureBin verifyKey = .ok patched ∧
    IsPatch zlib signatureBin verifyKey swfData b patched b' ∧
    (Genuine signatureBin verifyKey → patchSwf zlib patched signatureBin verifyKey = .ok patched)) ∧
  ((∀ b : Body, ¬IsBody zlib swfData b.bytes) → ∃ e, patchSwf zlib swfData signatureBin verifyKey = .err e)

/-- There is no body, or one that is not empty and shorter than its header. -/
def Refused (zlib : Zlib) (swfData : List UInt8) : Prop :=
  (∀ raw, ¬IsBody zlib swfData raw) ∨
    ∃ first rest, IsBody zlib swfData (first :: rest) ∧ (first :: rest).length < headerLength first

section

variable {zlib : Zlib} {swfData raw signatureBin verifyKey : List UInt8}

theorem err_of_no_body (h : ∀ raw, ¬IsBody zlib swfData raw) :
    ∃ e, patchSwf zlib swfData signatureBin verifyKey = .err e := by
  by_cases hsmall : swfData.length < 8
  · exact ⟨.tooSmall, if_pos hsmall⟩
  · have hlength := Nat.not_lt.1 hsmall
    have hopen : ∃ e, openBody zlib (swfData.take 3) (swfData.drop 8) = .err e := by
      unfold openBody
      by_cases hfws : swfData.take 3 = fws
      · exact absurd ⟨hlength, .inl ⟨hfws, rfl⟩⟩ (h (swfData.drop 8))
      · rw [if_neg hfws]
        by_cases hcws : swfData.take 3 = cws
        · rw [if_pos hcws]
          cases hzlib : zlib.decompress (swfData.drop 8) with
          | some raw => exact absurd ⟨hlength, .inr ⟨hcws, hzlib⟩⟩ (h raw)
          | none => exact ⟨.zlib, rfl⟩
        · rw [if_neg hcws]
          exact ⟨.unsupportedCompression (swfData.take 3), rfl⟩
    obtain ⟨e, he⟩ := hopen
    refine ⟨e, ?_⟩
    rw [patchSwf, if_neg hsmall]
    simp only [he, Outcome.err_bind]

theorem Refused.err (h : Refused zlib swfData) : ∃ e, patchSwf zlib swfData signatureBin verifyKey = .err e := by
  rcases h with hnone | ⟨first, rest, hbody, hshort⟩
  · exact err_of_no_body hnone
  · refine ⟨.bodyTooSmall, ?_⟩
    rw [patchSwf_of_isBody hbody, patchTags]
    rw [if_pos hshort]
    rfl

theorem Refused.not_isBody (h : Refused zlib swfData) (b : Body) : ¬IsBody zlib swfData b.bytes := by
  intro hb
  rcases h with hnone | ⟨first, rest, hbody, hshort⟩
  · exact hnone _ hb
  · have heq : b.bytes ++ [] = first :: rest := (List.append_nil _).trans (hb.unique hbody)
    have hle := b.headerLength_le heq
    omega

/-- The patch is correct exactly on the files that are refused for their beginning, and on those with whole tags that
have fewer than 2^32 bytes with the new keys.  It is not on files without a body, and on those that end within a
tag. -/
theorem patchSwf_correct_iff (zlib : Zlib) (swfData signatureBin verifyKey : List UInt8) :
    Correct zlib swfData signatureBin verifyKey ↔
      (∃ b : Body, IsBody zlib swfData b.bytes ∧
        8 + b.header.length + lengthWith signatureBin verifyKey b.tags < 2 ^ 32) ∨ Refused zlib swfData := by
  constructor
  · rintro ⟨hpatches, herr⟩
    by_cases hbody : ∃ b : Body, IsBody zlib swfData b.bytes
    · obtain ⟨b, hb⟩ := hbody
      obtain ⟨patched, b', -, hpatch, -⟩ := hpatches b hb
      -- the length of the patched file is in a field of four bytes
      have hlt := fileLength_lt patched
      rw [hpatch.length, Body.bytes, List.length_append, hpatch.tags.length_flatMap, hpatch.header_eq] at hlt
      exact .inl ⟨b, hb, by omega⟩
    · right
      obtain ⟨e, he⟩ := herr fun b hb => hbody ⟨b, hb⟩
      by_contra hrefused
      obtain ⟨hraw, hheader⟩ := not_or.1 hrefused
      obtain ⟨raw, hraw⟩ := not_forall_not.1 hraw
      -- a body that is long enough for its header is patched, whatever stands behind its tags
      rw [patchSwf_of_isBody hraw] at he
      cases raw with
      | nil => cases he
      | cons first rest =>
        have hlong : headerLength first ≤ (first :: rest).length :=
          Nat.not_lt.1 fun hshort => hheader ⟨first, rest, hraw, hshort⟩
        obtain ⟨b, tail, hbytes, htail⟩ := exists_body hlong
        rw [hbytes, patchTags_body signatureBin verifyKey b (htail.elim CutOff.noTag noTag_of_broken)] at he
        cases he
  · rintro (⟨b, hb, hlt⟩ | hrefused)
    · refine ⟨fun b₁ hb₁ => ?_, fun hnone => absurd hb (hnone b)⟩
      have hbytes : b₁.bytes ++ [] = b.bytes ++ [] := by rw [hb₁.unique hb]
      obtain ⟨rfl, -⟩ := Body.eq_of_bytes hbytes noTag_nil noTag_nil
      -- there is room for both keys, and a second patch finds them in their places
      obtain ⟨tags', hpatched⟩ := exists_patched (Nat.lt_of_le_of_lt (Nat.le_add_left _ _) hlt)
      let b' : Body := ⟨b₁.header, tags', b₁.header_complete⟩
      have hsize : 8 + b'.bytes.length < 2 ^ 32 := by
        show 8 + (b₁.header ++ tags'.flatMap Tag.bytes).length < 2 ^ 32
        rw [List.length_append, hpatched.length_flatMap]
        omega
      have hpatch := patchSwf_body hb hpatched
      have hlength := @fileLength_rebuilt zlib _ _ hb.1 hsize
      refine ⟨rebuilt zlib swfData b'.bytes, b', hpatch, ⟨hb.rebuilt, rfl, hpatched, take_rebuilt hb.1, hlength⟩, ?_⟩
      rintro ⟨hdofus, hbegin, hverify⟩
      have hagain := patchSwf_body (hb.rebuilt : IsBody zlib (rebuilt zlib swfData b'.bytes) b'.bytes)
        (hpatched.twice hdofus hbegin hverify)
      rw [hagain]
      exact congrArg Outcome.ok (rebuilt_rebuilt hb.1)
    · exact ⟨fun b hb => absurd hb (hrefused.not_isBody b), fun _ => hrefused.err⟩

/-! ### Other files -/

/-- A body that ends within a tag is answered. -/
theorem not_correct_of_tail {b : Body} {tail : List UInt8} (h : IsBody zlib swfData (b.bytes ++ tail))
    (htail : NoTag tail) (hne : tail ≠ []) : ¬Correct zlib swfData signatureBin verifyKey := by
  rintro ⟨-, herr⟩
  obtain ⟨e, he⟩ := herr fun b' hb' => hne (Body.eq_of_bytes
    ((h.unique hb').trans (List.append_nil b'.bytes).symm) htail noTag_nil).2
  rw [patchSwf_of_isBody h, patchTags_body signatureBin verifyKey b htail] at he
  cases he

/-- A file without a body ends the program. -/
theorem not_correct_of_empty (h : IsBody zlib swfData []) : ¬Correct zlib swfData signatureBin verifyKey := by
  rintro ⟨-, herr⟩
  obtain ⟨e, he⟩ := herr fun b hb => by
    obtain ⟨first, rest, hheader, -⟩ := b.header_complete
    have hnil := hb.unique h
    rw [Body.bytes, hheader] at hnil
    cases hnil
  rw [patchSwf_of_isBody h] at he
  cases he

/-- The length of a file has four bytes. -/
theorem not_correct_of_long {b : Body} (h : IsBody zlib swfData b.bytes)
    (hlong : 2 ^ 32 ≤ lengthWith signatureBin verifyKey b.tags) : ¬Correct zlib swfData signatureBin verifyKey := by
  rintro ⟨hpatches, -⟩
  obtain ⟨patched, b', -, hpatch, -⟩ := hpatches b h
  have hlt := fileLength_lt patched
  rw [hpatch.length, Body.bytes, List.length_append, hpatch.tags.length_flatMap] at hlt
  omega

end

/-! ### Samples -/

/-- A compression that leaves data as they are. -/
def Zlib.stored : Zlib := ⟨id, some, fun _ => rfl⟩

/-- A file of the version 10. -/
def file (compression body : List UInt8) : List UInt8 :=
  compression ++ 10 :: littleEndian 4 (8 + body.length) ++ body

def sampleHeader : List UInt8 := [8, 0, 0, 24, 1, 0]

theorem sampleHeader_complete : ∃ first rest, sampleHeader = first :: rest ∧
    sampleHeader.length = headerLength first :=
  ⟨8, [0, 0, 24, 1, 0], rfl, rfl⟩

theorem tagDefineBinaryData_lt : tagDefineBinaryData < 1024 := by decide

/-- The payload of a binary asset. -/
def sampleAsset (characterId : UInt8) (payload : List UInt8) : List UInt8 := [characterId, 0, 0, 0, 0, 0] ++ payload

theorem verifyAsset_fits : (sampleAsset 115 (beginPublicKey ++ [1])).length < if false then 2 ^ 32 else 63 := by
  decide

theorem signatureAsset_fits : (sampleAsset 114 (dofusPublicKey ++ [2])).length < if true then 2 ^ 32 else 63 := by
  decide

theorem otherAsset_fits : (sampleAsset 117 beginPublicKey).length < if false then 2 ^ 32 else 63 := by decide

theorem endTag_lt : 0 < 1024 := by decide

theorem endTag_fits : ([] : List UInt8).length < if false then 2 ^ 32 else 63 := by decide

/-- The asset of the verify key in a short tag, that of the signature in a long one, another asset, and the end. -/
def sampleBody : Body where
  header := sampleHeader
  tags :=
    [⟨tagDefineBinaryData, false, sampleAsset 115 (beginPublicKey ++ [1]), tagDefineBinaryData_lt, verifyAsset_fits⟩,
      ⟨tagDefineBinaryData, true, sampleAsset 114 (dofusPublicKey ++ [2]), tagDefineBinaryData_lt,
        signatureAsset_fits⟩,
      ⟨tagDefineBinaryData, false, sampleAsset 117 beginPublicKey, tagDefineBinaryData_lt, otherAsset_fits⟩,
      ⟨0, false, [], endTag_lt, endTag_fits⟩]
  header_complete := sampleHeader_complete

/-- A signature key with other numbers. -/
def newSignature : List UInt8 := dofusPublicKey ++ [3, 4]

/-- The text of another verify key. -/
def newVerifyKey : List UInt8 := beginPublicKey ++ [5]

theorem patchSwf_correct_sample : ∃ patched b',
    patchSwf .stored (file cws sampleBody.bytes) newSignature newVerifyKey = .ok patched ∧
      IsPatch .stored newSignature newVerifyKey (file cws sampleBody.bytes) sampleBody patched b' ∧
      patchSwf .stored patched newSignature newVerifyKey = .ok patched := by
  have hbody : IsBody .stored (file cws sampleBody.bytes) sampleBody.bytes := ⟨by decide, .inr ⟨by decide, rfl⟩⟩
  have hcorrect := (patchSwf_correct_iff .stored (file cws sampleBody.bytes) newSignature newVerifyKey).2
    (.inl ⟨sampleBody, hbody, by decide +kernel⟩)
  obtain ⟨patched, b', hpatch, his, htwice⟩ := hcorrect.1 sampleBody hbody
  exact ⟨patched, b', hpatch, his, htwice (by decide)⟩

/-- A header without tags. -/
def emptyBody : Body := ⟨sampleHeader, [], sampleHeader_complete⟩

/-- A file without a body; a byte behind the tags; a tag without its data; and a key of 4294967290 bytes, which does
not fit its tag. -/
theorem not_correct_samples :
    ¬Correct .stored (file fws []) [] [] ∧ ¬Correct .stored (file fws (emptyBody.bytes ++ [64])) [] [] ∧
      ¬Correct .stored (file fws (emptyBody.bytes ++ [65, 0])) [] [] ∧
      ¬Correct .stored (file fws sampleBody.bytes) (List.replicate 4294967290 0) [] := by
  refine ⟨not_correct_of_empty ⟨by decide, .inl ⟨rfl, rfl⟩⟩, ?_, ?_, ?_⟩
  · exact @not_correct_of_tail _ _ _ _ emptyBody [64] ⟨by decide, .inl ⟨rfl, rfl⟩⟩ (noTag_of_broken rfl) (by decide)
  · exact @not_correct_of_tail _ _ _ _ emptyBody [65, 0] ⟨by decide, .inl ⟨rfl, rfl⟩⟩ (noTag_of_cut rfl) (by decide)
  · refine @not_correct_of_long _ _ _ _ sampleBody ⟨by decide, .inl ⟨rfl, rfl⟩⟩ ?_
    have hsignature : IsSignature sampleBody.tags 1 := by decide
    have hle := @le_lengthWith (List.replicate 4294967290 0) [] sampleBody.tags 1 _ rfl
    rw [if_pos hsignature, List.length_replicate] at hle
    exact Nat.le_trans (by decide) hle

end Otomai.GeneratorRsa
