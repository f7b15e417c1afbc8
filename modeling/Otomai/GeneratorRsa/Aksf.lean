import Otomai.DataReader.Signed
import Otomai.Wire.Ends
import Otomai.Wire.Slice

/-!
# Taking signatures off

`strip_aksf` of the key generator gives back what follows the signature of a signed file, and a file that is not
signed as it is.  But it first checks that the file is long enough for a signature, and for a string whose length is
in the first two bytes, whatever these bytes are.

* `strip_signed`: what was signed is found again.
* `strip_unsigned`: which files without a signature are given back.
* `strip_iff`: both.
-/

namespace Otomai.GeneratorRsa

open Wire BigEndianWriter
open DataReader (signHeader buildAksf)

inductive StripError where
  | tooSmall
  | invalidUtfLength
  | pastEnd
  deriving DecidableEq, Repr

def StripError.message : StripError → String
  | tooSmall => "File too small for AKSF header"
  | invalidUtfLength => "Invalid AKSF UTF length"
  | pastEnd => "AKSF signature extends past end of file"

/-- What follows the signature of a file. -/
def stripAksf (data : List UInt8) : Outcome StripError (List UInt8) :=
  if data.length < 12 then .err .tooSmall
  else do
    let utfLen ← ofBigEndian <$> slice data 0 2
    if data.length < utfLen + 2 then .err .invalidUtfLength
    else do
      let header ← slice data 2 (2 + utfLen)
      -- without the header the file is not signed
      if header ≠ asBytes signHeader then .ok data
      else do
        let sigLen ← ofBigEndian <$> slice data 8 12
        let dataStart := 12 + sigLen
        if data.length < dataStart then .err .pastEnd else slice data dataStart data.length

/-- The file starts with the name of the signature, written as a string. -/
def Signed (data : List UInt8) : Prop := writeUtf signHeader <+: data

theorem asBytes_signHeader : asBytes signHeader = [65, 75, 83, 70] := by decide +kernel

theorem writeUtf_signHeader : writeUtf signHeader = [0, 4, 65, 75, 83, 70] := by decide +kernel

/-! ### Files without a signature -/

/-- The first two bytes of a file as the length of a string. -/
def utfLength (data : List UInt8) : Nat := ofBigEndian (data.take 2)

theorem slice_start {data : List UInt8} (h : 2 ≤ data.length) :
    (ofBigEndian <$> slice data 0 2 : Outcome StripError Nat) = .ok (utfLength data) := by
  have hslice : slice data 0 2 = (.ok (data.take 2) : Outcome StripError (List UInt8)) :=
    @slice_eq _ data [] (data.take 2) (data.drop 2) 0 2 (List.take_append_drop 2 data).symm rfl
      (by rw [List.length_take_of_le h])
  rw [hslice]
  rfl

/-- Two bytes that make four. -/
theorem eq_of_utfLength {start rest : List UInt8} (hstart : start.length = 2) (h : utfLength (start ++ rest) = 4) :
    start = [0, 4] := by
  obtain ⟨x, y, rfl⟩ := List.length_eq_two.1 hstart
  have hsum : x.toNat * 256 + y.toNat = 4 := by simpa [utfLength, ofBigEndian] using h
  have hy := y.toNat_lt
  have hx0 : x = 0 := UInt8.toNat_inj.1 (by simp; omega)
  have hy4 : y = 4 := UInt8.toNat_inj.1 (by simp; omega)
  rw [hx0, hy4]

/-- A file that is not signed is given back if it is long enough for a signature and for the string that it seems to
start with. -/
theorem strip_unsigned {data : List UInt8} (h : ¬Signed data) :
    stripAksf data = .ok data ↔ 12 ≤ data.length ∧ utfLength data + 2 ≤ data.length := by
  unfold stripAksf
  by_cases hshort : data.length < 12
  · rw [if_pos hshort]
    exact iff_of_false nofun fun hlong => absurd hlong.1 (Nat.not_le.2 hshort)
  · rw [if_neg hshort, slice_start (by omega), Outcome.ok_bind]
    by_cases hutf : data.length < utfLength data + 2
    · rw [if_pos hutf]
      exact iff_of_false nofun fun hlong => absurd hlong.2 (Nat.not_le.2 hutf)
    · rw [if_neg hutf]
      obtain ⟨start, rest, hdata, hstart⟩ := exists_split (show 2 ≤ data.length by omega)
      have hlength : data.length = 2 + rest.length := by rw [hdata, List.length_append, hstart]
      obtain ⟨header, rest, rfl, hheader⟩ := exists_split (show utfLength data ≤ rest.length by omega)
      rw [slice_eq hdata hstart (by rw [hheader]), Outcome.ok_bind]
      have hother : header ≠ asBytes signHeader := by
        intro heq
        have hfour : utfLength data = 4 := by rw [← hheader, heq, asBytes_signHeader]; rfl
        have hzero : start = [0, 4] := eq_of_utfLength hstart (by rw [← hdata, hfour])
        refine h ⟨rest, ?_⟩
        rw [hdata, hzero, heq, asBytes_signHeader, writeUtf_signHeader]
        rfl
      rw [if_pos hother]
      exact iff_of_true rfl (by omega)

/-! ### Signed files -/

/-- What is taken off a signed file is as long as the field says. -/
theorem strip_field (n : Nat) (rest : List UInt8) (h : n % 2 ^ 32 ≤ rest.length) :
    stripAksf (writeUtf signHeader ++ (writeShort 1 ++ (writeInt (Int32.ofNat n) ++ rest))) =
      .ok (rest.drop (n % 2 ^ 32)) := by
  have hfield : writeInt (Int32.ofNat n) = bigEndian 4 (n % 2 ^ 32) := by
    have hmod : (Int32.ofNat n).toUInt32.toNat = n % 2 ^ 32 := UInt32.toNat_ofNat'
    rw [writeInt, writeUint, hmod]
  have hfour : (bigEndian 4 (n % 2 ^ 32)).length = 4 := length_bigEndian ..
  have hshort : writeShort 1 = [0, 1] := by decide +kernel
  rw [writeUtf_signHeader, hshort, hfield]
  generalize hfile : [0, 4, 65, 75, 83, 70] ++ ([0, 1] ++ (bigEndian 4 (n % 2 ^ 32) ++ rest)) = file
  have hlength : file.length = 12 + rest.length := by
    rw [← hfile]
    simp only [List.length_append, hfour, List.length_cons, List.length_nil]
    omega
  have hutf : utfLength file = 4 := by
    rw [← hfile]
    rfl
  have hheader : slice file 2 (2 + 4) = (.ok [65, 75, 83, 70] : Outcome StripError (List UInt8)) :=
    @slice_eq _ file [0, 4] _ ([0, 1] ++ (bigEndian 4 (n % 2 ^ 32) ++ rest)) _ _ hfile.symm rfl rfl
  have hlen : slice file 8 12 = (.ok (bigEndian 4 (n % 2 ^ 32)) : Outcome StripError (List UInt8)) :=
    @slice_eq _ file [0, 4, 65, 75, 83, 70, 0, 1] _ rest _ _ hfile.symm rfl (by rw [hfour])
  have hnumber : ofBigEndian (bigEndian 4 (n % 2 ^ 32)) = n % 2 ^ 32 := by
    rw [ofBigEndian_bigEndian]
    exact Nat.mod_mod n _
  have hrest : slice file (12 + n % 2 ^ 32) file.length =
      (.ok (rest.drop (n % 2 ^ 32)) : Outcome StripError (List UInt8)) := by
    refine @slice_eq _ file
      ([0, 4, 65, 75, 83, 70] ++ ([0, 1] ++ (bigEndian 4 (n % 2 ^ 32) ++ rest.take (n % 2 ^ 32))))
      _ [] _ _ ?_ ?_ ?_
    · rw [← hfile]
      simp
    · simp only [List.length_append, hfour, List.length_cons, List.length_nil, List.length_take]
      omega
    · rw [hlength, List.length_drop]
      omega
  unfold stripAksf
  rw [if_neg (by omega), slice_start (by omega), Outcome.ok_bind, hutf, if_neg (by omega), hheader, Outcome.ok_bind,
    asBytes_signHeader, if_neg (by simp), hlen]
  show (if file.length < 12 + ofBigEndian (bigEndian 4 (n % 2 ^ 32)) then _ else slice file _ _ : Outcome _ _) = _
  rw [hnumber, if_neg (by omega), hrest]

/-- What was signed is found again behind a signature whose length fits into its field. -/
theorem strip_signed {md5 : List UInt8 → String} {privateEncrypt : List UInt8 → Option (List UInt8)} {random : UInt8}
    {data aksf : List UInt8} (h : buildAksf md5 privateEncrypt random data = some aksf) :
    stripAksf (aksf ++ data) = .ok data ↔ aksf.length < 2 ^ 32 + 12 := by
  obtain ⟨signed, -, haksf⟩ := Option.bind_eq_some_iff.1 h
  obtain rfl := Option.some.inj haksf
  have hlength :
    (writeUtf signHeader ++ (writeShort 1 ++ (writeInt (Int32.ofNat signed.length) ++ writeBytes signed))).length =
      12 + signed.length := by
    have hint : (writeInt (Int32.ofNat signed.length)).length = 4 := length_bigEndian ..
    have hshort : (writeShort 1).length = 2 := length_bigEndian ..
    simp only [List.length_append, hint, hshort, writeUtf_signHeader, List.length_cons, List.length_nil, writeBytes]
    omega
  have hassoc :
    writeUtf signHeader ++ (writeShort 1 ++ (writeInt (Int32.ofNat signed.length) ++ writeBytes signed)) ++ data =
      writeUtf signHeader ++ (writeShort 1 ++ (writeInt (Int32.ofNat signed.length) ++ (signed ++ data))) := by
    simp [writeBytes]
  have hle := Nat.mod_le signed.length (2 ^ 32)
  rw [hlength, hassoc, strip_field _ _ (by rw [List.length_append]; omega), Outcome.ok.injEq]
  constructor
  · intro hdrop
    have hdata := congrArg List.length hdrop
    rw [List.length_drop, List.length_append] at hdata
    have hlt := Nat.mod_lt signed.length (show 2 ^ 32 > 0 by decide)
    omega
  · intro hlt
    rw [Nat.mod_eq_of_lt (by omega), List.drop_left]

/-- Signing is undone if the signature is shorter than `2 ^ 32` bytes, and a file without a signature is spared if it
is long enough for a signature and for the string that it seems to start with. -/
theorem strip_iff (md5 : List UInt8 → String) (privateEncrypt : List UInt8 → Option (List UInt8)) (random : UInt8)
    (data : List UInt8) :
    (∀ aksf, buildAksf md5 privateEncrypt random data = some aksf →
      (stripAksf (aksf ++ data) = .ok data ↔ aksf.length < 2 ^ 32 + 12)) ∧
    (¬Signed data → (stripAksf data = .ok data ↔ 12 ≤ data.length ∧ utfLength data + 2 ≤ data.length)) :=
  ⟨fun _ h => strip_signed h, strip_unsigned⟩

/-- `<theme></theme>`. -/
def themeXml : List UInt8 := [60, 116, 104, 101, 109, 101, 62, 60, 47, 116, 104, 101, 109, 101, 62]

theorem strip_iff_theme :
    (stripAksf ([0, 4, 65, 75, 83, 70, 0, 1, 0, 0, 0, 3, 7, 8, 9] ++ themeXml) = .ok themeXml ↔
      [0, 4, 65, 75, 83, 70, 0, 1, 0, 0, 0, 3, 7, 8, (9 : UInt8)].length < 2 ^ 32 + 12) ∧
    (stripAksf themeXml = .ok themeXml ↔ 12 ≤ themeXml.length ∧ utfLength themeXml + 2 ≤ themeXml.length) :=
  have h := strip_iff (fun _ => "") (fun _ => some [7, 8, 9]) 5 themeXml
  ⟨h.1 _ (by decide +kernel), h.2 (by rw [Signed, writeUtf_signHeader]; decide)⟩

/-- A text that seems to start with a longer string is refused. -/
theorem strip_theme : ¬∀ data, ¬Signed data → stripAksf data = .ok data := by
  intro h
  have htheme := h themeXml (by rw [Signed, writeUtf_signHeader]; decide)
  exact absurd htheme (by decide +kernel)

end Otomai.GeneratorRsa
