import Otomai.DataReader.D2p
import Otomai.Wire.Ends
import Otomai.Wire.Slice

/-!
# Credentials

What the client encrypts for the auth server: the salt, padded with spaces, the key for the ticket, a certificate, the
name and the password.  The parser of `crypto.rs` skips the identifier of a certificate but not its hash, which it
takes for the name and the password.

* `parseCredentialBytes_eq`: the parser on every byte string that is long enough.
* `parse_layout_iff`: the credentials are parsed back unless there is a certificate with a hash.
-/

namespace Otomai.Auth

open Wire BigEndianWriter
open DataReader.World (fromUtf8Lossy lossyChars invalidLength)

/-! ### The parser -/

namespace Credentials

inductive Error where
  | decryption
  | tooShortForAesKey (len need : Nat)
  | tooShortForCertificate
  | tooShortForUsernameLength
  | tooShortForUsername (need len : Nat)
  | emptyUsername
  deriving DecidableEq, Repr

def Error.message : Error → String
  | decryption => "decryption error"
  | tooShortForAesKey len need =>
    "Decrypted data too short for AES key (len=" ++ toString len ++ ", need=" ++ toString need ++ ")"
  | tooShortForCertificate => "Decrypted data too short for certificate"
  | tooShortForUsernameLength => "Decrypted data too short for username length"
  | tooShortForUsername need len =>
    "Decrypted data too short for username (need=" ++ toString need ++ ", have=" ++ toString len ++ ")"
  | emptyUsername => "Empty username"

end Credentials

open Credentials

def saltMinLength : Nat := 32

def aesKeyLength : Nat := 32

/-- The offset behind the certificate; of it only the identifier is read. -/
def skipCertificate (decrypted : List UInt8) (offset : Nat) (hasCertificate : Bool) : Outcome Error Nat :=
  if hasCertificate then
    if decrypted.length < offset + 4 then .err .tooShortForCertificate
    else do
      let _certId ← slice decrypted offset (offset + 4)
      .ok (offset + 4)
  else .ok offset

/-- The name and the password that follow. -/
def parseUser (decrypted aesKey : List UInt8) (offset : Nat) : Outcome Error (String × String × List UInt8) :=
  if decrypted.length < offset + 1 then .err .tooShortForUsernameLength
  else do
    let usernameLen ← index decrypted offset
    let offset := offset + 1
    if decrypted.length < offset + usernameLen.toNat then
      .err (.tooShortForUsername (offset + usernameLen.toNat) decrypted.length)
    else do
      let username ← slice decrypted offset (offset + usernameLen.toNat)
      let username := fromUtf8Lossy username
      let offset := offset + usernameLen.toNat
      let password ← slice decrypted offset decrypted.length
      let password := fromUtf8Lossy password
      if username = "" then .err .emptyUsername else .ok (username, password, aesKey)

/-- The name, the password and the key in some decrypted bytes. -/
def parseCredentialBytes (decrypted : List UInt8) (salt : String) (hasCertificate : Bool) :
    Outcome Error (String × String × List UInt8) :=
  let offset := max (asBytes salt).length saltMinLength
  if decrypted.length < offset + aesKeyLength then .err (.tooShortForAesKey decrypted.length (offset + aesKeyLength))
  else do
    let aesKey ← slice decrypted offset (offset + aesKeyLength)
    let offset ← skipCertificate decrypted (offset + aesKeyLength) hasCertificate
    parseUser decrypted aesKey offset

/-- `decrypt_credentials`, for a decryption with the private key. -/
def decryptCredentials (decrypt : List UInt8 → Option (List UInt8)) (salt : String) (encrypted : List UInt8)
    (hasCertificate : Bool) : Outcome Error (String × String × List UInt8) :=
  match decrypt encrypted with
  | none => .err .decryption
  | some decrypted => parseCredentialBytes decrypted salt hasCertificate

/-! ### The documented layout -/

structure Certificate where
  id : UInt32
  hash : String
  deriving DecidableEq, Repr

/-- The salt, filled up with spaces. -/
def paddedSalt (salt : String) : List UInt8 :=
  asBytes salt ++ List.replicate (saltMinLength - (asBytes salt).length) 0x20

def certificateBytes : Option Certificate → List UInt8
  | none => []
  | some cert => writeUint cert.id ++ asBytes cert.hash

/-- What the client encrypts, as the documentation of `decrypt_credentials` says. -/
def layout (salt : String) (aesKey : List UInt8) (cert : Option Certificate) (username password : String) :
    List UInt8 :=
  paddedSalt salt ++ (aesKey ++ (certificateBytes cert ++
    UInt8.ofNat (asBytes username).length :: (asBytes username ++ asBytes password)))

/-! ### Strings that are not valid -/

theorem fromUtf8Lossy_asBytes (s : String) : fromUtf8Lossy (asBytes s) = s := by
  rw [fromUtf8Lossy, fromUTF8?_asBytes]

theorem invalidLength_bounds (v : List UInt8) : 1 ≤ invalidLength v ∧ invalidLength v ≤ 3 := by
  have hsecond {second : Bool} {n : Nat} (hn : 1 ≤ n ∧ n ≤ 3) :
      1 ≤ (if second then n else 1) ∧ (if second then n else 1) ≤ 3 := by
    cases second with
    | false => simp
    | true => simpa using hn
  rcases v with _ | ⟨b₀, _ | ⟨b₁, rest⟩⟩
  · simp [invalidLength]
  · simp [invalidLength]
  · refine hsecond ?_
    cases rest with
    | nil => simp
    | cons b₂ rest =>
      dsimp only
      split <;> decide

theorem length_asBytes_ofList (l : List Char) : (asBytes (String.ofList l)).length = (l.map Char.utf8Size).sum := by
  have hbytes : asBytes (String.ofList l) = l.flatMap String.utf8EncodeChar := by
    rw [asBytes, String.toByteArray_ofList, List.utf8Encode, List.data_toByteArray]
  rw [hbytes, List.length_flatMap]
  congr 1
  exact List.map_congr_left fun c _ => String.length_utf8EncodeChar c

/-- A replacement character is not shorter than what it replaces. -/
theorem length_lossyChars (fuel : Nat) (v : List UInt8) (h : v.length ≤ fuel) :
    v.length ≤ ((lossyChars fuel v).map Char.utf8Size).sum := by
  induction fuel generalizing v with
  | zero => omega
  | succ fuel ih =>
    rw [lossyChars]
    by_cases hv : v = []
    · rw [hv]
      exact Nat.zero_le _
    · rw [if_neg hv]
      have hpos : 0 < v.length := List.length_pos_of_ne_nil hv
      cases (⟨v.toArray⟩ : ByteArray).utf8DecodeChar? 0 with
      | some c =>
        have hc := c.utf8Size_pos
        have hrest := ih (v.drop c.utf8Size) (by rw [List.length_drop]; omega)
        rw [List.length_drop] at hrest
        rw [List.map_cons, List.sum_cons]
        omega
      | none =>
        have hbounds := invalidLength_bounds v
        have hsize : Char.utf8Size '\uFFFD' = 3 := by decide
        have hrest := ih (v.drop (invalidLength v)) (by rw [List.length_drop]; omega)
        rw [List.length_drop] at hrest
        rw [List.map_cons, List.sum_cons, hsize]
        omega

theorem length_fromUtf8Lossy (v : List UInt8) : v.length ≤ (asBytes (fromUtf8Lossy v)).length := by
  unfold fromUtf8Lossy String.fromUTF8?
  by_cases hvalid : (⟨v.toArray⟩ : ByteArray).IsValidUTF8
  · rw [dif_pos hvalid]
    exact Nat.le_refl _
  · rw [dif_neg hvalid]
    dsimp only
    rw [length_asBytes_ofList]
    exact length_lossyChars v.length v (Nat.le_refl _)

/-! ### What is parsed -/

/-- What comes of a name and a password. -/
def user (username password aesKey : List UInt8) : Outcome Error (String × String × List UInt8) :=
  if fromUtf8Lossy username = "" then .err .emptyUsername
  else .ok (fromUtf8Lossy username, fromUtf8Lossy password, aesKey)

theorem parseUser_eq {a u p aesKey : List UInt8} {n : UInt8} {offset : Nat} (ha : a.length = offset)
    (hu : u.length = n.toNat) : parseUser (a ++ n :: (u ++ p)) aesKey offset = user u p aesKey := by
  have hlength : (a ++ n :: (u ++ p)).length = offset + 1 + n.toNat + p.length := by
    simp only [List.length_append, List.length_cons]
    omega
  have hbefore : (a ++ [n]).length = offset + 1 := by rw [List.length_append, ha, List.length_singleton]
  have hname : slice (a ++ n :: (u ++ p)) (offset + 1) (offset + 1 + n.toNat) =
      (.ok u : Outcome Error (List UInt8)) :=
    @slice_eq _ _ (a ++ [n]) u p _ _ (by simp) hbefore (by rw [hu])
  have hpassword : slice (a ++ n :: (u ++ p)) (offset + 1 + n.toNat) (offset + 1 + n.toNat + p.length) =
      (.ok p : Outcome Error (List UInt8)) :=
    @slice_eq _ _ (a ++ n :: u) p [] _ _ (by simp)
      (by rw [← hu, ← ha, List.length_append, List.length_cons]; omega) rfl
  unfold parseUser
  rw [hlength, if_neg (by omega), index_eq rfl ha, Outcome.ok_bind]
  dsimp only
  rw [if_neg (by omega), hname, Outcome.ok_bind, hpassword]
  rfl

/-- Bytes that are not told apart in this way are refused. -/
theorem parseUser_cases (decrypted aesKey : List UInt8) (offset : Nat) :
    (∃ e, parseUser decrypted aesKey offset = .err e) ∨
      ∃ a n u p, decrypted = a ++ n :: (u ++ p) ∧ a.length = offset ∧ u.length = n.toNat := by
  by_cases hlen : decrypted.length < offset + 1
  · exact .inl ⟨_, by rw [parseUser, if_pos hlen]⟩
  obtain ⟨a, r, rfl, ha⟩ := exists_split (show offset ≤ decrypted.length by omega)
  cases r with
  | nil =>
    rw [List.append_nil] at hlen
    omega
  | cons n r =>
    by_cases hname : (a ++ n :: r).length < offset + 1 + n.toNat
    · refine .inl ⟨.tooShortForUsername (offset + 1 + n.toNat) (a ++ n :: r).length, ?_⟩
      rw [parseUser, if_neg hlen, index_eq rfl ha, Outcome.ok_bind]
      exact if_pos hname
    · rw [List.length_append, List.length_cons] at hname
      obtain ⟨u, p, rfl, hu⟩ := exists_split (show n.toNat ≤ r.length by omega)
      exact .inr ⟨a, n, u, p, rfl, ha, hu⟩

/-- The parts of decrypted credentials as the parser tells them apart. -/
structure Parts (decrypted : List UInt8) (salt : String) (hasCertificate : Bool) (k u p : List UInt8) : Prop where
  split : ∃ s c n, decrypted = s ++ (k ++ (c ++ n :: (u ++ p))) ∧ s.length = max (asBytes salt).length saltMinLength ∧
    c.length = (if hasCertificate then 4 else 0) ∧ u.length = n.toNat
  key : k.length = aesKeyLength

theorem skipCertificate_eq {b c r : List UInt8} {hasCertificate : Bool} {offset : Nat} (hb : b.length = offset)
    (hc : c.length = if hasCertificate then 4 else 0) :
    skipCertificate (b ++ (c ++ r)) offset hasCertificate = .ok (offset + c.length) := by
  unfold skipCertificate
  cases hasCertificate with
  | false =>
    rw [hc]
    rfl
  | true =>
    have hfour : c.length = 4 := hc
    have hlong : ¬(b ++ (c ++ r)).length < offset + 4 := by
      simp only [List.length_append]
      omega
    rw [if_pos rfl, if_neg hlong, slice_eq rfl hb (by rw [hfour]), hfour]
    rfl

theorem parseCredentialBytes_eq {decrypted k u p : List UInt8} {salt : String} {hasCertificate : Bool}
    (h : Parts decrypted salt hasCertificate k u p) :
    parseCredentialBytes decrypted salt hasCertificate = user u p k := by
  obtain ⟨⟨s, c, n, rfl, hs, hc, hu⟩, hk⟩ := h
  have hlong : ¬(s ++ (k ++ (c ++ n :: (u ++ p)))).length < s.length + aesKeyLength := by
    simp only [List.length_append]
    omega
  have hafter : (s ++ k).length = s.length + aesKeyLength := by rw [List.length_append, hk]
  have hcertificate : skipCertificate (s ++ (k ++ (c ++ n :: (u ++ p)))) (s.length + aesKeyLength) hasCertificate =
      .ok (s.length + aesKeyLength + c.length) := by
    rw [← List.append_assoc]
    exact skipCertificate_eq hafter hc
  unfold parseCredentialBytes
  dsimp only
  rw [← hs, if_neg hlong, slice_eq rfl rfl (by rw [hk]), Outcome.ok_bind, hcertificate, Outcome.ok_bind]
  have hsplit : s ++ (k ++ (c ++ n :: (u ++ p))) = (s ++ (k ++ c)) ++ n :: (u ++ p) := by simp
  rw [hsplit]
  refine parseUser_eq ?_ hu
  rw [List.length_append, List.length_append, hk, Nat.add_assoc]

/-- Decrypted bytes that do not have the parts of credentials are refused. -/
theorem parseCredentialBytes_cases (decrypted : List UInt8) (salt : String) (hasCertificate : Bool) :
    (∃ e, parseCredentialBytes decrypted salt hasCertificate = .err e) ∨
      ∃ k u p, Parts decrypted salt hasCertificate k u p := by
  by_cases hlen : decrypted.length < max (asBytes salt).length saltMinLength + aesKeyLength
  · exact .inl ⟨_, if_pos hlen⟩
  obtain ⟨s, r, rfl, hs⟩ := exists_split (show max (asBytes salt).length saltMinLength ≤ decrypted.length by omega)
  rw [List.length_append] at hlen
  obtain ⟨k, r, rfl, hk⟩ := exists_split (show aesKeyLength ≤ r.length by omega)
  have hkey : slice (s ++ (k ++ r)) (max (asBytes salt).length saltMinLength)
      (max (asBytes salt).length saltMinLength + aesKeyLength) = (.ok k : Outcome Error (List UInt8)) :=
    slice_eq rfl hs (by rw [hk])
  have hafter : (s ++ k).length = max (asBytes salt).length saltMinLength + aesKeyLength := by
    rw [List.length_append, hs, hk]
  have hparse : parseCredentialBytes (s ++ (k ++ r)) salt hasCertificate =
      skipCertificate (s ++ (k ++ r)) (max (asBytes salt).length saltMinLength + aesKeyLength) hasCertificate >>=
        fun offset => parseUser (s ++ (k ++ r)) k offset := by
    unfold parseCredentialBytes
    dsimp only
    rw [if_neg (by rw [List.length_append]; exact hlen), hkey]
    rfl
  rw [hparse]
  by_cases hshort : r.length < if hasCertificate then 4 else 0
  · left
    cases hasCertificate with
    | false => cases hshort
    | true =>
      have hfew : (s ++ (k ++ r)).length < max (asBytes salt).length saltMinLength + aesKeyLength + 4 := by
        rw [← List.append_assoc, List.length_append, hafter]
        exact Nat.add_lt_add_left hshort _
      exact ⟨.tooShortForCertificate, by rw [skipCertificate, if_pos rfl, if_pos hfew]; rfl⟩
  · obtain ⟨c, r, rfl, hc⟩ := exists_split (Nat.not_lt.1 hshort)
    have hskip := @skipCertificate_eq (s ++ k) c r hasCertificate _ hafter hc
    rw [List.append_assoc] at hskip
    rw [hskip, Outcome.ok_bind]
    rcases parseUser_cases (s ++ (k ++ (c ++ r))) k
      (max (asBytes salt).length saltMinLength + aesKeyLength + c.length) with
      herr | ⟨a, n, u, p, hsplit, ha, hu⟩
    · exact .inl herr
    · have hthree : s ++ (k ++ (c ++ r)) = (s ++ (k ++ c)) ++ r := by simp
      have hlength : (s ++ (k ++ c)).length = a.length := by
        rw [ha, List.length_append, List.length_append, hs, hk, Nat.add_assoc]
      rw [hthree] at hsplit
      obtain ⟨-, rfl⟩ := List.append_inj hsplit hlength
      exact .inr ⟨k, u, p, ⟨s, c, n, rfl, hs, hc, hu⟩, hk⟩

theorem ends_parseCredentialBytes (decrypted : List UInt8) (salt : String) (hasCertificate : Bool) :
    (parseCredentialBytes decrypted salt hasCertificate).Ends := by
  rcases parseCredentialBytes_cases decrypted salt hasCertificate with ⟨e, he⟩ | ⟨k, u, p, hparts⟩
  · rw [he]
    trivial
  · rw [parseCredentialBytes_eq hparts, user]
    split_ifs <;> trivial

/-! ### What the client encrypted -/

theorem length_paddedSalt (salt : String) : (paddedSalt salt).length = max (asBytes salt).length saltMinLength := by
  rw [paddedSalt, List.length_append, List.length_replicate]
  omega

theorem eq_empty_of_length {s : String} (h : (asBytes s).length = 0) : s = "" := by
  rw [← fromUtf8Lossy_asBytes s, List.length_eq_zero_iff.1 h]
  rfl

theorem parts_layout {salt username password : String} {aesKey : List UInt8} {cert : Option Certificate}
    (hkey : aesKey.length = 32) (hname : (asBytes username).length ≤ 255) (hcert : ∀ c ∈ cert, c.hash = "") :
    Parts (layout salt aesKey cert username password) salt cert.isSome aesKey (asBytes username)
      (asBytes password) := by
  refine ⟨⟨paddedSalt salt, certificateBytes cert, _, rfl, length_paddedSalt salt, ?_, ?_⟩, hkey⟩
  · cases cert with
    | none => rfl
    | some cert =>
      rw [certificateBytes, hcert cert rfl, writeUint, List.length_append, length_bigEndian]
      rfl
  · rw [UInt8.toNat_ofNat_of_lt' (by show _ < 256; omega)]

/-- The credentials that the client encrypted are what is parsed unless they come with the hash of a certificate, and
all bytes are answered. -/
theorem parse_layout_iff (salt : String) (aesKey : List UInt8) (cert : Option Certificate)
    (username password : String)
    (hkey : aesKey.length = 32) (hpos : 1 ≤ (asBytes username).length) (hname : (asBytes username).length ≤ 255) :
    (parseCredentialBytes (layout salt aesKey cert username password) salt cert.isSome =
      .ok (username, password, aesKey) ↔ ∀ c ∈ cert, c.hash = "") ∧
    ∀ decrypted salt hasCertificate, (parseCredentialBytes decrypted salt hasCertificate).Ends := by
  refine ⟨?_, ends_parseCredentialBytes⟩
  constructor
  · intro h c hc
    obtain rfl := Option.mem_def.1 hc
    rcases parseCredentialBytes_cases (layout salt aesKey (some c) username password) salt true with
      ⟨e, he⟩ | ⟨k, u, p, hparts⟩
    · rw [Option.isSome_some, he] at h
      cases h
    rw [Option.isSome_some, parseCredentialBytes_eq hparts, user] at h
    by_cases hempty : fromUtf8Lossy u = ""
    · rw [if_pos hempty] at h
      cases h
    rw [if_neg hempty, Outcome.ok.injEq, Prod.mk.injEq, Prod.mk.injEq] at h
    obtain ⟨rfl, rfl, rfl⟩ := h
    obtain ⟨⟨s, c', n, hsplit, hs, hc', -⟩, -⟩ := hparts
    -- a replacement only adds bytes, so nothing is left for the hash
    have hlength := congrArg List.length hsplit
    have hu := length_fromUtf8Lossy u
    have hp := length_fromUtf8Lossy p
    have hid : (writeUint c.id).length = 4 := length_bigEndian ..
    rw [layout, certificateBytes] at hlength
    simp only [List.length_append, List.length_cons, length_paddedSalt, hs, hc', hid, if_true] at hlength
    refine eq_empty_of_length ?_
    omega
  · intro hcert
    have hnonempty : username ≠ "" := by
      rintro rfl
      exact absurd hpos (by decide)
    rw [parseCredentialBytes_eq (parts_layout hkey hname hcert), user, fromUtf8Lossy_asBytes, fromUtf8Lossy_asBytes,
      if_neg hnonempty]

theorem parse_layout_iff_admin :
    (parseCredentialBytes (layout "short" (List.replicate 32 0xAA) (some ⟨12345, ""⟩) "admin" "secret123")
      "short" true =
      .ok ("admin", "secret123", List.replicate 32 0xAA) ↔ ∀ c ∈ some (Certificate.mk 12345 ""), c.hash = "") ∧
    (parseCredentialBytes [] "short" true).Ends :=
  have h := parse_layout_iff "short" (List.replicate 32 0xAA) (some ⟨12345, ""⟩) "admin" "secret123"
    (by decide +kernel)
    (by decide +kernel) (by decide +kernel)
  ⟨h.1, h.2 [] "short" true⟩

/-- The hash of a certificate is taken for the name. -/
theorem hash_taken_for_name :
    ¬∀ salt aesKey cert username password, aesKey.length = 32 → 1 ≤ (asBytes username).length →
      (asBytes username).length ≤ 255 →
      parseCredentialBytes (layout salt aesKey cert username password) salt cert.isSome =
        .ok (username, password, aesKey) := by
  intro h
  have hparse := h "short" (List.replicate 32 0xAA) (some ⟨12345, "0f"⟩) "admin" "secret123" (by decide +kernel)
    (by decide +kernel) (by decide +kernel)
  rw [Option.isSome_some] at hparse
  exact absurd hparse (by decide +kernel)

end Otomai.Auth
