import PyWhats.AppState

/-! Attachments (`media/crypto.py`, `media/upload.py`): encryption and decryption. -/

namespace PyWhats.Media

open AppState (Libraries hkdfExpand demoLibraries)

def macLength : Nat := 10

inductive MediaFailure where
  | valueError (message : String)
  | encSha256Mismatch (message : String)
  | hmacMismatch (message : String)
  | sha256Mismatch (message : String)
  deriving DecidableEq

structure MediaKeys where
  iv : Bytes
  cipherKey : Bytes
  macKey : Bytes
  refKey : Bytes

structure EncryptedMedia where
  encData : Bytes
  mediaKey : Bytes
  fileEncSha256 : Bytes
  fileSha256 : Bytes
  fileLength : Nat

section Pipeline

variable (L : Libraries) (sha256 : Bytes → Bytes)

def deriveMediaKeys (mediaKey : Bytes) (mediaType : String) : MediaKeys :=
  let okm := hkdfExpand L mediaKey (Binary.utf8Encode mediaType) 112
  { iv := okm.take 16
    cipherKey := (okm.drop 16).take 32
    macKey := (okm.drop 48).take 32
    refKey := (okm.drop 80).take 32 }

def aesCbcDecrypt (key iv ciphertext : Bytes) : Except MediaFailure Bytes :=
  if ciphertext = [] ∨ ciphertext.length % 16 ≠ 0 then
    .error (.valueError
      ("ciphertext is not a multiple of the block size: " ++ toString ciphertext.length))
  else
    match L.primitives.aesCbcDecrypt key iv ciphertext with
    | none => .error (.valueError "Invalid key size for AES.")
    | some padded =>
      let pad := (padded.getLast?.getD 0).toNat
      if pad < 1 ∨ pad > 16 ∨ pad > padded.length then
        .error (.valueError "invalid PKCS#7 padding")
      else if padded.drop (padded.length - pad) ≠ List.replicate pad (Binary.byte pad) then
        .error (.valueError "invalid PKCS#7 padding")
      else .ok (padded.take (padded.length - pad))

def fileMac (keys : MediaKeys) (ciphertext : Bytes) : Bytes :=
  (L.primitives.hmac keys.macKey (keys.iv ++ ciphertext)).take macLength

/-- A hash that is empty is not compared. -/
def decryptMedia (encFile mediaKey : Bytes) (mediaType : String)
    (fileEncSha256 fileSha256 : Bytes) : Except MediaFailure Bytes :=
  if encFile.length ≤ macLength then
    .error (.valueError ("media file too short: " ++ toString encFile.length ++ " bytes"))
  else if fileEncSha256 ≠ [] ∧ sha256 encFile ≠ fileEncSha256 then
    .error (.encSha256Mismatch "downloaded media enc-SHA256 mismatch")
  else
    let ciphertext := encFile.take (encFile.length - macLength)
    let mac := encFile.drop (encFile.length - macLength)
    let keys := deriveMediaKeys L mediaKey mediaType
    if fileMac L keys ciphertext ≠ mac then .error (.hmacMismatch "media HMAC mismatch")
    else do
      let plaintext ← aesCbcDecrypt L keys.cipherKey keys.iv ciphertext
      if fileSha256 ≠ [] ∧ sha256 plaintext ≠ fileSha256 then
        .error (.sha256Mismatch "decrypted media SHA256 mismatch")
      else return plaintext

/-- `token` is what `secrets.token_bytes(32)` would draw. -/
def encryptMedia (token plaintext : Bytes) (mediaType : String) (mediaKey : Option Bytes) :
    EncryptedMedia :=
  let mediaKey := mediaKey.getD token
  let keys := deriveMediaKeys L mediaKey mediaType
  let ciphertext := L.primitives.aesCbcEncrypt keys.cipherKey keys.iv (pkcs7Pad plaintext)
  let encData := ciphertext ++ fileMac L keys ciphertext
  { encData := encData
    mediaKey := mediaKey
    fileEncSha256 := sha256 encData
    fileSha256 := sha256 plaintext
    fileLength := plaintext.length }

end Pipeline

/-- What is relied on: HKDF returns as many bytes as are asked for and HMAC-SHA256 32 of them,
and under a key of 32 bytes and an IV of 16 AES-CBC is a bijection of the strings of whole
blocks that keeps their length. -/
structure Lawful (P : Primitives) : Prop where
  hkdf_length : ∀ n salt info ikm, (P.hkdf n salt info ikm).length = n
  hmac_length : ∀ key data, (P.hmac key data).length = 32
  encrypt_length : ∀ key iv data : Bytes, key.length = 32 → iv.length = 16 →
    data.length % 16 = 0 → (P.aesCbcEncrypt key iv data).length = data.length
  decrypt_length : ∀ key iv ciphertext data : Bytes, key.length = 32 → iv.length = 16 →
    ciphertext.length % 16 = 0 → P.aesCbcDecrypt key iv ciphertext = some data →
      data.length = ciphertext.length
  decrypt_iff : ∀ key iv ciphertext data : Bytes, key.length = 32 → iv.length = 16 →
    ciphertext.length % 16 = 0 → data.length % 16 = 0 →
      (P.aesCbcDecrypt key iv ciphertext = some data ↔ P.aesCbcEncrypt key iv data = ciphertext)

section Padding

/-- The last byte says how many of its kind are at the end. -/
def Padded (padded data : Bytes) : Prop :=
  ∃ pad, 1 ≤ pad ∧ pad ≤ 16 ∧ padded = data ++ List.replicate pad (Binary.byte pad)

theorem padded_pkcs7Pad (data : Bytes) : Padded (pkcs7Pad data) data :=
  ⟨16 - data.length % 16, by omega, by omega, rfl⟩

/-- Of the paddings of a string one makes whole blocks. -/
theorem Padded.eq {padded data : Bytes} (h : Padded padded data)
    (hlength : padded.length % 16 = 0) : padded = pkcs7Pad data := by
  obtain ⟨pad, hpos, hle, rfl⟩ := h
  rw [List.length_append, List.length_replicate] at hlength
  have hpad : pad = 16 - data.length % 16 := by omega
  rw [hpad]
  rfl

theorem pkcs7Pad_ne_nil (data : Bytes) : pkcs7Pad data ≠ [] := by
  obtain ⟨pad, hpos, -, hpad⟩ := padded_pkcs7Pad data
  intro hnil
  have hlength := congrArg List.length (hpad.symm.trans hnil)
  rw [List.length_append, List.length_replicate, List.length_nil] at hlength
  omega

end Padding

section Decryption

variable {L : Libraries} {key iv ciphertext padded plaintext : Bytes}

/-- The checks accept one padding and take it off. -/
theorem aesCbcDecrypt_ok_iff (hblocks : ciphertext.length % 16 = 0) (hne : ciphertext ≠ [])
    (h : L.primitives.aesCbcDecrypt key iv ciphertext = some padded) :
    aesCbcDecrypt L key iv ciphertext = .ok plaintext ↔ Padded padded plaintext := by
  have hguard : ¬ (ciphertext = [] ∨ ciphertext.length % 16 ≠ 0) := by
    rw [not_or, not_not]
    exact ⟨hne, hblocks⟩
  rw [aesCbcDecrypt, if_neg hguard, h]
  simp only
  constructor
  · intro hok
    split at hok
    · cases hok
    split at hok
    · cases hok
    · rename_i hrange hdrop
      cases hok
      refine ⟨(padded.getLast?.getD 0).toNat, by omega, by omega, ?_⟩
      rw [← not_not.mp hdrop, List.take_append_drop]
  · rintro ⟨pad, hpos, hle, rfl⟩
    have hlast : (plaintext ++ List.replicate pad (Binary.byte pad)).getLast?.getD 0 =
        Binary.byte pad := by
      obtain ⟨n, rfl⟩ : ∃ n, pad = n + 1 := ⟨pad - 1, by omega⟩
      simp [List.replicate_succ']
    have hcount : (Binary.byte pad).toNat = pad := Binary.byte_toNat (by omega)
    have hlength : (plaintext ++ List.replicate pad (Binary.byte pad)).length - pad =
        plaintext.length := by
      rw [List.length_append, List.length_replicate, Nat.add_sub_cancel]
    have hrange : ¬ (pad < 1 ∨ pad > 16 ∨
        pad > (plaintext ++ List.replicate pad (Binary.byte pad)).length) := by
      rw [List.length_append, List.length_replicate]
      omega
    rw [hlast, hcount, if_neg hrange, hlength, List.drop_left, if_neg (not_not.mpr rfl),
      List.take_left]

theorem aesCbcDecrypt_blocks (h : aesCbcDecrypt L key iv ciphertext = .ok plaintext) :
    ciphertext ≠ [] ∧ ciphertext.length % 16 = 0 ∧
      ∃ padded, L.primitives.aesCbcDecrypt key iv ciphertext = some padded := by
  rw [aesCbcDecrypt] at h
  split at h
  · cases h
  · rename_i hguard
    rw [not_or, not_not] at hguard
    refine ⟨hguard.1, hguard.2, ?_⟩
    cases hdecrypt : L.primitives.aesCbcDecrypt key iv ciphertext with
    | none =>
      rw [hdecrypt] at h
      cases h
    | some padded => exact ⟨padded, rfl⟩

/-- A ciphertext decrypts to the plaintext that it is the encryption of. -/
theorem aesCbcDecrypt_iff (hL : Lawful L.primitives) (hkey : key.length = 32)
    (hiv : iv.length = 16) :
    aesCbcDecrypt L key iv ciphertext = .ok plaintext ↔
      L.primitives.aesCbcEncrypt key iv (pkcs7Pad plaintext) = ciphertext := by
  have hpadded := pkcs7Pad_length_mod plaintext
  constructor
  · intro h
    obtain ⟨hne, hblocks, padded, hdecrypt⟩ := aesCbcDecrypt_blocks h
    have hlength := hL.decrypt_length key iv ciphertext padded hkey hiv hblocks hdecrypt
    have heq := ((aesCbcDecrypt_ok_iff hblocks hne hdecrypt).mp h).eq (hlength ▸ hblocks)
    rw [heq] at hdecrypt
    exact (hL.decrypt_iff key iv ciphertext _ hkey hiv hblocks hpadded).mp hdecrypt
  · rintro rfl
    have hlength := hL.encrypt_length key iv (pkcs7Pad plaintext) hkey hiv hpadded
    have hblocks : (L.primitives.aesCbcEncrypt key iv (pkcs7Pad plaintext)).length % 16 = 0 :=
      hlength ▸ hpadded
    have hne : L.primitives.aesCbcEncrypt key iv (pkcs7Pad plaintext) ≠ [] := by
      intro hnil
      rw [hnil] at hlength
      exact pkcs7Pad_ne_nil plaintext (List.length_eq_zero_iff.mp hlength.symm)
    have hdecrypt := (hL.decrypt_iff key iv _ _ hkey hiv hblocks hpadded).mpr rfl
    exact (aesCbcDecrypt_ok_iff hblocks hne hdecrypt).mpr (padded_pkcs7Pad plaintext)

end Decryption

section Files

variable {L : Libraries} {sha256 : Bytes → Bytes}

theorem mediaKeys_length (hL : Lawful L.primitives) (mediaKey : Bytes) (mediaType : String) :
    (deriveMediaKeys L mediaKey mediaType).iv.length = 16 ∧
      (deriveMediaKeys L mediaKey mediaType).cipherKey.length = 32 := by
  have hokm : (hkdfExpand L mediaKey (Binary.utf8Encode mediaType) 112).length = 112 :=
    hL.hkdf_length _ _ _ _
  simp only [deriveMediaKeys, List.length_take, List.length_drop, hokm]
  decide

theorem fileMac_length (hL : Lawful L.primitives) (keys : MediaKeys) (ciphertext : Bytes) :
    (fileMac L keys ciphertext).length = macLength := by
  rw [fileMac, List.length_take, hL.hmac_length]
  rfl

theorem guard_ok_iff {α : Type} {c : Prop} [Decidable c] {e : MediaFailure}
    {x : Except MediaFailure α} {a : α} :
    (if c then .error e else x) = .ok a ↔ ¬ c ∧ x = .ok a := by
  by_cases hc : c
  · rw [if_pos hc]
    exact iff_of_false (fun h => by cases h) fun h => h.1 hc
  · rw [if_neg hc, and_iff_right hc]

theorem decryptMedia_ok_iff {file mediaKey plaintext encHash hash : Bytes} {mediaType : String} :
    decryptMedia L sha256 file mediaKey mediaType encHash hash = .ok plaintext ↔
      macLength < file.length ∧ (encHash = [] ∨ sha256 file = encHash) ∧
      fileMac L (deriveMediaKeys L mediaKey mediaType) (file.take (file.length - macLength)) =
        file.drop (file.length - macLength) ∧
      aesCbcDecrypt L (deriveMediaKeys L mediaKey mediaType).cipherKey
        (deriveMediaKeys L mediaKey mediaType).iv (file.take (file.length - macLength)) =
          .ok plaintext ∧
      (hash = [] ∨ sha256 plaintext = hash) := by
  rw [decryptMedia, guard_ok_iff, guard_ok_iff, guard_ok_iff, Nat.not_le, not_and_or, not_not,
    not_not, not_not]
  refine and_congr_right fun _ => and_congr_right fun _ => and_congr_right fun _ => ?_
  cases hdecrypt : aesCbcDecrypt L (deriveMediaKeys L mediaKey mediaType).cipherKey
      (deriveMediaKeys L mediaKey mediaType).iv (file.take (file.length - macLength)) with
  | error e => exact iff_of_false (fun h => by cases h) fun h => by cases h.1
  | ok data =>
    have hrun : ∀ x : Bytes → Except MediaFailure Bytes, (Except.ok data >>= x) = x data :=
      fun _ => rfl
    rw [hrun, guard_ok_iff, not_and_or, not_not, not_not]
    constructor
    · rintro ⟨hhash, hdata⟩
      cases hdata
      exact ⟨rfl, hhash⟩
    · rintro ⟨hdata, hhash⟩
      cases hdata
      exact ⟨hhash, rfl⟩

/-- Decryption inverts encryption, and gives back nothing that was not encrypted so. -/
theorem media_invertible (hL : Lawful L.primitives) (mediaKey : Bytes) (mediaType : String) :
    (∀ token plaintext,
      let media := encryptMedia L sha256 token plaintext mediaType (some mediaKey)
      decryptMedia L sha256 media.encData mediaKey mediaType media.fileEncSha256
        media.fileSha256 = .ok plaintext) ∧
    ∀ file encHash hash plaintext,
      decryptMedia L sha256 file mediaKey mediaType encHash hash = .ok plaintext →
        ∀ token, file = (encryptMedia L sha256 token plaintext mediaType (some mediaKey)).encData := by
  obtain ⟨hiv, hkey⟩ := mediaKeys_length hL mediaKey mediaType
  constructor
  · intro token plaintext
    have hmac := fileMac_length hL (deriveMediaKeys L mediaKey mediaType)
    have hcut : ∀ ciphertext : Bytes, (ciphertext ++
        fileMac L (deriveMediaKeys L mediaKey mediaType) ciphertext).length - macLength =
          ciphertext.length := by
      intro ciphertext
      rw [List.length_append, hmac, Nat.add_sub_cancel]
    have hlength := hL.encrypt_length _ _ (pkcs7Pad plaintext) hkey hiv (pkcs7Pad_length_mod _)
    have hpos := List.length_pos_iff.mpr (pkcs7Pad_ne_nil plaintext)
    refine decryptMedia_ok_iff.mpr ⟨?_, .inr rfl, ?_, ?_, .inr rfl⟩
    · simp only [encryptMedia, Option.getD_some, List.length_append, hmac]
      omega
    · simp only [encryptMedia, Option.getD_some, hcut, List.take_left, List.drop_left]
    · simp only [encryptMedia, Option.getD_some, hcut, List.take_left]
      exact (aesCbcDecrypt_iff hL hkey hiv).mpr rfl
  · intro file encHash hash plaintext h token
    obtain ⟨-, -, hmac, hdecrypt, -⟩ := decryptMedia_ok_iff.mp h
    have hciphertext := (aesCbcDecrypt_iff hL hkey hiv).mp hdecrypt
    simp only [encryptMedia, Option.getD_some]
    rw [hciphertext, hmac, List.take_append_drop]

end Files

section Demo

theorem demoLibraries_lawful : Lawful demoLibraries.primitives where
  hkdf_length := demoPrimitives_lawful.hkdf_length
  hmac_length := demoPrimitives_lawful.hmac_length
  encrypt_length _ _ _ _ _ _ := rfl
  decrypt_length _ _ ciphertext data _ _ hblocks h := by
    have hsame : some ciphertext = some data := (if_pos hblocks).symm.trans h
    rw [Option.some.inj hsame]
  decrypt_iff _ _ ciphertext data _ _ hblocks _ := by
    have hsame : (if ciphertext.length % 16 = 0 then some ciphertext else none) = some data ↔
        data = ciphertext := by
      rw [if_pos hblocks, Option.some.injEq, eq_comm]
    exact hsame

def demoMediaKey : Bytes := (List.range 32).map UInt8.ofNat

/-- Whole blocks are padded by a further one. -/
def twoBlocks : Bytes := List.replicate 32 7

theorem media_invertible_two_blocks :
    let media := encryptMedia demoLibraries (demoDigest 32) [] twoBlocks "WhatsApp Image Keys"
      (some demoMediaKey)
    decryptMedia demoLibraries (demoDigest 32) media.encData demoMediaKey "WhatsApp Image Keys"
        media.fileEncSha256 media.fileSha256 = .ok twoBlocks ∧
      ∀ file plaintext, decryptMedia demoLibraries (demoDigest 32) file demoMediaKey
        "WhatsApp Image Keys" [] [] = .ok plaintext → file = (encryptMedia demoLibraries
          (demoDigest 32) [] plaintext "WhatsApp Image Keys" (some demoMediaKey)).encData := by
  have hinvertible := @media_invertible _ (demoDigest 32) demoLibraries_lawful demoMediaKey
    "WhatsApp Image Keys"
  obtain ⟨hthere, hback⟩ := hinvertible
  exact ⟨hthere [] twoBlocks, fun file plaintext h => hback file [] [] plaintext h []⟩

example : (encryptMedia demoLibraries (demoDigest 32) [] twoBlocks "WhatsApp Image Keys"
    (some demoMediaKey)).encData.length = 48 + macLength := by decide +kernel

end Demo

end PyWhats.Media
