import Mathlib.Data.List.Basic

/-! The primitives that the Signal code takes from the `cryptography` package,
as a parameter of the model, and what is documented about them. Byte strings
are lists of bytes; a call that raises returns `none`. -/

namespace PyWhats

abbrev Bytes := List UInt8

instance : LawfulBEq Bytes := inferInstance

inductive PyError where
  | signalCryptoError (message : String)
  | senderKeyError (message : String)
  | invalidSenderKeySignature (message : String)
  | pairingFailed (message : String)
  | valueError (message : String)
  | runtimeError (message : String)
  | assertionError
  | timeoutError
  | connectionError (message : String)
  | cancelledError
  deriving DecidableEq, Repr

def PyError.text : PyError → String
  | .signalCryptoError m | .senderKeyError m | .invalidSenderKeySignature m | .pairingFailed m
  | .valueError m | .runtimeError m | .connectionError m => m
  | .assertionError | .timeoutError | .cancelledError => ""

/-- What `except Exception` catches. -/
def PyError.isException : PyError → Bool
  | .cancelledError => false
  | _ => true

structure Primitives where
  x25519Public : Bytes → Bytes
  x25519Exchange : Bytes → Bytes → Option Bytes
  hkdf : (length : Nat) → (salt info ikm : Bytes) → Bytes
  hmac : (key data : Bytes) → Bytes
  aesCbcEncrypt : (key iv data : Bytes) → Bytes
  aesCbcDecrypt : (key iv data : Bytes) → Option Bytes
  xeddsaSign : (priv message nonce : Bytes) → Bytes
  xeddsaVerify : (pub message signature : Bytes) → Bool

/-- The output of `X25519PrivateKey.generate`: 32 raw private bytes and the
public key that belongs to them. -/
structure KeyPair (P : Primitives) where
  priv : Bytes
  pub : Bytes
  priv_length : priv.length = 32
  pub_eq : pub = P.x25519Public priv

/-- What the code relies on: X25519 agreement is symmetric and never fails on
generated keys, HKDF returns the requested length and HMAC-SHA256 a digest of 32
bytes, and AES-CBC decryption inverts encryption of whole blocks. -/
structure Primitives.Lawful (P : Primitives) : Prop where
  public_length : ∀ a : KeyPair P, a.pub.length = 32
  exchange_comm : ∀ a b : KeyPair P, P.x25519Exchange a.priv b.pub = P.x25519Exchange b.priv a.pub
  exchange_isSome : ∀ a b : KeyPair P, (P.x25519Exchange a.priv b.pub).isSome = true
  hkdf_length : ∀ n salt info ikm, (P.hkdf n salt info ikm).length = n
  hmac_length : ∀ key data, (P.hmac key data).length = 32
  cbc_decrypt_encrypt : ∀ key iv data : Bytes, key.length = 32 → iv.length = 16 →
    data.length % 16 = 0 → P.aesCbcDecrypt key iv (P.aesCbcEncrypt key iv data) = some data

def KeyPair.agree {P : Primitives} (a b : KeyPair P) : Bytes :=
  (P.x25519Exchange a.priv b.pub).getD []

theorem Primitives.Lawful.exchange_eq {P : Primitives} (hP : P.Lawful) (a b : KeyPair P) :
    P.x25519Exchange a.priv b.pub = some (a.agree b) := by
  obtain ⟨v, hv⟩ := Option.isSome_iff_exists.mp (hP.exchange_isSome a b)
  simp [KeyPair.agree, hv]

theorem Primitives.Lawful.agree_comm {P : Primitives} (hP : P.Lawful) (a b : KeyPair P) :
    a.agree b = b.agree a := by
  simp only [KeyPair.agree, hP.exchange_comm a b]

def pkcs7Pad (data : Bytes) : Bytes :=
  data ++ List.replicate (16 - data.length % 16) (UInt8.ofNat (16 - data.length % 16))

/-- `PKCS7(128).unpadder()` on a whole message; `none` is its `ValueError`. -/
def pkcs7Unpad (padded : Bytes) : Option Bytes :=
  match padded.getLast? with
  | none => none
  | some b =>
    if padded.length % 16 = 0 ∧ 1 ≤ b.toNat ∧ b.toNat ≤ 16 ∧
        (padded.drop (padded.length - b.toNat)).all (· = b) = true then
      some (padded.take (padded.length - b.toNat))
    else none

theorem pkcs7Pad_length_mod (data : Bytes) : (pkcs7Pad data).length % 16 = 0 := by
  simp only [pkcs7Pad, List.length_append, List.length_replicate]
  omega

theorem pkcs7Unpad_pad (data : Bytes) : pkcs7Unpad (pkcs7Pad data) = some data := by
  have hmod := pkcs7Pad_length_mod data
  obtain ⟨n, hn⟩ : ∃ n, 16 - data.length % 16 = n + 1 := ⟨15 - data.length % 16, by omega⟩
  have hle : n + 1 ≤ 16 := by omega
  have hb : (UInt8.ofNat (n + 1)).toNat = n + 1 := by
    simp only [UInt8.toNat_ofNat']
    omega
  have hlast : (pkcs7Pad data).getLast? = some (UInt8.ofNat (n + 1)) := by
    simp [pkcs7Pad, hn, List.replicate_succ']
  have hlen : (pkcs7Pad data).length - (n + 1) = data.length := by
    simp [pkcs7Pad, hn]
  have hpad : pkcs7Pad data = data ++ List.replicate (n + 1) (UInt8.ofNat (n + 1)) := by
    simp only [pkcs7Pad, hn]
  have hdrop : ((pkcs7Pad data).drop data.length).all (· = UInt8.ofNat (n + 1)) = true := by
    rw [hpad, List.drop_left']
    · simp
    · rfl
  have htake : (pkcs7Pad data).take data.length = data := by
    rw [hpad, List.take_left']
    rfl
  simp only [pkcs7Unpad, hlast, hb, hlen]
  rw [if_pos ⟨hmod, by omega, hle, hdrop⟩, htake]

section Demo

def demoDigest (length : Nat) (data : Bytes) : Bytes :=
  (List.range length).map (fun i => if i % 32 = 0 then data.foldl (· + ·) 0 else 0)

/-- Primitives with the laws and without any strength, to run the model on. -/
def demoPrimitives : Primitives where
  x25519Public := id
  x25519Exchange a b := some (List.zipWith (· + ·) a b)
  hkdf length salt info ikm := demoDigest length (salt ++ info ++ ikm)
  hmac key data := demoDigest 32 (key ++ data)
  aesCbcEncrypt _ _ data := data
  aesCbcDecrypt _ _ data := if data.length % 16 = 0 then some data else none
  xeddsaSign priv message _ := demoDigest 64 (priv ++ message)
  xeddsaVerify pub message signature := signature = demoDigest 64 (pub ++ message)

theorem demoPrimitives_lawful : demoPrimitives.Lawful where
  public_length a := by rw [a.pub_eq]; exact a.priv_length
  exchange_comm a b := by
    rw [a.pub_eq, b.pub_eq]
    exact congrArg some (List.zipWith_comm_of_comm fun x y => UInt8.add_comm x y)
  exchange_isSome _ _ := rfl
  hkdf_length := by simp [demoPrimitives, demoDigest]
  hmac_length := by simp [demoPrimitives, demoDigest]
  cbc_decrypt_encrypt := by
    intro key iv data _ _ hlen
    simp [demoPrimitives, hlen]

def demoKey (b : UInt8) : KeyPair demoPrimitives where
  priv := b :: List.replicate 31 0
  pub := b :: List.replicate 31 0
  priv_length := by simp
  pub_eq := rfl

end Demo

end PyWhats
