import PyWhats.Primitives

/-! Key records and the X3DH agreement of `keys.py` and `x3dh.py`. Our own keys
are generated pairs; whatever comes from a peer is raw bytes. -/

namespace PyWhats

def asciiBytes (s : String) : Bytes := s.toList.map (fun c => UInt8.ofNat c.toNat)

/-- A 32-byte key gets the Curve25519 type byte, a 33-byte one must carry it. -/
def signalPubkey (rawPublic : Bytes) : Except PyError Bytes :=
  if rawPublic.length = 33 then
    if rawPublic.head? ≠ some 0x05 then
      .error (.signalCryptoError "invalid Signal public key type byte")
    else .ok rawPublic
  else if rawPublic.length ≠ 32 then
    .error (.signalCryptoError "invalid raw public key length")
  else .ok (0x05 :: rawPublic)

structure SignedPreKey (P : Primitives) where
  keyId : Nat
  pair : KeyPair P
  signature : Bytes

structure OneTimePreKey (P : Primitives) where
  keyId : Nat
  pair : KeyPair P

structure PreKeyBundle where
  identityKey : Bytes
  signedPreKeyId : Nat
  signedPreKeyPublic : Bytes
  signedPreKeySignature : Bytes
  oneTimePreKeyId : Option Nat
  oneTimePreKeyPublic : Option Bytes
  deriving DecidableEq

def PreKeyBundle.verifySignature (P : Primitives) (b : PreKeyBundle) : Except PyError Bool := do
  let signed ← signalPubkey b.signedPreKeyPublic
  return P.xeddsaVerify b.identityKey signed b.signedPreKeySignature

def publishBundle {P : Primitives} (identity : KeyPair P) (spk : SignedPreKey P)
    (opk : Option (OneTimePreKey P)) : PreKeyBundle where
  identityKey := identity.pub
  signedPreKeyId := spk.keyId
  signedPreKeyPublic := spk.pair.pub
  signedPreKeySignature := spk.signature
  oneTimePreKeyId := opk.map OneTimePreKey.keyId
  oneTimePreKeyPublic := opk.map (fun k => k.pair.pub)

def x3dhInfo : Bytes := asciiBytes "WhisperText"

def x3dhF : Bytes := List.replicate 32 0xff

def x3dhDh (P : Primitives) (priv peerPublic : Bytes) : Except PyError Bytes :=
  if priv.length ≠ 32 ∨ peerPublic.length ≠ 32 then
    .error (.signalCryptoError "invalid key length for DH")
  else match P.x25519Exchange priv peerPublic with
    | none => .error (.valueError "Error computing shared key.")
    | some shared => .ok shared

def x3dhKdf (P : Primitives) (ikm info : Bytes) : Bytes :=
  P.hkdf 32 (List.replicate 32 0) info (x3dhF ++ ikm)

structure X3DHInitiatorResult where
  sharedSecret : Bytes
  associatedData : Bytes
  ephemeralPublic : Bytes
  identityPublic : Bytes
  usedSignedPreKeyId : Nat
  usedOneTimePreKeyId : Option Nat

structure X3DHResponderResult where
  sharedSecret : Bytes
  associatedData : Bytes

def x3dhInitiator (P : Primitives) (identity : KeyPair P) (peerBundle : PreKeyBundle)
    (ephemeral : KeyPair P) : Except PyError X3DHInitiatorResult := do
  if !(← peerBundle.verifySignature P) then
    throw (.signalCryptoError "signed prekey signature verification failed")
  let dh1 ← x3dhDh P identity.priv peerBundle.signedPreKeyPublic
  let dh2 ← x3dhDh P ephemeral.priv peerBundle.identityKey
  let dh3 ← x3dhDh P ephemeral.priv peerBundle.signedPreKeyPublic
  let dh4 ← match peerBundle.oneTimePreKeyPublic with
    | none => pure []
    | some opk => x3dhDh P ephemeral.priv opk
  return {
    sharedSecret := x3dhKdf P (dh1 ++ dh2 ++ dh3 ++ dh4) x3dhInfo
    associatedData := identity.pub ++ peerBundle.identityKey
    ephemeralPublic := ephemeral.pub
    identityPublic := identity.pub
    usedSignedPreKeyId := peerBundle.signedPreKeyId
    usedOneTimePreKeyId := peerBundle.oneTimePreKeyId }

def x3dhResponder (P : Primitives) (identity : KeyPair P) (signedPreKey : SignedPreKey P)
    (oneTimePreKey : Option (OneTimePreKey P)) (initiatorIdentityPublic : Bytes)
    (initiatorEphemeralPublic : Bytes) : Except PyError X3DHResponderResult := do
  let dh1 ← x3dhDh P signedPreKey.pair.priv initiatorIdentityPublic
  let dh2 ← x3dhDh P identity.priv initiatorEphemeralPublic
  let dh3 ← x3dhDh P signedPreKey.pair.priv initiatorEphemeralPublic
  let dh4 ← match oneTimePreKey with
    | none => pure []
    | some opk => x3dhDh P opk.pair.priv initiatorEphemeralPublic
  return {
    sharedSecret := x3dhKdf P (dh1 ++ dh2 ++ dh3 ++ dh4) x3dhInfo
    associatedData := initiatorIdentityPublic ++ identity.pub }

section Agreement

variable {P : Primitives}

theorem x3dhDh_pair (hP : P.Lawful) (a b : KeyPair P) :
    x3dhDh P a.priv b.pub = .ok (a.agree b) := by
  simp [x3dhDh, a.priv_length, hP.public_length b, hP.exchange_eq a b]

/-- The secret both sides of X3DH derive, written from the initiator's side. -/
def x3dhSecret (P : Primitives) (ika eka ikb spk : KeyPair P) (opk : Option (KeyPair P)) : Bytes :=
  x3dhKdf P (ika.agree spk ++ eka.agree ikb ++ eka.agree spk ++
    (opk.map (fun k => eka.agree k)).getD []) x3dhInfo

theorem x3dhInitiator_publish (hP : P.Lawful) (ika eka ikb : KeyPair P) (spk : SignedPreKey P)
    (opk : Option (OneTimePreKey P))
    (hv : (publishBundle ikb spk opk).verifySignature P = .ok true) :
    x3dhInitiator P ika (publishBundle ikb spk opk) eka = .ok {
      sharedSecret := x3dhSecret P ika eka ikb spk.pair (opk.map OneTimePreKey.pair)
      associatedData := ika.pub ++ ikb.pub
      ephemeralPublic := eka.pub
      identityPublic := ika.pub
      usedSignedPreKeyId := spk.keyId
      usedOneTimePreKeyId := opk.map OneTimePreKey.keyId } := by
  rw [x3dhInitiator, hv]
  cases opk <;>
    simp [publishBundle, x3dhDh_pair hP, x3dhSecret, bind, Except.bind, pure, Except.pure]

theorem x3dhInitiator_publish_inv {ika eka ikb : KeyPair P} {spk : SignedPreKey P}
    {opk : Option (OneTimePreKey P)} {r : X3DHInitiatorResult}
    (h : x3dhInitiator P ika (publishBundle ikb spk opk) eka = .ok r) :
    (publishBundle ikb spk opk).verifySignature P = .ok true := by
  rw [x3dhInitiator] at h
  cases hv : (publishBundle ikb spk opk).verifySignature P with
  | error e => simp [hv, bind, Except.bind] at h
  | ok b =>
    cases b with
    | true => rfl
    | false => simp [hv, bind, Except.bind, throw, throwThe, MonadExceptOf.throw] at h

theorem x3dhResponder_pair (hP : P.Lawful) (ika eka ikb : KeyPair P) (spk : SignedPreKey P)
    (opk : Option (OneTimePreKey P)) :
    x3dhResponder P ikb spk opk ika.pub eka.pub = .ok {
      sharedSecret := x3dhSecret P ika eka ikb spk.pair (opk.map OneTimePreKey.pair)
      associatedData := ika.pub ++ ikb.pub } := by
  rw [x3dhResponder, x3dhDh_pair hP, x3dhDh_pair hP, x3dhDh_pair hP,
    hP.agree_comm spk.pair ika, hP.agree_comm ikb eka, hP.agree_comm spk.pair eka]
  cases opk with
  | none => rfl
  | some k =>
    simp only [x3dhDh_pair hP, hP.agree_comm k.pair eka]
    rfl

end Agreement

section Demo

def demoSignedPreKey (id : Nat) (identity pair : KeyPair demoPrimitives) :
    SignedPreKey demoPrimitives :=
  ⟨id, pair, demoDigest 64 (identity.pub ++ 0x05 :: pair.pub)⟩

end Demo

end PyWhats
