import PyWhats.Lib.OrderedMap
import PyWhats.X3dh

/-! The Double Ratchet state machine of `ratchet.py`. The state is mutable in
the source, so every operation is a state transformer that keeps what it wrote
before raising. A generated key pair is an argument. -/

namespace PyWhats

def defaultMaxSkip : Nat := 1000

def maxSkippedTotal : Nat := 2000

def kdfRk (P : Primitives) (rk dhOut : Bytes) : Bytes × Bytes :=
  let out := P.hkdf 64 rk (asciiBytes "WhisperRatchet") dhOut
  (out.take 32, out.drop 32)

def kdfCk (P : Primitives) (ck : Bytes) : Bytes × Bytes :=
  (P.hmac ck [0x01], P.hmac ck [0x02])

structure MessageKeys where
  macKey : Bytes
  cipherKey : Bytes
  iv : Bytes

def deriveMessageKeys (P : Primitives) (mk : Bytes) : MessageKeys :=
  let out := P.hkdf 80 (List.replicate 32 0) (asciiBytes "WhisperMessageKeys") mk
  { macKey := (out.drop 32).take 32, cipherKey := out.take 32, iv := (out.drop 64).take 16 }

def encryptAesCbc (P : Primitives) (mk plaintext : Bytes) : Bytes × Bytes :=
  let keys := deriveMessageKeys P mk
  (P.aesCbcEncrypt keys.cipherKey keys.iv (pkcs7Pad plaintext), keys.macKey)

def decryptAesCbc (P : Primitives) (mk ciphertext : Bytes) : Except PyError Bytes :=
  let keys := deriveMessageKeys P mk
  match P.aesCbcDecrypt keys.cipherKey keys.iv ciphertext with
  | none => .error (.valueError
      "The length of the provided data is not a multiple of the block length.")
  | some padded =>
    match pkcs7Unpad padded with
    | none => .error (.signalCryptoError "padding check failed")
    | some plaintext => .ok plaintext

structure MessageHeader where
  dh : Bytes
  pn : Nat
  n : Nat
  deriving DecidableEq

structure RatchetState where
  dhsPriv : Bytes
  dhsPub : Bytes
  dhr : Option Bytes
  rk : Bytes
  cks : Option Bytes
  ckr : Option Bytes
  ns : Nat := 0
  nr : Nat := 0
  pn : Nat := 0
  mkskipped : OrderedMap (Bytes × Nat) Bytes := .empty
  maxSkip : Nat := defaultMaxSkip
  deriving DecidableEq

abbrev RatchetM := EStateM PyError RatchetState

abbrev MacVerifier := Bytes → Except PyError Unit

def ratchetDh (P : Primitives) (priv peerPublic : Bytes) : Except PyError Bytes :=
  match P.x25519Exchange priv peerPublic with
  | none => .error (.valueError "Error computing shared key.")
  | some shared => .ok shared

def ratchetInitAlice (P : Primitives) (generated : KeyPair P) (sharedSecret : Bytes)
    (peerSignedPreKeyPublic : Bytes) : Except PyError RatchetState := do
  let shared ← ratchetDh P generated.priv peerSignedPreKeyPublic
  let (rk, cks) := kdfRk P sharedSecret shared
  return { dhsPriv := generated.priv, dhsPub := generated.pub, dhr := some peerSignedPreKeyPublic,
           rk := rk, cks := some cks, ckr := none }

def ratchetInitBob (sharedSecret signedPreKeyPrivate signedPreKeyPublic : Bytes) : RatchetState :=
  { dhsPriv := signedPreKeyPrivate, dhsPub := signedPreKeyPublic, dhr := none,
    rk := sharedSecret, cks := none, ckr := none }

def ratchetEncrypt (P : Primitives) (plaintext _associatedData : Bytes) :
    RatchetM (MessageHeader × Bytes × Bytes) := do
  let state ← get
  match state.cks with
  | none => throw (.signalCryptoError "ratchet sending chain not initialised")
  | some cks =>
    let (mk, cks') := kdfCk P cks
    set { state with cks := some cks', ns := state.ns + 1 }
    let (ciphertext, macKey) := encryptAesCbc P mk plaintext
    return (⟨state.dhsPub, state.pn, state.ns⟩, ciphertext, macKey)

def cacheSkipped (mkskipped : OrderedMap (Bytes × Nat) Bytes) (key : Bytes × Nat) (mk : Bytes) :
    OrderedMap (Bytes × Nat) Bytes :=
  let stored := mkskipped.set key mk
  if stored.size > maxSkippedTotal then stored.dropOldest else stored

/-- The `while` loop of `_skip_message_keys`, with the number of turns left. -/
def skipLoop (P : Primitives) : Nat → Bytes → RatchetM Unit
  | 0, _ => pure ()
  | turns + 1, ckr => do
    let (mk, ckr') := kdfCk P ckr
    modify fun s => { s with ckr := some ckr' }
    let state ← get
    match state.dhr with
    | none => throw .assertionError
    | some dhr =>
      set { state with
        mkskipped := cacheSkipped state.mkskipped (dhr, state.nr) mk, nr := state.nr + 1 }
      skipLoop P turns ckr'

def skipMessageKeys (P : Primitives) (upTo : Nat) : RatchetM Unit := do
  let state ← get
  match state.ckr with
  | none => return
  | some ckr =>
    if state.nr + state.maxSkip < upTo then
      throw (.signalCryptoError "too many skipped messages")
    skipLoop P (upTo - state.nr) ckr

def liftExcept {σ α : Type} (x : Except PyError α) : EStateM PyError σ α :=
  match x with
  | .ok a => pure a
  | .error e => throw e

def dhRatchet (P : Primitives) (generated : KeyPair P) (header : MessageHeader) : RatchetM Unit := do
  modify fun s => { s with pn := s.ns, ns := 0, nr := 0, dhr := some header.dh }
  let state ← get
  let shared ← liftExcept (ratchetDh P state.dhsPriv header.dh)
  let (rk, ckr) := kdfRk P state.rk shared
  modify fun s =>
    { s with rk := rk, ckr := some ckr, dhsPriv := generated.priv, dhsPub := generated.pub }
  let shared' ← liftExcept (ratchetDh P generated.priv header.dh)
  let (rk', cks) := kdfRk P rk shared'
  modify fun s => { s with rk := rk', cks := some cks }

/-- The lines that end both ways of finding a message key: check the MAC, then
decrypt. -/
def openMessage (P : Primitives) (mk ciphertext : Bytes) (verifyMac : Option MacVerifier) :
    RatchetM Bytes := do
  if let some verify := verifyMac then
    liftExcept (verify (deriveMessageKeys P mk).macKey)
  liftExcept (decryptAesCbc P mk ciphertext)

def trySkippedMessageKeys (P : Primitives) (header : MessageHeader)
    (ciphertext _associatedData : Bytes) (verifyMac : Option MacVerifier) :
    RatchetM (Option Bytes) := do
  let state ← get
  match state.mkskipped.get? (header.dh, header.n) with
  | none => return none
  | some mk =>
    set { state with mkskipped := state.mkskipped.erase (header.dh, header.n) }
    let plaintext ← openMessage P mk ciphertext verifyMac
    return some plaintext

def ratchetDecrypt (P : Primitives) (generated : KeyPair P) (header : MessageHeader)
    (ciphertext associatedData : Bytes) (verifyMac : Option MacVerifier) : RatchetM Bytes := do
  match ← trySkippedMessageKeys P header ciphertext associatedData verifyMac with
  | some plain => return plain
  | none =>
    let state ← get
    if state.dhr ≠ some header.dh then
      if state.ckr.isSome then
        skipMessageKeys P header.pn
      dhRatchet P generated header
    skipMessageKeys P header.n
    let state ← get
    match state.ckr with
    | none => throw .assertionError
    | some ckr =>
      let (mk, ckr') := kdfCk P ckr
      set { state with ckr := some ckr', nr := state.nr + 1 }
      openMessage P mk ciphertext verifyMac

end PyWhats
