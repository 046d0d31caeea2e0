import Mathlib.Logic.Function.Iterate
import PyWhats.Wire

/-! Sender-key sessions of groups (`sender_key.py`). -/

namespace PyWhats

def maxJump : Nat := 2000

structure SenderKeyState where
  keyId : Nat
  iteration : Nat
  chainKey : Bytes
  signingPublic : Bytes
  signingPrivate : Option Bytes := none
  deriving DecidableEq

def senderMessageKey (P : Primitives) (chainKey : Bytes) : Bytes × Bytes :=
  let seed := P.hmac chainKey [0x01]
  let derivative := P.hkdf 48 (List.replicate 32 0) (asciiBytes "WhisperGroup") seed
  (derivative.take 16, (derivative.take 48).drop 16)

def nextSenderChainKey (P : Primitives) (chainKey : Bytes) : Bytes := P.hmac chainKey [0x02]

def createSenderKeyState {P : Primitives} (keyId : Nat) (signing : KeyPair P) (chainKey : Bytes) :
    SenderKeyState where
  keyId := keyId
  iteration := 0
  chainKey := chainKey
  signingPublic := signing.pub
  signingPrivate := some signing.priv

def buildDistributionMessage (pb : Protobuf) (state : SenderKeyState) : Except PyError Bytes := do
  let signingKey ← signalPubkey state.signingPublic
  let body ← pb.senderKeyDistribution.serialize
    ⟨state.keyId, state.iteration, state.chainKey, signingKey⟩
  return signalMagic :: body

def stripDjb (key : Bytes) : Except PyError Bytes :=
  if key.length = 33 ∧ key.head? = some 0x05 then .ok (key.drop 1)
  else if key.length = 32 then .ok key
  else .error (.senderKeyError ("invalid signing key length " ++ toString key.length))

/-- A peer's distribution message as a state that can only verify. -/
def processDistributionMessage (pb : Protobuf) (data : Bytes) : Except PyError SenderKeyState :=
  match pb.senderKeyDistribution.parse (data.drop 1) with
  | none => .error (.valueError "Error parsing message")
  | some body => do
    let signingPublic ← stripDjb body.signingKey
    return {
      keyId := body.id
      iteration := body.iteration
      chainKey := body.chainKey
      signingPublic := signingPublic
      signingPrivate := none }

def buildSkmsg (P : Primitives) (pb : Protobuf) (nonce : Bytes) (keyId iteration : Nat)
    (ciphertext signingPrivate : Bytes) : Except PyError Bytes := do
  let body ← pb.senderKeyMessage.serialize ⟨keyId, iteration, ciphertext⟩
  let serialized := signalMagic :: body
  return serialized ++ P.xeddsaSign signingPrivate serialized nonce

def groupEncrypt (P : Primitives) (pb : Protobuf) (nonce : Bytes) (state : SenderKeyState)
    (plaintext : Bytes) : Except PyError (Bytes × SenderKeyState) :=
  match state.signingPrivate with
  | none => .error (.senderKeyError "cannot encrypt without a signing private key")
  | some signingPrivate => do
    let (iv, cipherKey) := senderMessageKey P state.chainKey
    let ciphertext := P.aesCbcEncrypt cipherKey iv (pkcs7Pad plaintext)
    let skmsg ← buildSkmsg P pb nonce state.keyId state.iteration ciphertext signingPrivate
    return (skmsg, { state with
      iteration := state.iteration + 1, chainKey := nextSenderChainKey P state.chainKey })

/-- `_aes_cbc_decrypt` of `sender_key.py`. -/
def senderAesCbcDecrypt (P : Primitives) (key iv ciphertext : Bytes) : Except PyError Bytes :=
  if ciphertext = [] ∨ ciphertext.length % 16 ≠ 0 then
    .error (.senderKeyError "skmsg ciphertext is not a block multiple")
  else
    match (P.aesCbcDecrypt key iv ciphertext).bind pkcs7Unpad with
    | none => .error (.senderKeyError "invalid PKCS#7 padding in skmsg")
    | some plaintext => .ok plaintext

def groupDecrypt (P : Primitives) (pb : Protobuf) (state : SenderKeyState) (skmsg : Bytes) :
    Except PyError (Bytes × SenderKeyState) :=
  if skmsg.length < 64 then .error (.senderKeyError "skmsg too short")
  else
    let serialized := skmsg.take (skmsg.length - 64)
    let signature := skmsg.drop (skmsg.length - 64)
    if !P.xeddsaVerify state.signingPublic serialized signature then
      .error (.invalidSenderKeySignature "skmsg signature did not verify")
    else
      match pb.senderKeyMessage.parse (serialized.drop 1) with
      | none => .error (.valueError "Error parsing message")
      | some body =>
        if body.iteration < state.iteration then
          .error (.senderKeyError ("skmsg iteration " ++ toString body.iteration ++
            " is older than chain iteration " ++ toString state.iteration))
        else if body.iteration - state.iteration > maxJump then
          .error (.senderKeyError ("skmsg iteration jump too large: " ++
            toString (body.iteration - state.iteration)))
        else do
          let chainKey := (nextSenderChainKey P)^[body.iteration - state.iteration] state.chainKey
          let (iv, cipherKey) := senderMessageKey P chainKey
          let plaintext ← senderAesCbcDecrypt P cipherKey iv body.ciphertext
          return (plaintext, { state with
            iteration := body.iteration + 1, chainKey := nextSenderChainKey P chainKey })

section Chain

variable {P : Primitives} {pb : Protobuf}

/-- Encrypting needs the signing key and moves the chain one step. -/
theorem groupEncrypt_inv {nonce plaintext skmsg : Bytes} {state state' : SenderKeyState}
    (h : groupEncrypt P pb nonce state plaintext = .ok (skmsg, state')) :
    state.signingPrivate.isSome = true ∧ state' = { state with
      iteration := state.iteration + 1, chainKey := nextSenderChainKey P state.chainKey } := by
  cases hs : state.signingPrivate with
  | none => simp [groupEncrypt, hs] at h
  | some signing =>
    simp only [groupEncrypt, hs, except_bind_ok] at h
    obtain ⟨_, _, hpair⟩ := h
    cases hpair
    exact ⟨rfl, rfl⟩

theorem groupDecrypt_inv {skmsg plaintext : Bytes} {state state' : SenderKeyState}
    (h : groupDecrypt P pb state skmsg = .ok (plaintext, state')) :
    ∃ n, state' = { state with
      iteration := state.iteration + n + 1
      chainKey := (nextSenderChainKey P)^[n + 1] state.chainKey } := by
  simp only [groupDecrypt] at h
  split at h
  · cases h
  split at h
  · cases h
  split at h
  · cases h
  rename_i body _
  split at h
  · cases h
  rename_i hnew
  split at h
  · cases h
  simp only [except_bind_ok] at h
  obtain ⟨_, _, hpair⟩ := h
  cases hpair
  refine ⟨body.iteration - state.iteration, ?_⟩
  rw [Function.iterate_succ_apply', show state.iteration + (body.iteration - state.iteration) + 1 =
    body.iteration + 1 by omega]

end Chain

end PyWhats
