import PyWhats.PyBytes

/-! The initiator side of the Noise XX handshake and the transport ciphers of
`socket/noise.py`. The responder of the offline test server is the same state with
the two role-dependent agreements turned round. -/

namespace PyWhats.Noise

inductive NoiseError where
  | handshakeError (message : String)
  | valueError (message : String)
  | assertionError
  | channelError (message : String)
  deriving DecidableEq

inductive Cipher where
  | chaChaPoly
  | aesGcm
  deriving DecidableEq

/-- SHA-256 and the two AEAD ciphers of the `cryptography` package; `none` is `InvalidTag`. -/
structure Aead where
  sha256 : Bytes → Bytes
  encrypt : Cipher → (key nonce plaintext ad : Bytes) → Bytes
  decrypt : Cipher → (key nonce ciphertext ad : Bytes) → Option Bytes

/-- Decryption inverts encryption, which appends a tag of 16 bytes. -/
structure Aead.Lawful (A : Aead) : Prop where
  decrypt_encrypt : ∀ cipher (key nonce plaintext ad : Bytes), key.length = 32 →
    nonce.length = 12 →
    A.decrypt cipher key nonce (A.encrypt cipher key nonce plaintext ad) ad = some plaintext
  encrypt_length : ∀ cipher key nonce plaintext ad,
    (A.encrypt cipher key nonce plaintext ad).length = plaintext.length + 16

def dhLen : Nat := 32

def hashLen : Nat := 32

def tagLen : Nat := 16

section Crypto

variable {P : Primitives}

def dh (priv pub : Bytes) : Except NoiseError Bytes :=
  if priv.length ≠ dhLen then .error (.valueError "X25519 private key must be 32 bytes")
  else if pub.length ≠ dhLen then .error (.valueError "X25519 public key must be 32 bytes")
  else
    match P.x25519Exchange priv pub with
    | none => .error (.valueError "Error computing shared key.")
    | some secret => .ok secret

/-- `hkdf` with two outputs. -/
def hkdf (P : Primitives) (chainingKey inputKeyMaterial : Bytes) : Bytes × Bytes :=
  let tempKey := P.hmac chainingKey inputKeyMaterial
  let output1 := P.hmac tempKey [1]
  let output2 := P.hmac tempKey (output1 ++ [2])
  (output1, output2)

def maxNonce : Nat := 0xFFFFFFFFFFFFFFFF

def buildNonceChachapoly (counter : Nat) : Except NoiseError Bytes :=
  if counter > maxNonce then .error (.valueError "nonce counter out of range")
  else .ok ([0, 0, 0, 0] ++ (Binary.toBytesBig 8 counter).reverse)

def buildNonceAesgcm (counter : Nat) : Except NoiseError Bytes :=
  if counter > maxNonce then .error (.valueError "nonce counter out of range")
  else .ok ([0, 0, 0, 0] ++ Binary.toBytesBig 8 counter)

def buildNonce : Cipher → Nat → Except NoiseError Bytes
  | .chaChaPoly => buildNonceChachapoly
  | .aesGcm => buildNonceAesgcm

def aeadEncrypt (A : Aead) (cipher : Cipher) (key : Bytes) (counter : Nat) (ad plaintext : Bytes) :
    Except NoiseError Bytes := do
  let nonce ← buildNonce cipher counter
  return A.encrypt cipher key nonce plaintext ad

/-- The inner `none` is `InvalidTag`. -/
def aeadDecrypt (A : Aead) (cipher : Cipher) (key : Bytes) (counter : Nat) (ad ciphertext : Bytes) :
    Except NoiseError (Option Bytes) := do
  let nonce ← buildNonce cipher counter
  return A.decrypt cipher key nonce ciphertext ad

end Crypto

structure CipherState where
  cipher : Cipher
  k : Option Bytes := none
  n : Nat := 0
  deriving DecidableEq

namespace CipherState

def initializeKey (cs : CipherState) (key : Option Bytes) : Except NoiseError CipherState :=
  if ∃ k ∈ key, k.length ≠ 32 then
    .error (.valueError "Noise CipherState key must be 32 bytes")
  else .ok { cs with k := key, n := 0 }

def hasKey (cs : CipherState) : Bool := cs.k.isSome

def setNonce (cs : CipherState) (nonce : Nat) : CipherState := { cs with n := nonce }

def encryptWithAd (A : Aead) (cs : CipherState) (ad plaintext : Bytes) :
    Except NoiseError (Bytes × CipherState) :=
  match cs.k with
  | none => .ok (plaintext, cs)
  | some k => do
    let ct ← aeadEncrypt A cs.cipher k cs.n ad plaintext
    return (ct, { cs with n := cs.n + 1 })

def decryptWithAd (A : Aead) (cs : CipherState) (ad ciphertext : Bytes) :
    Except NoiseError (Bytes × CipherState) :=
  match cs.k with
  | none => .ok (ciphertext, cs)
  | some k => do
    match ← aeadDecrypt A cs.cipher k cs.n ad ciphertext with
    | none => .error (.handshakeError "AEAD authentication failed")
    | some pt => return (pt, { cs with n := cs.n + 1 })

/-- The new key is made with the highest nonce; the counter stays. -/
def rekey (A : Aead) (cs : CipherState) : Except NoiseError CipherState :=
  match cs.k with
  | none => .error (.handshakeError "cannot rekey an empty CipherState")
  | some k => do
    let newKeyCt ← aeadEncrypt A cs.cipher k maxNonce [] (List.replicate 32 0)
    return { cs with k := some (newKeyCt.take 32) }

end CipherState

structure SymmetricState where
  cs : CipherState
  ck : Bytes
  h : Bytes

namespace SymmetricState

def initializeSymmetric (A : Aead) (protocolName : Bytes) (cipher : Cipher) : SymmetricState :=
  let h := if protocolName.length ≤ hashLen then
      protocolName ++ List.replicate (hashLen - protocolName.length) 0
    else A.sha256 protocolName
  { cs := { cipher := cipher }, ck := h, h := h }

def mixKey (P : Primitives) (ss : SymmetricState) (inputKeyMaterial : Bytes) :
    Except NoiseError SymmetricState := do
  let (ck, tempK) := hkdf P ss.ck inputKeyMaterial
  let cs ← ss.cs.initializeKey (some tempK)
  return { ss with ck := ck, cs := cs }

def mixHash (A : Aead) (ss : SymmetricState) (data : Bytes) : SymmetricState :=
  { ss with h := A.sha256 (ss.h ++ data) }

def encryptAndHash (A : Aead) (ss : SymmetricState) (plaintext : Bytes) :
    Except NoiseError (Bytes × SymmetricState) := do
  let (ct, cs) ← ss.cs.encryptWithAd A ss.h plaintext
  return (ct, { ss with cs := cs }.mixHash A ct)

def decryptAndHash (A : Aead) (ss : SymmetricState) (ciphertext : Bytes) :
    Except NoiseError (Bytes × SymmetricState) := do
  let (pt, cs) ← ss.cs.decryptWithAd A ss.h ciphertext
  return (pt, { ss with cs := cs }.mixHash A ciphertext)

def split (P : Primitives) (ss : SymmetricState) : Except NoiseError (CipherState × CipherState) := do
  let (tempK1, tempK2) := hkdf P ss.ck []
  let c1 ← CipherState.initializeKey { cipher := ss.cs.cipher } (some tempK1)
  let c2 ← CipherState.initializeKey { cipher := ss.cs.cipher } (some tempK2)
  return (c1, c2)

end SymmetricState

inductive Token where
  | e
  | s
  | ee
  | es
  | se
  deriving DecidableEq

/-- `_XX_INITIATOR_MESSAGES`. -/
def xxMessages : List (List Token) := [[.e], [.e, .ee, .s, .es], [.s, .se]]

inductive Role where
  | initiator
  | responder
  deriving DecidableEq

def Role.other : Role → Role
  | .initiator => .responder
  | .responder => .initiator

structure HandshakeState (P : Primitives) where
  role : Role
  ss : SymmetricState
  s : KeyPair P
  e : Option (KeyPair P) := none
  re : Option Bytes := none
  rs : Option Bytes := none
  messages : List (List Token) := xxMessages

namespace HandshakeState

variable {P : Primitives}

def new (A : Aead) (role : Role) (protocolName : Bytes) (cipher : Cipher) (prologue : Bytes)
    (localStatic : KeyPair P) : HandshakeState P where
  role := role
  ss := (SymmetricState.initializeSymmetric A protocolName cipher).mixHash A prologue
  s := localStatic

def handshakeHash (st : HandshakeState P) : Bytes := st.ss.h

def remoteStatic (st : HandshakeState P) : Option Bytes := st.rs

/-- Our ephemeral key with a key of the peer. -/
def dhEphemeral (st : HandshakeState P) (remote : Option Bytes) : Except NoiseError Bytes :=
  match st.e, remote with
  | some e, some pub => dh (P := P) e.priv pub
  | _, _ => .error .assertionError

/-- Our static key with the peer's ephemeral key. -/
def dhStatic (st : HandshakeState P) : Except NoiseError Bytes :=
  match st.re with
  | some re => dh (P := P) st.s.priv re
  | none => .error .assertionError

def dhEe (st : HandshakeState P) : Except NoiseError Bytes := st.dhEphemeral st.re

def dhEs (st : HandshakeState P) : Except NoiseError Bytes :=
  match st.role with
  | .initiator => st.dhEphemeral st.rs
  | .responder => st.dhStatic

def dhSe (st : HandshakeState P) : Except NoiseError Bytes :=
  match st.role with
  | .initiator => st.dhStatic
  | .responder => st.dhEphemeral st.rs

def mixKey (st : HandshakeState P) (secret : Except NoiseError Bytes) :
    Except NoiseError (HandshakeState P) := do
  let ss ← st.ss.mixKey P (← secret)
  return { st with ss := ss }

/-- One token of `write_message`: what it appends and the state after it. -/
def writeToken (A : Aead) (ephemeral : KeyPair P) (st : HandshakeState P) :
    Token → Except NoiseError (Bytes × HandshakeState P)
  | .e => .ok (ephemeral.pub, { st with e := some ephemeral, ss := st.ss.mixHash A ephemeral.pub })
  | .s => do
    let (ct, ss) ← st.ss.encryptAndHash A st.s.pub
    return (ct, { st with ss := ss })
  | .ee => do return ([], ← st.mixKey st.dhEe)
  | .es => do return ([], ← st.mixKey st.dhEs)
  | .se => do return ([], ← st.mixKey st.dhSe)

def writeTokens (A : Aead) (ephemeral : KeyPair P) (st : HandshakeState P) :
    List Token → Except NoiseError (Bytes × HandshakeState P)
  | [] => .ok ([], st)
  | token :: tokens => do
    let (out, st) ← st.writeToken A ephemeral token
    let (rest, st) ← st.writeTokens A ephemeral tokens
    return (out ++ rest, st)

/-- The split when the last message is done. -/
def finish (st : HandshakeState P) : Except NoiseError (Option (CipherState × CipherState)) :=
  if st.messages.isEmpty then do return some (← st.ss.split P) else .ok none

/-- An empty payload without a key is not hashed. -/
def writeMessage (A : Aead) (ephemeral : KeyPair P) (st : HandshakeState P) (payload : Bytes) :
    Except NoiseError (Bytes × Option (CipherState × CipherState) × HandshakeState P) :=
  match st.messages with
  | [] => .error (.handshakeError "handshake already finished")
  | tokens :: messages => do
    let (out, st) ← { st with messages := messages }.writeTokens A ephemeral tokens
    if payload ≠ [] ∨ st.ss.cs.hasKey = true then
      let (ct, ss) ← st.ss.encryptAndHash A payload
      let st := { st with ss := ss }
      return (out ++ ct, ← st.finish, st)
    else
      return (out, ← st.finish, st)

/-- One token of `read_message`: what is left of the message and the state after it. -/
def readToken (A : Aead) (st : HandshakeState P) (message : Bytes) :
    Token → Except NoiseError (Bytes × HandshakeState P)
  | .e =>
    if message.length < dhLen then
      .error (.handshakeError "handshake message truncated at ephemeral")
    else
      let re := message.take dhLen
      .ok (message.drop dhLen, { st with re := some re, ss := st.ss.mixHash A re })
  | .s =>
    let need := dhLen + if st.ss.cs.hasKey then tagLen else 0
    if message.length < need then
      .error (.handshakeError "handshake message truncated at static")
    else do
      let (rs, ss) ← st.ss.decryptAndHash A (message.take need)
      if rs.length ≠ dhLen then .error (.handshakeError "remote static key has wrong length")
      else return (message.drop need, { st with rs := some rs, ss := ss })
  | .ee => do return (message, ← st.mixKey st.dhEe)
  | .es => do return (message, ← st.mixKey st.dhEs)
  | .se => do return (message, ← st.mixKey st.dhSe)

def readTokens (A : Aead) (st : HandshakeState P) (message : Bytes) :
    List Token → Except NoiseError (Bytes × HandshakeState P)
  | [] => .ok (message, st)
  | token :: tokens => do
    let (message, st) ← st.readToken A message token
    st.readTokens A message tokens

def readMessage (A : Aead) (st : HandshakeState P) (message : Bytes) :
    Except NoiseError (Bytes × Option (CipherState × CipherState) × HandshakeState P) :=
  match st.messages with
  | [] => .error (.handshakeError "handshake already finished")
  | tokens :: messages => do
    let (remaining, st) ← { st with messages := messages }.readTokens A message tokens
    if remaining ≠ [] ∨ st.ss.cs.hasKey = true then
      let (payload, ss) ← st.ss.decryptAndHash A remaining
      let st := { st with ss := ss }
      return (payload, ← st.finish, st)
    else
      return ([], ← st.finish, st)

end HandshakeState

end PyWhats.Noise
