import PyWhats.Codec
import PyWhats.Lib.Base64
import PyWhats.Lib.Coroutine

/-! Pairing with a phone (`pairing.py`): the conversation that `Pairer.run` has with the
server after the handshake, until the device store has its credentials. The protobuf
classes, the clock and the randomness are parameters. -/

namespace PyWhats.Pairing

structure JIDTuple where
  user : String
  server : String
  device : Int
  deriving DecidableEq

/-- The fields of the device store that pairing reads and writes. -/
structure DeviceStore where
  noisePublic : Bytes
  identityPrivate : Bytes
  identityPublic : Bytes
  jid : Option JIDTuple := none
  deviceId : Option Int := none
  advSignedDeviceIdentity : Option Bytes := none
  deriving DecidableEq

structure ADVSignedDeviceIdentityHMAC where
  details : Bytes
  hmac : Bytes
  deriving DecidableEq

structure ADVSignedDeviceIdentity where
  details : Bytes := []
  accountSignatureKey : Bytes := []
  accountSignature : Bytes := []
  deviceSignature : Bytes := []
  deriving DecidableEq

structure ADVDeviceIdentity where
  rawId : Nat
  keyIndex : Nat
  deriving DecidableEq

/-- Everything outside. The clock and the nonces of signatures are indexed by how often
they were asked. -/
structure PairEnv where
  z : Zlib
  parseHmac : Bytes → Option ADVSignedDeviceIdentityHMAC
  parseSigned : Bytes → Option ADVSignedDeviceIdentity
  serializeSigned : ADVSignedDeviceIdentity → Bytes
  parseDetails : Bytes → Option ADVDeviceIdentity
  reprAttrs : List (String × AttrValue) → String
  reprTags : List String → String
  clock : Nat → Int
  nonce : Nat → Bytes

structure Pairer where
  advSecret : Bytes
  totalTimeout : Int := 120
  perRefInterval : Nat := 20
  firstRefInterval : Nat := 60

inductive QrTask where
  | running
  | done
  deriving DecidableEq

/-- What `run` and the task that rotates the codes share. `received` is the list of frames
that were read. -/
structure PairState where
  device : DeviceStore
  qrTask : Option QrTask := none
  clockReads : Nat := 0
  nonces : Nat := 0
  received : List Bytes := []

inductive PairRequest where
  | recv
  | send (frame : Bytes)
  | onQr (payload : String)
  | sleep (interval : Nat)
  | joinQr

abbrev PairRequest.Reply : PairRequest → Type
  | .recv => Bytes
  | .send _ => Unit
  | .onQr _ => Unit
  | .sleep _ => Unit
  | .joinQr => Unit

abbrev PairM := Co PairState PairRequest.Reply PyError

structure PairResult where
  jid : JID
  deviceId : Int
  refsEmitted : Nat

section Credentials

variable (P : Primitives) (env : PairEnv)

def advAccountSigPrefix : Bytes := [0x06, 0x00]

def advDeviceSigPrefix : Bytes := [0x06, 0x01]

def accountTranscript (adv : ADVSignedDeviceIdentity) (ourIdentityPublic : Bytes) : Bytes :=
  advAccountSigPrefix ++ adv.details ++ ourIdentityPublic

def rawSignatureKey (key : Bytes) : Bytes :=
  if key.length = 33 ∧ key.head? = some 0x05 then key.drop 1 else key

def verifyPairSuccess (adv : ADVSignedDeviceIdentity) (ourIdentityPublic : Bytes) :
    Except PyError ADVDeviceIdentity :=
  if adv.details = [] then .error (.pairingFailed "pair-success payload missing details")
  else if adv.accountSignature = [] then
    .error (.pairingFailed "pair-success payload missing account signature")
  else if adv.accountSignatureKey = [] then
    .error (.pairingFailed "pair-success payload missing account signature key")
  else if !P.xeddsaVerify (rawSignatureKey adv.accountSignatureKey)
      (accountTranscript adv ourIdentityPublic) adv.accountSignature then
    .error (.pairingFailed "ADV account signature did not verify")
  else
    match env.parseDetails adv.details with
    | none => .error (.pairingFailed "ADV details are not a valid ADVDeviceIdentity")
    | some inner => .ok inner

def deviceSignature (adv : ADVSignedDeviceIdentity) (ourIdentityPrivate ourIdentityPublic : Bytes)
    (nonce : Bytes) : Bytes :=
  P.xeddsaSign ourIdentityPrivate
    (advDeviceSigPrefix ++ adv.details ++ ourIdentityPublic ++ adv.accountSignatureKey) nonce

/-- The co-signed identity that is echoed, without the account signature key. -/
def buildPairSuccessReply (adv : ADVSignedDeviceIdentity)
    (ourIdentityPrivate ourIdentityPublic nonce : Bytes) : ADVSignedDeviceIdentity where
  details := adv.details
  accountSignature := adv.accountSignature
  deviceSignature := deviceSignature P adv ourIdentityPrivate ourIdentityPublic nonce

def encodeQrPayload (ref : String) (noisePublic identityPublic advSecret : Bytes) : String :=
  ",".intercalate [ref, String.ofList (Base64.encode noisePublic),
    String.ofList (Base64.encode identityPublic), String.ofList (Base64.encode advSecret)]

def decodeRefs : List Node → Except PyError (List String)
  | [] => .ok []
  | child :: rest =>
    if child.contentBytes = [] then decodeRefs rest
    else
      match Binary.utf8Decode child.contentBytes with
      | .error _ => .error (.pairingFailed "pair-device ref is not valid UTF-8")
      | .ok ref => do return ref :: (← decodeRefs rest)

def extractPairDeviceRefs (iq : Node) : Except PyError (List String) := do
  let some pd := iq.getChild "pair-device" | throw (.pairingFailed "iq missing pair-device child")
  let refs ← decodeRefs (pd.getChildren "ref")
  if refs = [] then throw (.pairingFailed "pair-device iq carried no refs")
  return refs

def openDeviceIdentity (advSecret blob : Bytes) : Except PyError ADVSignedDeviceIdentity := do
  let some wrapper := env.parseHmac blob
    | throw (.pairingFailed "pair-success device-identity is not valid protobuf")
  if wrapper.details = [] ∨ wrapper.hmac = [] then
    throw (.pairingFailed "pair-success device-identity missing details/hmac")
  if P.hmac advSecret wrapper.details ≠ wrapper.hmac then
    throw (.pairingFailed "pair-success device-identity HMAC did not verify")
  let some adv := env.parseSigned wrapper.details
    | throw (.pairingFailed "ADVSignedDeviceIdentity is not valid protobuf")
  return adv

def deviceJid (ps : Node) : Except PyError JID := do
  let some device := ps.getChild "device"
    | throw (.pairingFailed "pair-success missing device element")
  match device.getAttr "jid" with
  | none => throw (.pairingFailed "pair-success device element missing jid attribute")
  | some (.jid jid) => return jid
  | some raw => parseJid raw.text

def extractPairSuccess (iq : Node) (advSecret : Bytes) :
    Except PyError (ADVSignedDeviceIdentity × JID) := do
  let some ps := iq.getChild "pair-success" | throw (.pairingFailed "iq missing pair-success child")
  let some di := ps.getChild "device-identity"
    | throw (.pairingFailed "pair-success missing device-identity")
  if di.contentBytes = [] then throw (.pairingFailed "pair-success device-identity is empty")
  let adv ← openDeviceIdentity P env advSecret di.contentBytes
  let jid ← deviceJid ps
  return (adv, jid)

end Credentials

section Run

variable (P : Primitives) (env : PairEnv) (pairer : Pairer)

def readClock : PairM Int :=
  .act (fun s => { s with clockReads := s.clockReads + 1 })
    (fun s => .ret (.ok (env.clock s.clockReads)))

def drawNonce : PairM Bytes :=
  .act (fun s => { s with nonces := s.nonces + 1 }) (fun s => .ret (.ok (env.nonce s.nonces)))

/-- `except Exception` around a call of the user's handler. -/
def emitQr (payload : String) : PairM Unit :=
  Co.tryCatch (Co.wait (PairRequest.onQr payload))
    (fun e => if e.isException then pure () else Co.raise e)

def qrPayload (device : DeviceStore) (ref : String) : String :=
  encodeQrPayload ref device.noisePublic device.identityPublic pairer.advSecret

/-- The task that shows the later codes; `first` is whether it shows the first of them. -/
def rotateQr (first : Bool) : List String → PairM Unit
  | [] => pure ()
  | ref :: refs => do
    Co.wait (PairRequest.sleep (if first then pairer.firstRefInterval else pairer.perRefInterval))
    let s ← Co.get
    emitQr (qrPayload pairer s.device ref)
    rotateQr false refs

def resultAttrs (iq : Node) : List (String × AttrValue) :=
  [("type", .str "result"), ("id", .str (iq.getStr "id"))] ++
    ((iq.getAttr "from").map fun v => ("to", v)).toList

def sendNode (node : Node) : PairM Unit := do
  let frame ← Co.lift (Binary.encode env.z node false)
  Co.wait (PairRequest.send frame)

def ackIq (iq : Node) : PairM Unit := sendNode env (.mk "iq" (resultAttrs iq) .none)

def replyPairSuccess (iq : Node) (reply : ADVSignedDeviceIdentity) (keyIndex : Nat) :
    PairM Unit :=
  sendNode env (.mk "iq" (resultAttrs iq) (.nodes [
    .mk "pair-device-sign" [] (.nodes [
      .mk "device-identity" [("key-index", .str (toString keyIndex))]
        (.bytes (env.serializeSigned reply))])]))

/-- `asyncio.wait_for` around the next frame. -/
def recvFrame : PairM Bytes := do
  let frame ← Co.tryCatch (Co.wait PairRequest.recv) (fun e =>
    if e = .timeoutError then Co.raise (.pairingFailed "pairing timed out waiting for server")
    else Co.raise e)
  Co.modify fun s => { s with received := s.received ++ [frame] }
  return frame

def handlePairDevice (node : Node) : PairM Nat := do
  let refs ← Co.lift (extractPairDeviceRefs node)
  ackIq env node
  let s ← Co.get
  emitQr (qrPayload pairer s.device (refs.headD ""))
  if refs.length > 1 then Co.modify fun s => { s with qrTask := some .running }
  return refs.length

/-- Nothing is awaited between the reply and the last of the three fields. -/
def handlePairSuccess (node : Node) : PairM JID := do
  let (adv, jid) ← Co.lift (extractPairSuccess P env node pairer.advSecret)
  let s ← Co.get
  let inner ← Co.lift (verifyPairSuccess P env adv s.device.identityPublic)
  let nonce ← drawNonce env
  let reply := buildPairSuccessReply P adv s.device.identityPrivate s.device.identityPublic nonce
  replyPairSuccess env node reply inner.keyIndex
  Co.modify fun s => { s with
    device := { s.device with jid := some ⟨jid.user, jid.server, jid.device⟩ } }
  Co.modify fun s => { s with device := { s.device with deviceId := some jid.device } }
  let fullAdv := { reply with accountSignatureKey := adv.accountSignatureKey }
  Co.modify fun s => { s with device := { s.device with
    advSignedDeviceIdentity := some (env.serializeSigned fullAdv) } }
  return jid

def failureText (node : Node) : String :=
  "server returned failure stanza: attrs=" ++ env.reprAttrs node.attrs ++ " children=" ++
    env.reprTags (node.children.map Node.tag)

/-- One turn of the loop: the number of codes to go on with, or the result. -/
def turn (deadline : Int) (refsEmitted : Nat) : PairM (Nat ⊕ PairResult) := do
  let now ← readClock env
  if deadline - now ≤ 0 then Co.raise (.pairingFailed "pairing timed out waiting for server")
  else
    let frame ← recvFrame
    let node ← Co.lift (Binary.decode env.z frame)
    if node.tag = "failure" then Co.raise (.pairingFailed (failureText env node))
    else if node.tag ≠ "iq" then return .inl refsEmitted
    else if (node.getChild "pair-device").isSome then do
      let count ← handlePairDevice env pairer node
      return .inl count
    else if node.getStr "type" = "get" ∧ node.getStr "xmlns" = "urn:xmpp:ping" then do
      ackIq env node
      return .inl refsEmitted
    else if (node.getChild "pair-success").isSome then do
      let jid ← handlePairSuccess P env pairer node
      return .inr ⟨jid, jid.device, refsEmitted⟩
    else return .inl refsEmitted

/-- At most `rounds` turns; `none` is a run that has not ended after them. -/
def turns (deadline : Int) : Nat → Nat → PairM (Option PairResult)
  | 0, _ => return none
  | rounds + 1, refsEmitted => do
    match ← turn P env pairer deadline refsEmitted with
    | .inl refsEmitted => turns deadline rounds refsEmitted
    | .inr result => return some result

/-- The `finally` block, which suppresses whatever awaiting the task raises. -/
def stopQr : PairM Unit := do
  let s ← Co.get
  if s.qrTask = some .running then
    Co.tryCatch (Co.wait PairRequest.joinQr) (fun _ => pure ())

def run (rounds : Nat) : PairM (Option PairResult) := do
  let now ← readClock env
  Co.tryFinally (turns P env pairer (now + pairer.totalTimeout) rounds 0) stopQr

end Run

section Property

variable (P : Primitives) (env : PairEnv) (pairer : Pairer)

/-- The frame is a `pair-success` iq with a signed identity whose HMAC verifies under the
secret and whose account signature verifies over our identity key. -/
structure Verified (frame : Bytes) (device : DeviceStore) (adv : ADVSignedDeviceIdentity)
    (jid : JID) : Prop where
  frame : ∃ node ps di wrapper, Binary.decode env.z frame = .ok node ∧ node.tag = "iq" ∧
    node.getChild "pair-success" = some ps ∧ ps.getChild "device-identity" = some di ∧
    env.parseHmac di.contentBytes = some wrapper ∧
    P.hmac pairer.advSecret wrapper.details = wrapper.hmac ∧
    env.parseSigned wrapper.details = some adv ∧ deviceJid ps = .ok jid
  signature : P.xeddsaVerify (rawSignatureKey adv.accountSignatureKey)
    (accountTranscript adv device.identityPublic) adv.accountSignature = true

def paired (device : DeviceStore) (adv : ADVSignedDeviceIdentity) (jid : JID) (nonce : Bytes) :
    DeviceStore :=
  { device with
    jid := some ⟨jid.user, jid.server, jid.device⟩
    deviceId := some jid.device
    advSignedDeviceIdentity := some (env.serializeSigned
      { details := adv.details
        accountSignatureKey := adv.accountSignatureKey
        accountSignature := adv.accountSignature
        deviceSignature :=
          deviceSignature P adv device.identityPrivate device.identityPublic nonce }) }

def PairedFrom (device : DeviceStore) (t : PairState) : Prop :=
  ∃ before frame adv jid nonce, t.received = before ++ [frame] ∧
    Verified P env pairer frame device adv jid ∧ t.device = paired P env device adv jid nonce

/-- How a run may end that began with `device`. -/
def Outcome (device : DeviceStore) : Except PyError (Option PairResult) → PairState → Prop
  | .ok (some _), t => PairedFrom P env pairer device t
  | .ok none, t => t.device = device
  | .error _, t => t.device = device

end Property

section Others

/-- What the other tasks do: they leave the device store and the frames alone. -/
def Others (s s' : PairState) : Prop := s'.device = s.device ∧ s'.received = s.received

theorem others_run {s t : PairState} (h : Relation.ReflTransGen Others s t) : Others s t := by
  have hrefl : Std.Refl (Others : PairState → PairState → Prop) := ⟨fun _ => ⟨rfl, rfl⟩⟩
  have htrans : IsTrans PairState Others :=
    ⟨fun _ _ _ h h' => ⟨h'.1.trans h.1, h'.2.trans h.2⟩⟩
  rwa [Relation.reflTransGen_eq_self] at h

theorem emitQr_silent (payload : String) : (emitQr payload).Silent := by
  refine Co.silent_tryCatch (Co.silent_wait _) fun e => ?_
  split <;> trivial

end Others

section Ends

variable {P : Primitives} {env : PairEnv} {pairer : Pairer} {s : PairState}

theorem sendNode_silent (env : PairEnv) (node : Node) : (sendNode env node).Silent :=
  Co.silent_bind (Co.silent_lift _) fun _ => Co.silent_wait _

theorem recv_silent : (Co.tryCatch (Co.wait PairRequest.recv) (fun e =>
    if e = .timeoutError then Co.raise (.pairingFailed "pairing timed out waiting for server")
    else Co.raise e) : PairM Bytes).Silent := by
  refine Co.silent_tryCatch (Co.silent_wait _) fun e => ?_
  split <;> trivial

theorem Outcome.others {device : DeviceStore} {r : Except PyError (Option PairResult)}
    {t t' : PairState} (h : Outcome P env pairer device r t) (ht : Others t t') :
    Outcome P env pairer device r t' := by
  cases r with
  | error e => exact ht.1.trans h
  | ok result =>
    cases result with
    | none => exact ht.1.trans h
    | some result =>
      obtain ⟨before, frame, adv, jid, nonce, hreceived, hverified, hdevice⟩ := h
      exact ⟨before, frame, adv, jid, nonce, ht.2.trans hreceived, hverified, ht.1.trans hdevice⟩

end Ends

section Demo

/-- Messages with fields of fixed sizes. -/
def demoPairEnv : PairEnv where
  z := ⟨id, .ok⟩
  parseHmac blob := some ⟨blob.drop 32, blob.take 32⟩
  parseSigned data :=
    some ⟨data.take 2, (data.drop 2).take 32, (data.drop 34).take 64, data.drop 98⟩
  serializeSigned adv :=
    adv.details ++ adv.accountSignatureKey ++ adv.accountSignature ++ adv.deviceSignature
  parseDetails details := some ⟨(details.getD 0 0).toNat, (details.getD 1 0).toNat⟩
  reprAttrs _ := ""
  reprTags _ := ""
  clock n := n
  nonce _ := []

def demoPairer : Pairer where
  advSecret := [7, 7]

def demoUnpaired : DeviceStore where
  noisePublic := (demoKey 3).pub
  identityPrivate := (demoKey 5).priv
  identityPublic := (demoKey 5).pub

/-- A `pair-device` iq with two refs. -/
def demoPairDevice : Bytes :=
  [0, 248, 4, 25, 8, 85, 248, 1, 248, 2, 237, 238, 248, 2, 248, 2, 237, 80, 252, 1, 65, 248, 2, 237,
   80, 252, 1, 66]

end Demo

end PyWhats.Pairing
