import PyWhats.Jid
import PyWhats.Lib.Coroutine
import PyWhats.SenderKey

/-! The state that a `Sender` and a `Receiver` share: the persistent Signal stores,
the sender's memory and the futures their coroutines wait on. What is written
under a `history` entry or in the `origin` and `heard` of a session is not in
the source; it records where a session came from and what was done with it. -/

namespace PyWhats

structure InitiatorRun where
  bundle : PreKeyBundle
  result : X3DHInitiatorResult
  start : RatchetState

inductive Origin where
  | initiated (run : InitiatorRun)
  | accepted (identityKey : Bytes) (start : RatchetState)

def Origin.peerIdentity : Origin → Bytes
  | .initiated run => run.bundle.identityKey
  | .accepted identityKey _ => identityKey

def Origin.start : Origin → RatchetState
  | .initiated run => run.start
  | .accepted _ start => start

/-- A stored ratchet state, the run it descends from and whether a message of the
peer was decrypted on it. -/
structure Session where
  state : RatchetState
  origin : Origin
  heard : Bool

structure PendingPreKey where
  registrationId : Nat
  oneTimePreKeyId : Option Nat
  signedPreKeyId : Nat
  baseKey : Bytes
  identityKey : Bytes
  deriving DecidableEq

structure PeerSessionMeta where
  peerIdentity : Bytes
  pendingPrekey : Option PendingPreKey
  deriving DecidableEq

structure SentMessage where
  chat : JID
  text : String
  plaintext : Bytes
  ownPlaintext : Bytes
  retryCount : Nat := 0
  messageType : String
  edit : Option String
  mediatype : String
  decryptFail : String

/-- `if old is not None and old != new: dict.pop(old, None)`. -/
def popOther (dict : OrderedMap String String) (old : Option String) (new : String) :
    OrderedMap String String :=
  match old with
  | some key => if key ≠ new then dict.erase key else dict
  | none => dict

/-- `InMemoryLidMap`: a dictionary for each direction. -/
structure LidMap where
  pnToLid : OrderedMap String String := .empty
  lidToPn : OrderedMap String String := .empty

namespace LidMap

def getLid (m : LidMap) (pnUser : String) : Option String := m.pnToLid.get? pnUser

def getPn (m : LidMap) (lidUser : String) : Option String := m.lidToPn.get? lidUser

def set (m : LidMap) (pnUser lidUser : String) : LidMap :=
  let lidToPn := popOther m.lidToPn (m.pnToLid.get? pnUser) lidUser
  let pnToLid := popOther m.pnToLid (lidToPn.get? lidUser) pnUser
  ⟨pnToLid.set pnUser lidUser, lidToPn.set lidUser pnUser⟩

end LidMap

inductive AckReply where
  | ack
  | retry (attrs : List (String × String))
  deriving DecidableEq

/-- Background tasks that a handler starts and does not wait for. -/
inductive Background where
  | onSuccess (node : Node)
  | serverSync (node : Node)
  | historySync

structure Stores (P : Primitives) where
  sessions : OrderedMap String Session := .empty
  identities : OrderedMap String Bytes := .empty
  lidMap : LidMap := {}
  prekeys : OrderedMap Nat (OneTimePreKey P) := .empty
  senderKeys : OrderedMap (String × String) SenderKeyState := .empty
  peerMeta : OrderedMap String PeerSessionMeta := .empty
  sent : OrderedMap String SentMessage := .empty
  router : OrderedMap String Nat := .empty
  iqMap : OrderedMap String Nat := .empty
  acked : List (Nat × AckReply) := []
  answered : List (Nat × Node) := []
  futures : Nat := 0
  background : List Background := []
  drawn : Nat := 0

inductive Channel where
  | direct
  | group
  deriving DecidableEq

/-- What a message stanza carries: the body of a message sent to a chat, or a
group message with its key distribution. -/
inductive Purpose where
  | body (chat : JID)
  | group (chat : JID)
  deriving DecidableEq

structure Encryption where
  peer : JID
  plaintext : Bytes
  session : Session
  peerMeta : PeerSessionMeta
  header : MessageHeader
  ciphertext : Bytes
  macKey : Bytes

inductive Event where
  | initiate (sid : String) (run : InitiatorRun)
  | install (sid : String) (run : InitiatorRun)
  | rehydrate (sid : String)
  | encrypt (e : Encryption)
  | acceptPrekey (sid : String) (identityKey : Bytes) (channel : Channel)
  | acceptMessage (sid : String) (channel : Channel)
  | note (sid : String)
  | migrate (pn lid : String)
  | drop (sid : String)
  | resend (messageId : String) (peer : JID) (bundle : Option PreKeyBundle)
  | groupEncrypt (group : String) (state : SenderKeyState) (skmsg : Bytes)
  | transmit (node : Node) (purpose : Purpose)
  | restart

/-- The stores, and every recorded event with the stores it met. -/
structure World (P : Primitives) extends Stores P where
  history : List (Stores P × Event) := []

/-- A new process over the same files: the sender's memory and all futures are
gone. Entropy goes on. -/
def World.restart {P : Primitives} (w : World P) : World P :=
  { w with
    peerMeta := .empty, sent := .empty, router := .empty, iqMap := .empty
    acked := [], answered := [], background := []
    history := w.history ++ [(w.toStores, .restart)] }

namespace Stores

variable {P : Primitives}

def setSession (sid : String) (session : Session) (s : Stores P) : Stores P :=
  { s with sessions := s.sessions.set sid session }

def dropSession (sid : String) (s : Stores P) : Stores P :=
  { s with sessions := s.sessions.erase sid }

def setIdentity (sid : String) (identity : Bytes) (s : Stores P) : Stores P :=
  { s with identities := s.identities.set sid identity }

def dropIdentity (sid : String) (s : Stores P) : Stores P :=
  { s with identities := s.identities.erase sid }

def setMeta (sid : String) (m : PeerSessionMeta) (s : Stores P) : Stores P :=
  { s with peerMeta := s.peerMeta.set sid m }

def dropMeta (sid : String) (s : Stores P) : Stores P :=
  { s with peerMeta := s.peerMeta.erase sid }

def note (sid : String) (s : Stores P) : Stores P :=
  match s.peerMeta.get? sid with
  | none => s
  | some m => s.setMeta sid { m with pendingPrekey := none }

def setSent (messageId : String) (m : SentMessage) (s : Stores P) : Stores P :=
  { s with sent := s.sent.set messageId m }

def setSenderKey (key : String × String) (state : SenderKeyState) (s : Stores P) : Stores P :=
  { s with senderKeys := s.senderKeys.set key state }

/-- The one transaction of an accepted `pkmsg`. -/
def acceptPrekey (sid : String) (oneTimePreKeyId : Option Nat) (session : Session)
    (identityKey : Bytes) (s : Stores P) : Stores P :=
  { s with
    prekeys := match oneTimePreKeyId with
      | none => s.prekeys
      | some id => s.prekeys.erase id
    sessions := s.sessions.set sid session
    identities := s.identities.set sid identityKey }

def migrate (pn lid : String) (session : Session) (s : Stores P) : Stores P :=
  { s with
    sessions := (s.sessions.set lid session).erase pn
    identities := (match s.identities.get? pn with
      | none => s.identities
      | some identity => s.identities.set lid identity).erase pn }

def setLidMap (m : LidMap) (s : Stores P) : Stores P := { s with lidMap := m }

def setDrawn (n : Nat) (s : Stores P) : Stores P := { s with drawn := n }

end Stores

namespace World

variable {P : Primitives}

def put (w : World P) (f : Stores P → Stores P) : World P := { w with toStores := f w.toStores }

def log (w : World P) (e : Event) (f : Stores P → Stores P) : World P :=
  { toStores := f w.toStores, history := w.history ++ [(w.toStores, e)] }

@[simp] theorem put_toStores (w : World P) (f : Stores P → Stores P) :
    (w.put f).toStores = f w.toStores := rfl

@[simp] theorem put_history (w : World P) (f : Stores P → Stores P) :
    (w.put f).history = w.history := rfl

@[simp] theorem log_toStores (w : World P) (e : Event) (f : Stores P → Stores P) :
    (w.log e f).toStores = f w.toStores := rfl

@[simp] theorem log_history (w : World P) (e : Event) (f : Stores P → Stores P) :
    (w.log e f).history = w.history ++ [(w.toStores, e)] := rfl

end World

structure MediaAttachment where
  kind : String
  directPath : String
  mediaKey : Bytes
  fileSha256 : Bytes
  fileEncSha256 : Bytes
  mediaType : String
  fileLength : Nat
  mimetype : String := ""
  filename : String := ""
  caption : String := ""
  ptt : Bool := false
  mmsType : String := ""

structure QuotedMessage where
  stanzaId : String
  participant : String
  text : String

structure Reaction where
  messageId : String
  text : String
  keyFromMe : Bool
  timestamp : Int

inductive Emitted where
  | message (id : String) (chat sender : JID) (text : String) (timestamp : Int)
      (media : Option MediaAttachment) (quoted : Option QuotedMessage)
  | reaction (chat sender : JID) (reaction : Reaction)
  | messageEdit (chat sender : JID) (messageId text : String) (timestamp : Int)
  | messageRevoke (chat sender : JID) (messageId : String) (timestamp : Int)
  | decryptError (id reason : String)
  | receipt (fromJid : JID) (ids : List String) (type : String) (timestamp : Int)
      (participant : Option JID)
  | presence (fromJid : JID) (unavailable : Bool) (lastSeen : Option Int)
  | chatPresence (fromJid : JID) (state media : String)
  | loggedOut (code : String)

inductive Request where
  | send (frame : Bytes)
  | ack (future : Nat)
  | iq (future : Nat)
  | emit (event : Emitted)

abbrev Request.Reply : Request → Type
  | .send _ => Unit
  | .ack _ => AckReply
  | .iq _ => Node
  | .emit _ => Unit

abbrev CoM (P : Primitives) := Co (World P) Request.Reply PyError

inductive ProtocolType where
  | messageEdit
  | revoke
  | other
  deriving DecidableEq

/-- The generated `Message` class: a message is its serialization. -/
structure E2e where
  parses : Bytes → Bool
  conversation : String → Bytes
  deviceSent : (destinationJid : String) → (message : Bytes) → Bytes
  senderKeyDistribution : (groupId : String) → (axolotl : Bytes) → Bytes
  distribution : Bytes → Option Bytes
  text : Bytes → String
  media : Bytes → Option MediaAttachment
  quoted : Bytes → Option QuotedMessage
  reaction : Bytes → Option Reaction
  mediaType : Bytes → String
  editedInner : Bytes → Option Bytes
  protocolType : Bytes → Option (Option ProtocolType)
  targetId : Bytes → String
  editedText : Bytes → String
  historySync : Bytes → Bool

/-- Everything outside: serialisation and the sources of randomness, indexed by
how often they were asked. -/
structure Env (P : Primitives) where
  pb : Protobuf
  e2e : E2e
  encode : Node → Except PyError Bytes
  decode : Bytes → Except PyError Node
  keyPair : Nat → KeyPair P
  messageId : Nat → String
  randomByte : Nat → UInt8
  token : Nat → Bytes

def DistinctKeys {P : Primitives} (env : Env P) (bound : Nat) : Prop :=
  ∀ i j, i < bound → j < bound → (env.keyPair i).pub = (env.keyPair j).pub → i = j

structure Device (P : Primitives) where
  identity : KeyPair P
  registrationId : Nat
  signedPreKey : SignedPreKey P
  ownJid : JID
  advSignedDeviceIdentity : Option Bytes

section Effects

variable {P : Primitives}

def update (f : Stores P → Stores P) : CoM P Unit := Co.modify fun w => w.put f

def record (e : Event) (f : Stores P → Stores P) : CoM P Unit := Co.modify fun w => w.log e f

def draw {α : Type} (source : Nat → α) : CoM P α :=
  .act (fun w => w.put (.setDrawn (w.drawn + 1))) (fun w => .ret (.ok (source w.drawn)))

def routerRegister (messageId : String) : CoM P Nat := do
  let w ← Co.get
  if w.router.contains messageId then
    Co.raise (.valueError ("message id already pending: '" ++ messageId ++ "'"))
  else
    update fun s => { s with router := s.router.set messageId s.futures, futures := s.futures + 1 }
    return w.futures

def routerCancel (messageId : String) : CoM P Unit :=
  update fun s => { s with router := s.router.erase messageId }

/-- `AckRouter.resolve_ack` and `resolve_retry`. -/
def routerResolve (messageId : String) (reply : AckReply) : CoM P Unit :=
  update fun s =>
    match s.router.get? messageId with
    | none => s
    | some future =>
      { s with router := s.router.erase messageId, acked := s.acked ++ [(future, reply)] }

def iqRegister (iqId : String) : CoM P Nat := do
  let w ← Co.get
  if w.iqMap.contains iqId then
    Co.raise (.valueError ("iq id already pending: '" ++ iqId ++ "'"))
  else
    update fun s => { s with iqMap := s.iqMap.set iqId s.futures, futures := s.futures + 1 }
    return w.futures

def iqCancel (iqId : String) : CoM P Unit :=
  update fun s => { s with iqMap := s.iqMap.erase iqId }

def iqResolve (iqId : String) (node : Node) : CoM P Unit :=
  update fun s =>
    match s.iqMap.get? iqId with
    | none => s
    | some future =>
      { s with iqMap := s.iqMap.erase iqId, answered := s.answered ++ [(future, node)] }

variable (env : Env P)

def sendNode (node : Node) : CoM P Unit := do
  let frame ← Co.lift (env.encode node)
  Co.wait (Request.send frame)

def transmit (node : Node) (purpose : Purpose) (frame : Bytes) : CoM P Unit := do
  record (.transmit node purpose) id
  Co.wait (Request.send frame)

def padRandomMax16 (plaintext : Bytes) : CoM P Bytes := do
  let b ← draw env.randomByte
  let padLen := b.toNat % 16 + 1
  return plaintext ++ List.replicate padLen (UInt8.ofNat padLen)

end Effects

def unpadRandomMax16 (padded : Bytes) : Except PyError Bytes :=
  match padded.getLast? with
  | none => .error (.valueError "empty padded payload")
  | some b =>
    if b.toNat < 1 ∨ b.toNat > 16 ∨ b.toNat > padded.length then
      .error (.valueError ("invalid pad length " ++ toString b.toNat))
    else if (padded.drop (padded.length - b.toNat)).any (· ≠ b) then
      .error (.valueError "pad bytes not all equal to pad length")
    else .ok (padded.take (padded.length - b.toNat))

section Demo

def demoE2e : E2e where
  parses _ := true
  conversation := asciiBytes
  deviceSent _ message := message
  senderKeyDistribution _ axolotl := axolotl
  distribution _ := none
  text _ := ""
  media _ := none
  quoted _ := none
  reaction _ := none
  mediaType _ := ""
  editedInner _ := none
  protocolType _ := none
  targetId _ := ""
  editedText _ := ""
  historySync _ := false

/-- Frames are numbers of stanzas. -/
def demoEnv (stanzas : List Node) : Env demoPrimitives where
  pb := demoProtobuf
  e2e := demoE2e
  encode _ := .ok []
  decode frame :=
    match frame.head?.bind (fun i => stanzas[i.toNat]?) with
    | some node => .ok node
    | none => .error (.valueError "no such frame")
  keyPair i := demoKey (UInt8.ofNat (100 + i))
  messageId i := "m" ++ toString i
  randomByte _ := 0
  token i := UInt8.ofNat i :: List.replicate 31 0

def demoDevice (user : String) (device : Int) (identity signed : UInt8) : Device demoPrimitives where
  identity := demoKey identity
  registrationId := 5
  signedPreKey := demoSignedPreKey 7 (demoKey identity) (demoKey signed)
  ownJid := { user := user, device := device }
  advSignedDeviceIdentity := none

def demoMe : Device demoPrimitives := demoDevice "100" 3 1 2

def demoPeer : Device demoPrimitives := demoDevice "200" 4 11 12

end Demo

end PyWhats
