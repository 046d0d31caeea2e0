import PyWhats.Directory

/-! The send side (`sender.py`). Each coroutine of the source is a coroutine here,
with its suspension points; `_resolve_signal_address` never suspends and returns
its argument. -/

namespace PyWhats

def encVersion : String := "2"

def defaultMessageType : String := "text"

def messageTypeFor (e2e : E2e) (proto : Bytes) : String :=
  if (e2e.reaction proto).isSome then "reaction"
  else if e2e.mediaType proto ≠ "" then "media"
  else "text"

def buildParticipantNode (jid : JID) (encType : String) (ciphertext : Bytes)
    (count : Option Int) (mediatype decryptFail : String) : Node :=
  .mk "to" [("jid", .jid jid)] (.nodes [
    .mk "enc" ([("v", .str encVersion), ("type", .str encType)] ++
        (count.map (fun c => ("count", AttrValue.str (toString c)))).toList ++
        (if mediatype ≠ "" then [("mediatype", AttrValue.str mediatype)] else []) ++
        (if decryptFail ≠ "" then [("decrypt-fail", AttrValue.str decryptFail)] else []))
      (.bytes ciphertext)])

def deviceIdentityNodes {P : Primitives} (dev : Device P) : List Node :=
  match dev.advSignedDeviceIdentity with
  | some adv => if adv ≠ [] then [.mk "device-identity" [] (.bytes adv)] else []
  | none => []

def buildMessageNode {P : Primitives} (dev : Device P) (messageId : String) (dest : JID)
    (participants : List Node) (messageType : String) (edit : Option String) : Node :=
  .mk "message" ([("id", .str messageId), ("to", .jid dest),
        ("type", .str (if messageType ≠ "" then messageType else defaultMessageType))] ++
      (edit.map (fun e => ("edit", AttrValue.str e))).toList)
    (.nodes (.mk "participants" [] (.nodes participants) :: deviceIdentityNodes dev))

def buildGroupMessageNode {P : Primitives} (dev : Device P) (messageId : String) (group : JID)
    (participants : List Node) (skmsg : Bytes) : Node :=
  .mk "message" [("id", .str messageId), ("to", .jid group), ("type", .str "text")]
    (.nodes (.mk "participants" [] (.nodes participants) :: (deviceIdentityNodes dev ++
      [.mk "enc" [("v", .str encVersion), ("type", .str "skmsg")] (.bytes skmsg)])))

def participantOf (dest : Node) : Option (JID × Bytes) :=
  match dest.getAttr "jid", dest.getChild "enc" with
  | some (.jid jid), some enc => some (jid, enc.contentBytes)
  | _, _ => none

def participantCiphertexts (node : Node) : List (JID × Bytes) :=
  match node.getChild "participants" with
  | none => []
  | some participants => (participants.getChildren "to").filterMap participantOf

def skmsgOf (node : Node) : Option Bytes := (node.getChild "enc").map Node.contentBytes

def retryPeerFromSignal (ownJid : JID) (attrs : List (String × String)) (fallback : List JID) :
    Except PyError JID :=
  match (["participant", "to", "recipient", "jid"].filterMap
      (fun key => attrs.find? (fun a => a.1 = key ∧ a.2 ≠ ""))).head? with
  | some raw => senderJidFromAttr raw.2
  | none => .ok (fallback.headD ownJid)

def peerAndLidAlt (lidMap : LidMap) (peer : JID) : List JID :=
  if peer.server = "lid" then
    peer :: ((lidMap.getPn peer.user).map (fun pn =>
      { user := pn, server := "s.whatsapp.net", device := peer.device })).toList
  else
    peer :: ((lidMap.getLid peer.user).map (fun lid =>
      { user := lid, server := "lid", device := peer.device })).toList

def InitiatorRun.pendingPrekey (run : InitiatorRun) (registrationId : Nat) : PendingPreKey where
  registrationId := registrationId
  oneTimePreKeyId := run.result.usedOneTimePreKeyId
  signedPreKeyId := run.result.usedSignedPreKeyId
  baseKey := run.result.ephemeralPublic
  identityKey := run.result.identityPublic

def InitiatorRun.peerMeta (run : InitiatorRun) (registrationId : Nat) : PeerSessionMeta where
  peerIdentity := run.bundle.identityKey
  pendingPrekey := some (run.pendingPrekey registrationId)

def InitiatorRun.prekeyMessage (run : InitiatorRun) (registrationId : Nat) (message : SignalMessage) :
    PreKeySignalMessage where
  registrationId := registrationId
  oneTimePreKeyId := run.result.usedOneTimePreKeyId
  signedPreKeyId := run.result.usedSignedPreKeyId
  baseKey := run.result.ephemeralPublic
  identityKey := run.result.identityPublic
  message := message

def InitiatorRun.session (run : InitiatorRun) : Session := ⟨run.start, .initiated run, false⟩

/-- The frame `_encrypt_for_peer` returns for an encryption. -/
def Encryption.wire {P : Primitives} (env : Env P) (dev : Device P) (e : Encryption) :
    Except PyError (String × Bytes) := do
  let signal : SignalMessage := { header := e.header, ciphertext := e.ciphertext }
  let inner ← signal.encode P env.pb dev.identity.pub e.peerMeta.peerIdentity e.macKey
  match e.peerMeta.pendingPrekey with
  | none => return ("msg", inner)
  | some pp =>
    let pkmsg : PreKeySignalMessage :=
      { registrationId := pp.registrationId
        oneTimePreKeyId := pp.oneTimePreKeyId
        signedPreKeyId := pp.signedPreKeyId
        baseKey := pp.baseKey
        identityKey := pp.identityKey
        message := signal }
    let frame ← pkmsg.encode P env.pb dev.identity.pub e.peerMeta.peerIdentity e.macKey
    return ("pkmsg", frame)

def Encryption.messageKey (P : Primitives) (e : Encryption) : Option Bytes :=
  e.session.state.cks.map (fun ck => (kdfCk P ck).1)

section Sender

variable {P : Primitives} (env : Env P) (dev : Device P)

def establishSessionFromBundle (bundle : PreKeyBundle) : CoM P InitiatorRun := do
  let ephemeral ← draw env.keyPair
  let result ← Co.lift (x3dhInitiator P dev.identity bundle ephemeral)
  let generated ← draw env.keyPair
  let state ← Co.lift
    (ratchetInitAlice P generated result.sharedSecret bundle.signedPreKeyPublic)
  return ⟨bundle, result, state⟩

/-- `_drop_peer_session` for one session id. -/
def dropSession (sid : String) : CoM P Unit := do
  record (.drop sid) (.dropSession sid)
  update (.dropMeta sid)
  update (.dropIdentity sid)

def dropSessions : List JID → CoM P Unit
  | [] => pure ()
  | candidate :: rest => do
    dropSession (sessionId candidate)
    dropSessions rest

def dropPeerSession (peer : JID) : CoM P Unit := do
  let w ← Co.get
  dropSessions (peerAndLidAlt w.lidMap peer)

def noteSession (sid : String) : CoM P Unit := record (.note sid) (.note sid)

def noteSessions : List JID → CoM P Unit
  | [] => pure ()
  | candidate :: rest => do
    noteSession (sessionId candidate)
    noteSessions rest

def noteIncomingDecrypted (peer : JID) : CoM P Unit := do
  let w ← Co.get
  noteSessions (peerAndLidAlt w.lidMap peer)

/-- The stored session and its metadata; metadata lost in a restart is rebuilt
from the pinned identity. -/
def loadForPeer (sid : String) : CoM P (Option (Session × PeerSessionMeta)) := do
  let w ← Co.get
  match w.sessions.get? sid with
  | none => return none
  | some session =>
    match w.peerMeta.get? sid with
    | some m => return some (session, m)
    | none =>
      match w.identities.get? sid with
      | none => return none
      | some cached => do
        let m : PeerSessionMeta := ⟨cached, none⟩
        record (.rehydrate sid) (.setMeta sid m)
        return some (session, m)

def encryptOn (peer : JID) (plaintext : Bytes) (session : Session) (m : PeerSessionMeta) :
    CoM P (String × Bytes) := do
  let sid := sessionId peer
  let ad := dev.identity.pub ++ m.peerIdentity
  match ratchetEncrypt P plaintext ad session.state with
  | .error e _ => Co.raise e
  | .ok (header, ciphertext, macKey) state => do
    let e : Encryption := ⟨peer, plaintext, session, m, header, ciphertext, macKey⟩
    record (.encrypt e) (.setSession sid { session with state := state })
    Co.lift (e.wire env dev)

variable (fetchPrekeys : JID → CoM P PreKeyBundle)

def encryptForPeer (peer : JID) (plaintext : Bytes) : CoM P (String × Bytes) := do
  let sid := sessionId peer
  match ← loadForPeer sid with
  | some (session, m) => encryptOn env dev peer plaintext session m
  | none => do
    let bundle ← fetchPrekeys peer
    let run ← establishSessionFromBundle env dev bundle
    let m := run.peerMeta dev.registrationId
    record (.initiate sid run) (.setMeta sid m)
    update (.setIdentity sid m.peerIdentity)
    encryptOn env dev peer plaintext run.session m

variable (fetchDevices : List JID → CoM P DeviceMap)

/-- The devices of the given users, a user unknown to the map standing for itself. -/
def devicesOf (deviceMap : DeviceMap) (users : List JID) : List JID :=
  users.flatMap fun user =>
    match deviceMap.get? user with
    | none => [user]
    | some entry => entry.devices

def targetDevices (chat : JID) : CoM P (List JID) := do
  if chat.device ≠ 0 then return [chat]
  else
    let bases := [chat.base, dev.ownJid.base]
    let deviceMap ← fetchDevices bases
    return (dedupeDevices (devicesOf deviceMap bases)).filter
      (fun device => !sameFullJid device dev.ownJid)

structure Outgoing where
  chat : JID
  text : String
  messageId : String
  plaintext : Bytes
  ownPlaintext : Bytes
  messageType : String
  edit : Option String
  mediatype : String
  decryptFail : String

def encryptForDevices (msg : Outgoing) : List JID → CoM P (List Node)
  | [] => pure []
  | device :: rest => do
    let plaintext := if device.base = dev.ownJid.base then msg.ownPlaintext else msg.plaintext
    let (encType, ciphertext) ← encryptForPeer env dev fetchPrekeys device plaintext
    let nodes ← encryptForDevices msg rest
    return buildParticipantNode device encType ciphertext none msg.mediatype msg.decryptFail :: nodes

def sendAttempt (msg : Outgoing) : CoM P (AckReply × List JID) := do
  let devices ← targetDevices dev fetchDevices msg.chat
  let participants ← encryptForDevices env dev fetchPrekeys msg devices
  let stanza := buildMessageNode dev msg.messageId msg.chat.base participants msg.messageType
    msg.edit
  let frame ← Co.lift (env.encode stanza)
  let future ← routerRegister msg.messageId
  let reply ← Co.tryCatch
    (do transmit stanza (.body msg.chat) frame
        Co.wait (Request.ack future))
    (fun e => do
        routerCancel msg.messageId
        Co.raise e)
  return (reply, devices)

/-- `_send_once`; the number is how many server retries are still allowed. -/
def sendOnce (msg : Outgoing) : Nat → CoM P Unit
  | 0 => do
    let (reply, _) ← sendAttempt env dev fetchPrekeys fetchDevices msg
    match reply with
    | .ack => return
    | .retry _ => Co.raise (.runtimeError ("second retry requested for id=" ++ msg.messageId))
  | n + 1 => do
    let (reply, devices) ← sendAttempt env dev fetchPrekeys fetchDevices msg
    match reply with
    | .ack => return
    | .retry attrs => do
      let peer ← Co.lift (retryPeerFromSignal dev.ownJid attrs devices)
      dropPeerSession peer
      sendOnce msg n

def buildDsmPlaintext (chat : JID) (proto : Bytes) : CoM P Bytes :=
  padRandomMax16 env (env.e2e.deviceSent chat.base.str proto)

def Outgoing.sent (msg : Outgoing) : SentMessage where
  chat := msg.chat
  text := msg.text
  plaintext := msg.plaintext
  ownPlaintext := msg.ownPlaintext
  messageType := msg.messageType
  edit := msg.edit
  mediatype := msg.mediatype
  decryptFail := msg.decryptFail

def sendMessage (chat : JID) (proto : Bytes) (text : String) (messageType edit : Option String) :
    CoM P Unit := do
  let messageId ← draw env.messageId
  let plaintext ← padRandomMax16 env proto
  let ownPlaintext ← buildDsmPlaintext env chat proto
  let resolvedType := match messageType with
    | some t => if t ≠ "" then t else messageTypeFor env.e2e proto
    | none => messageTypeFor env.e2e proto
  let decryptFail := if resolvedType = "reaction" ∨ edit.isSome then "hide" else ""
  let msg : Outgoing :=
    { chat := chat, text := text, messageId := messageId, plaintext := plaintext
      ownPlaintext := ownPlaintext, messageType := resolvedType
      edit := edit, mediatype := env.e2e.mediaType proto, decryptFail := decryptFail }
  sendOnce env dev fetchPrekeys fetchDevices msg 1
  update (.setSent messageId msg.sent)

/-- The session of a bundle that came with a retry receipt. -/
def installBundle (peer : JID) : Option PreKeyBundle → CoM P Unit
  | none => pure ()
  | some bundle => do
    let run ← establishSessionFromBundle env dev bundle
    let sid := sessionId peer
    record (.install sid run) (.setSession sid run.session)
    update (.setMeta sid (run.peerMeta dev.registrationId))

def handleRetryReceipt (messageId : String) (peer : JID) (bundle : Option PreKeyBundle)
    (count : Int) : CoM P Unit := do
  let w ← Co.get
  match w.sent.get? messageId with
  | none => return
  | some cached =>
    if cached.retryCount ≥ 2 ∨ count > 2 then return
    else
      record (.resend messageId peer bundle)
        (.setSent messageId { cached with retryCount := cached.retryCount + 1 })
      dropPeerSession peer
      installBundle env dev peer bundle
      let plaintext :=
        if cached.ownPlaintext ≠ [] ∧ peer.base = dev.ownJid.base then cached.ownPlaintext
        else cached.plaintext
      let (encType, ciphertext) ← encryptForPeer env dev fetchPrekeys peer plaintext
      let stanza := buildMessageNode dev messageId cached.chat.base
        [buildParticipantNode peer encType ciphertext (some count) cached.mediatype
          cached.decryptFail]
        cached.messageType cached.edit
      let future ← routerRegister messageId
      Co.tryFinally
        (Co.tryCatch
          (do let frame ← Co.lift (env.encode stanza)
              transmit stanza (.body cached.chat) frame
              let _ ← Co.wait (Request.ack future))
          (fun e => if e = .timeoutError then routerCancel messageId else Co.raise e))
        (routerCancel messageId)

def distributeTo (plaintext : Bytes) : List JID → CoM P (List Node)
  | [] => pure []
  | device :: rest => do
    if sameFullJid device dev.ownJid then distributeTo plaintext rest
    else
      let (encType, ciphertext) ← encryptForPeer env dev fetchPrekeys device plaintext
      let nodes ← distributeTo plaintext rest
      return buildParticipantNode device encType ciphertext none "" "" :: nodes

def ownSenderKey (group : JID) : CoM P SenderKeyState := do
  let w ← Co.get
  match w.senderKeys.get? (group.str, sessionId dev.ownJid) with
  | some state => return state
  | none => do
    let signing ← draw env.keyPair
    let chainKey ← draw env.token
    let keyId := if dev.registrationId ≠ 0 then dev.registrationId else 1
    return createSenderKeyState keyId signing chainKey

def sendGroupText (group : JID) (text : String) (participants : List JID) : CoM P Unit := do
  let messageId ← draw env.messageId
  let state ← ownSenderKey env dev group
  let axolotl ← Co.lift (buildDistributionMessage env.pb state)
  let skdPlaintext ← padRandomMax16 env (env.e2e.senderKeyDistribution group.str axolotl)
  let content ← padRandomMax16 env (env.e2e.conversation text)
  let nonce ← draw env.token
  let (skmsg, state') ← Co.lift (groupEncrypt P env.pb nonce state content)
  record (.groupEncrypt group.str state skmsg)
    (.setSenderKey (group.str, sessionId dev.ownJid) state')
  let bases := participants.map JID.base
  let deviceMap ← fetchDevices bases
  let nodes ← distributeTo env dev fetchPrekeys skdPlaintext
    (dedupeDevices (devicesOf deviceMap bases))
  let stanza := buildGroupMessageNode dev messageId group nodes skmsg
  let future ← routerRegister messageId
  Co.tryFinally
    (do let frame ← Co.lift (env.encode stanza)
        transmit stanza (.group group) frame
        let _ ← Co.wait (Request.ack future))
    (routerCancel messageId)

end Sender

section Actions

/-! What the parts of `_encrypt_for_peer` do to the world, for any relation that contains
their saves. -/

variable {P : Primitives} {env : Env P} {dev : Device P} {A : World P → World P → Prop}

theorem draw_actions (hdraw : ∀ w n, A w (w.put (.setDrawn n))) {α : Type} (source : Nat → α) :
    (draw source : CoM P α).Each A := ⟨fun w => hdraw w _, fun _ => trivial⟩

theorem establishSession_actions (hdraw : ∀ w n, A w (w.put (.setDrawn n))) (bundle : PreKeyBundle) :
    (establishSessionFromBundle env dev bundle).Each A := by
  refine .bind (draw_actions hdraw _) fun ephemeral => .bind (.lift _) fun result => ?_
  exact .bind (draw_actions hdraw _) fun generated => .bind (.lift _) fun state => .ret _

theorem loadForPeer_actions {sid : String} (hrefl : ∀ w, A w w)
    (hmeta : ∀ w m, A w (w.log (.rehydrate sid) (.setMeta sid m))) :
    (loadForPeer sid : CoM P _).Each A := by
  refine .get_bind hrefl fun w => ?_
  split
  · exact .ret _
  · split
    · exact .ret _
    · split
      · exact .ret _
      · exact .bind (.modify fun w => hmeta w _) fun _ => .ret _

theorem encryptOn_actions {peer : JID} (hsave : ∀ w e session,
      A w (w.log (.encrypt e) (.setSession (sessionId peer) session)))
    (plaintext : Bytes) (session : Session) (m : PeerSessionMeta) :
    (encryptOn env dev peer plaintext session m).Each A := by
  rw [encryptOn]
  split
  · exact .ret _
  · exact .bind (.modify fun w => hsave w _ _) fun _ => .lift _

end Actions

end PyWhats
