import PyWhats.Sender

/-! The receive side (`receiver.py`): one handler per kind of stanza, run one after
the other by the receive loop. The retry handler is the sender over the same
stores. -/

namespace PyWhats

def readRetryBytes : Node → String → Except PyError Bytes := readChildBytes .valueError ""

/-- `_strip_signal_pubkey` of `receiver.py`. -/
def stripRetryPubkey (key : Bytes) : Except PyError Bytes :=
  if key.length = 33 then
    if key.head? ≠ some 0x05 then .error (.valueError "invalid Signal public key type byte")
    else .ok (key.drop 1)
  else if key.length ≠ 32 then .error (.valueError "invalid Signal public key length")
  else .ok key

def parseRetryKeys (P : Primitives) (keys : Node) : Except PyError PreKeyBundle := do
  let identityKey ← stripRetryPubkey (← readRetryBytes keys "identity")
  let some skey := keys.getChild "skey" | throw (.valueError "retry keys missing <skey>")
  let spkId ← readRetryBytes skey "id"
  let spkPub ← stripRetryPubkey (← readRetryBytes skey "value")
  let spkSig ← readRetryBytes skey "signature"
  let opk ← match keys.getChild "key" with
    | none => pure none
    | some opk => do
      let opkId ← readRetryBytes opk "id"
      let opkPub ← stripRetryPubkey (← readRetryBytes opk "value")
      pure (some (intOfBytes opkId, opkPub))
  let bundle : PreKeyBundle := {
    identityKey := identityKey
    signedPreKeyId := intOfBytes spkId
    signedPreKeyPublic := spkPub
    signedPreKeySignature := spkSig
    oneTimePreKeyId := opk.map Prod.fst
    oneTimePreKeyPublic := opk.map Prod.snd }
  if !(← bundle.verifySignature P) then
    throw (.valueError "retry keys SPK signature did not verify")
  return bundle

def parseInt (raw : String) (default : Int) : Int := (PyText.int? raw.toList).getD default

def stanzaTimestamp (node : Node) : Int := parseInt (node.getStrD "t" "0") 0

def parseReceipt (node : Node) : Except PyError Emitted := do
  let ids := node.getStr "id" :: (((node.getChild "list").map
    (fun lst => (lst.getChildren "item").map (fun item => item.getStr "id"))).getD [])
  let fromJid ← receiverJidFromAttr (node.getAttr "from")
  let participant ← match node.getAttr "participant" with
    | none => pure none
    | some p => some <$> receiverJidFromAttr (some p)
  return .receipt fromJid (ids.filter (fun id => id ≠ "")) (node.getStr "type")
    (parseInt (node.getStr "t") 0) participant

def parsePresence (node : Node) : Except PyError Emitted := do
  let last := node.getStr "last"
  let fromJid ← receiverJidFromAttr (node.getAttr "from")
  return .presence fromJid (node.getStr "type" = "unavailable")
    (if last ≠ "" ∧ last ≠ "deny" then some (parseInt last 0) else none)

def parseChatPresence (node : Node) : Except PyError Emitted := do
  let child := node.children.headD (.mk "paused" [] .none)
  let fromJid ← receiverJidFromAttr (node.getAttr "from")
  return .chatPresence fromJid child.tag (child.getStr "media")

def buildAckNode (node : Node) (ownJid : JID) : Node :=
  .mk "ack" ([("id", .str (node.getStr "id")),
      ("to", (node.getAttr "from").getD (.jid serverJid)), ("class", .str node.tag)] ++
    ["participant", "recipient", "type"].filterMap
      (fun key => (node.getAttr key).map (fun v => (key, v))) ++
    (if node.tag = "message" then [("from", AttrValue.jid ownJid)] else [])) .none

def selectEncNode (ownJid : JID) (node : Node) : Except PyError (Option Node) :=
  match node.getChild "enc" with
  | some flat => .ok (some flat)
  | none =>
    match node.getChild "participants" with
    | none => .ok none
    | some participants => go (participants.getChildren "to")
where
  go : List Node → Except PyError (Option Node)
    | [] => .ok none
    | dest :: rest => do
      let jid ← receiverJidFromAttr (dest.getAttr "jid")
      if sameFullJid jid ownJid then return dest.getChild "enc"
      else go rest

/-- `get_signed_pre_key` of the client's identity adapter. -/
def getSignedPreKey {P : Primitives} (dev : Device P) (keyId : Nat) :
    Except PyError (SignedPreKey P) :=
  if keyId ≠ dev.signedPreKey.keyId then
    .error (.valueError ("unknown signed pre-key id " ++ toString keyId))
  else .ok dev.signedPreKey

section Receiver

variable {P : Primitives} (env : Env P) (dev : Device P)

/-- `migrate_pn_session_to_lid` as one transaction. -/
def migratePnSessionToLid (pn lid : JID) : CoM P Unit := do
  let w ← Co.get
  match w.sessions.get? (sessionId pn), w.sessions.get? (sessionId lid) with
  | some session, none =>
    record (.migrate (sessionId pn) (sessionId lid))
      (.migrate (sessionId pn) (sessionId lid) session)
  | _, _ => return

def migrateKnownLidSender (sender : JID) : CoM P Unit := do
  let w ← Co.get
  if sender.server ≠ "lid" ∨ (w.sessions.get? (sessionId sender)).isSome then return
  else
    match w.lidMap.getPn sender.user with
    | none => return
    | some pnUser =>
      let pn : JID := { user := pnUser, server := "s.whatsapp.net", device := sender.device }
      migratePnSessionToLid pn sender

def lookupOneTimePreKey (keyId : Option Nat) : CoM P (Option (OneTimePreKey P)) := do
  match keyId with
  | none => return none
  | some id =>
    let w ← Co.get
    match w.prekeys.get? id with
    | none => Co.raise (.valueError ("unknown one-time pre-key id " ++ toString id))
    | some opk => return some opk

/-- The `pkmsg` branch of `_decrypt_enc`: run X3DH as responder, decrypt on the new
session, then consume the prekey and store session and identity together. -/
def decryptPkmsg (channel : Channel) (sender : JID) (ciphertext : Bytes) : CoM P Bytes := do
  let sid := sessionId sender
  let pkmsg ← Co.lift (PreKeySignalMessage.decode env.pb ciphertext)
  let spk ← Co.lift (getSignedPreKey dev pkmsg.signedPreKeyId)
  let opk ← lookupOneTimePreKey pkmsg.oneTimePreKeyId
  let result ← Co.lift
    (x3dhResponder P dev.identity spk opk pkmsg.identityKey pkmsg.baseKey)
  let start := ratchetInitBob result.sharedSecret spk.pair.priv spk.pair.pub
  let ad := pkmsg.identityKey ++ dev.identity.pub
  let generated ← draw env.keyPair
  match ratchetDecrypt P generated pkmsg.message.header pkmsg.message.ciphertext ad
      (some (pkmsg.message.verifyMac P pkmsg.identityKey dev.identity.pub)) start with
  | .error e _ => Co.raise e
  | .ok plaintext state => do
    record (.acceptPrekey sid pkmsg.identityKey channel)
      (.acceptPrekey sid pkmsg.oneTimePreKeyId ⟨state, .accepted pkmsg.identityKey start, true⟩
        pkmsg.identityKey)
    return plaintext

def decryptMsg (channel : Channel) (sender : JID) (ciphertext : Bytes) : CoM P Bytes := do
  let sid := sessionId sender
  let w ← Co.get
  match w.sessions.get? sid with
  | none => Co.raise (.valueError ("no session for peer " ++ sender.str))
  | some session =>
    match w.identities.get? sid with
    | none => Co.raise (.valueError ("no cached peer identity for " ++ sender.str))
    | some peerIdentity => do
      let inner ← Co.lift (SignalMessage.decode env.pb ciphertext)
      let ad := peerIdentity ++ dev.identity.pub
      let generated ← draw env.keyPair
      match ratchetDecrypt P generated inner.header inner.ciphertext ad
          (some (inner.verifyMac P peerIdentity dev.identity.pub)) session.state with
      | .error e _ => Co.raise e
      | .ok plaintext state => do
        record (.acceptMessage sid channel)
          (.setSession sid { session with state := state, heard := true })
        return plaintext

def decryptEnc (channel : Channel) (sender : JID) (encType : String) (ciphertext : Bytes) :
    CoM P Bytes := do
  migrateKnownLidSender sender
  if encType = "pkmsg" then decryptPkmsg env dev channel sender ciphertext
  else if encType = "msg" then decryptMsg env dev channel sender ciphertext
  else Co.raise (.valueError ("unsupported enc.type '" ++ encType ++ "'"))

def recordPeerAddressing (node : Node) (sender : JID) : CoM P Unit := do
  if sender.server = "lid" then
    let alt ← Co.lift (receiverJidFromAttr (node.getAttr "sender_pn"))
    if alt.user ≠ "" ∧ alt.server ≠ "lid" then
      update fun s => { s with lidMap := s.lidMap.set alt.user sender.user }
  else if sender.server = "s.whatsapp.net" then
    let alt ← Co.lift (receiverJidFromAttr (node.getAttr "sender_lid"))
    if alt.user ≠ "" ∧ alt.server = "lid" then
      update fun s => { s with lidMap := s.lidMap.set sender.user alt.user }

/-- `except Exception`: log and go on. -/
def guarded (p : CoM P Unit) : CoM P Unit :=
  Co.tryCatch p (fun e => if e.isException then pure () else Co.raise e)

def safeEmit (event : Emitted) : CoM P Unit := guarded (Co.wait (Request.emit event))

def sendAck (node : Node) : CoM P Unit := sendNode env (buildAckNode node dev.ownJid)

def receiptAttrs (node : Node) (kind : String) (dest : JID) : List (String × AttrValue) :=
  [("id", .str (node.getStr "id")), ("type", .str kind), ("to", .jid dest)] ++
    ((node.getAttr "participant").map (fun p => ("participant", p))).toList

/-- `int(regid).to_bytes(4, "big")`, which raises when the number does not fit. -/
def registrationBytes (registrationId : Nat) : Except PyError Bytes :=
  if registrationId < 0x100000000 then
    .ok [UInt8.ofNat (registrationId / 0x1000000), UInt8.ofNat (registrationId / 0x10000),
      UInt8.ofNat (registrationId / 0x100), UInt8.ofNat registrationId]
  else .error (.valueError "int too big to convert")

def sendRetryReceipt (node : Node) (sender : JID) : CoM P Unit := do
  let messageId := node.getStr "id"
  if messageId = "" then return
  else
    let t := node.getStr "t"
    let regid ← Co.lift (registrationBytes dev.registrationId)
    sendNode env (.mk "receipt" (receiptAttrs node "retry" sender) (.nodes [
      .mk "retry" [("count", .str "1"), ("id", .str messageId),
        ("t", .str (if t ≠ "" then t else "0")), ("v", .str "1")] .none,
      .mk "registration" [] (.bytes regid)]))

def sendDeliveryReceipt (node : Node) (dest : JID) : CoM P Unit :=
  guarded (sendNode env (.mk "receipt" (receiptAttrs node "delivery" dest) .none))

def handleEditOrRevoke (proto : Bytes) (chat sender : JID) (timestamp : Int) (node : Node) :
    CoM P Bool := do
  let inner := match env.e2e.editedInner proto with
    | some inner => if (env.e2e.protocolType inner).isSome then inner else proto
    | none => proto
  match env.e2e.protocolType inner with
  | some (some .messageEdit) => do
    safeEmit (.messageEdit chat sender (env.e2e.targetId inner) (env.e2e.editedText inner) timestamp)
    sendDeliveryReceipt env node sender
    return true
  | some (some .revoke) => do
    safeEmit (.messageRevoke chat sender (env.e2e.targetId inner) timestamp)
    sendDeliveryReceipt env node sender
    return true
  | _ => return false

/-- `_handle_protocol_message`, as far as it starts background work. -/
def handleProtocolMessage (proto : Bytes) (sender : JID) : CoM P Unit := do
  if (env.e2e.protocolType proto).isSome ∧ env.e2e.historySync proto ∧
      sender.user = dev.ownJid.user then
    update fun s => { s with background := s.background ++ [.historySync] }

/-- What is left to do with a decrypted 1:1 message: unpad, parse, emit, receipt. -/
def dispatchPlaintext (node : Node) (sender : JID) (plaintext : Bytes) : CoM P Unit := do
  let messageId := node.getStr "id"
  let timestamp := stanzaTimestamp node
  match unpadRandomMax16 plaintext with
  | .error e => safeEmit (.decryptError messageId ("pad: " ++ e.text))
  | .ok proto =>
    if !env.e2e.parses proto then safeEmit (.decryptError messageId "proto: Error parsing message")
    else
      match env.e2e.reaction proto with
      | some reaction => do
        safeEmit (.reaction sender sender reaction)
        sendDeliveryReceipt env node sender
      | none => do
        let handled ← handleEditOrRevoke env proto sender sender timestamp node
        if handled then return
        else
          handleProtocolMessage env dev proto sender
          safeEmit (.message messageId sender sender (env.e2e.text proto) timestamp
            (env.e2e.media proto) (env.e2e.quoted proto))
          sendDeliveryReceipt env node sender

/-- Decrypt a 1:1 ciphertext and tell the sender; a failed decrypt is reported as a
value, since its handler suspends. -/
def decryptDirect (sender : JID) (encType : String) (ciphertext : Bytes) :
    CoM P (Except PyError Bytes) :=
  Co.tryCatch
    (do let plaintext ← decryptEnc env dev .direct sender encType ciphertext
        noteIncomingDecrypted sender
        return .ok plaintext)
    (fun e => return .error e)

def ingestGroupSkdm (enc : Node) (group participant : JID) : CoM P Unit := do
  let result ← Co.tryCatch
    (do let plaintext ← decryptEnc env dev .group participant (enc.getStr "type") enc.contentBytes
        return some plaintext)
    (fun _ => return none)
  match result.bind (fun plaintext => (unpadRandomMax16 plaintext).toOption) with
  | none => return
  | some proto =>
    if !env.e2e.parses proto then return
    else
      match env.e2e.distribution proto with
      | none => return
      | some axolotl =>
        if axolotl = [] then return
        else
          match processDistributionMessage env.pb axolotl with
          | .error _ => return
          | .ok state => update (.setSenderKey (group.str, sessionId participant) state)

def ingestAll (group participant : JID) : List Node → CoM P Unit
  | [] => pure ()
  | enc :: rest => do
    if enc.getStr "type" = "pkmsg" ∨ enc.getStr "type" = "msg" then
      ingestGroupSkdm env dev enc group participant
    ingestAll group participant rest

def decryptSkmsg (group participant : JID) (skmsg : Bytes) : CoM P (Option (Except String Bytes)) := do
  let w ← Co.get
  match w.senderKeys.get? (group.str, sessionId participant) with
  | none => return none
  | some state =>
    match groupDecrypt P env.pb state skmsg with
    | .error e => return some (.error ("skmsg: " ++ e.text))
    | .ok (plaintext, state') => do
      update (.setSenderKey (group.str, sessionId participant) state')
      match unpadRandomMax16 plaintext with
      | .error e => return some (.error ("skmsg: " ++ e.text))
      | .ok proto => return some (if env.e2e.parses proto then .ok proto
          else .error "skmsg: Error parsing message")

def handleGroupMessage (node : Node) (group : JID) : CoM P Unit := do
  let messageId := node.getStr "id"
  let participant ← Co.lift (receiverJidFromAttr (node.getAttr "participant"))
  ingestAll env dev group participant (node.getChildren "enc")
  match (node.getChildren "enc").find? (fun e => e.getStr "type" = "skmsg") with
  | none => return
  | some skmsgEnc =>
    match ← decryptSkmsg env group participant skmsgEnc.contentBytes with
    | none => safeEmit (.decryptError messageId "no sender key")
    | some (.error reason) => safeEmit (.decryptError messageId reason)
    | some (.ok proto) => do
      safeEmit (.message messageId group participant (env.e2e.text proto) (stanzaTimestamp node)
        none none)
      sendDeliveryReceipt env node group

def handleMessage (node : Node) : CoM P Unit := do
  let sender ← Co.lift (receiverJidFromAttr (node.getAttr "from"))
  if sender.server = "g.us" then handleGroupMessage env dev node sender
  else if sender.user = "status" ∧ sender.server = "broadcast" then return
  else
    recordPeerAddressing node sender
    match ← Co.lift (selectEncNode dev.ownJid node) with
    | none => return
    | some enc =>
      match ← decryptDirect env dev sender (enc.getStr "type") enc.contentBytes with
      | .error e => do
        safeEmit (.decryptError (node.getStr "id") e.text)
        guarded (sendRetryReceipt env dev node sender)
      | .ok plaintext => dispatchPlaintext env dev node sender plaintext

variable (fetchPrekeys : JID → CoM P PreKeyBundle)

def retryBundle (P : Primitives) (node : Node) : Option PreKeyBundle :=
  (node.getChild "keys").bind (fun keys => (parseRetryKeys P keys).toOption)

def retryCountOf (node : Node) : Int :=
  match node.getChild "retry" with
  | none => 1
  | some retry => parseInt (retry.getStrD "count" "1") 1

def retryPeerAttr (node : Node) : Option AttrValue :=
  match node.getAttr "participant" with
  | some (.str "") => node.getAttr "from"
  | some (.int 0) => node.getAttr "from"
  | some v => some v
  | none => node.getAttr "from"

def handleReceipt (node : Node) : CoM P Unit := do
  if node.getStr "type" ≠ "retry" then
    let receipt ← Co.lift (parseReceipt node)
    safeEmit receipt
    sendAck env dev node
  else
    let peer ← Co.lift (receiverJidFromAttr (retryPeerAttr node))
    if node.getStr "id" ≠ "" ∧ peer.user ≠ "" then
      handleRetryReceipt env dev fetchPrekeys (node.getStr "id") peer (retryBundle P node)
        (retryCountOf node)
    sendAck env dev node

def handleAck (node : Node) : CoM P Unit := do
  let ackId := node.getStr "id"
  if ackId = "" then return
  else
    match node.getChild "retry", node.getAttr "error" with
    | none, none => routerResolve ackId .ack
    | retry, error => routerResolve ackId (.retry
        (((retry.map Node.attrs).getD []).map (fun a => (a.1, a.2.text)) ++
          (error.map (fun e => ("error", e.text))).toList))

def handleIq (node : Node) : CoM P Unit := do
  let iqId := node.getStr "id"
  if iqId = "" then return
  else if node.getStr "type" = "result" ∨ node.getStr "type" = "error" then iqResolve iqId node
  else
    sendNode env (.mk "iq" ([("type", .str "result"), ("id", .str iqId)] ++
      ((node.getAttr "from").map (fun f => ("to", f))).toList) .none)

/-- `IbDispatcher.handle_ib`: only an offline preview is answered. -/
def handleIb : List Node → CoM P Unit
  | [] => pure ()
  | child :: rest => do
    if child.tag = "offline_preview" then
      guarded (sendNode env (.mk "ib" [] (.nodes [
        .mk "offline_batch" [("count", .str "100")] .none])))
    handleIb rest

def emitLoggedOut (code : String) : CoM P Unit := do
  if code = "401" ∨ code = "403" then safeEmit (.loggedOut code)

def handleNode (node : Node) : CoM P Unit := do
  if node.tag = "message" then handleMessage env dev node
  else if node.tag = "ack" then handleAck node
  else if node.tag = "iq" then handleIq env node
  else if node.tag = "receipt" then handleReceipt env dev fetchPrekeys node
  else if node.tag = "success" then
    update fun s => { s with background := s.background ++ [.onSuccess node] }
  else if node.tag = "ib" then handleIb env node.children
  else if node.tag = "presence" then do
    let presence ← Co.lift (parsePresence node)
    safeEmit presence
  else if node.tag = "chatstate" then do
    let chatPresence ← Co.lift (parseChatPresence node)
    safeEmit chatPresence
  else if node.tag = "notification" then do
    if node.getStr "type" = "server_sync" then
      update fun s => { s with background := s.background ++ [.serverSync node] }
    sendAck env dev node
  else if node.tag = "failure" then
    emitLoggedOut (if node.getStr "reason" ≠ "" then node.getStr "reason" else "?")
  else if node.tag = "stream:error" then emitLoggedOut (node.getStr "code")
  else return

def handleFrame (frame : Bytes) : CoM P Unit :=
  match env.decode frame with
  | .error _ => return
  | .ok node => handleNode env dev fetchPrekeys node

end Receiver

end PyWhats
