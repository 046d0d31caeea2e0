import PyWhats.Bursts
import PyWhats.ReceiveLoop

/-! What the receive loop says to the outside while it handles a stanza: the events it
emits and the stanzas it sends, whatever the stores are, whatever runs beside it and
however its handlers and the transport answer. -/

namespace PyWhats

variable {P : Primitives} (env : Env P) (dev : Device P)

section Replies

def sendOf (node : Node) : List Request :=
  match env.encode node with
  | .ok frame => [.send frame]
  | .error _ => []

def retryReceipt (node : Node) (sender : JID) (regid : Bytes) : Node :=
  .mk "receipt" (receiptAttrs node "retry" sender) (.nodes [
    .mk "retry" [("count", .str "1"), ("id", .str (node.getStr "id")),
      ("t", .str (if node.getStr "t" ≠ "" then node.getStr "t" else "0")), ("v", .str "1")] .none,
    .mk "registration" [] (.bytes regid)])

def deliveryReceipt (node : Node) (dest : JID) : Node :=
  .mk "receipt" (receiptAttrs node "delivery" dest) .none

/-- The event a decrypted message is shown as. -/
def Surfaces (node : Node) (dest : JID) : Emitted → Prop
  | .message id chat _ _ _ _ _ => id = node.getStr "id" ∧ chat = dest
  | .reaction chat _ _ => chat = dest
  | .messageEdit chat _ _ _ _ => chat = dest
  | .messageRevoke chat _ _ _ => chat = dest
  | _ => False

/-- A message stanza with nothing in it for this device. -/
inductive Idle (node : Node) : Prop
  | group {chat : JID} (hfrom : receiverJidFromAttr (node.getAttr "from") = .ok chat)
      (hgroup : chat.server = "g.us")
      (hnone : (node.getChildren "enc").find? (fun e => e.getStr "type" = "skmsg") = none)
  | status {chat : JID} (hfrom : receiverJidFromAttr (node.getAttr "from") = .ok chat)
      (hstatus : chat.user = "status" ∧ chat.server = "broadcast")
  | noEnc (hnone : selectEncNode dev.ownJid node = .ok none)

/-- The conversations about a message stanza: nothing, a failure and perhaps a retry
receipt, or one event and then the delivery receipt. -/
inductive MessageTalk (node : Node) : List Request → Prop
  | idle (h : Idle dev node) : MessageTalk node []
  | failed (reason : String) : MessageTalk node [.emit (.decryptError (node.getStr "id") reason)]
  | retried (reason : String) {sender : JID} {regid : Bytes}
      (hfrom : receiverJidFromAttr (node.getAttr "from") = .ok sender)
      (hregid : registrationBytes dev.registrationId = .ok regid) :
      MessageTalk node (.emit (.decryptError (node.getStr "id") reason) ::
        sendOf env (retryReceipt node sender regid))
  | shown {event : Emitted} {dest : JID}
      (hfrom : receiverJidFromAttr (node.getAttr "from") = .ok dest)
      (hevent : Surfaces node dest event) :
      MessageTalk node (.emit event :: sendOf env (deliveryReceipt node dest))

def iqResult (node : Node) : Node :=
  .mk "iq" ([("type", .str "result"), ("id", .str (node.getStr "id"))] ++
    ((node.getAttr "from").map (fun f => ("to", f))).toList) .none

def offlineBatch : Node :=
  .mk "ib" [] (.nodes [.mk "offline_batch" [("count", .str "100")] .none])

def emitOf : Except PyError Emitted → List Request
  | .ok event => [.emit event]
  | .error _ => []

def loggedOutOf (code : String) : List Request :=
  if code = "401" ∨ code = "403" then [.emit (.loggedOut code)] else []

/-- Perhaps the query for a prekey bundle of the peer. -/
def PrekeyTalk (peer : JID) (l : List Request) : Prop :=
  l = [] ∨ ∃ iqId future, l = sendOf env (buildPrekeyQuery peer iqId) ++ [.iq future]

/-- The stanza with a message body, and its ack. -/
def BodyTalk (messageId : String) (l : List Request) : Prop :=
  ∃ stanza future, stanza.tag = "message" ∧ stanza.getStr "id" = messageId ∧
    l <+: sendOf env stanza ++ [.ack future]

def ResendTalk (node : Node) (l : List Request) : Prop :=
  l = [] ∨ ∃ peer, receiverJidFromAttr (retryPeerAttr node) = .ok peer ∧
    Co.Joined (PrekeyTalk env peer) (BodyTalk env (node.getStr "id")) l

/-- The conversations about a stanza. -/
def StanzaTalk (node : Node) (l : List Request) : Prop :=
  if node.tag = "message" then MessageTalk env dev node l
  else if node.tag = "iq" then
    l = if node.getStr "id" = "" ∨ node.getStr "type" = "result" ∨ node.getStr "type" = "error"
      then [] else sendOf env (iqResult node)
  else if node.tag = "receipt" then
    if node.getStr "type" = "retry" then
      Co.Joined (ResendTalk env node) (· = sendOf env (buildAckNode node dev.ownJid)) l
    else l = emitOf (parseReceipt node) ++ sendOf env (buildAckNode node dev.ownJid)
  else if node.tag = "ib" then
    l = node.children.flatMap fun child =>
      if child.tag = "offline_preview" then sendOf env offlineBatch else []
  else if node.tag = "presence" then l = emitOf (parsePresence node)
  else if node.tag = "chatstate" then l = emitOf (parseChatPresence node)
  else if node.tag = "notification" then l = sendOf env (buildAckNode node dev.ownJid)
  else if node.tag = "failure" then
    l = loggedOutOf (if node.getStr "reason" ≠ "" then node.getStr "reason" else "?")
  else if node.tag = "stream:error" then l = loggedOutOf (node.getStr "code")
  else l = []

def FrameTalk (frame : Bytes) (l : List Request) : Prop :=
  match env.decode frame with
  | .error _ => l = []
  | .ok node => StanzaTalk env dev node l

end Replies

section Handlers

variable {env dev} {node : Node}

theorem guarded_tells {p : CoM P Unit} {l : List Request} (hp : p.Tells l) : (guarded p).Tells l :=
  hp.tryCatch (A := Sheds) fun e => by
    split
    · trivial
    · trivial

theorem safeEmit_tells (event : Emitted) : (safeEmit event : CoM P Unit).Tells [.emit event] :=
  guarded_tells (Co.tells_wait _)

theorem sendNode_tells (node : Node) : (sendNode env node).Tells (sendOf env node) := by
  rw [sendNode, sendOf]
  cases env.encode node with
  | error e => exact Co.tells_ret _
  | ok frame => exact Co.tells_wait (Request.send frame)

theorem sendDeliveryReceipt_tells (dest : JID) :
    (sendDeliveryReceipt env node dest).Tells (sendOf env (deliveryReceipt node dest)) :=
  guarded_tells (sendNode_tells _)

theorem sendRetryReceipt_speaks (sender : JID) :
    (guarded (sendRetryReceipt env dev node sender)).Speaks fun l => l = [] ∨
      ∃ regid, registrationBytes dev.registrationId = .ok regid ∧
        l = sendOf env (retryReceipt node sender regid) := by
  have htells : (guarded (sendRetryReceipt env dev node sender)).Tells [] ∨
      ∃ regid, registrationBytes dev.registrationId = .ok regid ∧
        (guarded (sendRetryReceipt env dev node sender)).Tells
          (sendOf env (retryReceipt node sender regid)) := by
    rw [sendRetryReceipt]
    by_cases hid : node.getStr "id" = ""
    · rw [if_pos hid]
      exact Or.inl (guarded_tells (Co.tells_ret _))
    · rw [if_neg hid]
      cases registrationBytes dev.registrationId with
      | error e => exact Or.inl (guarded_tells (Co.tells_ret _))
      | ok regid => exact Or.inr ⟨regid, rfl, guarded_tells (sendNode_tells _)⟩
  rcases htells with h | ⟨regid, hregid, h⟩
  · exact h.speaks (Or.inl rfl)
  · exact h.speaks (Or.inr ⟨regid, hregid, rfl⟩)

theorem shown_speaks {event : Emitted} {dest : JID}
    (hfrom : receiverJidFromAttr (node.getAttr "from") = .ok dest)
    (hevent : Surfaces node dest event) :
    (safeEmit event >>= fun _ => sendDeliveryReceipt env node dest).Speaks
      (MessageTalk env dev node) := by
  refine ((safeEmit_tells event).bind_speaks fun _ =>
    (sendDeliveryReceipt_tells dest).speaks rfl).mono ?_
  rintro _ rfl
  exact .shown hfrom hevent

theorem failed_speaks (reason : String) :
    (safeEmit (.decryptError (node.getStr "id") reason) : CoM P Unit).Speaks
      (MessageTalk env dev node) :=
  (safeEmit_tells _).speaks (.failed reason)

theorem retried_speaks {sender : JID} (reason : String)
    (hfrom : receiverJidFromAttr (node.getAttr "from") = .ok sender) :
    (safeEmit (.decryptError (node.getStr "id") reason) >>= fun _ =>
      guarded (sendRetryReceipt env dev node sender)).Speaks (MessageTalk env dev node) := by
  refine (Co.Speaks.bind ((safeEmit_tells (.decryptError (node.getStr "id") reason)).speaks
    (L := (· = [_])) rfl) (fun _ => sendRetryReceipt_speaks sender) (Or.inl rfl)).mono ?_
  rintro _ ⟨_, l, rfl, rfl | ⟨regid, hregid, rfl⟩, rfl⟩
  · exact .failed reason
  · exact .retried reason hfrom hregid

theorem handleEditOrRevoke_speaks {sender : JID} {rest : CoM P Unit} (proto : Bytes)
    (timestamp : Int) (hfrom : receiverJidFromAttr (node.getAttr "from") = .ok sender)
    (hrest : rest.Speaks (MessageTalk env dev node)) :
    (handleEditOrRevoke env proto sender sender timestamp node >>= fun handled =>
      if handled then pure () else rest).Speaks (MessageTalk env dev node) := by
  rw [handleEditOrRevoke]
  split
  · simp only [bind_assoc, pure_bind, if_true, bind_pure_unit]
    exact shown_speaks hfrom rfl
  · simp only [bind_assoc, pure_bind, if_true, bind_pure_unit]
    exact shown_speaks hfrom rfl
  · exact hrest

theorem dispatchPlaintext_speaks {sender : JID} (plaintext : Bytes)
    (hfrom : receiverJidFromAttr (node.getAttr "from") = .ok sender) :
    (dispatchPlaintext env dev node sender plaintext).Speaks (MessageTalk env dev node) := by
  have hmessage : ∀ proto, (handleProtocolMessage env dev proto sender >>= fun _ =>
      safeEmit (.message (node.getStr "id") sender sender (env.e2e.text proto)
        (stanzaTimestamp node) (env.e2e.media proto) (env.e2e.quoted proto)) >>= fun _ =>
      sendDeliveryReceipt env node sender).Speaks (MessageTalk env dev node) := fun proto =>
    (handleProtocolMessage_mute env dev proto sender).bind_speaks
      (fun _ => shown_speaks hfrom ⟨rfl, rfl⟩) (.failed "")
  rw [dispatchPlaintext]
  cases unpadRandomMax16 plaintext with
  | error e => exact failed_speaks _
  | ok proto =>
    simp only
    split
    · exact failed_speaks _
    · split
      · exact shown_speaks hfrom rfl
      · exact handleEditOrRevoke_speaks proto _ hfrom (hmessage proto)

theorem handleGroupMessage_speaks {group : JID}
    (hfrom : receiverJidFromAttr (node.getAttr "from") = .ok group) (hgroup : group.server = "g.us") :
    (handleGroupMessage env dev node group).Speaks (MessageTalk env dev node) := by
  rw [handleGroupMessage]
  refine Co.speaks_lift_bind (fun participant _ => ?_) (.failed "")
  refine (ingestAll_mute env dev group participant _).bind_speaks (fun _ => ?_) (.failed "")
  split
  · rename_i hnone
    exact (Co.tells_ret _).speaks (.idle (.group hfrom hgroup hnone))
  · refine (decryptSkmsg_mute env group participant _).bind_speaks (fun shown => ?_) (.failed "")
    rcases shown with _ | reason | proto
    · exact failed_speaks _
    · exact failed_speaks _
    · exact shown_speaks hfrom ⟨rfl, rfl⟩

theorem handleMessage_speaks (node : Node) :
    (handleMessage env dev node).Speaks (MessageTalk env dev node) := by
  rw [handleMessage]
  refine Co.speaks_lift_bind (fun sender hfrom => ?_) (.failed "")
  split
  · rename_i hgroup
    exact handleGroupMessage_speaks hfrom hgroup
  · split
    · rename_i hstatus
      exact (Co.tells_ret _).speaks (.idle (.status hfrom hstatus))
    · refine (recordPeerAddressing_mute node sender).bind_speaks (fun _ => ?_) (.failed "")
      refine Co.speaks_lift_bind (fun found henc => ?_) (.failed "")
      cases found with
      | none => exact (Co.tells_ret _).speaks (.idle (.noEnc henc))
      | some enc =>
        refine (decryptDirect_mute env dev sender _ _).bind_speaks (fun result => ?_) (.failed "")
        cases result with
        | error e => exact retried_speaks _ hfrom
        | ok plaintext => exact dispatchPlaintext_speaks plaintext hfrom

theorem prekeyFetcher_speaks (peer : JID) : (prekeyFetcher env peer).Speaks (PrekeyTalk env peer) := by
  have hquery : ∀ iqId, (iqRegister iqId >>= fun future =>
      Co.tryFinally (sendNode env (buildPrekeyQuery peer iqId) >>= fun _ =>
        Co.wait (Request.iq future)) (iqCancel iqId)).Speaks (PrekeyTalk env peer) := by
    intro iqId
    refine (iqRegister_mute iqId).bind_speaks (fun future => ?_) (Or.inl rfl)
    have hsend : (sendNode env (buildPrekeyQuery peer iqId)).Tells _ := sendNode_tells _
    have hwait : (Co.wait (Request.iq future) : CoM P Node).Speaks (· = [.iq future]) :=
      (Co.tells_wait _).speaks rfl
    have htells := hsend.bind_speaks fun _ => hwait
    exact (htells.mono fun l h => Or.inr ⟨iqId, future, h⟩).tryFinally (iqCancel_mute iqId)
  have hlift : ∀ result : Node, (Co.lift (parsePrekeyResponse P result peer) :
      CoM P PreKeyBundle).Speaks (· = []) := fun result => (Co.tells_ret _).speaks rfl
  refine (Co.Speaks.bind ((draw_mute _).bind_speaks hquery (Or.inl rfl)) hlift rfl).mono ?_
  rintro _ ⟨l, _, hl, rfl, rfl⟩
  rwa [List.append_nil]

theorem encryptForPeer_speaks (peer : JID) (plaintext : Bytes) :
    (encryptForPeer env dev (prekeyFetcher env) peer plaintext).Speaks (PrekeyTalk env peer) := by
  rw [encryptForPeer]
  refine (loadForPeer_mute _).bind_speaks (fun loaded => ?_) (Or.inl rfl)
  rcases loaded with _ | ⟨session, m⟩
  · refine (Co.Speaks.bind (prekeyFetcher_speaks peer) (fun bundle =>
      (encryptOnBundle_mute env dev peer plaintext bundle).tells.speaks (L := (· = [])) rfl)
      rfl).mono ?_
    rintro _ ⟨l, _, hl, rfl, rfl⟩
    rwa [List.append_nil]
  · exact (encryptOn_mute env dev peer plaintext session m).tells.speaks (Or.inl rfl)

theorem transmit_tells (stanza : Node) (purpose : Purpose) (frame : Bytes) :
    (transmit stanza purpose frame : CoM P Unit).Tells [.send frame] := by
  intro said s
  exact Co.tells_wait (Request.send frame) said

theorem bodyTalk_nil (messageId : String) : BodyTalk env messageId [] :=
  ⟨.mk "message" [("id", .str messageId)] .none, 0, rfl, rfl, List.nil_prefix⟩

theorem sendBody_speaks {stanza : Node} {messageId : String} (purpose : Purpose) (future : Nat)
    (htag : stanza.tag = "message") (hid : stanza.getStr "id" = messageId) :
    (Co.tryFinally
      (Co.tryCatch
        (Co.lift (env.encode stanza) >>= fun frame => transmit stanza purpose frame >>= fun _ =>
          Co.wait (Request.ack future) >>= fun _ => pure ())
        (fun e => if e = .timeoutError then routerCancel messageId else Co.raise e))
      (routerCancel messageId) : CoM P Unit).Speaks (BodyTalk env messageId) := by
  refine Co.Speaks.tryFinally (Co.Speaks.tryCatch (A := Sheds) ?_ ?_ fun e => ?_)
    (routerCancel_mute messageId)
  · have hall : BodyTalk env messageId (sendOf env stanza ++ [.ack future]) :=
      ⟨stanza, future, htag, hid, List.prefix_refl _⟩
    cases hencode : env.encode stanza with
    | error e => exact Co.speaks_raise e (bodyTalk_nil messageId)
    | ok frame =>
      have hack : ∀ _ : Unit, ((Co.wait (Request.ack future) : CoM P AckReply) >>= fun _ =>
          pure ()).Speaks (· = [.ack future]) := fun _ =>
        (Co.tells_wait (Request.ack future)).bind_speaks fun _ => (Co.tells_ret _).speaks rfl
      refine ((transmit_tells stanza purpose frame).bind_speaks hack).mono ?_
      rintro _ rfl
      simpa only [sendOf, hencode] using hall
  · rintro l l' ⟨stanza, future, htag, hid, hl⟩ hl'
    exact ⟨stanza, future, htag, hid, hl'.trans hl⟩
  · split
    · exact routerCancel_mute messageId
    · trivial

theorem handleRetryReceipt_speaks {peer : JID} (bundle : Option PreKeyBundle) (count : Int)
    (hpeer : receiverJidFromAttr (retryPeerAttr node) = .ok peer) :
    (handleRetryReceipt env dev (prekeyFetcher env) (node.getStr "id") peer bundle count).Speaks
      (ResendTalk env node) := by
  rw [handleRetryReceipt]
  refine Co.Speaks.get_bind fun w => ?_
  cases w.sent.get? (node.getStr "id") with
  | none => exact (Co.tells_ret _).speaks (Or.inl rfl)
  | some cached =>
    simp only
    split
    · exact (Co.tells_ret _).speaks (Or.inl rfl)
    · refine Co.Mute.bind_speaks (record_mute _ ?_) (fun _ => ?_) (Or.inl rfl)
      · exact fun _ => rfl
      refine (dropPeerSession_mute peer).bind_speaks (fun _ => ?_) (Or.inl rfl)
      refine (installBundle_mute env dev peer bundle).bind_speaks (fun _ => ?_) (Or.inl rfl)
      refine Co.Speaks.mono (Co.Speaks.bind (encryptForPeer_speaks peer _) (fun out => ?_)
        (bodyTalk_nil (node.getStr "id"))) fun l hl => Or.inr ⟨peer, hpeer, hl⟩
      refine (routerRegister_mute _).bind_speaks (fun future => ?_) (bodyTalk_nil _)
      exact sendBody_speaks _ future rfl rfl

theorem handleReceipt_speaks (node : Node) :
    (handleReceipt env dev (prekeyFetcher env) node).Speaks fun l =>
      if node.getStr "type" = "retry" then
        Co.Joined (ResendTalk env node) (· = sendOf env (buildAckNode node dev.ownJid)) l
      else l = emitOf (parseReceipt node) ++ sendOf env (buildAckNode node dev.ownJid) := by
  have hack : ∀ _ : Unit, (sendAck env dev node).Speaks
      (· = sendOf env (buildAckNode node dev.ownJid)) := fun _ => (sendNode_tells _).speaks rfl
  rw [handleReceipt]
  by_cases hretry : node.getStr "type" = "retry"
  · simp only [hretry, ne_eq, not_true_eq_false, if_false, if_true]
    refine Co.speaks_lift_bind (fun peer hpeer => ?_) ⟨[], _, Or.inl rfl, rfl, rfl⟩
    by_cases hresend : node.getStr "id" ≠ "" ∧ peer.user ≠ ""
    · rw [if_pos hresend]
      exact Co.Speaks.bind (handleRetryReceipt_speaks _ _ hpeer) hack rfl
    · rw [if_neg hresend]
      exact (hack ()).mono fun l hl => ⟨[], l, Or.inl rfl, hl, rfl⟩
  · simp only [hretry, ne_eq, not_false_eq_true, if_true, if_false]
    cases parseReceipt node with
    | error e => exact Co.speaks_raise e rfl
    | ok receipt => exact (safeEmit_tells receipt).bind_speaks hack

theorem handleIb_speaks (children : List Node) :
    (handleIb env children).Speaks (· = children.flatMap fun child =>
      if child.tag = "offline_preview" then sendOf env offlineBatch else []) := by
  induction children with
  | nil => exact (Co.tells_ret _).speaks rfl
  | cons child rest ih =>
    rw [handleIb, List.flatMap_cons]
    split
    · exact (guarded_tells (sendNode_tells _)).bind_speaks fun _ => ih
    · exact ih

theorem emitLoggedOut_speaks (code : String) :
    (emitLoggedOut code : CoM P Unit).Speaks (· = loggedOutOf code) := by
  rw [emitLoggedOut, loggedOutOf]
  split
  · exact (safeEmit_tells _).speaks rfl
  · exact (Co.tells_ret _).speaks rfl

theorem handleIq_speaks (node : Node) :
    (handleIq env node).Speaks fun l =>
      l = if node.getStr "id" = "" ∨ node.getStr "type" = "result" ∨ node.getStr "type" = "error"
        then [] else sendOf env (iqResult node) := by
  rw [handleIq]
  by_cases hid : node.getStr "id" = ""
  · simp only [hid, if_true, true_or]
    exact (Co.tells_ret _).speaks rfl
  · by_cases htype : node.getStr "type" = "result" ∨ node.getStr "type" = "error"
    · simp only [hid, htype, if_true, if_false, or_true]
      exact (iqResolve_mute _ _).tells.speaks rfl
    · simp only [hid, htype, if_false, or_false]
      exact (sendNode_tells (iqResult node)).speaks rfl

theorem parsed_speaks (parsed : Except PyError Emitted) :
    (Co.lift parsed >>= fun event => safeEmit event : CoM P Unit).Speaks (· = emitOf parsed) := by
  cases parsed with
  | error e => exact Co.speaks_raise e rfl
  | ok event => exact (safeEmit_tells event).speaks rfl

theorem handleNode_speaks (node : Node) :
    (handleNode env dev (prekeyFetcher env) node).Speaks (StanzaTalk env dev node) := by
  rw [handleNode]
  by_cases hmessage : node.tag = "message"
  · rw [if_pos hmessage]
    exact (handleMessage_speaks node).mono fun l hl => by simpa [StanzaTalk, hmessage] using hl
  rw [if_neg hmessage]
  by_cases hack : node.tag = "ack"
  · rw [if_pos hack]
    exact (handleAck_mute node).tells.speaks (by simp [StanzaTalk, hack])
  rw [if_neg hack]
  by_cases hiq : node.tag = "iq"
  · rw [if_pos hiq]
    exact (handleIq_speaks node).mono fun l hl => by simpa [StanzaTalk, hiq] using hl
  rw [if_neg hiq]
  by_cases hreceipt : node.tag = "receipt"
  · rw [if_pos hreceipt]
    exact (handleReceipt_speaks node).mono fun l hl => by simpa [StanzaTalk, hreceipt] using hl
  rw [if_neg hreceipt]
  by_cases hsuccess : node.tag = "success"
  · rw [if_pos hsuccess]
    have hupdate := update_mute (P := P) (f := fun s =>
      { s with background := s.background ++ [.onSuccess node] }) fun _ => rfl
    exact hupdate.tells.speaks (by simp [StanzaTalk, hsuccess])
  rw [if_neg hsuccess]
  by_cases hib : node.tag = "ib"
  · rw [if_pos hib]
    exact (handleIb_speaks node.children).mono fun l hl => by simpa [StanzaTalk, hib] using hl
  rw [if_neg hib]
  by_cases hpresence : node.tag = "presence"
  · rw [if_pos hpresence]
    exact (parsed_speaks _).mono fun l hl => by simpa [StanzaTalk, hpresence] using hl
  rw [if_neg hpresence]
  by_cases hchatstate : node.tag = "chatstate"
  · rw [if_pos hchatstate]
    exact (parsed_speaks _).mono fun l hl => by simpa [StanzaTalk, hchatstate] using hl
  rw [if_neg hchatstate]
  by_cases hnotification : node.tag = "notification"
  · have hacked : StanzaTalk env dev node (sendOf env (buildAckNode node dev.ownJid)) := by
      simp [StanzaTalk, hnotification]
    have htells : (sendAck env dev node).Speaks (StanzaTalk env dev node) :=
      (sendNode_tells _).speaks hacked
    rw [if_pos hnotification]
    split
    · exact (update_mute fun _ => rfl).bind_speaks (fun _ => htells) hacked
    · exact htells
  rw [if_neg hnotification]
  by_cases hfailure : node.tag = "failure"
  · rw [if_pos hfailure]
    exact (emitLoggedOut_speaks _).mono fun l hl => by simpa [StanzaTalk, hfailure] using hl
  rw [if_neg hfailure]
  by_cases herror : node.tag = "stream:error"
  · rw [if_pos herror]
    exact (emitLoggedOut_speaks _).mono fun l hl => by simpa [StanzaTalk, herror] using hl
  rw [if_neg herror]
  exact (Co.tells_ret _).speaks (by simp [StanzaTalk, *])

theorem handleFrame_speaks (frame : Bytes) :
    (handleFrame env dev (prekeyFetcher env) frame).Speaks (FrameTalk env dev frame) := by
  unfold handleFrame FrameTalk
  cases env.decode frame with
  | error e => exact (Co.tells_ret _).speaks rfl
  | ok node => exact handleNode_speaks node

/-- In every run of the client, each frame the receive loop took is answered by a prefix of
one of its conversations, and by all of it once the frame is done. -/
theorem receive_loop_talks {w : World P} {m : ClientMachine P} (h : ClientRun env dev w m) :
    (∃ talks, Machine.Serves (client env dev anyFrame) w m talks) ∧
      ∀ talks, Machine.Serves (client env dev anyFrame) w m talks → ∀ talk ∈ talks,
        ∃ frame, talk.item = handleFrame env dev (prekeyFetcher env) frame ∧
          ∃ l, FrameTalk env dev frame l ∧ talk.requests <+: l ∧
            (talk.rest = .ret (.ok ()) → talk.requests = l) := by
  refine ⟨Machine.exists_serves h, fun talks hserves talk htalk => ?_⟩
  obtain ⟨⟨s, frame, -, hitem⟩, -⟩ := hserves.serving.paths talk htalk
  refine ⟨frame, hitem, hserves.speaks htalk ?_⟩
  rw [hitem]
  exact handleFrame_speaks frame

def demoAnswering : ClientMachine demoPrimitives :=
  clientAfter (demoEnv demoStanzas) demoMe {} (demoRetried ++ [.goOn])

/-- The last talk is in the middle of the answer to a retry receipt. -/
theorem receive_loop_talks_retried :
    ∃ earlier talk t, Machine.Serves (client (demoEnv demoStanzas) demoMe anyFrame) {} demoAnswering
        (earlier ++ [talk]) ∧
      demoAnswering.loop = some t ∧ t.request.isAck = true ∧
      talk.rest = .await t.request t.resume ∧
      ∀ talk' ∈ earlier ++ [talk], ∃ frame l, FrameTalk (demoEnv demoStanzas) demoMe frame l ∧
        talk'.requests <+: l := by
  obtain ⟨⟨talks, hserves⟩, hall⟩ := receive_loop_talks (clientAfter_run {} (demoRetried ++ [.goOn]))
  have hwaits : demoAnswering.loop.any (fun t => t.request.isAck) = true := by decide +kernel
  obtain ⟨t, ht, hack⟩ := (Option.any_eq_true _ _).mp hwaits
  obtain ⟨earlier, talk, rfl, hrest⟩ := hserves.serving.waits t ht
  refine ⟨earlier, talk, t, hserves, ht, hack, hrest, fun talk' htalk => ?_⟩
  obtain ⟨frame, -, l, hl, hprefix, -⟩ := hall _ hserves talk' htalk
  exact ⟨frame, l, hl, hprefix⟩

end Handlers

end PyWhats
