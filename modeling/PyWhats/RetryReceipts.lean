import PyWhats.ReceiveLoop

/-! What becomes of a retry receipt. The sender can only act upon it when the call of
`send_message` has returned, since that is when the message is put into the cache, and
when the receipt brings the keys of the device, since the receive loop cannot fetch them
while it handles the receipt. -/

namespace PyWhats

variable {P : Primitives}

section Property

/-- The stanza is a resend of a message: its ciphertext carries a retry count. -/
def resendOf (messageId : String) : Event → Bool
  | .transmit node _ => node.getStr "id" = messageId &&
    (((node.getChild "participants").bind fun participants => participants.getChild "to").bind
      fun dest => dest.getChild "enc").any fun enc => (enc.getAttr "count").isSome
  | _ => false

/-- A retry receipt that asks a sender for a message it has transmitted, in the first two
rounds and before the message was sent again twice. -/
structure Due (w : World P) (node : Node) (peer : JID) : Prop where
  tag : node.tag = "receipt"
  type : node.getStr "type" = "retry"
  id : node.getStr "id" ≠ ""
  asks : receiverJidFromAttr (retryPeerAttr node) = .ok peer
  user : peer.user ≠ ""
  transmitted : ∃ s stanza chat, (s, Event.transmit stanza (.body chat)) ∈ w.history ∧
    stanza.getStr "id" = node.getStr "id"
  count : retryCountOf node ≤ 2
  resent : w.history.countP (fun ev => resendOf (node.getStr "id") ev.2) < 2

variable (env : Env P) (dev : Device P)

def resendStanza (messageId : String) (cached : SentMessage) (peer : JID) (count : Int)
    (out : String × Bytes) : Node :=
  buildMessageNode dev messageId cached.chat.base
    [buildParticipantNode peer out.1 out.2 (some count) cached.mediatype cached.decryptFail]
    cached.messageType cached.edit

/-- The frame makes the receive loop encrypt the body of the message to the device that
asked, and hand the stanza to the transport. -/
def Resends (w : World P) (frame : Bytes) (node : Node) (peer : JID) : Prop :=
  ∃ w' events e out cached frame' k,
    (handleFrame env dev (prekeyFetcher env) frame).run w = (w', .waits (.send frame') k) ∧
    w'.history = w.history ++ events ∧
    Dispatched env dev w.history (node.getStr "id") cached ∧
    (∃ s, (s, Event.encrypt e) ∈ events) ∧ e.peer = peer ∧ e.plaintext = cached.bodyFor dev peer ∧
    e.wire env dev = .ok out ∧
    (∃ s, (s, Event.transmit (resendStanza dev (node.getStr "id") cached peer (retryCountOf node)
      out) (.body cached.chat)) ∈ events) ∧
    env.encode (resendStanza dev (node.getStr "id") cached peer (retryCountOf node) out) =
      .ok frame'

end Property

section Condition

variable (env : Env P) (dev : Device P)

/-- X3DH and the new ratchet with the keys of a receipt. -/
def receiptRun (w : World P) (bundle : PreKeyBundle) : Except PyError InitiatorRun := do
  let result ← x3dhInitiator P dev.identity bundle (env.keyPair w.drawn)
  let start ← ratchetInitAlice P (env.keyPair (w.drawn + 1)) result.sharedSecret
    bundle.signedPreKeyPublic
  return ⟨bundle, result, start⟩

def receiptEncryption (peer : JID) (plaintext : Bytes) (run : InitiatorRun) :
    Except PyError Encryption :=
  let m := run.peerMeta dev.registrationId
  match ratchetEncrypt P plaintext (dev.identity.pub ++ m.peerIdentity) run.start with
  | .ok (header, ciphertext, macKey) _ =>
    .ok ⟨peer, plaintext, run.session, m, header, ciphertext, macKey⟩
  | .error e _ => .error e

/-- The keys of a receipt are good for a session, and what is encrypted under it for the
device can be serialised and encoded. -/
def Usable (w : World P) (messageId : String) (cached : SentMessage) (peer : JID) (count : Int)
    (bundle : PreKeyBundle) : Prop :=
  ∃ run e out frame, receiptRun env dev w bundle = .ok run ∧
    receiptEncryption dev peer (cached.bodyFor dev peer) run = .ok e ∧
    e.wire env dev = .ok out ∧
    env.encode (resendStanza dev messageId cached peer count out) = .ok frame

/-- The condition: the call of `send_message` has returned, fewer than two receipts for
the message were acted upon, nobody awaits an ack with its id, and the receipt brings
usable keys. -/
structure Served (w : World P) (node : Node) (peer : JID) : Prop where
  cached : ∃ cached bundle, w.sent.get? (node.getStr "id") = some cached ∧
    cached.retryCount < 2 ∧ retryBundle P node = some bundle ∧
    Usable env dev w (node.getStr "id") cached peer (retryCountOf node) bundle
  pending : w.router.contains (node.getStr "id") = false

end Condition

section Cache

variable {env : Env P} {dev : Device P} {w w' : World P}

theorem World.noted_sent (w : World P) (js : List JID) : (w.noted js).sent = w.sent := by
  induction js generalizing w with
  | nil => rfl
  | cons j js ih =>
    rw [World.noted, ih]
    simp only [World.log_toStores, Stores.note]
    split <;> rfl

/-- A message gets into the cache after its stanza was handed to the transport, and its
entry changes only in the number of retries. -/
theorem Trans.sent (h : Trans env dev w w') {messageId : String} {m : SentMessage}
    (hm : w'.sent.get? messageId = some m) :
    Dispatched env dev w.history messageId m ∨
      ∃ cached, w.sent.get? messageId = some cached ∧ cached.chat = m.chat ∧
        cached.plaintext = m.plaintext ∧ cached.ownPlaintext = m.ownPlaintext := by
  have hsame : w'.sent = w.sent → Dispatched env dev w.history messageId m ∨
      ∃ cached, w.sent.get? messageId = some cached ∧ cached.chat = m.chat ∧
        cached.plaintext = m.plaintext ∧ cached.ownPlaintext = m.ownPlaintext := by
    intro heq
    rw [heq] at hm
    exact Or.inr ⟨m, hm, rfl, rfl, rfl⟩
  cases h with
  | quiet h => exact hsame h.sent
  | acceptPrekeyNoted hi hn hstart hdec =>
    exact hsame (World.noted_sent _ _)
  | acceptMessageNoted hi hn hsession hdec =>
    exact hsame (World.noted_sent _ _)
  | cacheSent h =>
    rename_i id sent
    simp only [World.put_toStores, Stores.setSent, OrderedMap.get?_set] at hm
    split at hm
    · rename_i heq
      cases hm
      exact Or.inl (heq ▸ h)
    · exact Or.inr ⟨m, hm, rfl, rfl, rfl⟩
  | resend h =>
    rename_i id peer bundle cached
    simp only [World.log_toStores, Stores.setSent, OrderedMap.get?_set] at hm
    split at hm
    · rename_i heq
      cases hm
      exact Or.inr ⟨cached, heq ▸ h, rfl, rfl, rfl⟩
    · exact Or.inr ⟨m, hm, rfl, rfl, rfl⟩
  | _ => exact hsame rfl

theorem Dispatched.congr {history : List (Stores P × Event)} {messageId : String}
    {m m' : SentMessage} (h : Dispatched env dev history messageId m) (hchat : m.chat = m'.chat)
    (hplain : m.plaintext = m'.plaintext) (hown : m.ownPlaintext = m'.ownPlaintext) :
    Dispatched env dev history messageId m' := by
  obtain ⟨s, node, hmem, hid, hbody⟩ := h
  refine ⟨s, node, hchat ▸ hmem, hid, fun d hd => ?_⟩
  have hsame : m'.bodyFor dev d.1 = m.bodyFor dev d.1 := by
    rw [SentMessage.bodyFor, SentMessage.bodyFor, hplain, hown]
  rw [hsame]
  exact hbody d hd

theorem cached_dispatched (hempty : w.sent = .empty)
    (h : Relation.ReflTransGen (Trans env dev) w w') {messageId : String} {m : SentMessage}
    (hm : w'.sent.get? messageId = some m) : Dispatched env dev w'.history messageId m := by
  induction h generalizing messageId m with
  | refl =>
    rw [hempty] at hm
    cases hm
  | tail _ hstep ih =>
    rcases hstep.sent hm with hsent | ⟨cached, hcached, hchat, hplain, hown⟩
    · exact hsent.mono hstep.history
    · exact ((ih hcached).mono hstep.history).congr hchat hplain hown

end Cache

section Handling

variable {env : Env P} {dev : Device P} {w : World P}

def World.dropped (w : World P) : List JID → World P
  | [] => w
  | j :: js => World.dropped (((w.log (.drop (sessionId j)) (.dropSession (sessionId j))).put
      (.dropMeta (sessionId j))).put (.dropIdentity (sessionId j))) js

theorem dropSessions_run (w : World P) (js : List JID) :
    (dropSessions js).run w = (w.dropped js, .done (.ok ())) := by
  induction js generalizing w with
  | nil => rfl
  | cons j js ih => exact ih _

theorem dropPeerSession_run (w : World P) (peer : JID) :
    (dropPeerSession peer).run w =
      (w.dropped (peerAndLidAlt w.lidMap peer), .done (.ok ())) := by
  rw [dropPeerSession, Co.run_get_bind, dropSessions_run]

theorem World.dropped_router (w : World P) (js : List JID) : (w.dropped js).router = w.router := by
  induction js generalizing w with
  | nil => rfl
  | cons j js ih => exact ih _

theorem World.dropped_drawn (w : World P) (js : List JID) : (w.dropped js).drawn = w.drawn := by
  induction js generalizing w with
  | nil => rfl
  | cons j js ih => exact ih _

theorem World.dropped_history (w : World P) (js : List JID) :
    w.history <+: (w.dropped js).history := by
  induction js generalizing w with
  | nil => exact List.prefix_refl _
  | cons j js ih =>
    refine List.IsPrefix.trans ?_ (ih _)
    exact List.prefix_append _ _

theorem establish_run {bundle : PreKeyBundle} {run : InitiatorRun}
    (h : receiptRun env dev w bundle = .ok run) :
    (establishSessionFromBundle env dev bundle).run w =
      (w.put (.setDrawn (w.drawn + 2)), .done (.ok run)) := by
  simp only [receiptRun, except_bind_ok] at h
  obtain ⟨result, hx3dh, start, hstart, h⟩ := h
  cases h
  rw [establishSessionFromBundle, Co.run_bind_ok rfl, Co.run_lift_bind hx3dh, Co.run_bind_ok rfl]
  exact (Co.run_lift_bind hstart).trans rfl

def World.installed (w : World P) (sid : String) (run : InitiatorRun) (dev : Device P) : World P :=
  ((w.put (.setDrawn (w.drawn + 2))).log (.install sid run) (.setSession sid run.session)).put
    (.setMeta sid (run.peerMeta dev.registrationId))

theorem installBundle_run {peer : JID} {bundle : PreKeyBundle} {run : InitiatorRun}
    (h : receiptRun env dev w bundle = .ok run) :
    (installBundle env dev peer (some bundle)).run w =
      (w.installed (sessionId peer) run dev, .done (.ok ())) := by
  rw [installBundle, Co.run_bind_ok (establish_run h)]
  rfl

/-- With the session of the receipt in place, the body is encrypted without a wait. -/
theorem encryptForPeer_run {fetchPrekeys : JID → CoM P PreKeyBundle} {peer : JID}
    {plaintext : Bytes} {run : InitiatorRun} {e : Encryption} {out : String × Bytes}
    (he : receiptEncryption dev peer plaintext run = .ok e) (hwire : e.wire env dev = .ok out) :
    ∃ state, (encryptForPeer env dev fetchPrekeys peer plaintext).run
        (w.installed (sessionId peer) run dev) =
      ((w.installed (sessionId peer) run dev).log (.encrypt e)
        (.setSession (sessionId peer) { run.session with state := state }), .done (.ok out)) := by
  have hload : (loadForPeer (sessionId peer)).run (w.installed (sessionId peer) run dev) =
      (w.installed (sessionId peer) run dev,
        .done (.ok (some (run.session, run.peerMeta dev.registrationId)))) := by
    rw [loadForPeer, Co.run_get_bind]
    simp [World.installed, Stores.setSession, Stores.setMeta]
    rfl
  simp only [receiptEncryption] at he
  split at he
  · rename_i header ciphertext macKey state henc
    cases he
    refine ⟨state, ?_⟩
    rw [encryptForPeer, Co.run_bind_ok hload]
    have hstate : run.session.state = run.start := rfl
    simp only [encryptOn, hstate, henc]
    rw [Co.run_bind_ok rfl, ← hwire]
    rfl
  · cases he

/-- What the receipt comes to before the body is encrypted: the retry is counted, the old
session dropped and the new one installed. -/
def World.rekeyed (w : World P) (dev : Device P) (messageId : String) (cached : SentMessage)
    (peer : JID) (run : InitiatorRun) : World P :=
  ((w.log (.resend messageId peer (some run.bundle))
    (.setSent messageId { cached with retryCount := cached.retryCount + 1 })).dropped
      (peerAndLidAlt w.lidMap peer)).installed (sessionId peer) run dev

def World.reencrypted (w : World P) (peer : JID) (run : InitiatorRun) (e : Encryption)
    (state : RatchetState) : World P :=
  w.log (.encrypt e) (.setSession (sessionId peer) { run.session with state := state })

theorem World.rekeyed_router (w : World P) (dev : Device P) (messageId : String)
    (cached : SentMessage) (peer : JID) (run : InitiatorRun) :
    (w.rekeyed dev messageId cached peer run).router = w.router :=
  (World.dropped_router _ _).trans rfl

theorem World.rekeyed_history (w : World P) (dev : Device P) (messageId : String)
    (cached : SentMessage) (peer : JID) (run : InitiatorRun) :
    w.history <+: (w.rekeyed dev messageId cached peer run).history := by
  refine List.IsPrefix.trans ?_ (List.prefix_append _ _)
  refine List.IsPrefix.trans ?_ (World.dropped_history _ _)
  exact List.prefix_append _ _

theorem routerRegister_run {messageId : String} (h : w.router.contains messageId = false) :
    ∃ w', (routerRegister messageId).run w = (w', .done (.ok w.futures)) ∧
      w'.history = w.history := by
  rw [routerRegister, Co.run_get_bind, h]
  exact ⟨_, rfl, rfl⟩

theorem transmit_run {α : Type} {node : Node} {purpose : Purpose} {frame : Bytes}
    {f : Unit → CoM P α} (h : env.encode node = .ok frame) :
    (Co.lift (env.encode node) >>= fun frame => transmit node purpose frame >>= f).run w =
      (w.log (.transmit node purpose) id, .waits (.send frame) fun r => (Co.ret r).bind f) :=
  (Co.run_lift_bind h).trans rfl

theorem handleRetryReceipt_run (fetchPrekeys : JID → CoM P PreKeyBundle) {messageId : String}
    {peer : JID} {bundle : PreKeyBundle} {count : Int} {cached : SentMessage} {run : InitiatorRun}
    {e : Encryption} {out : String × Bytes} {frame : Bytes}
    (hcached : w.sent.get? messageId = some cached) (hretries : cached.retryCount < 2)
    (hcount : count ≤ 2) (hpending : w.router.contains messageId = false)
    (hrun : receiptRun env dev w bundle = .ok run)
    (he : receiptEncryption dev peer (cached.bodyFor dev peer) run = .ok e)
    (hwire : e.wire env dev = .ok out)
    (hframe : env.encode (resendStanza dev messageId cached peer count out) = .ok frame) :
    ∃ events s s' w' k, (handleRetryReceipt env dev fetchPrekeys messageId peer (some bundle)
        count).run w = (w', .waits (.send frame) k) ∧
      w'.history = w.history ++ (events ++ [(s, .encrypt e),
        (s', .transmit (resendStanza dev messageId cached peer count out) (.body cached.chat))]) := by
  have hbundle : run.bundle = bundle := by
    simp only [receiptRun, except_bind_ok] at hrun
    obtain ⟨result, _, start, _, hrun⟩ := hrun
    cases hrun
    rfl
  subst hbundle
  have hlimit : ¬(cached.retryCount ≥ 2 ∨ count > 2) := by omega
  have hrun' : receiptRun env dev ((w.log (.resend messageId peer (some run.bundle))
      (.setSent messageId { cached with retryCount := cached.retryCount + 1 })).dropped
        (peerAndLidAlt w.lidMap peer)) run.bundle = .ok run := by
    simp only [receiptRun, World.dropped_drawn] at hrun ⊢
    exact hrun
  obtain ⟨state, hencrypt⟩ : ∃ state, (encryptForPeer env dev fetchPrekeys peer
      (cached.bodyFor dev peer)).run (w.rekeyed dev messageId cached peer run) =
        ((w.rekeyed dev messageId cached peer run).reencrypted peer run e state,
          .done (.ok out)) := encryptForPeer_run he hwire
  obtain ⟨events, hevents⟩ := w.rekeyed_history dev messageId cached peer run
  have hfree : ((w.rekeyed dev messageId cached peer run).reencrypted peer run e
      state).router.contains messageId = false := by
    have hrouter := w.rekeyed_router dev messageId cached peer run
    simpa only [World.reencrypted, World.log_toStores, Stores.setSession, hrouter] using hpending
  obtain ⟨registered, hregister, hkept⟩ := routerRegister_run hfree
  have hsend : ∃ k, (handleRetryReceipt env dev fetchPrekeys messageId peer (some run.bundle)
      count).run w = (registered.log (.transmit (resendStanza dev messageId cached peer count out)
        (.body cached.chat)) id, .waits (.send frame) k) := by
    rw [handleRetryReceipt, Co.run_get_bind]
    simp only [hcached]
    rw [if_neg hlimit]
    refine ⟨?_, (Co.run_bind_ok rfl).trans ?_⟩
    rotate_left
    · refine (Co.run_bind_ok (dropPeerSession_run _ peer)).trans ?_
      refine (Co.run_bind_ok (installBundle_run hrun')).trans ?_
      refine (Co.run_bind_ok hencrypt).trans ?_
      refine (Co.run_bind_ok hregister).trans ?_
      exact Co.run_tryFinally_waits (Co.run_tryCatch_waits (transmit_run hframe))
  obtain ⟨k, hsend⟩ := hsend
  refine ⟨events, (w.rekeyed dev messageId cached peer run).toStores, registered.toStores, _, k,
    hsend, ?_⟩
  rw [World.log_history, hkept, World.reencrypted, World.log_history, ← hevents]
  simp only [List.append_assoc, List.singleton_append]

end Handling

section Receipts

variable {env : Env P} {dev : Device P}

theorem handleFrame_receipt {w : World P} {frame : Bytes} {node : Node} {peer : JID}
    (hdecode : env.decode frame = .ok node) (hdue : Due w node peer) :
    handleFrame env dev (prekeyFetcher env) frame =
      (handleRetryReceipt env dev (prekeyFetcher env) (node.getStr "id") peer (retryBundle P node)
        (retryCountOf node) >>= fun _ => sendAck env dev node) := by
  have hnode : handleFrame env dev (prekeyFetcher env) frame =
      handleReceipt env dev (prekeyFetcher env) node := by
    simp [handleFrame, hdecode, handleNode, hdue.tag]
  rw [hnode, handleReceipt, if_neg (not_not.mpr hdue.type), hdue.asks]
  exact if_pos ⟨hdue.id, hdue.user⟩

/-- In every run of send calls and the receive loop, a retry receipt that meets the
condition when the loop takes it makes the sender encrypt the body of its message again
and send it to the device that asked. -/
theorem retry_receipt_answered {w : World P} {m : ClientMachine P} {frame : Bytes} {node : Node}
    {peer : JID} (hempty : w.sent = .empty) (hrun : ClientRun env dev w m)
    (hdecode : env.decode frame = .ok node) (hdue : Due m.state node peer)
    (hserved : Served env dev m.state node peer) : Resends env dev m.state frame node peer := by
  obtain ⟨cached, bundle, hcached, hretries, hbundle, run, e, out, frame', hsession, he, hwire,
    hframe⟩ := hserved.cached
  obtain ⟨events, s, s', w', k, hsends, hhistory⟩ := handleRetryReceipt_run (prekeyFetcher env)
    hcached hretries hdue.count hserved.pending hsession he hwire hframe
  have hhandles : (handleFrame env dev (prekeyFetcher env) frame).run m.state =
      (w', .waits (.send frame') fun r => (k r).bind fun _ => sendAck env dev node) := by
    rw [handleFrame_receipt hdecode hdue, hbundle]
    exact Co.run_bind_waits hsends
  have hpeer : e.peer = peer ∧ e.plaintext = cached.bodyFor dev peer := by
    simp only [receiptEncryption] at he
    split at he
    · cases he
      exact ⟨rfl, rfl⟩
    · cases he
  exact ⟨w', _, e, out, cached, frame', _, hhandles, hhistory,
    cached_dispatched hempty hrun.trans hcached, ⟨s, by simp⟩, hpeer.1, hpeer.2, hwire,
    ⟨s', by simp⟩, hframe⟩

end Receipts

section Demo

def Event.transmits (messageId : String) : Event → Bool
  | .transmit stanza (.body _) => stanza.getStr "id" = messageId
  | _ => false

theorem transmitted_of_any {w : World P} {messageId : String}
    (h : w.history.any (fun ev => ev.2.transmits messageId) = true) :
    ∃ s stanza chat, (s, Event.transmit stanza (.body chat)) ∈ w.history ∧
      stanza.getStr "id" = messageId := by
  obtain ⟨⟨s, ev⟩, hmem, hev⟩ := List.any_eq_true.mp h
  simp only [Event.transmits] at hev
  split at hev
  · rename_i stanza chat
    exact ⟨s, stanza, chat, hmem, of_decide_eq_true hev⟩
  · cases hev

def serves (env : Env P) (dev : Device P) (w : World P) (node : Node) (peer : JID) : Bool :=
  match w.sent.get? (node.getStr "id"), retryBundle P node with
  | some cached, some bundle => cached.retryCount < 2 &&
    !w.router.contains (node.getStr "id") && (do
      let run ← receiptRun env dev w bundle
      let e ← receiptEncryption dev peer (cached.bodyFor dev peer) run
      let out ← e.wire env dev
      env.encode (resendStanza dev (node.getStr "id") cached peer (retryCountOf node) out)).isOk
  | _, _ => false

theorem served_of_serves {env : Env P} {dev : Device P} {w : World P} {node : Node} {peer : JID}
    (h : serves env dev w node peer = true) : Served env dev w node peer := by
  unfold serves at h
  split at h
  · rename_i cached bundle hcached hbundle
    simp only [Bool.and_eq_true, decide_eq_true_eq, Bool.not_eq_true'] at h
    obtain ⟨⟨hretries, hpending⟩, hok⟩ := h
    generalize hframe : (do
      let run ← receiptRun env dev w bundle
      let e ← receiptEncryption dev peer (cached.bodyFor dev peer) run
      let out ← e.wire env dev
      env.encode (resendStanza dev (node.getStr "id") cached peer (retryCountOf node) out)) = x
      at hok
    cases x with
    | error e => cases hok
    | ok frame =>
      simp only [except_bind_ok] at hframe
      obtain ⟨run, hrun, e, he, out, hout, hframe⟩ := hframe
      exact ⟨⟨cached, bundle, hcached, hretries, hbundle, run, e, out, frame, hrun, he, hout,
        hframe⟩, hpending⟩
  · cases h

theorem resends_transmits {env : Env P} {dev : Device P} {w : World P} {frame : Bytes}
    {node : Node} {peer : JID} (h : Resends env dev w frame node peer) :
    ((((handleFrame env dev (prekeyFetcher env) frame).run w).1.history.drop
      w.history.length).any fun ev => ev.2.transmits (node.getStr "id")) = true := by
  obtain ⟨w', events, e, out, cached, frame', k, hrun, hhistory, -, -, -, -, -, ⟨s, hmem⟩, -⟩ := h
  rw [hrun]
  simp only [hhistory, List.drop_left]
  exact List.any_eq_true.mpr ⟨_, hmem, decide_eq_true rfl⟩

def demoAsks : Node :=
  .mk "receipt" [("id", .str "m0"), ("type", .str "retry"), ("from", .jid demoPeer.ownJid)]
    (.nodes [.mk "retry" [("count", .str "1")] .none, .mk "keys" [] (.nodes (demoKeys demoPeer))])

def demoAsksBare : Node :=
  .mk "receipt" [("id", .str "m0"), ("type", .str "retry"), ("from", .jid demoPeer.ownJid)]
    (.nodes [.mk "retry" [("count", .str "1")] .none])

def demoAsked : List Node := [demoAnswer, demoAck, demoAsks, demoAsksBare]

/-- The message is with the transport, and its ack has not come. -/
def demoUnacked : List (ClientTurn (demoEnv demoAsked) demoMe) := demoFirst demoAsked ++ [.resume]

def demoReturned : List (ClientTurn (demoEnv demoAsked) demoMe) :=
  demoUnacked ++ [.receive [1], .resume]

/-- The receipt comes before the ack; then everything is finished. -/
def demoOver : List (ClientTurn (demoEnv demoAsked) demoMe) :=
  demoUnacked ++ [.receive [2], .goOn, .receive [1], .resume]

def demoAfter (turns : List (ClientTurn (demoEnv demoAsked) demoMe)) :
    ClientMachine demoPrimitives := clientAfter (demoEnv demoAsked) demoMe {} turns

theorem demo_due {node : Node} (hnode : node = demoAsks ∨ node = demoAsksBare)
    (turns : List (ClientTurn (demoEnv demoAsked) demoMe))
    (hsent : (demoAfter turns).state.history.any (fun ev => ev.2.transmits "m0") = true)
    (hresent : (demoAfter turns).state.history.countP (fun ev => resendOf "m0" ev.2) < 2) :
    Due (demoAfter turns).state node demoPeer.ownJid := by
  have hid : node.getStr "id" = "m0" := by rcases hnode with rfl | rfl <;> rfl
  refine ⟨?_, ?_, ?_, ?_, by decide, ?_, ?_, ?_⟩
  · rcases hnode with rfl | rfl <;> rfl
  · rcases hnode with rfl | rfl <;> rfl
  · rw [hid]
    decide
  · rcases hnode with rfl | rfl <;> rfl
  · rw [hid]
    exact transmitted_of_any hsent
  · rcases hnode with rfl | rfl <;> decide +kernel
  · rw [hid]
    exact hresent

theorem retry_receipt_answered_peer :
    Due (demoAfter demoReturned).state demoAsks demoPeer.ownJid ∧
      Resends (demoEnv demoAsked) demoMe (demoAfter demoReturned).state [2] demoAsks
        demoPeer.ownJid := by
  have hdue := demo_due (.inl rfl) demoReturned (by decide +kernel) (by decide +kernel)
  refine ⟨hdue, retry_receipt_answered rfl (clientAfter_run {} demoReturned) rfl hdue ?_⟩
  exact served_of_serves (by decide +kernel)

/-- A receipt that comes before the ack is dropped for good, and for a receipt without
keys the loop waits for an answer that only it could take in. -/
theorem retry_receipt_dropped :
    ClientRun (demoEnv demoAsked) demoMe {} (demoAfter demoUnacked) ∧
      (demoAfter demoUnacked).loop.isNone ∧
      Due (demoAfter demoUnacked).state demoAsks demoPeer.ownJid ∧
      ¬Resends (demoEnv demoAsked) demoMe (demoAfter demoUnacked).state [2] demoAsks
        demoPeer.ownJid ∧
      ((demoAfter demoOver).loop.isNone ∧ (demoAfter demoOver).tasks.isEmpty ∧
        ((demoAfter demoOver).state.sent.get? "m0").isSome ∧
        (demoAfter demoOver).state.history.countP (fun ev => ev.2.transmits "m0") = 1) ∧
      Due (demoAfter demoReturned).state demoAsksBare demoPeer.ownJid ∧
      ¬Resends (demoEnv demoAsked) demoMe (demoAfter demoReturned).state [3] demoAsksBare
        demoPeer.ownJid := by
  refine ⟨clientAfter_run {} demoUnacked, by decide +kernel,
    demo_due (.inl rfl) demoUnacked (by decide +kernel) (by decide +kernel), fun h => ?_,
    by decide +kernel, demo_due (.inr rfl) demoReturned (by decide +kernel) (by decide +kernel),
    fun h => ?_⟩
  · exact absurd (resends_transmits h) (by decide +kernel)
  · exact absurd (resends_transmits h) (by decide +kernel)

end Demo

end PyWhats
