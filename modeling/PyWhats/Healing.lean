import PyWhats.FirstMessages
import PyWhats.RetryReceipts

/-! What a retry receipt mends. The receipt brings the keys of the device that asked, and
the sender starts a session over with them: the resent message opens at that device
whatever session it has kept, and so does what is sent next. -/

namespace PyWhats

variable {P : Primitives}

section Sender

variable {a b : Host P} {w : World P}

/-- The keys of the receipt make the sender the initiator of a new handshake. -/
theorem receiptRun_handshake (hP : P.Lawful) {run : InitiatorRun}
    (h : receiptRun a.env a.dev w b.bundle = .ok run) : run = (a.handshake b w).run :=
  (establishSessionFromBundle_run hP (establish_run h)).1

theorem receiptEncryption_sending (hs : Handshake P) (peer : JID) (plaintext : Bytes) :
    receiptEncryption hs.initiator peer plaintext hs.run =
      .ok ((hs.sending 0).encryption P peer plaintext hs.peerMeta (chainAt P hs.first.2 0)) := by
  have hck : hs.run.start.cks = some (chainAt P hs.first.2 0) := rfl
  simp only [receiptEncryption, ratchetEncrypt_eq hck]
  rfl

/-- The state of the sender when the resent message is with the transport. -/
def World.resent (w : World P) (a b : Host P) (messageId : String) (cached : SentMessage)
    (e : Encryption) (stanza : Node) : World P :=
  (((w.rekeyed a.dev messageId cached b.dev.ownJid (a.handshake b w).run).log (.encrypt e)
    (.setSession b.sid ((a.handshake b w).sending 1))).put
      fun s => { s with router := s.router.set messageId s.futures, futures := s.futures + 1 }).log
        (.transmit stanza (.body cached.chat)) id

theorem World.resent_session (w : World P) (a b : Host P) (messageId : String)
    (cached : SentMessage) (e : Encryption) (stanza : Node) :
    (w.resent a b messageId cached e stanza).sessions.get? b.sid =
      some ((a.handshake b w).sending 1) :=
  OrderedMap.get?_set_self _ _ _

theorem World.resent_peerMeta (w : World P) (a b : Host P) (messageId : String)
    (cached : SentMessage) (e : Encryption) (stanza : Node) :
    (w.resent a b messageId cached e stanza).peerMeta.get? b.sid =
      some (a.handshake b w).peerMeta :=
  OrderedMap.get?_set_self _ _ _

/-- What is encrypted under the handshake of the receipt is its first message. -/
theorem receiptEncryption_frame (hP : P.Lawful) {run : InitiatorRun} {plaintext : Bytes}
    {e : Encryption} {out : String × Bytes}
    (hrun : receiptRun a.env a.dev w b.bundle = .ok run)
    (he : receiptEncryption a.dev b.dev.ownJid plaintext run = .ok e)
    (hwire : e.wire a.env a.dev = .ok out) :
    (a.handshake b w).Frame a.env.pb 0 plaintext out := by
  have hsame : run = (a.handshake b w).run := receiptRun_handshake hP hrun
  have hsending := receiptEncryption_sending (a.handshake b w) b.dev.ownJid plaintext
  rw [hsame] at he
  cases hsending.symm.trans he
  exact (a.handshake b w).frame_of_wire hwire

theorem encryptForPeer_rekeyed {fetchPrekeys : JID → CoM P PreKeyBundle} {messageId : String}
    {cached : SentMessage} {plaintext : Bytes} {e : Encryption} {out : String × Bytes}
    (he : receiptEncryption a.dev b.dev.ownJid plaintext (a.handshake b w).run = .ok e)
    (hwire : e.wire a.env a.dev = .ok out) :
    (encryptForPeer a.env a.dev fetchPrekeys b.dev.ownJid plaintext).run
        (w.rekeyed a.dev messageId cached b.dev.ownJid (a.handshake b w).run) =
      ((w.rekeyed a.dev messageId cached b.dev.ownJid (a.handshake b w).run).log (.encrypt e)
        (.setSession b.sid ((a.handshake b w).sending 1)), .done (.ok out)) := by
  have hsending := receiptEncryption_sending (a.handshake b w) b.dev.ownJid plaintext
  cases hsending.symm.trans he
  have hsession : (w.rekeyed a.dev messageId cached b.dev.ownJid
      (a.handshake b w).run).sessions.get? b.sid = some ((a.handshake b w).sending 0) :=
    OrderedMap.get?_set_self _ _ _
  have hmeta : (w.rekeyed a.dev messageId cached b.dev.ownJid
      (a.handshake b w).run).peerMeta.get? b.sid = some (a.handshake b w).peerMeta :=
    OrderedMap.get?_set_self _ _ _
  have hencrypt : (encryptForPeer a.env a.dev fetchPrekeys b.dev.ownJid plaintext).run
      (w.rekeyed a.dev messageId cached b.dev.ownJid (a.handshake b w).run) = _ :=
    encryptForPeer_known hsession hmeta rfl plaintext
  rw [(a.handshake b w).sending_next 0, hwire] at hencrypt
  exact hencrypt

theorem routerRegister_free {messageId : String} (h : w.router.contains messageId = false) :
    (routerRegister messageId).run w = (w.put fun s => { s with
      router := s.router.set messageId s.futures, futures := s.futures + 1 },
      .done (.ok w.futures)) := by
  rw [routerRegister, Co.run_get_bind, h]
  rfl

/-- A receipt with the keys of the device that asked is answered with the first message of
a new handshake. -/
theorem handleRetryReceipt_resent (fetchPrekeys : JID → CoM P PreKeyBundle) {messageId : String}
    {count : Int} {cached : SentMessage} {e : Encryption} {out : String × Bytes} {frame : Bytes}
    (hcached : w.sent.get? messageId = some cached) (hretries : cached.retryCount < 2)
    (hcount : count ≤ 2) (hpending : w.router.contains messageId = false)
    (hrun : receiptRun a.env a.dev w b.bundle = .ok (a.handshake b w).run)
    (he : receiptEncryption a.dev b.dev.ownJid (cached.bodyFor a.dev b.dev.ownJid)
      (a.handshake b w).run = .ok e)
    (hwire : e.wire a.env a.dev = .ok out)
    (hframe : a.env.encode (resendStanza a.dev messageId cached b.dev.ownJid count out) =
      .ok frame) :
    ∃ k, (handleRetryReceipt a.env a.dev fetchPrekeys messageId b.dev.ownJid (some b.bundle)
        count).run w =
      (w.resent a b messageId cached e (resendStanza a.dev messageId cached b.dev.ownJid count out),
        .waits (.send frame) k) := by
  have hlimit : ¬(cached.retryCount ≥ 2 ∨ count > 2) := by omega
  have hrun' : receiptRun a.env a.dev ((w.log (.resend messageId b.dev.ownJid (some b.bundle))
      (.setSent messageId { cached with retryCount := cached.retryCount + 1 })).dropped
        (peerAndLidAlt w.lidMap b.dev.ownJid)) b.bundle = .ok (a.handshake b w).run := by
    simp only [receiptRun, World.dropped_drawn] at hrun ⊢
    exact hrun
  have hrouter := w.rekeyed_router a.dev messageId cached b.dev.ownJid (a.handshake b w).run
  have hfree : ((w.rekeyed a.dev messageId cached b.dev.ownJid (a.handshake b w).run).log
      (.encrypt e) (.setSession b.sid ((a.handshake b w).sending 1))).router.contains messageId =
        false := by
    simpa only [World.log_toStores, Stores.setSession, hrouter] using hpending
  rw [handleRetryReceipt, Co.run_get_bind]
  simp only [hcached]
  rw [if_neg hlimit]
  refine ⟨?_, (Co.run_bind_ok rfl).trans ?_⟩
  rotate_left
  · refine (Co.run_bind_ok (dropPeerSession_run _ b.dev.ownJid)).trans ?_
    refine (Co.run_bind_ok (installBundle_run hrun')).trans ?_
    refine (Co.run_bind_ok (encryptForPeer_rekeyed he hwire)).trans ?_
    refine (Co.run_bind_ok (routerRegister_free hfree)).trans ?_
    exact Co.run_tryFinally_waits (Co.run_tryCatch_waits (transmit_run hframe))

end Sender

section Receiver

variable {a b : Host P} {w : World P}

/-- The device that asked opens the resent message whatever session it has kept; when it
offered no one-time prekey, it opens what is sent next as well, in whatever order. -/
structure Mends (a b : Host P) (w : World P) (body : Bytes) (out : String × Bytes) : Prop where
  opens : ∀ wb, b.Holds wb → ∃ wb', (b.decryptFrom a out).run wb = (wb', .done (.ok body))
  follows : b.opk = none → ∀ (wa wa' wb : World P) (plaintexts : List Bytes)
    (outs : List (String × Bytes)) (order : List ((String × Bytes) × Bytes)),
    wa.sessions.get? b.sid = w.sessions.get? b.sid →
    wa.peerMeta.get? b.sid = w.peerMeta.get? b.sid →
    (a.encryptEach b plaintexts).run wa = (wa', .done (.ok outs)) →
    plaintexts.length ≤ defaultMaxSkip → order.Perm ((out, body) :: outs.zip plaintexts) →
    b.Returns a order wb

theorem mends_of_frame (hP : P.Lawful) (hpb : b.env.pb.Lawful) (hsame : a.env.pb = b.env.pb)
    {hs : Handshake P} (hinit : hs.initiator = a.dev) (hresp : hs.responder = b.dev)
    (hopk : hs.opk = b.opk) {body : Bytes} {out : String × Bytes}
    (hframe : hs.Frame a.env.pb 0 body out)
    (hsession : w.sessions.get? b.sid = some (hs.sending 1))
    (hmeta : w.peerMeta.get? b.sid = some hs.peerMeta) : Mends a b w body out := by
  have hfirst : FrameFor hs b 0 body out := ⟨hresp, hopk, hsame ▸ hframe⟩
  constructor
  · intro wb hholds
    obtain ⟨wb', hopens, _⟩ := decryptFrom_opens hP hpb hfirst hholds (Nat.zero_le _)
    exact ⟨wb', hopens⟩
  · intro hnone wa wa' wb plaintexts outs order hkept hkept' hsent hshort horder
    obtain ⟨hlen, hframes⟩ :=
      encryptEach_known hinit (hkept.trans hsession) (hkept'.trans hmeta) hsent
    have heach : Each hs b (· ≤ defaultMaxSkip) order := by
      intro m hm
      rcases List.mem_cons.mp (horder.mem_iff.mp hm) with rfl | hm
      · exact ⟨0, Nat.zero_le _, hfirst⟩
      · obtain ⟨i, hi, hget⟩ := List.mem_iff_getElem.mp hm
        have hbound : 1 + i ≤ defaultMaxSkip := by
          rw [List.length_zip, hlen, Nat.min_self] at hi
          omega
        have hnext := hframes i m (List.getElem?_eq_some_iff.mpr ⟨hi, hget⟩)
        exact ⟨1 + i, hbound, hresp, hopk, hsame ▸ hnext⟩
    exact returns_of_no_opk hP hpb hnone heach wb

/-- In every run of the client, a retry receipt with the keys of the device that asked
makes the receive loop send a message that the device opens, and start over a session
on which the device reads what follows. -/
theorem retry_heals (hP : P.Lawful) {a b : Host P} (hpb : b.env.pb.Lawful)
    (hsame : a.env.pb = b.env.pb) {w : World P} {m : ClientMachine P} {frame : Bytes} {node : Node}
    (hempty : w.sent = .empty) (hrun : ClientRun a.env a.dev w m)
    (hdecode : a.env.decode frame = .ok node) (hdue : Due m.state node b.dev.ownJid)
    (hserved : Served a.env a.dev m.state node b.dev.ownJid)
    (hkeys : retryBundle P node = some b.bundle) :
    ∃ w' frame' k cached out, (handleFrame a.env a.dev (prekeyFetcher a.env) frame).run m.state =
        (w', .waits (.send frame') k) ∧
      Dispatched a.env a.dev m.state.history (node.getStr "id") cached ∧
      a.env.encode (resendStanza a.dev (node.getStr "id") cached b.dev.ownJid (retryCountOf node)
        out) = .ok frame' ∧
      Mends a b w' (cached.bodyFor a.dev b.dev.ownJid) out := by
  obtain ⟨cached, bundle, hcached, hretries, hbundle, run, e, out, frame', hsession, he, hwire,
    hframe⟩ := hserved.cached
  cases hkeys.symm.trans hbundle
  have hhandshake := receiptRun_handshake hP hsession
  have hfirst := receiptEncryption_frame hP hsession he hwire
  subst hhandshake
  obtain ⟨k, hsends⟩ := handleRetryReceipt_resent (prekeyFetcher a.env) hcached hretries hdue.count
    hserved.pending hsession he hwire hframe
  have hhandles : (handleFrame a.env a.dev (prekeyFetcher a.env) frame).run m.state =
      (m.state.resent a b (node.getStr "id") cached e (resendStanza a.dev (node.getStr "id") cached
        b.dev.ownJid (retryCountOf node) out),
        .waits (.send frame') fun r => (k r).bind fun _ => sendAck a.env a.dev node) := by
    rw [handleFrame_receipt hdecode hdue, hbundle]
    exact Co.run_bind_waits hsends
  exact ⟨_, frame', _, cached, out, hhandles, cached_dispatched hempty hrun.trans hcached, hframe,
    mends_of_frame hP hpb hsame rfl rfl rfl hfirst (World.resent_session ..)
      (World.resent_peerMeta ..)⟩

end Receiver

section Demo

def demoAsker : Host demoPrimitives := ⟨demoEnv demoAsked, demoPeer, none⟩

def demoResender : Host demoPrimitives := ⟨demoEnv demoAsked, demoMe, none⟩

def demoMended : World demoPrimitives × Co.Stop (World demoPrimitives) Request.Reply PyError Unit :=
  (handleFrame (demoEnv demoAsked) demoMe (prekeyFetcher (demoEnv demoAsked)) [2]).run
    (demoAfter demoReturned).state

theorem retry_heals_peer : ∃ body out, Mends demoResender demoAsker demoMended.1 body out := by
  have hdue := demo_due (.inl rfl) demoReturned (by decide +kernel) (by decide +kernel)
  have hdecode : demoResender.env.decode [2] = .ok demoAsks := rfl
  have hkeys : retryBundle demoPrimitives demoAsks = some demoAsker.bundle := by decide +kernel
  obtain ⟨w', frame', k, cached, out, hrun, -, -, hmends⟩ :=
    retry_heals (a := demoResender) (b := demoAsker) demoPrimitives_lawful demoProtobuf_lawful rfl
      rfl (clientAfter_run {} demoReturned) hdecode hdue (served_of_serves (by decide +kernel)) hkeys
  have hafter : demoMended.1 = w' := congrArg Prod.fst hrun
  exact ⟨_, out, hafter ▸ hmends⟩

end Demo

end PyWhats
