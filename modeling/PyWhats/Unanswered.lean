import PyWhats.FirstMessages
import PyWhats.Preamble

/-! What a client sends before the peer has answered. Whatever else its stores go
through, the session stays on the chain that its X3DH run started, so the peer
opens each of these messages on its own. -/

namespace PyWhats

variable {P : Primitives} {env : Env P} {dev : Device P}

section Sessions

/-- The session is where a run of this device left it, some messages later. -/
structure Session.Outbound (env : Env P) (dev : Device P) (session : Session) (run : InitiatorRun) :
    Prop where
  made : ∃ i, run.Made dev (env.keyPair i)
  state : ∃ seed n, run.start.cks = some seed ∧
    session.state = { run.start with cks := some (chainAt P seed n), ns := n }

def Session.OutboundFirst (env : Env P) (dev : Device P) (session : Session) : Prop :=
  ∀ run, session.Unanswered run → session.Outbound env dev run

def AllOutbound (env : Env P) (dev : Device P) (w : World P) : Prop :=
  ∀ sid session, w.sessions.get? sid = some session → session.OutboundFirst env dev

theorem InitiatorRun.Made.outbound {run : InitiatorRun} {i : Nat}
    (h : run.Made dev (env.keyPair i)) : run.session.Outbound env dev run := by
  obtain ⟨shared, -, hstart⟩ := except_bind_ok.mp h.ratchet
  have hstart' := Except.ok.inj hstart
  refine ⟨⟨i, h⟩, (kdfRk P run.result.sharedSecret shared).2, 0, ?_, ?_⟩
  · rw [← hstart']
    rfl
  · change run.start = _
    rw [← hstart']
    rfl

theorem InitiatorRun.Made.outboundFirst {run : InitiatorRun} {i : Nat}
    (h : run.Made dev (env.keyPair i)) : run.session.OutboundFirst env dev := by
  intro run' hun
  cases hun.1
  exact h.outbound

/-- The next message of a session that the peer has not answered. -/
theorem Encryption.Made.outboundFirst {e : Encryption} {state : RatchetState} (he : e.Made dev state)
    (h : e.session.OutboundFirst env dev) :
    Session.OutboundFirst env dev { e.session with state := state } := by
  intro run hun
  obtain ⟨hmade, seed, n, hseed, hstate⟩ := h run hun
  have hck : e.session.state.cks = some (chainAt P seed n) := by rw [hstate]
  have hnext := (ratchetEncrypt_eq hck e.plaintext _).symm.trans he
  refine ⟨hmade, seed, n + 1, hseed, ?_⟩
  injection hnext with _ hnext
  rw [← hnext, hstate, chainAt_succ]

theorem outboundFirst_heard {session : Session} {state : RatchetState} :
    Session.OutboundFirst env dev { session with state := state, heard := true } :=
  fun _ hun => nomatch hun.2

theorem outboundFirst_accepted {state start : RatchetState} {identityKey : Bytes} {heard : Bool} :
    Session.OutboundFirst env dev ⟨state, .accepted identityKey start, heard⟩ :=
  fun _ hun => nomatch hun.1

theorem AllOutbound.mono {w w' : World P} (hw : AllOutbound env dev w)
    (h : ∀ sid session, w'.sessions.get? sid = some session →
      (∃ sid', w.sessions.get? sid' = some session) ∨ session.OutboundFirst env dev) :
    AllOutbound env dev w' := by
  intro sid session hsession
  rcases h sid session hsession with ⟨sid', hold⟩ | hnew
  · exact hw sid' session hold
  · exact hnew

theorem AllOutbound.congr {w w' : World P} (hw : AllOutbound env dev w)
    (h : w'.sessions = w.sessions) : AllOutbound env dev w' :=
  hw.mono fun sid session hsession => .inl ⟨sid, by rw [← h, hsession]⟩

theorem AllOutbound.set {w w' : World P} {a : String} {new : Session} (hw : AllOutbound env dev w)
    (h : w'.sessions = w.sessions.set a new) (hnew : new.OutboundFirst env dev) :
    AllOutbound env dev w' := by
  refine hw.mono fun sid session hsession => ?_
  rw [h, OrderedMap.get?_set] at hsession
  split at hsession
  · cases hsession
    exact .inr hnew
  · exact .inl ⟨sid, hsession⟩

theorem AllOutbound.erase {w w' : World P} {a : String} (hw : AllOutbound env dev w)
    (h : w'.sessions = w.sessions.erase a) : AllOutbound env dev w' := by
  refine hw.mono fun sid session hsession => ?_
  rw [h, OrderedMap.get?_erase] at hsession
  split at hsession
  · cases hsession
  · exact .inl ⟨sid, hsession⟩

theorem Trans.allOutbound {w w' : World P} (h : Trans env dev w w') (hw : AllOutbound env dev w) :
    AllOutbound env dev w' := by
  cases h with
  | quiet h => exact hw.congr h.sessions
  | initiate hi hn hrun hsession hmeta he =>
    have hfirst := hrun.outboundFirst
    rw [← hsession] at hfirst
    exact hw.set rfl (he.outboundFirst hfirst)
  | install hreceipt hid hi hn hrun => exact hw.set rfl hrun.outboundFirst
  | encrypt hsession hmeta he => exact hw.set rfl (he.outboundFirst (hw _ _ hsession))
  | drop => exact hw.erase rfl
  | acceptPrekey => exact hw.set rfl outboundFirst_accepted
  | acceptPrekeyNoted => exact hw.set (noted_sessions _ _) outboundFirst_accepted
  | acceptMessage => exact hw.set rfl outboundFirst_heard
  | acceptMessageNoted => exact hw.set (noted_sessions _ _) outboundFirst_heard
  | @migrate pn lid session hserver hserver' hpn hlid =>
    refine hw.mono fun sid session' hsession => ?_
    change ((w.sessions.set (sessionId lid) session).erase (sessionId pn)).get? sid = _ at hsession
    rw [OrderedMap.get?_erase, OrderedMap.get?_set] at hsession
    split at hsession
    · cases hsession
    · split at hsession
      · cases hsession
        exact .inl ⟨_, hpn⟩
      · exact .inl ⟨sid, hsession⟩
  | _ => exact hw.congr rfl

theorem Part.allOutbound {w w' : World P} (h : Part env dev w w') (hw : AllOutbound env dev w) :
    AllOutbound env dev w' := by
  cases h with
  | initiateMeta => exact hw.congr rfl
  | initiateIdentity => exact hw.congr rfl
  | install hi hn hrun => exact hw.set rfl hrun.outboundFirst
  | dropSession => exact hw.erase rfl
  | dropMeta => exact hw.erase rfl
  | acceptPrekey => exact hw.set (noted_sessions _ _) outboundFirst_accepted
  | acceptMessage => exact hw.set (noted_sessions _ _) outboundFirst_heard

end Sessions

section Preambles

/-- The preamble at hand for an unanswered session, if there is one, is its run's. -/
def Slot.Introduced (registrationId : Nat) (x : Slot) : Prop :=
  ∀ session run m, x.session = some session → session.Unanswered run → x.peerMeta = some m →
    m.pendingPrekey = none ∨ m = run.peerMeta registrationId

theorem SlotStep.introduced {history : List (Stores P × Event)} {s : Stores P} {sid : String}
    {x : Slot} (h : SlotStep env dev history s sid x)
    (hlid : IsLid sid → (s.slot sid).session = none → (s.slot sid).peerMeta = none)
    (hs : (s.slot sid).Introduced dev.registrationId) : x.Introduced dev.registrationId := by
  intro session' run m hsession hun hm
  cases h with
  | same => exact hs session' run m hsession hun hm
  | initiate hrun hstate =>
    cases hsession
    cases hun.1
    cases hm
    exact .inr rfl
  | install hrun hreceipt hid =>
    cases hsession
    cases hun.1
    cases hm
    exact .inr rfl
  | rehydrate h =>
    cases hm
    exact .inl rfl
  | encrypt h hstate =>
    cases hsession
    exact hs _ run m h hun hm
  | drop => cases hsession
  | acceptPrekey start state hevent hv =>
    cases hsession
    cases hun.1
  | acceptMessage h hstate hx =>
    cases hsession
    cases hun.2
  | note hevent hv => exact .inl (Slot.acknowledged_peerMeta hm).1
  | migrateAway h => cases hsession
  | migrateHere hpn hlid' hevent hfrom hfree =>
    have hm' : (s.slot sid).peerMeta = some m := hm
    rw [hlid hlid' hfree] at hm'
    cases hm'

end Preambles

section Encryptions

theorem Trans.encrypted {w w' : World P} (h : Trans env dev w w') {v : Stores P} {e : Encryption}
    (hmem : (v, Event.encrypt e) ∈ w'.history) :
    (v, Event.encrypt e) ∈ w.history ∨ (∃ state, e.Made dev state) ∧
      ((w.slot e.sid).session = some e.session ∧ (w.slot e.sid).peerMeta = some e.peerMeta ∨
        ∃ (run : InitiatorRun) (i : Nat), run.Made dev (env.keyPair i) ∧
          e.session = run.session ∧ e.peerMeta = run.peerMeta dev.registrationId) := by
  cases h with
  | quiet => exact .inl hmem
  | cacheSent => exact .inl hmem
  | learnSenderKey => exact .inl hmem
  | advanceSenderKey => exact .inl hmem
  | initiate hi hn hrun hsession hmeta he =>
    rcases List.mem_append.mp hmem with hmem | hmem
    · exact .inl ((List.mem_append.mp hmem).resolve_right (by simp))
    · cases List.mem_singleton.mp hmem
      exact .inr ⟨⟨_, he⟩, .inr ⟨_, _, hrun, hsession, hmeta⟩⟩
  | encrypt hsession hmeta he =>
    rcases List.mem_append.mp hmem with hmem | hmem
    · exact .inl hmem
    · cases List.mem_singleton.mp hmem
      exact .inr ⟨⟨_, he⟩, .inl ⟨hsession, hmeta⟩⟩
  | acceptPrekeyNoted =>
    rcases mem_noted_history hmem with hmem | ⟨sid, h⟩
    · exact .inl ((List.mem_append.mp hmem).resolve_right (by simp))
    · cases h
  | acceptMessageNoted =>
    rcases mem_noted_history hmem with hmem | ⟨sid, h⟩
    · exact .inl ((List.mem_append.mp hmem).resolve_right (by simp))
    · cases h
  | _ => exact .inl ((List.mem_append.mp hmem).resolve_right (by simp))

/-- What is known of an encryption on a session that the peer has not answered. -/
structure Encryption.Early (env : Env P) (dev : Device P) (e : Encryption) (run : InitiatorRun) :
    Prop where
  outbound : e.session.Outbound env dev run
  made : ∃ state, e.Made dev state
  preamble : e.peerMeta.pendingPrekey = none ∨ e.peerMeta = run.peerMeta dev.registrationId

def AllEarly (env : Env P) (dev : Device P) (w : World P) : Prop :=
  ∀ v e run, (v, Event.encrypt e) ∈ w.history → e.session.Unanswered run → e.Early env dev run

structure EarlyInv (env : Env P) (dev : Device P) (w : World P) : Prop where
  lidClear : LidClear w
  outbound : AllOutbound env dev w
  introduced : ∀ sid, (w.slot sid).Introduced dev.registrationId
  early : AllEarly env dev w

theorem Trans.allEarly {w w' : World P} (h : Trans env dev w w') (hw : EarlyInv env dev w) :
    AllEarly env dev w' := by
  intro v e run hmem hun
  rcases h.encrypted hmem with hold | ⟨hmade, ⟨hsession, hmeta⟩ | ⟨run', i, hrun, hsession, hmeta⟩⟩
  · exact hw.early v e run hold hun
  · exact ⟨hw.outbound _ _ hsession run hun, hmade,
      hw.introduced e.sid _ run _ hsession hun hmeta⟩
  · have hfirst := hrun.outboundFirst
    rw [← hsession] at hfirst
    have horigin := hun.1
    rw [hsession] at horigin
    cases horigin
    exact ⟨hfirst _ hun, hmade, .inr hmeta⟩

theorem Trans.earlyInv {w w' : World P} (h : Trans env dev w w') (hw : EarlyInv env dev w) :
    EarlyInv env dev w' where
  lidClear := h.lidClear hw.lidClear
  outbound := h.allOutbound hw.outbound
  introduced sid := (h.slot sid).introduced (hw.lidClear sid) (hw.introduced sid)
  early := h.allEarly hw

/-- A restart forgets the preambles, and keeps the sessions. -/
theorem earlyInv_restart {w t : World P} (ht : t = w ∨ Part env dev w t) (hw : EarlyInv env dev w) :
    EarlyInv env dev t.restart where
  lidClear _ _ _ := rfl
  outbound := by
    have hrestart : t.restart.sessions = t.sessions := rfl
    rcases ht with rfl | hpart
    · exact hw.outbound.congr hrestart
    · exact (hpart.allOutbound hw.outbound).congr hrestart
  introduced _ _ _ _ _ _ hm := nomatch hm
  early v e run hmem hun := by
    have hmem' : (v, Event.encrypt e) ∈ t.history :=
      (List.mem_append.mp hmem).resolve_right (by simp)
    rcases ht with rfl | hpart
    · exact hw.early v e run hmem' hun
    · exact hw.early v e run (hpart.encryption hmem') hun

theorem lives_earlyInv {w w' : World P} (hsessions : w.sessions = .empty)
    (hmeta : w.peerMeta = .empty) (hhistory : w.history = [])
    (h : Relation.ReflTransGen (EndpointLives env dev) w w') : EarlyInv env dev w' := by
  induction h with
  | refl =>
    refine ⟨fun sid _ _ => ?_, fun sid session hsession => ?_, fun sid session run m hsession => ?_,
      fun v e run hmem => ?_⟩
    · simp [Stores.slot, hmeta]
    · simp [hsessions] at hsession
    · simp [Stores.slot, hsessions] at hsession
    · simp [hhistory] at hmem
  | tail _ hstep ih =>
    rcases hstep with h | ⟨t, ht, rfl⟩
    · exact h.earlyInv ih
    · exact earlyInv_restart ht ih

end Encryptions

section Opening

variable {a b : Host P}

/-- A run with the bundle that a device publishes is a handshake with it. -/
theorem InitiatorRun.Made.handshake (hP : P.Lawful) {run : InitiatorRun} {generated : KeyPair P}
    (h : run.Made a.dev generated) (hbundle : run.bundle = b.bundle) :
    ∃ ephemeral, run = (Handshake.mk a.dev b.dev b.opk ephemeral generated).run := by
  obtain ⟨⟨ephemeral, hx3dh⟩, hratchet⟩ := h
  rw [hbundle] at hx3dh hratchet
  have hresult := x3dhInitiator_publish hP a.dev.identity ephemeral b.dev.identity
    b.dev.signedPreKey b.opk (x3dhInitiator_publish_inv hx3dh)
  have hres := Except.ok.inj (hresult.symm.trans hx3dh)
  rw [← hres] at hratchet
  have hstart := Except.ok.inj ((ratchetInitAlice_pair hP _ _ _).symm.trans hratchet)
  refine ⟨ephemeral, ?_⟩
  obtain ⟨bundle, result, start⟩ := run
  subst hbundle hres hstart
  rfl

/-- An encryption that the ratchet made is determined by its session. -/
theorem Encryption.Made.eq {e : Encryption} {state : RatchetState} {ck : Bytes} (h : e.Made dev state)
    (hck : e.session.state.cks = some ck) :
    e = e.session.encryption P e.peer e.plaintext e.peerMeta ck := by
  obtain ⟨peer, plaintext, session, m, header, ciphertext, macKey⟩ := e
  injection (ratchetEncrypt_eq hck plaintext _).symm.trans h with hout _
  injection hout with hheader hrest
  have hheader' : (⟨session.state.dhsPub, session.state.pn, session.state.ns⟩ : MessageHeader) =
    header := hheader
  simp only [Session.encryption, hrest, hheader']

theorem Encryption.pending_of_pkmsg {e : Encryption} {out : String × Bytes}
    (hwire : e.wire env dev = .ok out) (hout : out.1 = "pkmsg") : e.peerMeta.pendingPrekey ≠ none := by
  intro hnone
  obtain ⟨inner, -, hwire⟩ := except_bind_ok.mp hwire
  rw [hnone] at hwire
  cases hwire
  exact absurd hout (by simp)

theorem Session.Unanswered.sending {session : Session} {hs : Handshake P} {n : Nat}
    (h : session.Unanswered hs.run)
    (hstate : session.state =
      { hs.run.start with cks := some (chainAt P hs.first.2 n), ns := n }) :
    session = hs.sending n := by
  obtain ⟨state, origin, heard⟩ := session
  obtain ⟨horigin, hheard⟩ := h
  subst hstate horigin hheard
  rfl

/-- An encryption on an unanswered session, sent with its preamble, is a frame of the
handshake that started the session. -/
theorem Encryption.Early.frame (hP : P.Lawful) (hsame : a.env.pb = b.env.pb) {e : Encryption}
    {run : InitiatorRun} {out : String × Bytes} (h : e.Early a.env a.dev run)
    (hun : e.session.Unanswered run) (hbundle : run.bundle = b.bundle)
    (hwire : e.wire a.env a.dev = .ok out) (hout : out.1 = "pkmsg") :
    ∃ hs, FrameFor hs b e.header.n e.plaintext out := by
  obtain ⟨⟨i, hrun⟩, seed, n, hseed, hstate⟩ := h.outbound
  obtain ⟨ephemeral, heq⟩ := hrun.handshake hP hbundle
  obtain ⟨state, hmade⟩ := h.made
  have hmeta := h.preamble.resolve_left (Encryption.pending_of_pkmsg hwire hout)
  generalize hhs : Handshake.mk a.dev b.dev b.opk ephemeral (a.env.keyPair i) = hs at heq
  subst heq
  cases hseed
  have hsession := hun.sending hstate
  have hck : e.session.state.cks = some (chainAt P hs.first.2 n) := by rw [hstate]
  have he := hmade.eq hck
  rw [hsession, hmeta] at he
  have hdev : hs.initiator = a.dev := by rw [← hhs]
  rw [he, ← hdev] at hwire
  have hframe := hs.frame_of_wire hwire
  have hn : e.header.n = n := by rw [he]; rfl
  rw [hn]
  exact ⟨hs, by rw [← hhs], by rw [← hhs], hsame ▸ hframe⟩

/-- A frame of the handshake opens just up to the skip limit, whoever is said to have
sent it and whichever chat it came through. -/
theorem FrameFor.opens_iff (hP : P.Lawful) (hpb : b.env.pb.Lawful) {hs : Handshake P} {n : Nat}
    {plaintext : Bytes} {out : String × Bytes} (h : FrameFor hs b n plaintext out) {wb : World P}
    (hholds : b.Holds wb) (channel : Channel) (sender : JID) :
    (∃ wb', (decryptEnc b.env b.dev channel sender out.1 out.2).run wb =
      (wb', .done (.ok plaintext))) ↔ n ≤ defaultMaxSkip := by
  have hheld : ∀ k, hs.opk = some k → (wb.arrive sender).prekeys.get? k.keyId = some k := by
    rw [World.arrive_prekeys, h.opk]
    exact hholds
  constructor
  · rintro ⟨wb', hopens⟩
    by_contra hn
    have hlimit := decryptPkmsg_limit hP hpb h.frame hheld (by omega) channel sender
    rw [h.responder] at hlimit
    cases hopens.symm.trans ((decryptEnc_pkmsg h.frame.1).trans hlimit)
  · intro hn
    obtain ⟨skipped, _, hopen⟩ := decryptPkmsg_opens hP hpb h.frame hheld hn channel sender
    rw [h.responder] at hopen
    exact ⟨_, (decryptEnc_pkmsg h.frame.1).trans hopen⟩

/-- Over any number of restarts, each `pkmsg` that the client makes on a session that
the peer has not answered opens at the device whose bundle it came from, as
long as its number is within the skip limit and the device still has the
one-time prekey that it named. -/
theorem unanswered_opens (hP : P.Lawful) (hpb : b.env.pb.Lawful) (hsame : a.env.pb = b.env.pb)
    {w : World P} {m : ClientMachine P} (hsessions : w.sessions = .empty) (hmeta : w.peerMeta = .empty)
    (hhistory : w.history = []) (hlife : ClientLife a.env a.dev w m) {v : Stores P} {e : Encryption}
    {run : InitiatorRun} {out : String × Bytes} (hmem : (v, Event.encrypt e) ∈ m.state.history)
    (hun : e.session.Unanswered run) (hbundle : run.bundle = b.bundle)
    (hwire : e.wire a.env a.dev = .ok out) (hout : out.1 = "pkmsg") {wb : World P}
    (hholds : b.Holds wb) (channel : Channel) (sender : JID) :
    (∃ wb', (decryptEnc b.env b.dev channel sender out.1 out.2).run wb =
      (wb', .done (.ok e.plaintext))) ↔ e.header.n ≤ defaultMaxSkip := by
  have hinv := lives_earlyInv hsessions hmeta hhistory hlife.lives
  obtain ⟨hs, hframe⟩ := (hinv.early v e run hmem hun).frame hP hsame hun hbundle hwire hout
  exact hframe.opens_iff hP hpb hholds channel sender

end Opening

section Demo

/-- An encryption that the result is about, with its number. -/
def Encryption.opensAt (env : Env P) (dev : Device P) (bundle : PreKeyBundle) (n : Nat)
    (e : Encryption) : Bool :=
  match e.session.origin, e.wire env dev with
  | .initiated run, .ok out =>
      !e.session.heard && run.bundle == bundle && out.1 == "pkmsg" && e.header.n == n
  | _, _ => false

def Event.opensAt (env : Env P) (dev : Device P) (bundle : PreKeyBundle) (n : Nat) : Event → Bool
  | .encrypt e => e.opensAt env dev bundle n
  | _ => false

theorem Encryption.unanswered_of_opensAt {bundle : PreKeyBundle} {n : Nat} {e : Encryption}
    (h : e.opensAt env dev bundle n = true) : ∃ run out, e.session.Unanswered run ∧
      run.bundle = bundle ∧ e.wire env dev = .ok out ∧ out.1 = "pkmsg" ∧ e.header.n = n := by
  rw [opensAt] at h
  split at h
  · rename_i run out horigin hwire
    simp only [Bool.and_eq_true, Bool.not_eq_true', beq_iff_eq] at h
    obtain ⟨⟨⟨hheard, hbundle⟩, hout⟩, hn⟩ := h
    exact ⟨run, out, ⟨horigin, hheard⟩, hbundle, hwire, hout, hn⟩
  · cases h

/-- The answer to the query names a one-time prekey of the peer. -/
def demoOpkAnswer : Node :=
  .mk "iq" [("id", .str "m3"), ("type", .str "result")] (.nodes [
    .mk "list" [] (.nodes [.mk "user" [("jid", .jid demoPeer.ownJid)] (.nodes (demoKeys demoPeer ++ [
      .mk "key" [] (.nodes [
        .mk "id" [] (.bytes [9]), .mk "value" [] (.bytes demoOpk.pair.pub)])]))])])

def demoSender : Host demoPrimitives := ⟨demoEnv [demoOpkAnswer], demoMe, none⟩

/-- After a restart, two messages to a new peer, before there is any ack. -/
def demoBothSent : ClientMachine demoPrimitives :=
  clientAfter (demoEnv [demoOpkAnswer]) demoMe (World.restart {})
    (demoFirst [demoOpkAnswer] ++ [demoSend [demoOpkAnswer]])

/-- The second message comes first, and finds the one-time prekey held. -/
theorem unanswered_opens_second : ∃ v e out, (v, Event.encrypt e) ∈ demoBothSent.state.history ∧
    e.wire (demoEnv [demoOpkAnswer]) demoMe = .ok out ∧ e.header.n = 1 ∧
    ∃ w', (decryptEnc (demoEnv []) demoPeer .direct demoMe.ownJid out.1 out.2).run demoStored =
      (w', .done (.ok e.plaintext)) := by
  have hany : demoBothSent.state.history.any (fun ev => ev.2.opensAt (demoEnv [demoOpkAnswer]) demoMe
      (demoCallee (some demoOpk)).bundle 1) = true := by decide +kernel
  obtain ⟨⟨v, event⟩, hmem, hev⟩ := List.any_eq_true.mp hany
  cases event with
  | encrypt e =>
    obtain ⟨run, out, hun, hbundle, hwire, hout, hn⟩ := Encryption.unanswered_of_opensAt hev
    have hholds : (demoCallee (some demoOpk)).Holds demoStored := by
      rintro k ⟨⟩
      rfl
    have hlife : ClientLife (demoEnv [demoOpkAnswer]) demoMe {} demoBothSent :=
      ClientLife.restart (m := .idle {}) .refl (clientAfter_run _ _)
    have hiff := unanswered_opens (a := demoSender) (b := demoCallee (some demoOpk))
      demoPrimitives_lawful demoProtobuf_lawful rfl rfl rfl rfl hlife hmem hun hbundle hwire hout
      hholds .direct demoMe.ownJid
    exact ⟨v, e, out, hmem, hwire, hn, hiff.mpr (by rw [hn, defaultMaxSkip]; omega)⟩
  | _ => cases hev

end Demo

end PyWhats
