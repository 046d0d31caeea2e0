import PyWhats.Delivery
import PyWhats.RatchetChain

/-! Two devices, each with a `Sender` and a `Receiver` over stores of its own: what
the first messages of a session look like on the wire, and what the other
device makes of them. -/

namespace PyWhats

variable {P : Primitives}

/-- A device, its surroundings, and the one-time prekey it offers in its bundle. -/
structure Host (P : Primitives) where
  env : Env P
  dev : Device P
  opk : Option (OneTimePreKey P)

namespace Host

def bundle (a : Host P) : PreKeyBundle := publishBundle a.dev.identity a.dev.signedPreKey a.opk

def sid (a : Host P) : String := sessionId a.dev.ownJid

def encryptFor (a b : Host P) (plaintext : Bytes) : CoM P (String × Bytes) :=
  encryptForPeer a.env a.dev (fun _ => pure b.bundle) b.dev.ownJid plaintext

def decryptFrom (b a : Host P) (out : String × Bytes) : CoM P Bytes :=
  decryptEnc b.env b.dev .direct a.dev.ownJid out.1 out.2

def Holds (a : Host P) (w : World P) : Prop := ∀ k, a.opk = some k → w.prekeys.get? k.keyId = some k

end Host

/-- Nothing is stored that a message could be encrypted with. -/
def World.Unknown (w : World P) (sid : String) : Prop :=
  w.sessions.get? sid = none ∨ w.peerMeta.get? sid = none ∧ w.identities.get? sid = none

section Steps

variable {env : Env P} {dev : Device P} {w : World P} {sid : String}

theorem loadForPeer_unknown (h : w.Unknown sid) : (loadForPeer sid).run w = (w, .done (.ok none)) := by
  refine Co.run_get_bind.trans ?_
  cases hs : w.sessions.get? sid with
  | none => rfl
  | some session =>
    obtain ⟨hm, hi⟩ := h.resolve_left (by simp [hs])
    simp only [hm, hi]
    rfl

theorem loadForPeer_known {session : Session} {m : PeerSessionMeta}
    (hs : w.sessions.get? sid = some session) (hm : w.peerMeta.get? sid = some m) :
    (loadForPeer sid).run w = (w, .done (.ok (some (session, m)))) := by
  refine Co.run_get_bind.trans ?_
  simp only [hs, hm]
  rfl

def Session.encryption (P : Primitives) (session : Session) (peer : JID) (plaintext : Bytes)
    (m : PeerSessionMeta) (ck : Bytes) : Encryption where
  peer := peer
  plaintext := plaintext
  session := session
  peerMeta := m
  header := ⟨session.state.dhsPub, session.state.pn, session.state.ns⟩
  ciphertext := (encryptAesCbc P (kdfCk P ck).1 plaintext).1
  macKey := (encryptAesCbc P (kdfCk P ck).1 plaintext).2

def Session.next (P : Primitives) (session : Session) (ck : Bytes) : Session :=
  { session with
    state := { session.state with cks := some (nextChainKey P ck), ns := session.state.ns + 1 } }

theorem encryptOn_run {session : Session} {m : PeerSessionMeta} {ck : Bytes}
    (hck : session.state.cks = some ck) (peer : JID) (plaintext : Bytes) :
    (encryptOn env dev peer plaintext session m).run w =
      (w.log (.encrypt (session.encryption P peer plaintext m ck))
        (.setSession (sessionId peer) (session.next P ck)),
        .done ((session.encryption P peer plaintext m ck).wire env dev)) := by
  simp only [encryptOn, ratchetEncrypt_eq hck]
  rfl

theorem encryptForPeer_known {fetch : JID → CoM P PreKeyBundle} {peer : JID} {session : Session}
    {m : PeerSessionMeta} {ck : Bytes} (hs : w.sessions.get? (sessionId peer) = some session)
    (hm : w.peerMeta.get? (sessionId peer) = some m) (hck : session.state.cks = some ck)
    (plaintext : Bytes) :
    (encryptForPeer env dev fetch peer plaintext).run w =
      (w.log (.encrypt (session.encryption P peer plaintext m ck))
        (.setSession (sessionId peer) (session.next P ck)),
        .done ((session.encryption P peer plaintext m ck).wire env dev)) :=
  (Co.run_bind_ok (loadForPeer_known hs hm)).trans (encryptOn_run hck peer plaintext)

end Steps

/-- One X3DH run between two devices, with the keys the initiator generated for it. -/
structure Handshake (P : Primitives) where
  initiator : Device P
  responder : Device P
  opk : Option (OneTimePreKey P)
  ephemeral : KeyPair P
  ratchet : KeyPair P

namespace Handshake

variable (hs : Handshake P)

def secret : Bytes :=
  x3dhSecret P hs.initiator.identity hs.ephemeral hs.responder.identity hs.responder.signedPreKey.pair
    (hs.opk.map OneTimePreKey.pair)

/-- The root key after the first DH step, and the seed of the initiator's chain. -/
def first : Bytes × Bytes := kdfRk P hs.secret (hs.ratchet.agree hs.responder.signedPreKey.pair)

/-- The same after the responder's DH step with the pair it generated. -/
def second (generated : KeyPair P) : Bytes × Bytes :=
  kdfRk P hs.first.1 (generated.agree hs.ratchet)

def run : InitiatorRun where
  bundle := publishBundle hs.responder.identity hs.responder.signedPreKey hs.opk
  result :=
    { sharedSecret := hs.secret
      associatedData := hs.initiator.identity.pub ++ hs.responder.identity.pub
      ephemeralPublic := hs.ephemeral.pub
      identityPublic := hs.initiator.identity.pub
      usedSignedPreKeyId := hs.responder.signedPreKey.keyId
      usedOneTimePreKeyId := hs.opk.map OneTimePreKey.keyId }
  start :=
    { dhsPriv := hs.ratchet.priv, dhsPub := hs.ratchet.pub
      dhr := some hs.responder.signedPreKey.pair.pub
      rk := hs.first.1, cks := some hs.first.2, ckr := none }

def sending (n : Nat) : Session :=
  { hs.run.session with
    state := { hs.run.start with cks := some (chainAt P hs.first.2 n), ns := n } }

def peerMeta : PeerSessionMeta := hs.run.peerMeta hs.initiator.registrationId

def message (n : Nat) (plaintext : Bytes) : SignalMessage where
  header := ⟨hs.ratchet.pub, 0, n⟩
  ciphertext := (encryptAesCbc P (messageKey P hs.first.2 n) plaintext).1

/-- The output of `_encrypt_for_peer` for the `n`th message. -/
def Frame (pb : Protobuf) (n : Nat) (plaintext : Bytes) (out : String × Bytes) : Prop :=
  out.1 = "pkmsg" ∧
    (hs.run.prekeyMessage hs.initiator.registrationId (hs.message n plaintext)).encode P pb
      hs.initiator.identity.pub hs.responder.identity.pub
      (encryptAesCbc P (messageKey P hs.first.2 n) plaintext).2 = .ok out.2

end Handshake

section Initiator

variable {a b : Host P} {w w' : World P}

def Host.handshake (a b : Host P) (w : World P) : Handshake P where
  initiator := a.dev
  responder := b.dev
  opk := b.opk
  ephemeral := a.env.keyPair w.drawn
  ratchet := a.env.keyPair (w.drawn + 1)

theorem ratchetInitAlice_pair (hP : P.Lawful) (generated spk : KeyPair P) (secret : Bytes) :
    ratchetInitAlice P generated secret spk.pub = .ok {
      dhsPriv := generated.priv, dhsPub := generated.pub, dhr := some spk.pub
      rk := (kdfRk P secret (generated.agree spk)).1
      cks := some (kdfRk P secret (generated.agree spk)).2, ckr := none } := by
  simp only [ratchetInitAlice, ratchetDh, hP.exchange_eq generated spk]
  rfl

theorem establishSessionFromBundle_run (hP : P.Lawful) {r : InitiatorRun}
    (h : (establishSessionFromBundle a.env a.dev b.bundle).run w = (w', .done (.ok r))) :
    r = (a.handshake b w).run ∧ w' = w.put (.setDrawn (w.drawn + 2)) := by
  obtain ⟨ephemeral, w₁, hdraw, h⟩ := Co.run_bind_inv h
  cases hdraw
  obtain ⟨result, w₂, hlift, h⟩ := Co.run_bind_inv h
  obtain ⟨rfl, hx3dh⟩ := Co.run_done_inj rfl hlift
  have hverify := x3dhInitiator_publish_inv hx3dh
  have hresult : x3dhInitiator P a.dev.identity b.bundle (a.env.keyPair w.drawn) =
      .ok (a.handshake b w).run.result := x3dhInitiator_publish hP _ _ _ _ _ hverify
  rw [hresult] at hx3dh
  cases hx3dh
  obtain ⟨generated, w₃, hdraw, h⟩ := Co.run_bind_inv h
  cases hdraw
  obtain ⟨state, w₄, hlift', h⟩ := Co.run_bind_inv h
  obtain ⟨rfl, hinit⟩ := Co.run_done_inj rfl hlift'
  have hstart : ratchetInitAlice P (a.env.keyPair (w.drawn + 1)) (a.handshake b w).run.result.sharedSecret
      b.bundle.signedPreKeyPublic = .ok (a.handshake b w).run.start := ratchetInitAlice_pair hP _ _ _
  cases hstart.symm.trans hinit
  cases h
  exact ⟨rfl, rfl⟩

theorem Handshake.frame_of_wire {env : Env P} (hs : Handshake P) {peer : JID} {n : Nat}
    {plaintext : Bytes} {out : String × Bytes}
    (h : ((hs.sending n).encryption P peer plaintext hs.peerMeta (chainAt P hs.first.2 n)).wire env
      hs.initiator = .ok out) : hs.Frame env.pb n plaintext out := by
  obtain ⟨_, _, h⟩ := except_bind_ok.mp h
  obtain ⟨frame, hframe, h⟩ := except_bind_ok.mp h
  cases h
  exact ⟨rfl, hframe⟩

theorem Handshake.sending_next (hs : Handshake P) (n : Nat) :
    (hs.sending n).next P (chainAt P hs.first.2 n) = hs.sending (n + 1) := by
  simp only [sending, Session.next, chainAt_succ]

theorem Host.encryptFor_unknown (hP : P.Lawful) {plaintext : Bytes} {out : String × Bytes}
    (hw : w.Unknown b.sid) (h : (a.encryptFor b plaintext).run w = (w', .done (.ok out))) :
    (a.handshake b w).Frame a.env.pb 0 plaintext out ∧
      w'.sessions.get? b.sid = some ((a.handshake b w).sending 1) ∧
      w'.peerMeta.get? b.sid = some (a.handshake b w).peerMeta ∧
      w'.drawn = w.drawn + 2 ∧ w'.prekeys = w.prekeys := by
  obtain ⟨loaded, w₁, hload, h⟩ := Co.run_bind_inv h
  cases (loadForPeer_unknown hw).symm.trans hload
  obtain ⟨bundle, w₂, hfetch, h⟩ := Co.run_bind_inv h
  cases hfetch
  obtain ⟨run, w₃, hrun, h⟩ := Co.run_bind_inv h
  obtain ⟨rfl, rfl⟩ := establishSessionFromBundle_run hP hrun
  obtain ⟨_, w₄, hmeta, h⟩ := Co.run_bind_inv h
  cases hmeta
  obtain ⟨_, w₅, hidentity, h⟩ := Co.run_bind_inv h
  cases hidentity
  have hsend : (a.handshake b w).run.session = (a.handshake b w).sending 0 := rfl
  rw [hsend] at h
  obtain ⟨rfl, hwire⟩ := Co.run_done_inj (encryptOn_run rfl _ _) h
  refine ⟨(a.handshake b w).frame_of_wire hwire, ?_, ?_, rfl, rfl⟩
  · exact (OrderedMap.get?_set_self _ _ _).trans (congrArg some ((a.handshake b w).sending_next 0))
  · exact OrderedMap.get?_set_self _ _ _

end Initiator

section Responder

namespace Handshake

variable (hs : Handshake P)

def responding : RatchetState :=
  ratchetInitBob hs.secret hs.responder.signedPreKey.pair.priv hs.responder.signedPreKey.pair.pub

/-- The same after the `n`th message was the first to come in. -/
def received (generated : KeyPair P) (n : Nat) (skipped : OrderedMap (Bytes × Nat) Bytes) :
    RatchetState where
  dhsPriv := generated.priv
  dhsPub := generated.pub
  dhr := some hs.ratchet.pub
  rk := (hs.second generated).1
  cks := some (hs.second generated).2
  ckr := some (chainAt P hs.first.2 (n + 1))
  nr := n + 1
  mkskipped := skipped

def ratcheted (generated : KeyPair P) : RatchetState :=
  { hs.received generated 0 .empty with ckr := some hs.first.2, nr := 0 }

theorem ratchetDecrypt_ratcheted (hP : P.Lawful) (generated : KeyPair P) (n : Nat) (ct ad : Bytes)
    (v : Option MacVerifier) :
    ratchetDecrypt P generated ⟨hs.ratchet.pub, 0, n⟩ ct ad v hs.responding =
      receiveAt P n ct v (hs.ratcheted generated) := by
  have hskip : skipMessageKeys P 0 hs.responding = .ok () hs.responding := skipMessageKeys_none 0 rfl
  have hnew : ratchetDecrypt P generated ⟨hs.ratchet.pub, 0, n⟩ ct ad v hs.responding =
      receiveAt P n ct v (dhRatcheted P generated hs.ratchet.pub
        (hs.responder.signedPreKey.pair.agree hs.ratchet) (generated.agree hs.ratchet)
        hs.responding) :=
    ratchetDecrypt_newChain rfl (by rintro ⟨⟩) hskip (hP.exchange_eq _ _) (hP.exchange_eq _ _)
  rw [hnew, hP.agree_comm hs.responder.signedPreKey.pair hs.ratchet]
  rfl

/-- The keys of the messages before the `n`th are kept, and no others. -/
def SkippedTo (n : Nat) (skipped : OrderedMap (Bytes × Nat) Bytes) : Prop :=
  ∀ k : Bytes × Nat, skipped.get? k =
    if k.1 = hs.ratchet.pub ∧ k.2 < n then some (messageKey P hs.first.2 k.2) else none

/-- A new session opens every message up to the skip limit, whatever came before. -/
theorem ratchetDecrypt_responding (hP : P.Lawful) (generated : KeyPair P) {n : Nat}
    (hn : n ≤ defaultMaxSkip) :
    ∃ skipped, (∀ ct ad v, ratchetDecrypt P generated ⟨hs.ratchet.pub, 0, n⟩ ct ad v hs.responding =
        openMessage P (messageKey P hs.first.2 n) ct v (hs.received generated n skipped)) ∧
      hs.SkippedTo n skipped := by
  have hmax : n ≤ (hs.ratcheted generated).nr + (hs.ratcheted generated).maxSkip := by
    rw [show (hs.ratcheted generated).nr + (hs.ratcheted generated).maxSkip = defaultMaxSkip from rfl]
    exact hn
  have hsize : (hs.ratcheted generated).mkskipped.size + (n - (hs.ratcheted generated).nr) ≤
      maxSkippedTotal := by
    show 0 + (n - 0) ≤ maxSkippedTotal
    simp only [defaultMaxSkip, maxSkippedTotal] at hn ⊢
    omega
  obtain ⟨skipped, hopen, hget⟩ := receiveAt_spec (P := P) rfl rfl (Nat.zero_le n) hmax hsize
  refine ⟨skipped, fun ct ad v => ?_, fun k => (hget k).trans ?_⟩
  · rw [hs.ratchetDecrypt_ratcheted hP generated n ct ad v, hopen ct v]
    rfl
  · by_cases hk : k.1 = hs.ratchet.pub ∧ k.2 < n
    · rw [if_pos hk, if_pos ⟨hk.1, Nat.zero_le _, hk.2⟩]
      rfl
    · rw [if_neg hk, if_neg fun h => hk ⟨h.1, h.2.2⟩]
      rfl

theorem ratchetDecrypt_responding_limit (hP : P.Lawful) (generated : KeyPair P) {n : Nat}
    (hn : defaultMaxSkip < n) (ct ad : Bytes) (v : Option MacVerifier) :
    ratchetDecrypt P generated ⟨hs.ratchet.pub, 0, n⟩ ct ad v hs.responding =
      .error (.signalCryptoError "too many skipped messages") (hs.ratcheted generated) := by
  have hlimit : (hs.ratcheted generated).nr + (hs.ratcheted generated).maxSkip < n := by
    rw [show (hs.ratcheted generated).nr + (hs.ratcheted generated).maxSkip = defaultMaxSkip from rfl]
    exact hn
  rw [hs.ratchetDecrypt_ratcheted hP generated n ct ad v]
  show (skipMessageKeys P n >>= _ : RatchetM Bytes) _ = _
  simp only [bind, EStateM.bind, skipMessageKeys_limit rfl hlimit]

def decoded (n : Nat) (plaintext body mac : Bytes) : PreKeySignalMessage :=
  hs.run.prekeyMessage hs.initiator.registrationId
    { hs.message n plaintext with body := some body, mac := some mac }

theorem Frame.decode {hs : Handshake P} {pb : Protobuf} (hP : P.Lawful) (hpb : pb.Lawful) {n : Nat}
    {plaintext : Bytes} {out : String × Bytes} (h : hs.Frame pb n plaintext out) :
    ∃ body mac, PreKeySignalMessage.decode pb out.2 = .ok (hs.decoded n plaintext body mac) ∧
      signalMac P hs.initiator.identity.pub hs.responder.identity.pub (signalMagic :: body)
        (encryptAesCbc P (messageKey P hs.first.2 n) plaintext).2 = .ok mac := by
  obtain ⟨body, mac, hmac, hdecode⟩ := PreKeySignalMessage.decode_encoded hP hpb rfl rfl
    (hP.public_length hs.ratchet) (hP.public_length hs.ephemeral)
    (hP.public_length hs.initiator.identity) h.2
  exact ⟨body, mac, hdecode, hmac⟩

end Handshake

variable {env : Env P} {hs : Handshake P} {w : World P} {channel : Channel} {sender : JID}
  {n : Nat} {plaintext : Bytes} {out : String × Bytes}

theorem lookupOneTimePreKey_held {opk : Option (OneTimePreKey P)}
    (h : ∀ k, opk = some k → w.prekeys.get? k.keyId = some k) :
    (lookupOneTimePreKey (opk.map OneTimePreKey.keyId)).run w = (w, .done (.ok opk)) := by
  cases opk with
  | none => rfl
  | some k =>
    refine Co.run_get_bind.trans ?_
    simp only [h k rfl]
    rfl

theorem lookupOneTimePreKey_gone {k : OneTimePreKey P} (h : w.prekeys.get? k.keyId = none) :
    (lookupOneTimePreKey (some k.keyId)).run w =
      (w, .done (.error (.valueError ("unknown one-time pre-key id " ++ toString k.keyId)))) := by
  refine Co.run_get_bind.trans ?_
  simp only [h]
  rfl

/-- The end of the `pkmsg` branch, when the ratchet has returned. -/
def Handshake.conclude (hs : Handshake P) (channel : Channel) (sender : JID) :
    EStateM.Result PyError RatchetState Bytes → CoM P Bytes
  | .error e _ => Co.raise e
  | .ok plaintext state => do
    record (.acceptPrekey (sessionId sender) hs.initiator.identity.pub channel)
      (.acceptPrekey (sessionId sender) (hs.opk.map OneTimePreKey.keyId)
        ⟨state, .accepted hs.initiator.identity.pub hs.responding, true⟩ hs.initiator.identity.pub)
    return plaintext

def Handshake.verifier (hs : Handshake P) (n : Nat) (plaintext body mac : Bytes) : MacVerifier :=
  (hs.decoded n plaintext body mac).message.verifyMac P hs.initiator.identity.pub
    hs.responder.identity.pub

/-- While the prekey is there, `_decrypt_enc` runs the ratchet on a new session. -/
theorem decryptPkmsg_held (hP : P.Lawful) (hpb : env.pb.Lawful)
    (h : hs.Frame env.pb n plaintext out)
    (hopk : ∀ k, hs.opk = some k → w.prekeys.get? k.keyId = some k) :
    ∃ body mac, hs.verifier n plaintext body mac
        (encryptAesCbc P (messageKey P hs.first.2 n) plaintext).2 = .ok () ∧
      (decryptPkmsg env hs.responder channel sender out.2).run w =
        (hs.conclude channel sender (ratchetDecrypt P (env.keyPair w.drawn) ⟨hs.ratchet.pub, 0, n⟩
          (hs.message n plaintext).ciphertext
          (hs.initiator.identity.pub ++ hs.responder.identity.pub)
          (some (hs.verifier n plaintext body mac)) hs.responding)).run
          (w.put (.setDrawn (w.drawn + 1))) := by
  obtain ⟨body, mac, hdecode, hmac⟩ := h.decode hP hpb
  have hspk : getSignedPreKey hs.responder hs.responder.signedPreKey.keyId =
      .ok hs.responder.signedPreKey := if_neg (not_not.mpr rfl)
  have hx3dh := x3dhResponder_pair hP hs.initiator.identity hs.ephemeral hs.responder.identity
    hs.responder.signedPreKey hs.opk
  refine ⟨body, mac, SignalMessage.verifyMac_of_mac hmac, ?_⟩
  rw [decryptPkmsg, Co.run_lift_bind hdecode]
  refine (Co.run_lift_bind hspk).trans ?_
  refine (Co.run_bind_ok (lookupOneTimePreKey_held hopk)).trans ?_
  refine (Co.run_lift_bind hx3dh).trans ?_
  rfl

def Handshake.accepted (hs : Handshake P) (env : Env P) (channel : Channel) (sender : JID) (n : Nat)
    (skipped : OrderedMap (Bytes × Nat) Bytes) (w : World P) : World P :=
  w.acceptedPrekey (w.drawn + 1) (sessionId sender) (hs.opk.map OneTimePreKey.keyId) hs.responding
    (hs.received (env.keyPair w.drawn) n skipped) hs.initiator.identity.pub channel

theorem decryptPkmsg_opens (hP : P.Lawful) (hpb : env.pb.Lawful)
    (h : hs.Frame env.pb n plaintext out)
    (hopk : ∀ k, hs.opk = some k → w.prekeys.get? k.keyId = some k) (hn : n ≤ defaultMaxSkip)
    (channel : Channel) (sender : JID) :
    ∃ skipped, hs.SkippedTo n skipped ∧
      (decryptPkmsg env hs.responder channel sender out.2).run w =
        (hs.accepted env channel sender n skipped w, .done (.ok plaintext)) := by
  obtain ⟨body, mac, hverify, hrun⟩ := decryptPkmsg_held hP hpb h hopk
  obtain ⟨skipped, hopen, hget⟩ := hs.ratchetDecrypt_responding hP (env.keyPair w.drawn) hn
  refine ⟨skipped, hget, hrun.trans ?_⟩
  rw [hopen, Handshake.message, openMessage_encrypt hP]
  simp only [verdict, hverify]
  rfl

theorem decryptPkmsg_limit (hP : P.Lawful) (hpb : env.pb.Lawful)
    (h : hs.Frame env.pb n plaintext out)
    (hopk : ∀ k, hs.opk = some k → w.prekeys.get? k.keyId = some k) (hn : defaultMaxSkip < n)
    (channel : Channel) (sender : JID) :
    (decryptPkmsg env hs.responder channel sender out.2).run w =
      (w.put (.setDrawn (w.drawn + 1)),
        .done (.error (.signalCryptoError "too many skipped messages"))) := by
  obtain ⟨body, mac, _, hrun⟩ := decryptPkmsg_held hP hpb h hopk
  rw [hrun, hs.ratchetDecrypt_responding_limit hP _ hn]
  rfl

theorem decryptPkmsg_gone (hP : P.Lawful) (hpb : env.pb.Lawful)
    (h : hs.Frame env.pb n plaintext out) {k : OneTimePreKey P} (hk : hs.opk = some k)
    (hgone : w.prekeys.get? k.keyId = none) (channel : Channel) (sender : JID) :
    (decryptPkmsg env hs.responder channel sender out.2).run w =
      (w, .done (.error (.valueError ("unknown one-time pre-key id " ++ toString k.keyId)))) := by
  obtain ⟨body, mac, hdecode, _⟩ := h.decode hP hpb
  have hspk : getSignedPreKey hs.responder hs.responder.signedPreKey.keyId =
      .ok hs.responder.signedPreKey := if_neg (not_not.mpr rfl)
  have hid : (hs.decoded n plaintext body mac).oneTimePreKeyId = some k.keyId :=
    congrArg (Option.map OneTimePreKey.keyId) hk
  rw [decryptPkmsg, Co.run_lift_bind hdecode]
  refine (Co.run_lift_bind hspk).trans ?_
  rw [hid]
  exact Co.run_bind_error (lookupOneTimePreKey_gone hgone)

theorem decryptEnc_pkmsg {dev : Device P} (hout : out.1 = "pkmsg") :
    (decryptEnc env dev channel sender out.1 out.2).run w =
      (decryptPkmsg env dev channel sender out.2).run (w.arrive sender) := by
  refine (Co.run_bind_ok (migrateKnownLidSender_arrive w sender)).trans ?_
  rw [if_pos hout]

theorem decryptEnc_msg {dev : Device P} (hout : out.1 = "msg")
    (hs : (w.sessions.get? (sessionId sender)).isSome = true) :
    (decryptEnc env dev channel sender out.1 out.2).run w =
      (decryptMsg env dev channel sender out.2).run w := by
  refine (Co.run_bind_ok (migrateKnownLidSender_arrive w sender)).trans ?_
  rw [World.arrive_known hs, if_neg (by rw [hout]; decide), if_pos hout]

end Responder

end PyWhats
