import PyWhats.Receiver

/-! What an endpoint can do to its stores between two suspension points. Every
coroutine of the sender and the receiver moves by these transitions only, so an
invariant of the stores needs one case for each of them. -/

namespace PyWhats

variable {P : Primitives}

/-- Bookkeeping: addresses, futures, prekeys and randomness may change, the Signal
state and the resend cache do not. -/
structure Quiet (s s' : Stores P) : Prop where
  sessions : s'.sessions = s.sessions
  identities : s'.identities = s.identities
  peerMeta : s'.peerMeta = s.peerMeta
  senderKeys : s'.senderKeys = s.senderKeys
  sent : s'.sent = s.sent
  drawn : s.drawn ≤ s'.drawn

/-- The run is one of this device, with the given first ratchet key. -/
structure InitiatorRun.Made (dev : Device P) (generated : KeyPair P) (run : InitiatorRun) :
    Prop where
  x3dh : ∃ ephemeral, x3dhInitiator P dev.identity run.bundle ephemeral = .ok run.result
  ratchet : ratchetInitAlice P generated run.result.sharedSecret run.bundle.signedPreKeyPublic =
    .ok run.start

/-- The encryption is what `ratchet_encrypt` returns on its session, and leaves it
in `state`. -/
def Encryption.Made (dev : Device P) (e : Encryption) (state : RatchetState) : Prop :=
  ratchetEncrypt P e.plaintext (dev.identity.pub ++ e.peerMeta.peerIdentity) e.session.state =
    .ok (e.header, e.ciphertext, e.macKey) state

def Encryption.sid (e : Encryption) : String := sessionId e.peer

/-- Some message decrypts on the state and leaves it in `state'`. -/
def Decrypts (P : Primitives) (generated : KeyPair P) (state state' : RatchetState) : Prop :=
  ∃ header ciphertext ad verify plaintext,
    ratchetDecrypt P generated header ciphertext ad verify state = .ok plaintext state'

def World.noted (w : World P) : List JID → World P
  | [] => w
  | j :: js => (w.log (.note (sessionId j)) (.note (sessionId j))).noted js

def World.acceptedPrekey (w : World P) (n : Nat) (sid : String) (opk : Option Nat)
    (start state : RatchetState) (identityKey : Bytes) (channel : Channel) : World P :=
  (w.put (.setDrawn n)).log (.acceptPrekey sid identityKey channel)
    (.acceptPrekey sid opk ⟨state, .accepted identityKey start, true⟩ identityKey)

def World.acceptedMessage (w : World P) (n : Nat) (sid : String) (session : Session)
    (state : RatchetState) (channel : Channel) : World P :=
  (w.put (.setDrawn n)).log (.acceptMessage sid channel)
    (.setSession sid { session with state := state, heard := true })

section Trans

variable (env : Env P) (dev : Device P)

def Produced (history : List (Stores P × Event)) (device : JID) (ciphertext : Bytes) : Prop :=
  ∃ s e kind, (s, Event.encrypt e) ∈ history ∧ e.peer = device ∧
    e.wire env dev = .ok (kind, ciphertext)

/-- A ciphertext for the device was produced from the plaintext. -/
def ProducedFrom (history : List (Stores P × Event)) (device : JID) (plaintext ciphertext : Bytes) :
    Prop :=
  ∃ s e kind, (s, Event.encrypt e) ∈ history ∧ e.peer = device ∧ e.plaintext = plaintext ∧
    e.wire env dev = .ok (kind, ciphertext)

/-- The body that a device gets: the account's own devices get the wrapped copy. -/
def SentMessage.bodyFor (m : SentMessage) (device : JID) : Bytes :=
  if m.ownPlaintext ≠ [] ∧ device.base = dev.ownJid.base then m.ownPlaintext else m.plaintext

/-- A stanza with the message was handed to the transport, and its ciphertexts are
encryptions of the body. -/
def Dispatched (history : List (Stores P × Event)) (messageId : String) (m : SentMessage) : Prop :=
  ∃ s node, (s, Event.transmit node (.body m.chat)) ∈ history ∧ node.getStr "id" = messageId ∧
    ∀ d ∈ participantCiphertexts node, ProducedFrom env dev history d.1 (m.bodyFor dev d.1) d.2

/-- Why a device is among the addressees of a body: it belongs to the chat or to
this account, or it asked for the message to be sent again. -/
def Addressed (history : List (Stores P × Event)) (chat device : JID) : Prop :=
  device.base = chat.base ∨ device.base = dev.ownJid.base ∨
    ∃ s messageId bundle cached, (s, Event.resend messageId device bundle) ∈ history ∧
      s.sent.get? messageId = some cached ∧ cached.chat = chat

/-- What must have happened before a message stanza is handed to the transport. -/
def Backed (history : List (Stores P × Event)) (node : Node) : Purpose → Prop
  | .body chat => ∀ d ∈ participantCiphertexts node,
      Produced env dev history d.1 d.2 ∧ Addressed dev history chat d.1
  | .group _ => (∀ d ∈ participantCiphertexts node, Produced env dev history d.1 d.2) ∧
      ∃ s group state skmsg, (s, Event.groupEncrypt group state skmsg) ∈ history ∧
        skmsgOf node = some skmsg

inductive Trans : World P → World P → Prop
  | quiet {w : World P} {f : Stores P → Stores P} (h : Quiet w.toStores (f w.toStores)) :
      Trans w (w.put f)
  | initiate {w : World P} {run : InitiatorRun} {e : Encryption} {state : RatchetState} {i n : Nat}
      (hi : w.drawn ≤ i) (hn : i < n) (hrun : run.Made dev (env.keyPair i))
      (hsession : e.session = run.session) (hmeta : e.peerMeta = run.peerMeta dev.registrationId)
      (he : e.Made dev state) :
      Trans w ((((w.put (.setDrawn n)).log (.initiate e.sid run) (.setMeta e.sid e.peerMeta)).put
        (.setIdentity e.sid e.peerMeta.peerIdentity)).log (.encrypt e)
          (.setSession e.sid { e.session with state := state }))
  | install {w : World P} {sid : String} {run : InitiatorRun} {i n : Nat}
      (hreceipt : ∃ s messageId peer, (s, Event.resend messageId peer (some run.bundle)) ∈ w.history)
      (hid : w.identities.get? sid = none) (hi : w.drawn ≤ i) (hn : i < n)
      (hrun : run.Made dev (env.keyPair i)) :
      Trans w (((w.put (.setDrawn n)).log (.install sid run) (.setSession sid run.session)).put
        (.setMeta sid (run.peerMeta dev.registrationId)))
  | rehydrate {w : World P} {sid : String} {session : Session} {identity : Bytes}
      (hsession : w.sessions.get? sid = some session) (hmeta : w.peerMeta.get? sid = none)
      (hid : w.identities.get? sid = some identity) :
      Trans w (w.log (.rehydrate sid) (.setMeta sid ⟨identity, none⟩))
  | encrypt {w : World P} {e : Encryption} {state : RatchetState}
      (hsession : w.sessions.get? e.sid = some e.session)
      (hmeta : w.peerMeta.get? e.sid = some e.peerMeta) (he : e.Made dev state) :
      Trans w (w.log (.encrypt e) (.setSession e.sid { e.session with state := state }))
  | drop {w : World P} {sid : String} :
      Trans w (((w.log (.drop sid) (.dropSession sid)).put (.dropMeta sid)).put (.dropIdentity sid))
  | acceptPrekey {w : World P} {sid : String} {opk : Option Nat} {start state : RatchetState}
      {identityKey : Bytes} {i n : Nat} (hi : w.drawn ≤ i) (hn : i < n)
      (hstart : ∃ secret priv pub, start = ratchetInitBob secret priv pub)
      (hdec : Decrypts P (env.keyPair i) start state) :
      Trans w (w.acceptedPrekey n sid opk start state identityKey .group)
  | acceptPrekeyNoted {w : World P} {peer : JID} {opk : Option Nat} {start state : RatchetState}
      {identityKey : Bytes} {i n : Nat} (hi : w.drawn ≤ i) (hn : i < n)
      (hstart : ∃ secret priv pub, start = ratchetInitBob secret priv pub)
      (hdec : Decrypts P (env.keyPair i) start state) :
      Trans w ((w.acceptedPrekey n (sessionId peer) opk start state identityKey .direct).noted
        (peerAndLidAlt w.lidMap peer))
  | acceptMessage {w : World P} {sid : String} {session : Session} {state : RatchetState} {i n : Nat}
      (hi : w.drawn ≤ i) (hn : i < n) (hsession : w.sessions.get? sid = some session)
      (hdec : Decrypts P (env.keyPair i) session.state state) :
      Trans w (w.acceptedMessage n sid session state .group)
  | acceptMessageNoted {w : World P} {peer : JID} {session : Session} {state : RatchetState}
      {i n : Nat} (hi : w.drawn ≤ i) (hn : i < n)
      (hsession : w.sessions.get? (sessionId peer) = some session)
      (hdec : Decrypts P (env.keyPair i) session.state state) :
      Trans w ((w.acceptedMessage n (sessionId peer) session state .direct).noted
        (peerAndLidAlt w.lidMap peer))
  | migrate {w : World P} {pn lid : JID} {session : Session} (hserver : pn.server = "s.whatsapp.net")
      (hserver' : lid.server = "lid") (hpn : w.sessions.get? (sessionId pn) = some session)
      (hlid : w.sessions.get? (sessionId lid) = none) :
      Trans w (w.log (.migrate (sessionId pn) (sessionId lid))
        (.migrate (sessionId pn) (sessionId lid) session))
  | cacheSent {w : World P} {messageId : String} {m : SentMessage}
      (h : Dispatched env dev w.history messageId m) : Trans w (w.put (.setSent messageId m))
  | resend {w : World P} {messageId : String} {peer : JID} {bundle : Option PreKeyBundle}
      {cached : SentMessage}
      (h : w.sent.get? messageId = some cached) :
      Trans w (w.log (.resend messageId peer bundle)
        (.setSent messageId { cached with retryCount := cached.retryCount + 1 }))
  | groupEncrypt {w : World P} {group : JID} {state state' : SenderKeyState}
      {nonce content skmsg : Bytes} {n : Nat} (hn : w.drawn ≤ n)
      (hstate : w.senderKeys.get? (group.str, sessionId dev.ownJid) = some state ∨
        (w.senderKeys.get? (group.str, sessionId dev.ownJid) = none ∧
          ∃ i keyId signing, w.drawn ≤ i ∧ i < n ∧
            state = createSenderKeyState (P := P) keyId signing (env.token i)))
      (henc : PyWhats.groupEncrypt P env.pb nonce state content = .ok (skmsg, state')) :
      Trans w ((w.put (.setDrawn n)).log (.groupEncrypt group.str state skmsg)
        (.setSenderKey (group.str, sessionId dev.ownJid) state'))
  | learnSenderKey {w : World P} {key : String × String} {state : SenderKeyState}
      (h : state.signingPrivate = none) : Trans w (w.put (.setSenderKey key state))
  | advanceSenderKey {w : World P} {key : String × String} {state : SenderKeyState} {n : Nat}
      (h : w.senderKeys.get? key = some state) :
      Trans w (w.put (.setSenderKey key { state with
        iteration := state.iteration + n + 1
        chainKey := (nextSenderChainKey P)^[n + 1] state.chainKey }))
  | transmit {w : World P} {node : Node} {purpose : Purpose}
      (h : Backed env dev w.history node purpose) : Trans w (w.log (.transmit node purpose) id)

/-- What a transition that writes more than once leaves when it is cut short. -/
inductive Part : World P → World P → Prop
  | initiateMeta {w : World P} {sid : String} {run : InitiatorRun} {m : PeerSessionMeta} {n : Nat}
      (hn : w.drawn ≤ n) :
      Part w ((w.put (.setDrawn n)).log (.initiate sid run) (.setMeta sid m))
  | initiateIdentity {w : World P} {sid : String} {run : InitiatorRun} {m : PeerSessionMeta} {n : Nat}
      (hn : w.drawn ≤ n) :
      Part w (((w.put (.setDrawn n)).log (.initiate sid run) (.setMeta sid m)).put
        (.setIdentity sid m.peerIdentity))
  | install {w : World P} {sid : String} {run : InitiatorRun} {i n : Nat}
      (hi : w.drawn ≤ i) (hn : i < n) (hrun : run.Made dev (env.keyPair i)) :
      Part w ((w.put (.setDrawn n)).log (.install sid run) (.setSession sid run.session))
  | dropSession {w : World P} {sid : String} : Part w (w.log (.drop sid) (.dropSession sid))
  | dropMeta {w : World P} {sid : String} :
      Part w ((w.log (.drop sid) (.dropSession sid)).put (.dropMeta sid))
  | acceptPrekey {w : World P} {peer : JID} {opk : Option Nat} {start state : RatchetState}
      {identityKey : Bytes} {i n : Nat} (hi : w.drawn ≤ i) (hn : i < n)
      (hstart : ∃ secret priv pub, start = ratchetInitBob secret priv pub)
      (hdec : Decrypts P (env.keyPair i) start state) (noted : List JID) :
      Part w ((w.acceptedPrekey n (sessionId peer) opk start state identityKey .direct).noted noted)
  | acceptMessage {w : World P} {peer : JID} {session : Session} {state : RatchetState} {i n : Nat}
      (hi : w.drawn ≤ i) (hn : i < n) (hsession : w.sessions.get? (sessionId peer) = some session)
      (hdec : Decrypts P (env.keyPair i) session.state state) (noted : List JID) :
      Part w ((w.acceptedMessage n (sessionId peer) session state .direct).noted noted)

end Trans

section History

variable {env : Env P} {dev : Device P}

theorem World.noted_history (w : World P) (js : List JID) : w.history <+: (w.noted js).history := by
  induction js generalizing w with
  | nil => exact List.prefix_refl _
  | cons j js ih => exact (List.prefix_append w.history _).trans (ih (w.log _ _))

theorem Trans.history {w w' : World P} (h : Trans env dev w w') : w.history <+: w'.history := by
  cases h with
  | quiet h => exact List.prefix_refl _
  | initiate hi hn hrun hsession hmeta he =>
    exact (List.prefix_append _ _).trans (List.prefix_append _ _)
  | acceptPrekeyNoted hi hn hstart hdec =>
    refine List.IsPrefix.trans ?_ (World.noted_history _ _)
    exact List.prefix_append _ _
  | acceptMessageNoted hi hn hsession hdec =>
    refine List.IsPrefix.trans ?_ (World.noted_history _ _)
    exact List.prefix_append _ _
  | cacheSent h => exact List.prefix_refl _
  | learnSenderKey h => exact List.prefix_refl _
  | advanceSenderKey h => exact List.prefix_refl _
  | _ => exact List.prefix_append _ _

theorem history_mono {w w' : World P} (h : Relation.ReflTransGen (Trans env dev) w w') :
    w.history <+: w'.history := by
  induction h with
  | refl => exact List.prefix_refl _
  | tail _ hstep ih => exact ih.trans hstep.history

theorem Produced.mono {history history' : List (Stores P × Event)} {device : JID}
    {ciphertext : Bytes} (h : Produced env dev history device ciphertext)
    (hpre : history <+: history') : Produced env dev history' device ciphertext := by
  obtain ⟨s, e, kind, hmem, hrest⟩ := h
  exact ⟨s, e, kind, hpre.subset hmem, hrest⟩

theorem ProducedFrom.mono {history history' : List (Stores P × Event)} {device : JID}
    {plaintext ciphertext : Bytes} (h : ProducedFrom env dev history device plaintext ciphertext)
    (hpre : history <+: history') : ProducedFrom env dev history' device plaintext ciphertext := by
  obtain ⟨s, e, kind, hmem, hrest⟩ := h
  exact ⟨s, e, kind, hpre.subset hmem, hrest⟩

theorem ProducedFrom.produced {history : List (Stores P × Event)} {device : JID}
    {plaintext ciphertext : Bytes} (h : ProducedFrom env dev history device plaintext ciphertext) :
    Produced env dev history device ciphertext := by
  obtain ⟨s, e, kind, hmem, hpeer, -, hwire⟩ := h
  exact ⟨s, e, kind, hmem, hpeer, hwire⟩

theorem Dispatched.mono {history history' : List (Stores P × Event)} {messageId : String}
    {m : SentMessage} (h : Dispatched env dev history messageId m) (hpre : history <+: history') :
    Dispatched env dev history' messageId m := by
  obtain ⟨s, node, hmem, hid, hbody⟩ := h
  exact ⟨s, node, hpre.subset hmem, hid, fun d hd => (hbody d hd).mono hpre⟩

end History

end PyWhats
