import PyWhats.Crossing
import PyWhats.FanOut
import PyWhats.MessageContent
import PyWhats.Unanswered

/-! A body from the call that sends it to the event that the peer's client emits. -/

namespace PyWhats

variable {P : Primitives} {env : Env P} {dev : Device P}

section Padding

/-- The padding that `pad_random_max16` draws. -/
def padded (plaintext : Bytes) (b : UInt8) : Bytes :=
  plaintext ++ List.replicate (b.toNat % 16 + 1) (UInt8.ofNat (b.toNat % 16 + 1))

theorem unpadRandomMax16_padded (plaintext : Bytes) (b : UInt8) :
    unpadRandomMax16 (padded plaintext b) = .ok plaintext := by
  have hn : b.toNat % 16 < 16 := Nat.mod_lt _ (by omega)
  have hbyte : (UInt8.ofNat (b.toNat % 16 + 1)).toNat = b.toNat % 16 + 1 := by
    rw [UInt8.toNat_ofNat']
    omega
  have hlast : (padded plaintext b).getLast? = some (UInt8.ofNat (b.toNat % 16 + 1)) := by
    rw [padded, List.replicate_succ', ← List.append_assoc, List.getLast?_concat]
  have hlength : (padded plaintext b).length = plaintext.length + (b.toNat % 16 + 1) := by
    simp [padded]
  have hkept : (padded plaintext b).length - (b.toNat % 16 + 1) = plaintext.length := by omega
  have hrange : ¬ (b.toNat % 16 + 1 < 1 ∨ b.toNat % 16 + 1 > 16 ∨
      b.toNat % 16 + 1 > (padded plaintext b).length) := by omega
  simp only [unpadRandomMax16, hlast, hbyte, if_neg hrange, hkept]
  simp [padded]

end Padding

section Sealing

/-- The history grew by events that meet the condition. -/
def Writes (C : Event → Prop) (t t' : World P) : Prop :=
  ∃ l, t'.history = t.history ++ l ∧ ∀ ev ∈ l, C ev.2

/-- An encryption seals the copy of the message for its device. -/
def Seals (dev : Device P) (msg : Outgoing) : Event → Prop
  | .encrypt e => e.plaintext = msg.copyFor dev e.peer
  | _ => True

variable {C : Event → Prop}

theorem writes_put (f : Stores P → Stores P) (t : World P) : Writes C t (t.put f) :=
  ⟨[], by simp, by simp⟩

theorem writes_refl (t : World P) : Writes C t t := ⟨[], by simp, by simp⟩

theorem writes_log {e : Event} (he : C e) (f : Stores P → Stores P) (t : World P) :
    Writes C t (t.log e f) :=
  ⟨[(t.toStores, e)], rfl, by simpa using he⟩

theorem Writes.new {t t' : World P} (h : Writes C t t') {v : Stores P} {e : Event}
    (hnew : (v, e) ∈ t'.history) (hold : (v, e) ∉ t.history) : C e := by
  obtain ⟨l, hl, hC⟩ := h
  rw [hl] at hnew
  exact hC _ ((List.mem_append.mp hnew).resolve_left hold)

theorem update_writes (f : Stores P → Stores P) : (update f : CoM P Unit).Each (Writes C) :=
  Co.Each.modify (writes_put f)

theorem record_writes {e : Event} (he : C e) (f : Stores P → Stores P) :
    (record e f : CoM P Unit).Each (Writes C) := Co.Each.modify (writes_log he f)

theorem draw_writes {α : Type} (source : Nat → α) : (draw source : CoM P α).Each (Writes C) :=
  ⟨fun w => writes_put _ w, fun _ => trivial⟩

theorem padRandomMax16_writes {α : Type} {plaintext : Bytes} {f : Bytes → CoM P α}
    (hf : ∀ b, (f (padded plaintext b)).Each (Writes C)) :
    (padRandomMax16 env plaintext >>= f).Each (Writes C) :=
  ⟨fun w => writes_put _ w, fun _ => hf _⟩

theorem sendNode_writes (node : Node) : (sendNode env node).Each (Writes C) :=
  Co.Each.bind (Co.Each.lift _) fun _ => Co.Each.wait _

theorem queryIq_writes (build : String → Node) : (queryIq env build).Each (Writes C) := by
  refine Co.Each.bind (draw_writes _) fun iqId => Co.Each.bind ?_ fun future => ?_
  · refine Co.Each.get_bind writes_refl fun w => ?_
    split
    · trivial
    · exact Co.Each.bind (update_writes _) fun _ => trivial
  · exact Co.Each.tryFinally (Co.Each.bind (sendNode_writes _) fun _ => Co.Each.wait _)
      (update_writes _)

theorem prekeyFetcher_writes (peer : JID) : (prekeyFetcher env peer).Each (Writes C) :=
  Co.Each.bind (queryIq_writes _) fun _ => Co.Each.lift _

theorem usyncDeviceFetcher_writes (users : List JID) :
    (usyncDeviceFetcher env users).Each (Writes C) :=
  Co.Each.bind (queryIq_writes _) fun _ => Co.Each.lift _

variable {msg : Outgoing}

theorem encryptOn_seals (peer : JID) (session : Session) (m : PeerSessionMeta) :
    (encryptOn env dev peer (msg.copyFor dev peer) session m).Each (Writes (Seals dev msg)) := by
  rw [encryptOn]
  split
  · trivial
  · refine Co.Each.bind (record_writes ?_ _) fun _ => Co.Each.lift _
    rw [Seals]

theorem loadForPeer_seals (sid : String) :
    (loadForPeer sid : CoM P _).Each (Writes (Seals dev msg)) := by
  refine Co.Each.get_bind writes_refl fun w => ?_
  split
  · trivial
  · split
    · trivial
    · split
      · trivial
      · exact Co.Each.bind (record_writes trivial _) fun _ => trivial

theorem encryptForPeer_seals (peer : JID) :
    (encryptForPeer env dev (prekeyFetcher env) peer (msg.copyFor dev peer)).Each
      (Writes (Seals dev msg)) := by
  refine Co.Each.bind (loadForPeer_seals _) fun loaded => ?_
  cases loaded with
  | some loaded => exact encryptOn_seals peer _ _
  | none =>
    refine Co.Each.bind (prekeyFetcher_writes peer) fun bundle => Co.Each.bind ?_ fun run => ?_
    · refine Co.Each.bind (draw_writes _) fun ephemeral =>
        Co.Each.bind (Co.Each.lift _) fun result => ?_
      exact Co.Each.bind (draw_writes _) fun generated => Co.Each.bind (Co.Each.lift _) fun _ => trivial
    · exact Co.Each.bind (record_writes trivial _) fun _ =>
        Co.Each.bind (update_writes _) fun _ => encryptOn_seals peer _ _

theorem encryptForDevices_seals (devices : List JID) :
    (encryptForDevices env dev (prekeyFetcher env) msg devices).Each (Writes (Seals dev msg)) := by
  induction devices with
  | nil => trivial
  | cons d rest ih =>
    exact Co.Each.bind (encryptForPeer_seals d) fun out => Co.Each.bind ih fun nodes => trivial

theorem sendAttempt_seals :
    (sendAttempt env dev (prekeyFetcher env) (usyncDeviceFetcher env) msg).Each
      (Writes (Seals dev msg)) := by
  refine Co.Each.bind ?_ fun devices => Co.Each.bind (encryptForDevices_seals devices) fun nodes => ?_
  · rw [targetDevices]
    split
    · trivial
    · exact Co.Each.bind (usyncDeviceFetcher_writes _) fun _ => trivial
  · refine Co.Each.bind (Co.Each.lift _) fun frame => Co.Each.bind ?_ fun future => ?_
    · refine Co.Each.get_bind writes_refl fun w => ?_
      split
      · trivial
      · exact Co.Each.bind (update_writes _) fun _ => trivial
    · refine Co.Each.bind (Co.Each.tryCatch ?_ fun e => ?_) fun reply => trivial
      · exact Co.Each.bind (Co.Each.bind (record_writes trivial _) fun _ => Co.Each.wait _)
          fun _ => Co.Each.wait _
      · exact Co.Each.bind (update_writes _) fun _ => trivial

theorem dropSessions_seals (peers : List JID) :
    (dropSessions peers : CoM P Unit).Each (Writes (Seals dev msg)) := by
  induction peers with
  | nil => trivial
  | cons peer rest ih =>
    refine Co.Each.bind ?_ fun _ => ih
    exact Co.Each.bind (record_writes trivial _) fun _ =>
      Co.Each.bind (update_writes _) fun _ => update_writes _

theorem sendOnce_seals (retries : Nat) :
    (sendOnce env dev (prekeyFetcher env) (usyncDeviceFetcher env) msg retries).Each
      (Writes (Seals dev msg)) := by
  induction retries with
  | zero =>
    refine Co.Each.bind sendAttempt_seals fun ⟨reply, devices⟩ => ?_
    cases reply <;> trivial
  | succ retries ih =>
    refine Co.Each.bind sendAttempt_seals fun ⟨reply, devices⟩ => ?_
    cases reply with
    | ack => trivial
    | retry attrs =>
      refine Co.Each.bind (Co.Each.lift _) fun peer => Co.Each.bind ?_ fun _ => ih
      exact Co.Each.get_bind writes_refl fun w => dropSessions_seals _

/-- An encryption that the call makes in some run, whatever the others do meanwhile. -/
def Encrypts {α : Type} (Others : World P → World P → Prop) (p : CoM P α) (e : Encryption) : Prop :=
  ∃ s t t' v, Co.ActsAmidst Others p s t t' ∧ (v, Event.encrypt e) ∉ t.history ∧
    (v, Event.encrypt e) ∈ t'.history

theorem sendMessage_encrypts {Others : World P → World P → Prop} {chat : JID} {proto : Bytes}
    {text : String} {messageType edit : Option String} {e : Encryption}
    (h : Encrypts Others (sendMessage env dev (prekeyFetcher env) (usyncDeviceFetcher env) chat proto
      text messageType edit) e) :
    ∃ b, e.plaintext = padded (if e.peer.base = dev.ownJid.base then
      env.e2e.deviceSent chat.base.str proto else proto) b := by
  obtain ⟨s, t, t', v, hacts, hold, hnew⟩ := h
  let C : Event → Prop := fun ev => ∀ e, ev = .encrypt e → ∃ b, e.plaintext =
    padded (if e.peer.base = dev.ownJid.base then env.e2e.deviceSent chat.base.str proto else proto) b
  have hsend : ∀ (msg : Outgoing) (b b' : UInt8), msg.plaintext = padded proto b →
      msg.ownPlaintext = padded (env.e2e.deviceSent chat.base.str proto) b' →
      (sendOnce env dev (prekeyFetcher env) (usyncDeviceFetcher env) msg 1).Each (Writes C) := by
    intro msg b b' hplaintext hown
    refine (sendOnce_seals 1).mono fun s t ⟨l, hl, hseals⟩ => ⟨l, hl, ?_⟩
    rintro ⟨v, ev⟩ hev e rfl
    have hcopy : e.plaintext = msg.copyFor dev e.peer := hseals _ hev
    rw [hcopy, Outgoing.copyFor]
    split
    · exact ⟨b', hown⟩
    · exact ⟨b, hplaintext⟩
  have heach : (sendMessage env dev (prekeyFetcher env) (usyncDeviceFetcher env) chat proto text
      messageType edit).Each (Writes C) := by
    refine Co.Each.bind (draw_writes _) fun messageId => padRandomMax16_writes fun b =>
      padRandomMax16_writes fun b' => ?_
    exact Co.Each.bind (hsend _ b b' rfl rfl) fun _ => update_writes _
  exact (heach.acts hacts).new hnew hold e rfl

end Sealing

section Receiving

variable {w : World P}

/-- A 1:1 message stanza that carries the ciphertext for this device. -/
structure Brings (dev : Device P) (node : Node) (sender : JID) (out : String × Bytes) : Prop where
  tag : node.tag = "message"
  comesFrom : receiverJidFromAttr (node.getAttr "from") = .ok sender
  direct : sender.server ≠ "g.us" ∧ ¬ (sender.user = "status" ∧ sender.server = "broadcast")
  pn : ∃ alt, receiverJidFromAttr (node.getAttr "sender_pn") = .ok alt
  lid : ∃ alt, receiverJidFromAttr (node.getAttr "sender_lid") = .ok alt
  enc : ∃ enc, selectEncNode dev.ownJid node = .ok (some enc) ∧ enc.getStr "type" = out.1 ∧
    enc.contentBytes = out.2

theorem recordPeerAddressing_done (w : World P) {node : Node} (sender : JID)
    (hpn : ∃ alt, receiverJidFromAttr (node.getAttr "sender_pn") = .ok alt)
    (hlid : ∃ alt, receiverJidFromAttr (node.getAttr "sender_lid") = .ok alt) :
    ∃ w', (recordPeerAddressing node sender).run w = (w', .done (.ok ())) ∧
      w'.prekeys = w.prekeys := by
  obtain ⟨pn, hpn⟩ := hpn
  obtain ⟨lid, hlid⟩ := hlid
  rw [recordPeerAddressing]
  split
  · rw [Co.run_lift_bind hpn]
    split <;> exact ⟨_, rfl, rfl⟩
  · split
    · rw [Co.run_lift_bind hlid]
      split <;> exact ⟨_, rfl, rfl⟩
    · exact ⟨w, rfl, rfl⟩

theorem prologue_run (env : Env P) (dev : Device P) (w : World P) (m : MessageProto) (proto : Bytes)
    (sender : JID) :
    ∃ w', (prologue env dev m proto sender).run w = (w', .done (.ok ())) := by
  have hprotocol : ∃ w', (handleProtocolMessage env dev proto sender).run w =
      (w', .done (.ok ())) := by
    rw [handleProtocolMessage]
    split <;> exact ⟨_, rfl⟩
  rw [prologue]
  split
  · exact ⟨w, rfl⟩
  · split
    · exact ⟨w, rfl⟩
    · exact ⟨w, rfl⟩
    · exact hprotocol

/-- Once the message is decrypted, what is left of the call is to surface it and to
receipt it. -/
theorem handleFrame_received {codec : MessageCodec} {fetchPrekeys : JID → CoM P PreKeyBundle}
    (he2e : env.e2e = codec.e2e) {m : MessageProto} (hreads : codec.Reads m) {frame : Bytes}
    {node : Node} {sender : JID} {out : String × Bytes} {b : UInt8}
    (hdecode : env.decode frame = .ok node) (hnode : Brings dev node sender out)
    (hopens : ∀ v : World P, v.prekeys = w.prekeys → ∃ v',
      (decryptEnc env dev .direct sender out.1 out.2).run v =
        (v', .done (.ok (padded (codec.serialize m) b)))) :
    ∃ w', (handleFrame env dev fetchPrekeys frame).run w =
      (safeEmit (received m (node.getStr "id") sender (stanzaTimestamp node)) >>= fun _ =>
        sendDeliveryReceipt env node sender).run w' := by
  obtain ⟨enc, henc, htype, hcontent⟩ := hnode.enc
  obtain ⟨w₁, haddressing, hprekeys⟩ := recordPeerAddressing_done w sender hnode.pn hnode.lid
  obtain ⟨w₂, hopen⟩ := hopens w₁ hprekeys
  have hdecrypt := decryptDirect_opens hopen
  obtain ⟨w₃, hprologue⟩ := prologue_run env dev (w₂.noted (peerAndLidAlt w₂.lidMap sender)) m
    (codec.serialize m) sender
  have hdispatch : dispatchPlaintext env dev node sender (padded (codec.serialize m) b) = _ :=
    dispatchPlaintext_received he2e hreads (unpadRandomMax16_padded _ b)
  refine ⟨w₃, ?_⟩
  rw [handleFrame, hdecode]
  simp only [handleNode, if_pos hnode.tag]
  rw [handleMessage, Co.run_lift_bind hnode.comesFrom, if_neg hnode.direct.1, if_neg hnode.direct.2]
  refine (Co.run_bind_ok haddressing).trans ?_
  rw [Co.run_lift_bind henc]
  rw [← htype, ← hcontent] at hdecrypt
  refine (Co.run_bind_ok hdecrypt).trans ?_
  simp only [hdispatch]
  exact Co.run_bind_ok hprologue

end Receiving

section Arrival

variable {a b : Host P}

theorem Host.Holds.congr {w w' : World P} (h : b.Holds w) (hprekeys : w'.prekeys = w.prekeys) :
    b.Holds w' := fun k hk => by rw [hprekeys, h k hk]

/-- What the application sends is what the peer is told. A body that a call of the client
encrypts for a device, on a session that the device has not answered, reaches the
handlers of the device as the event that says the same, as long as the device holds the
one-time prekey of the session and the message is not too far ahead. -/
theorem body_arrives (hP : P.Lawful) (hpb : b.env.pb.Lawful) (hsame : a.env.pb = b.env.pb)
    {codec : MessageCodec} (he2e : b.env.e2e = codec.e2e) {w : World P} {m : ClientMachine P}
    (hsessions : w.sessions = .empty) (hmeta : w.peerMeta = .empty) (hhistory : w.history = [])
    (hlife : ClientLife a.env a.dev w m) {v : Stores P} {e : Encryption} {run : InitiatorRun}
    {out : String × Bytes} (hmem : (v, Event.encrypt e) ∈ m.state.history)
    (hun : e.session.Unanswered run) (hbundle : run.bundle = b.bundle)
    (hwire : e.wire a.env a.dev = .ok out) (hout : out.1 = "pkmsg") (hn : e.header.n ≤ defaultMaxSkip)
    {Others : World P → World P → Prop} {body : Body} {chat : JID}
    (hreads : codec.Reads (body.proto chat))
    (hcall : Encrypts Others (sendBody a.env a.dev codec (prekeyFetcher a.env)
      (usyncDeviceFetcher a.env) chat body) e)
    (hpeer : e.peer.base ≠ a.dev.ownJid.base) {wb : World P} (hholds : b.Holds wb) {frame : Bytes}
    {node : Node} {sender : JID} (hdecode : b.env.decode frame = .ok node)
    (hnode : Brings b.dev node sender out) :
    ((codec.parse (codec.serialize (body.proto chat))).map fun proto =>
        received proto (node.getStr "id") sender (stanzaTimestamp node)) =
      some (body.seen (node.getStr "id") sender (stanzaTimestamp node)) ∧
    ∃ wb', (handleFrame b.env b.dev (prekeyFetcher b.env) frame).run wb =
      (safeEmit (body.seen (node.getStr "id") sender (stanzaTimestamp node)) >>= fun _ =>
        sendDeliveryReceipt b.env node sender).run wb' := by
  obtain ⟨c, hplaintext⟩ := sendMessage_encrypts hcall
  rw [if_neg hpeer] at hplaintext
  have hinv := lives_earlyInv hsessions hmeta hhistory hlife.lives
  obtain ⟨hs, hframe⟩ := (hinv.early v e run hmem hun).frame hP hsame hun hbundle hwire hout
  rw [hplaintext] at hframe
  rw [← received_proto body chat, hreads.whole]
  exact ⟨rfl, handleFrame_received he2e hreads hdecode hnode fun u hu =>
    (hframe.opens_iff hP hpb (hholds.congr hu) .direct sender).mpr hn⟩

end Arrival

section Demo

def demoField (tag value : Bytes) : Bytes := tag ++ UInt8.ofNat value.length :: value

/-- Short messages, with a text or with a text wrapped for another device. -/
def demoCodec : MessageCodec where
  serialize m :=
    match m.conversation, m.deviceSentMessage with
    | some words, _ => demoField [0x0a] (asciiBytes words)
    | none, some dsm => demoField [0xfa, 0x01] (demoField [0x0a]
        (asciiBytes (dsm.destinationJid.getD "")) ++ demoField [0x12] (demoField [0x0a]
          (asciiBytes ((dsm.message.bind MessageProto.conversation).getD ""))))
    | none, none => []
  parse serialized :=
    match serialized with
    | [] => some {}
    | tag :: n :: words =>
      if tag = 0x0a ∧ n.toNat = words.length then
        some { conversation := some (String.ofList (words.map fun b => Char.ofNat b.toNat)) }
      else none
    | _ => none

def demoTalker : Host demoPrimitives :=
  ⟨{ demoEnv [demoAnswer] with e2e := demoCodec.e2e }, demoMe, none⟩

def demoGreetingBody : Body := .text "hi" none

def demoGreet : ClientTurn demoTalker.env demoTalker.dev :=
  .start _ (.sendMessage demoPeer.ownJid (demoCodec.serialize (demoGreetingBody.proto demoPeer.ownJid))
    demoGreetingBody.label none demoGreetingBody.edit?)

def demoGreets : List (ClientTurn demoTalker.env demoTalker.dev) :=
  [demoGreet, .resume, .receive [0], .resume]

def demoGreeting : ClientMachine demoPrimitives := clientAfter demoTalker.env demoTalker.dev {} demoGreets

/-- The client greets a second time, before there is any answer. -/
def demoGreeted : ClientMachine demoPrimitives :=
  clientAfter demoTalker.env demoTalker.dev {} (demoGreets ++ [demoGreet])

def demoRelayed (out : String × Bytes) : Node :=
  .mk "message" [("id", .str "m9"), ("from", .jid demoMe.ownJid), ("t", .str "12")]
    (.nodes [.mk "enc" [("v", .str "2"), ("type", .str out.1)] (.bytes out.2)])

def demoListener (out : String × Bytes) : Host demoPrimitives :=
  ⟨{ demoEnv [demoRelayed out] with e2e := demoCodec.e2e }, demoPeer, none⟩

theorem demoCodec_reads : demoCodec.Reads (demoGreetingBody.proto demoPeer.ownJid) :=
  ⟨rfl, fun _ h => nomatch h⟩

def Event.isFor (peer : JID) : Event → Bool
  | .encrypt e => e.peer = peer
  | _ => true

theorem clientAfter_start {w : World P} (ts : List (ClientTurn env dev)) {p : CoM P Unit}
    (hp : ClientTask env dev p) :
    (clientAfter env dev w (ts ++ [.start p hp])).state = (p.run (clientAfter env dev w ts).state).1 := by
  rw [clientAfter, List.map_append, Machine.turns, List.foldl_append]
  rfl

/-- The second greeting opens before the first one, and says what was sent. -/
theorem body_arrives_second : ∃ (out : String × Bytes) (wb' : World demoPrimitives),
    (handleFrame (demoListener out).env demoPeer (prekeyFetcher (demoListener out).env) [0]).run {} =
      (safeEmit (.message "m9" demoMe.ownJid demoMe.ownJid "hi" (stanzaTimestamp (demoRelayed out)) none
        none) >>= fun _ => sendDeliveryReceipt (demoListener out).env (demoRelayed out) demoMe.ownJid).run wb' := by
  have hany : demoGreeted.state.history.any (fun ev => ev.2.opensAt demoTalker.env demoTalker.dev
      demoPeer.bundle 1) = true := by decide +kernel
  have hall : demoGreeted.state.history.all (fun ev => ev.2.isFor demoPeer.ownJid) = true := by
    decide +kernel
  have hold : demoGreeting.state.history.all (fun ev => !ev.2.opensAt demoTalker.env demoTalker.dev
      demoPeer.bundle 1) = true := by decide +kernel
  obtain ⟨⟨v, event⟩, hmem, hev⟩ := List.any_eq_true.mp hany
  cases event with
  | encrypt e =>
    obtain ⟨run, out, hun, hbundle, hwire, hout, hn⟩ := Encryption.unanswered_of_opensAt hev
    have hpeer : e.peer = demoPeer.ownJid := of_decide_eq_true (List.all_eq_true.mp hall _ hmem)
    have hnew : (v, Event.encrypt e) ∉ demoGreeting.state.history := fun h => by
      simpa [hev] using List.all_eq_true.mp hold _ h
    have hafter := hmem
    rw [demoGreeted, demoGreet, clientAfter_start, ← demoGreeting] at hafter
    obtain ⟨t, t', hacts, ht, ht'⟩ := Co.exists_actsAmidst Eq
      (I := fun s : World demoPrimitives => (v, Event.encrypt e) ∈ s.history) hnew hafter
    have hlife : ClientLife demoTalker.env demoTalker.dev {} demoGreeted :=
      (clientAfter_run {} (demoGreets ++ [demoGreet])).life
    have hholds : (demoListener out).Holds ({} : World demoPrimitives) := by rintro k ⟨⟩
    have hlistens : (demoListener out).bundle = demoPeer.bundle := rfl
    obtain ⟨-, wb', hrun⟩ := body_arrives (a := demoTalker) (b := demoListener out)
      demoPrimitives_lawful demoProtobuf_lawful rfl rfl rfl rfl rfl hlife hmem hun
      (hbundle.trans hlistens.symm) hwire hout (by rw [hn, defaultMaxSkip]; omega) demoCodec_reads
      ⟨_, t, t', v, hacts, ht, ht'⟩
      (by rw [hpeer]; decide) hholds
      (show (demoListener out).env.decode [0] = .ok (demoRelayed out) from rfl)
      ⟨rfl, rfl, by decide, ⟨_, rfl⟩, ⟨_, rfl⟩, ⟨_, rfl, rfl, rfl⟩⟩
    exact ⟨out, wb', hrun⟩
  | _ => cases hev

end Demo

end PyWhats
