import PyWhats.Lanes

/-! Two devices that send their first messages to each other at the same time. What
comes in is stored under the address it comes from. Where that is the address a
device sends to, the session it started is replaced by the one the other started,
and it goes on with that; elsewhere each side keeps the session it started. -/

namespace PyWhats

variable {P : Primitives}

/-- The device `a` sent its first message to `b`, and the first message of `b` was
delivered to it after that, under the address `sender`. In between it may have
learned of other addresses. The two devices share no state, so the order of the two
deliveries does not matter. -/
structure Host.Crosses (a b : Host P) (sender : JID) (out received : String × Bytes)
    (w w' : World P) : Prop where
  unknown : w.Unknown b.sid
  holds : a.Holds w
  exchanged : ∃ plaintext w₁ lidMap result, (a.encryptFor b plaintext).run w = (w₁, .done (.ok out)) ∧
    (decryptDirect a.env a.dev sender received.1 received.2).run (w₁.put (.setLidMap lidMap)) =
      (w', .done (.ok result))

def Host.answering (a : Host P) (w : World P) : KeyPair P := a.env.keyPair (w.drawn + 2)

/-- The key of the next message that `a` sends: it is from the session `b` started. -/
def Host.nextKey (a b : Host P) (wa wb : World P) : Bytes :=
  messageKey P ((b.handshake a wb).second (a.answering wa)).2 0

/-- The key that `b` tries on it: it is from the session `a` started. -/
def Host.triedKey (a b : Host P) (wa wb : World P) : Bytes :=
  messageKey P (kdfRk P ((a.handshake b wa).second (b.answering wb)).1
    ((b.answering wb).agree (a.answering wa))).2 0

/-- The tag of a frame from `a` to `b` under a message key. -/
def Host.tag (a b : Host P) (key frame : Bytes) : Except PyError Bytes :=
  signalMac P a.dev.identity.pub b.dev.identity.pub (frame.take (frame.length - macLen))
    (deriveMessageKeys P key).macKey

section Exchange

variable {a b : Host P} {fromA fromB : JID} {wa wa' wb wb' : World P} {outa outb : String × Bytes}

/-- A session that is moved to a LID leaves its old address without one. -/
theorem World.arrive_slot (w : World P) {sender : JID} {sid : String} (hne : sid ≠ sessionId sender) :
    (w.arrive sender).slot sid = w.slot sid ∨ ((w.arrive sender).slot sid).session = none := by
  rw [World.arrive]
  cases hmoves : w.movesFrom sender with
  | none => exact .inl rfl
  | some m =>
    obtain ⟨pn, session⟩ := m
    obtain ⟨hsession, hfree⟩ := World.movesFrom_spec hmoves
    have hlid : sessionId sender ≠ pn := by
      rintro rfl
      cases hfree.symm.trans hsession
    have hslot := slot_migrate w.toStores sid hlid session
    by_cases hpn : sid = pn
    · exact .inr (congrArg Slot.session (hslot.trans (if_pos hpn)))
    · exact .inl (hslot.trans ((if_neg hpn).trans (if_neg hne)))

/-- What the first message of `b` makes of the slots of `a`, which are as in `w` before. -/
def Host.crossed (a b : Host P) (fromB : JID) (wa wb w : World P) (sid : String) : Slot :=
  if sid = sessionId fromB then
    ⟨some ⟨(b.handshake a wb).received (a.answering wa) 0 .empty,
        .accepted b.dev.identity.pub (b.handshake a wb).responding, true⟩,
      some b.dev.identity.pub, ((w.arrive fromB).slot sid).peerMeta⟩
  else (w.arrive fromB).slot sid

/-- How the exchange ends for `a`: first its own session is stored, and then the one that
`b` started, which is noted for the addresses `js`. -/
theorem Host.Crosses.ends (hP : P.Lawful) (hpb : a.env.pb.Lawful) (hsame : b.env.pb = a.env.pb)
    (ha : a.Crosses b fromB outa outb wa wa') (hb : b.Crosses a fromA outb outa wb wb') :
    ∃ (w : World P) (js : List JID), w.sessions.get? b.sid = some ((a.handshake b wa).sending 1) ∧
      w.peerMeta.get? b.sid = some (a.handshake b wa).peerMeta ∧
      sessionId fromB ∈ js.map sessionId ∧
      ∀ sid, wa'.slot sid = if sid ∈ js.map sessionId then (a.crossed b fromB wa wb w sid).acknowledged
        else a.crossed b fromB wa wb w sid := by
  obtain ⟨plaintext, w₁, lidMap, result, hsent, hdelivered⟩ := ha.exchanged
  obtain ⟨plaintext', _, _, _, hsent', _⟩ := hb.exchanged
  obtain ⟨_, hsession, hmeta, hdrawn, hprekeys⟩ := Host.encryptFor_unknown hP ha.unknown hsent
  obtain ⟨hframe, _⟩ := Host.encryptFor_unknown hP hb.unknown hsent'
  rw [hsame] at hframe
  have hheld : ∀ k, (b.handshake a wb).opk = some k →
      ((w₁.put (.setLidMap lidMap)).arrive fromB).prekeys.get? k.keyId = some k := by
    rw [World.arrive_prekeys]
    change ∀ k, _ → w₁.prekeys.get? k.keyId = some k
    rw [hprekeys]
    exact ha.holds
  obtain ⟨skipped, hskipped, hopens⟩ :=
    decryptPkmsg_opens hP hpb hframe hheld (Nat.zero_le _) .direct fromB
  obtain rfl := OrderedMap.eq_empty_of_get? fun k => (hskipped k).trans (if_neg (by simp))
  have hrun := decryptDirect_opens ((decryptEnc_pkmsg hframe.1).trans hopens)
  obtain ⟨rfl, _⟩ := Co.run_done_inj hdelivered hrun
  have hnoted := mem_peerAndLidAlt ((b.handshake a wb).accepted a.env .direct fromB 0 .empty
    ((w₁.put (.setLidMap lidMap)).arrive fromB)).lidMap fromB
  refine ⟨w₁.put (.setLidMap lidMap), _, hsession, hmeta, hnoted, fun sid => ?_⟩
  have hdrawn' : (w₁.put (.setLidMap lidMap)).drawn = wa.drawn + 2 := hdrawn
  rw [noted_slot, Handshake.accepted, acceptedPrekey_slot, World.arrive_drawn, hdrawn']
  rfl

theorem Host.Crosses.inbound (hP : P.Lawful) (hpb : a.env.pb.Lawful) (hsame : b.env.pb = a.env.pb)
    (ha : a.Crosses b fromB outa outb wa wa') (hb : b.Crosses a fromA outb outa wb wb') :
    wa'.sessions.get? (sessionId fromB) = some ⟨(b.handshake a wb).received (a.answering wa) 0 .empty,
        .accepted b.dev.identity.pub (b.handshake a wb).responding, true⟩ ∧
      wa'.identities.get? (sessionId fromB) = some b.dev.identity.pub := by
  obtain ⟨w, js, _, _, hnoted, hslots⟩ := ha.ends hP hpb hsame hb
  have hslot := hslots (sessionId fromB)
  rw [if_pos hnoted, Host.crossed, if_pos rfl] at hslot
  exact ⟨congrArg Slot.session hslot, congrArg Slot.identity hslot⟩

/-- The preamble goes when the message comes from the address that `a` sends to. -/
theorem Host.Crosses.preamble (hP : P.Lawful) (hpb : a.env.pb.Lawful) (hsame : b.env.pb = a.env.pb)
    (ha : a.Crosses b fromB outa outb wa wa') (hb : b.Crosses a fromA outb outa wb wb')
    (hmet : b.sid = sessionId fromB) :
    wa'.peerMeta.get? b.sid = some ⟨b.dev.identity.pub, none⟩ := by
  obtain ⟨w, js, hsession, hmeta, hnoted, hslots⟩ := ha.ends hP hpb hsame hb
  have hknown : (w.sessions.get? (sessionId fromB)).isSome = true := by
    rw [← hmet, hsession]
    rfl
  have hslot := hslots b.sid
  rw [← hmet] at hnoted
  rw [if_pos hnoted, Host.crossed, if_pos hmet, World.arrive_known hknown] at hslot
  refine (congrArg Slot.peerMeta hslot).trans ?_
  exact congrArg (Option.map PeerSessionMeta.acknowledged) hmeta

/-- Under another address the session that `a` started stays, or was moved away. -/
theorem Host.Crosses.outbound (hP : P.Lawful) (hpb : a.env.pb.Lawful) (hsame : b.env.pb = a.env.pb)
    (ha : a.Crosses b fromB outa outb wa wa') (hb : b.Crosses a fromA outb outa wb wb')
    (hapart : b.Apart fromB) :
    wa'.Unknown b.sid ∨ wa'.sessions.get? b.sid = some ((a.handshake b wa).sending 1) ∧
      ∃ m, wa'.peerMeta.get? b.sid = some m ∧
        (m = (a.handshake b wa).peerMeta ∨ m = (a.handshake b wa).peerMeta.acknowledged) := by
  obtain ⟨w, js, hsession, hmeta, _, hslots⟩ := ha.ends hP hpb hsame hb
  have hslot := hslots b.sid
  rw [Host.crossed, if_neg hapart] at hslot
  rcases w.arrive_slot hapart with hstays | hmoved
  · rw [hstays] at hslot
    have hsession' : wa'.sessions.get? b.sid = some ((a.handshake b wa).sending 1) := by
      split at hslot <;> exact (congrArg Slot.session hslot).trans hsession
    refine .inr ⟨hsession', ?_⟩
    split at hslot
    · exact ⟨_, (congrArg Slot.peerMeta hslot).trans
        (congrArg (Option.map PeerSessionMeta.acknowledged) hmeta), .inr rfl⟩
    · exact ⟨_, (congrArg Slot.peerMeta hslot).trans hmeta, .inl rfl⟩
  · refine .inl (.inl ?_)
    split at hslot <;> exact (congrArg Slot.session hslot).trans hmoved

theorem Host.Crosses.next (hP : P.Lawful) (hpb : a.env.pb.Lawful) (hsame : b.env.pb = a.env.pb)
    (ha : a.Crosses b fromB outa outb wa wa') (hb : b.Crosses a fromA outb outa wb wb')
    (hmet : b.sid = sessionId fromB) {w : World P} {plaintext : Bytes} {out : String × Bytes}
    (h : (a.encryptFor b plaintext).run wa' = (w, .done (.ok out))) :
    out.1 = "msg" ∧ SignalMessage.encode P a.env.pb
      { header := ⟨(a.answering wa).pub, 0, 0⟩
        ciphertext := (encryptAesCbc P (a.nextKey b wa wb) plaintext).1 }
      a.dev.identity.pub b.dev.identity.pub (encryptAesCbc P (a.nextKey b wa wb) plaintext).2 =
        .ok out.2 := by
  have hsession := (ha.inbound hP hpb hsame hb).1
  rw [← hmet] at hsession
  have hmeta := ha.preamble hP hpb hsame hb hmet
  obtain ⟨rfl, hwire⟩ := Co.run_done_inj (encryptForPeer_known hsession hmeta rfl plaintext) h
  obtain ⟨inner, hinner, hout⟩ := except_bind_ok.mp hwire
  cases hout
  exact ⟨rfl, hinner⟩

theorem Host.Crosses.refuses (hP : P.Lawful) (hkeys : DistinctKeys a.env (wa.drawn + 3))
    (generated : KeyPair P) (ct ad : Bytes) {verify : MacVerifier} {e : PyError}
    (h : verify (deriveMessageKeys P (a.triedKey b wa wb)).macKey = .error e) :
    ∃ st, ratchetDecrypt P generated ⟨(a.answering wa).pub, 0, 0⟩ ct ad (some verify)
      ((a.handshake b wa).received (b.answering wb) 0 .empty) = .error e st := by
  have hnew : (a.handshake b wa).ratchet.pub ≠ (a.answering wa).pub := by
    intro heq
    have := hkeys (wa.drawn + 1) (wa.drawn + 2) (by omega) (by omega) heq
    omega
  let st := dhRatcheted P generated (a.answering wa).pub
    ((b.answering wb).agree (a.answering wa)) (generated.agree (a.answering wa))
    ((a.handshake b wa).received (b.answering wb) 0 .empty)
  have hrun : ratchetDecrypt P generated ⟨(a.answering wa).pub, 0, 0⟩ ct ad (some verify)
      ((a.handshake b wa).received (b.answering wb) 0 .empty) = receiveAt P st.nr ct (some verify) st :=
    ratchetDecrypt_newChain rfl (fun heq => hnew (Option.some.inj heq)) rfl (hP.exchange_eq _ _)
      (hP.exchange_eq _ _)
  exact ⟨_, hrun.trans ((receiveAt_next rfl _ _).trans (openMessage_refused h))⟩

theorem decryptMsg_refused {env : Env P} {dev : Device P} {w : World P} {sender : JID}
    {channel : Channel} {session : Session} {peerIdentity frame key : Bytes} {header : MessageHeader}
    {ct : Bytes} {tried : Bytes} (hP : P.Lawful) (hpb : env.pb.Lawful)
    (hsession : w.sessions.get? (sessionId sender) = some session)
    (hidentity : w.identities.get? (sessionId sender) = some peerIdentity)
    (hdh : header.dh.length = 32)
    (hframe : SignalMessage.encode P env.pb { header := header, ciphertext := ct } peerIdentity
      dev.identity.pub key = .ok frame)
    (htag : signalMac P peerIdentity dev.identity.pub (frame.take (frame.length - macLen)) tried ≠
      signalMac P peerIdentity dev.identity.pub (frame.take (frame.length - macLen)) key)
    (hratchet : ∀ generated ad verify e, verify tried = .error e → ∃ st,
      ratchetDecrypt P generated header ct ad (some verify) session.state = .error e st) :
    ∃ w', (decryptMsg env dev channel sender frame).run w =
      (w', .done (.error (.signalCryptoError "signal message mac check failed"))) := by
  obtain ⟨body, mac, rfl, hmac, hdecode⟩ := SignalMessage.decode_encoded hP hpb hdh hframe
  have hcut : (signalMagic :: body ++ mac).take ((signalMagic :: body ++ mac).length - macLen) =
      signalMagic :: body := by
    rw [List.length_append, signalMac_length hP hmac, Nat.add_sub_cancel]
    exact List.take_left
  rw [hcut] at htag
  have hverify := SignalMessage.verifyMac_refused (m := { header := header, ciphertext := ct })
    hmac htag
  obtain ⟨st, hst⟩ := hratchet (env.keyPair w.drawn) (peerIdentity ++ dev.identity.pub) _ _ hverify
  rw [decryptMsg, Co.run_get_bind]
  simp only [hsession, hidentity]
  rw [Co.run_lift_bind hdecode]
  refine ⟨w.put (.setDrawn (w.drawn + 1)), (Co.run_bind_ok rfl).trans ?_⟩
  simp only [hst]
  rfl

theorem Host.Crosses.rejected (hP : P.Lawful) (hpb : a.env.pb.Lawful) (hsame : b.env.pb = a.env.pb)
    (ha : a.Crosses b fromB outa outb wa wa') (hb : b.Crosses a fromA outb outa wb wb')
    (hmet : b.sid = sessionId fromB) (hkeys : DistinctKeys a.env (wa.drawn + 3)) {w : World P}
    {plaintext : Bytes} {out : String × Bytes}
    (h : (a.encryptFor b plaintext).run wa' = (w, .done (.ok out)))
    (htag : a.tag b (a.triedKey b wa wb) out.2 ≠ a.tag b (a.nextKey b wa wb) out.2) :
    ∃ w', (decryptEnc b.env b.dev .direct fromA out.1 out.2).run wb' =
      (w', .done (.error (.signalCryptoError "signal message mac check failed"))) := by
  obtain ⟨hmsg, hframe⟩ := ha.next hP hpb hsame hb hmet h
  obtain ⟨hsession, hidentity⟩ := hb.inbound hP (hsame ▸ hpb) hsame.symm ha
  rw [← hsame] at hframe
  obtain ⟨w', hrun⟩ := decryptMsg_refused (w := wb') hP (hsame ▸ hpb) hsession hidentity
    (hP.public_length _) hframe htag fun generated ad verify e he =>
      Host.Crosses.refuses hP hkeys generated _ ad he
  refine ⟨w', (decryptEnc_msg hmsg ?_).trans hrun⟩
  exact Option.isSome_iff_exists.mpr ⟨_, hsession⟩

/-- After the exchange nothing is on the way, and `b` follows the session of `a`. -/
theorem Host.Crosses.inv (hP : P.Lawful) (hpb : a.env.pb.Lawful) (hsame : b.env.pb = a.env.pb)
    (ha : a.Crosses b fromB outa outb wa wa') (hb : b.Crosses a fromA outb outa wb wb')
    (hapart : b.Apart fromB) :
    Route.Inv a b fromA fromB ⟨wa', wb', ⟨b.opk, 1, true, []⟩⟩ := by
  have hinbound := (ha.inbound hP hpb hsame hb).1
  refine ⟨Option.isSome_iff_exists.mpr ⟨_, hinbound⟩, ?_⟩
  rcases ha.outbound hP hpb hsame hb hapart with hunknown | ⟨hsession, hpreamble⟩
  · exact .inl ⟨hunknown, rfl⟩
  · obtain ⟨hheard, hidentity⟩ := hb.inbound hP (hsame ▸ hpb) hsame.symm ha
    have hskipped : (a.handshake b wa).SkippedTo 0 .empty := fun k => (if_neg (by simp)).symm
    refine .inr ⟨_, ⟨rfl, rfl, rfl, hsession, hpreamble, by simp, List.nodup_nil,
      fun _ => ⟨_, hheard, hidentity, ?_⟩⟩⟩
    exact Handshake.received_hears _ hskipped Nat.one_pos (by simp)

end Exchange

/-- In every run after the crossing each message of `a` that meets the conditions when it
comes to `b` is decrypted to its plaintext. -/
def Host.Converges (a b : Host P) (fromA fromB : JID) (wa wb : World P) : Prop :=
  ∀ r, Relation.ReflTransGen (Route.Step a b fromA fromB) ⟨wa, wb, ⟨b.opk, 1, true, []⟩⟩ r →
    ∀ m ∈ r.lane.posted, r.Meets fromA m →
      ∃ w, (decryptEnc b.env b.dev .direct fromA m.out.1 m.out.2).run r.target =
        (w, .done (.ok m.plaintext))

/-- The next message of `a` fails the MAC check of `b`, unless two different keys
give it the same tag. The crossing began in `wa` and `wb` and led to `wa'` and
`wb'`. -/
def Host.Refused (a b : Host P) (fromA : JID) (wa wb wa' wb' : World P) : Prop :=
  ∀ plaintext out w, (a.encryptFor b plaintext).run wa' = (w, .done (.ok out)) →
    a.tag b (a.triedKey b wa wb) out.2 ≠ a.tag b (a.nextKey b wa wb) out.2 →
    ∃ w', (decryptEnc b.env b.dev .direct fromA out.1 out.2).run wb' =
      (w', .done (.error (.signalCryptoError "signal message mac check failed")))

/-- After crossing first messages, each side is understood from then on just when what it
receives is stored apart from the session it sends on. -/
theorem crossing_outcome (hP : P.Lawful) {a b : Host P} (hpb : a.env.pb.Lawful)
    (hsame : b.env.pb = a.env.pb) {fromA fromB : JID} {wa wa' wb wb' : World P}
    {outa outb : String × Bytes} (ha : a.Crosses b fromB outa outb wa wa')
    (hb : b.Crosses a fromA outb outa wb wb') (hkeysa : DistinctKeys a.env (wa.drawn + 3))
    (hkeysb : DistinctKeys b.env (wb.drawn + 3)) :
    ((b.Apart fromB → a.Converges b fromA fromB wa' wb') ∧
        (¬ b.Apart fromB → a.Refused b fromA wa wb wa' wb')) ∧
      (a.Apart fromA → b.Converges a fromB fromA wb' wa') ∧
        (¬ a.Apart fromA → b.Refused a fromB wb wa wb' wa') := by
  have hpb' : b.env.pb.Lawful := hsame ▸ hpb
  refine ⟨⟨fun hapart r hrun m hm hmeets => ?_, fun hmet _ _ _ hsent htag => ?_⟩,
    fun hapart r hrun m hm hmeets => ?_, fun hmet _ _ _ hsent htag => ?_⟩
  · have hinv := ha.inv hP hpb hsame hb hapart
    exact (hinv.run hP hpb' hsame.symm hapart hrun).opens hP hpb' hm hmeets
  · exact ha.rejected hP hpb hsame hb (not_not.mp hmet) hkeysa hsent htag
  · have hinv := hb.inv hP hpb' hsame.symm ha hapart
    exact (hinv.run hP hpb hsame hapart hrun).opens hP hpb hm hmeets
  · exact hb.rejected hP hpb' hsame.symm ha (not_not.mp hmet) hkeysb hsent htag

section Demo

def demoLeft : Host demoPrimitives := ⟨demoEnv [], demoMe, none⟩

def demoRight : Host demoPrimitives :=
  ⟨{ demoEnv [] with keyPair := fun i => demoKey (UInt8.ofNat (150 + i)) }, demoPeer, none⟩

def demoOut (a b : Host demoPrimitives) : String × Bytes :=
  ((a.encryptFor b [1]).run {}).2.ok?.getD ("", [])

def demoGiven (a b : Host demoPrimitives) : World demoPrimitives := ((a.encryptFor b [1]).run {}).1

def demoCrossed (a b : Host demoPrimitives) (sender : JID) : World demoPrimitives :=
  ((decryptDirect a.env a.dev sender (demoOut b a).1 (demoOut b a).2).run (demoGiven a b)).1

def demoNext (a b : Host demoPrimitives) : String × Bytes :=
  ((a.encryptFor b [2]).run (demoCrossed a b b.dev.ownJid)).2.ok?.getD ("", [])

/-- The other side after the first message. -/
def demoHeard : World demoPrimitives :=
  ((demoRight.decryptFrom demoLeft (demoOut demoLeft demoRight)).run {}).1

theorem demo_crosses {a b : Host demoPrimitives} {sender : JID} (hopk : a.opk = none)
    (hsent : ((a.encryptFor b [1]).run {}).2.ok?.isSome = true)
    (hgot : ((decryptDirect a.env a.dev sender (demoOut b a).1 (demoOut b a).2).run
      (demoGiven a b)).2.ok?.isSome = true) :
    a.Crosses b sender (demoOut a b) (demoOut b a) {} (demoCrossed a b sender) where
  unknown := .inl rfl
  holds _ hk := nomatch hopk.symm.trans hk
  exchanged := ⟨[1], demoGiven a b, (demoGiven a b).lidMap, _, Co.run_getD _ hsent,
    Co.run_getD (.ok []) hgot⟩

/-- What the two devices do when each sends to the address it hears from. -/
theorem demo_meet :
    ((demoLeft.encryptFor demoRight [1]).run {}).2.ok?.isSome = true ∧
      ((demoRight.encryptFor demoLeft [1]).run {}).2.ok?.isSome = true ∧
      ((decryptDirect demoLeft.env demoLeft.dev demoPeer.ownJid (demoOut demoRight demoLeft).1
        (demoOut demoRight demoLeft).2).run (demoGiven demoLeft demoRight)).2.ok?.isSome = true ∧
      ((decryptDirect demoRight.env demoRight.dev demoMe.ownJid (demoOut demoLeft demoRight).1
        (demoOut demoLeft demoRight).2).run (demoGiven demoRight demoLeft)).2.ok?.isSome = true ∧
      ((demoLeft.encryptFor demoRight [2]).run
        (demoCrossed demoLeft demoRight demoPeer.ownJid)).2.ok?.isSome = true ∧
      ((decryptEnc demoRight.env demoPeer .direct demoMe.ownJid (demoNext demoLeft demoRight).1
        (demoNext demoLeft demoRight).2).run
          (demoCrossed demoRight demoLeft demoMe.ownJid)).2.ok?.isSome = false := by
  decide +kernel

theorem demoLeft_crosses : demoLeft.Crosses demoRight demoPeer.ownJid (demoOut demoLeft demoRight)
    (demoOut demoRight demoLeft) {} (demoCrossed demoLeft demoRight demoPeer.ownJid) := by
  obtain ⟨hsent, _, hgot, _⟩ := demo_meet
  exact demo_crosses rfl hsent hgot

theorem demoRight_crosses : demoRight.Crosses demoLeft demoMe.ownJid (demoOut demoRight demoLeft)
    (demoOut demoLeft demoRight) {} (demoCrossed demoRight demoLeft demoMe.ownJid) := by
  obtain ⟨_, hsent, _, hgot, _⟩ := demo_meet
  exact demo_crosses rfl hsent hgot

theorem demoLeft_sends_next :
    (demoLeft.encryptFor demoRight [2]).run (demoCrossed demoLeft demoRight demoPeer.ownJid) =
      (((demoLeft.encryptFor demoRight [2]).run
        (demoCrossed demoLeft demoRight demoPeer.ownJid)).1,
        .done (.ok (demoNext demoLeft demoRight))) := by
  obtain ⟨_, _, _, _, hnext, _⟩ := demo_meet
  exact Co.run_getD _ hnext

theorem demoLeft_keys : DistinctKeys demoLeft.env 3 := by
  have h : ∀ i < 3, ∀ j < 3, (demoLeft.env.keyPair i).pub = (demoLeft.env.keyPair j).pub → i = j := by
    decide +kernel
  exact fun i j hi hj => h i hi j hj

theorem demoRight_keys : DistinctKeys demoRight.env 3 := by
  have h : ∀ i < 3, ∀ j < 3, (demoRight.env.keyPair i).pub = (demoRight.env.keyPair j).pub → i = j := by
    decide +kernel
  exact fun i j hi hj => h i hi j hj

/-! The same with the messages coming in under LIDs. The left device then learns whose
LID it is and hears from the other again, so its next message goes without the preamble. -/

def demoMyLid : JID := { user := "91", server := "lid", device := demoMe.ownJid.device }

def demoPeerLid : JID := { user := "92", server := "lid", device := demoPeer.ownJid.device }

def demoAddresses : LidMap := LidMap.set {} demoPeer.ownJid.user demoPeerLid.user

def demoLearned : World demoPrimitives :=
  (demoCrossed demoLeft demoRight demoPeerLid).put (.setLidMap demoAddresses)

def demoUnlearned : World demoPrimitives :=
  (demoCrossed demoRight demoLeft demoMyLid).put (.setLidMap {})

/-- The right device after its next message. -/
def demoReplying : World demoPrimitives :=
  ((demoRight.encryptFor { demoLeft with opk := none } [5]).run demoUnlearned).1

def demoAnswerOut : String × Bytes :=
  ((demoRight.encryptFor { demoLeft with opk := none } [5]).run demoUnlearned).2.ok?.getD ("", [])

def demoReplied : World demoPrimitives :=
  ((decryptDirect demoLeft.env demoLeft.dev demoPeerLid demoAnswerOut.1 demoAnswerOut.2).run demoLearned).1

def demoLaterOut : String × Bytes :=
  ((demoLeft.encryptFor { demoRight with opk := none } [2]).run demoReplied).2.ok?.getD ("", [])

def demoSending : World demoPrimitives :=
  ((demoLeft.encryptFor { demoRight with opk := none } [2]).run demoReplied).1

/-- What they do when each hears from the other's LID. -/
theorem demo_apart :
    ((decryptDirect demoLeft.env demoLeft.dev demoPeerLid (demoOut demoRight demoLeft).1
        (demoOut demoRight demoLeft).2).run (demoGiven demoLeft demoRight)).2.ok?.isSome = true ∧
      ((decryptDirect demoRight.env demoRight.dev demoMyLid (demoOut demoLeft demoRight).1
        (demoOut demoLeft demoRight).2).run (demoGiven demoRight demoLeft)).2.ok?.isSome = true ∧
      (demoReplied.sessions.get? demoRight.sid).isSome = true ∧
      (demoReplied.peerMeta.get? demoRight.sid).isSome = true ∧
      ((demoLeft.encryptFor { demoRight with opk := none } [2]).run demoReplied).2.ok?.isSome = true ∧
      demoLaterOut.1 ≠ "pkmsg" ∧
      (demoReplying.sessions.get? (sessionId demoMyLid)).all (fun session =>
        1 ≤ session.state.nr + session.state.maxSkip ∧
          session.state.mkskipped.size + (1 - session.state.nr) ≤ maxSkippedTotal) = true := by
  decide +kernel

theorem demoLeft_crosses_apart :
    demoLeft.Crosses demoRight demoPeerLid (demoOut demoLeft demoRight)
      (demoOut demoRight demoLeft) {} (demoCrossed demoLeft demoRight demoPeerLid) := by
  obtain ⟨hsent, _⟩ := demo_meet
  obtain ⟨hgot, _⟩ := demo_apart
  exact demo_crosses rfl hsent hgot

theorem demoRight_crosses_apart :
    demoRight.Crosses demoLeft demoMyLid (demoOut demoRight demoLeft)
      (demoOut demoLeft demoRight) {} (demoCrossed demoRight demoLeft demoMyLid) := by
  obtain ⟨_, hsent, _⟩ := demo_meet
  obtain ⟨_, hgot, _⟩ := demo_apart
  exact demo_crosses rfl hsent hgot

/-- A run in which `b` answers, `a` hears of that and then sends its next message. -/
theorem Route.replied_run {a b : Host demoPrimitives} {fromA fromB : JID}
    {w w' w'' v v' : World demoPrimitives} {own other : LidMap} {encType : String}
    {reply plaintext ciphertext : Bytes} {out : String × Bytes} {stop stop'}
    (hreply : (b.encryptFor { a with opk := none } reply).run (v.put (.setLidMap other)) = (v', stop))
    (hheard : (decryptDirect a.env a.dev fromB encType ciphertext).run (w.put (.setLidMap own)) =
      (w', stop')) (hold : ¬ w'.Unknown b.sid)
    (hsent : (a.encryptFor { b with opk := none } plaintext).run w' = (w'', .done (.ok out))) :
    Relation.ReflTransGen (Route.Step a b fromA fromB) ⟨w, v, ⟨none, 1, true, []⟩⟩
      ⟨w'', v', ⟨none, 2, true, [⟨1, plaintext, out⟩]⟩⟩ := by
  have hsends : Route.Step a b fromA fromB ⟨w', v', ⟨none, 1, true, []⟩⟩
      ⟨w'', v', ⟨none, 2, true, [⟨1, plaintext, out⟩]⟩⟩ :=
    Route.Step.sends (r := ⟨w', v', ⟨none, 1, true, []⟩⟩) hold hsent
  exact .tail (.tail (.tail (.single (.learns own other)) (.answers hreply)) (.hears hheard)) hsends

theorem demoSending_run : Relation.ReflTransGen (Route.Step demoLeft demoRight demoMyLid demoPeerLid)
    ⟨demoCrossed demoLeft demoRight demoPeerLid, demoCrossed demoRight demoLeft demoMyLid,
      ⟨none, 1, true, []⟩⟩
    ⟨demoSending, demoReplying, ⟨none, 2, true, [⟨1, [2], demoLaterOut⟩]⟩⟩ := by
  obtain ⟨_, _, hsession, hmeta, hsome, _⟩ := demo_apart
  have hold : ¬ demoReplied.Unknown demoRight.sid := by
    rintro (h | ⟨h, _⟩)
    · rw [h] at hsession
      cases hsession
    · rw [h] at hmeta
      cases hmeta
  have hsent : (demoLeft.encryptFor { demoRight with opk := none } [2]).run demoReplied =
      (demoSending, .done (.ok demoLaterOut)) := by
    rw [demoSending]
    exact Co.run_getD _ hsome
  have hreply : (demoRight.encryptFor { demoLeft with opk := none } [5]).run demoUnlearned =
      (demoReplying, ((demoRight.encryptFor { demoLeft with opk := none } [5]).run demoUnlearned).2) := by
    rw [demoReplying]
  have hheard : (decryptDirect demoLeft.env demoLeft.dev demoPeerLid demoAnswerOut.1 demoAnswerOut.2).run
      demoLearned = (demoReplied, ((decryptDirect demoLeft.env demoLeft.dev demoPeerLid demoAnswerOut.1
        demoAnswerOut.2).run demoLearned).2) := by
    rw [demoReplied]
  rw [demoUnlearned] at hreply
  rw [demoLearned] at hheard
  exact Route.replied_run hreply hheard hold hsent

theorem Route.meets_next {w v : World demoPrimitives} {lane : Lane demoPrimitives} {sender : JID}
    {m : Posted} (hmsg : m.out.1 ≠ "pkmsg") (hreceived : lane.received = true)
    (hnext : (v.sessions.get? (sessionId sender)).all (fun session =>
      m.number ≤ session.state.nr + session.state.maxSkip ∧
        session.state.mkskipped.size + (m.number - session.state.nr) ≤ maxSkippedTotal) = true) :
    Route.Meets sender ⟨w, v, lane⟩ m := by
  refine ⟨fun hpkmsg => absurd hpkmsg hmsg, fun _ => ⟨hreceived, fun session hsession => .inr ?_⟩⟩
  have hsession' : v.sessions.get? (sessionId sender) = some session := hsession
  rw [hsession'] at hnext
  exact of_decide_eq_true hnext

theorem crossing_outcome_next :
    (∃ w, (decryptEnc demoRight.env demoPeer .direct demoMe.ownJid (demoNext demoLeft demoRight).1
        (demoNext demoLeft demoRight).2).run (demoCrossed demoRight demoLeft demoMe.ownJid) =
      (w, .done (.error (.signalCryptoError "signal message mac check failed")))) ∧
    ∃ w, (decryptEnc demoRight.env demoRight.dev .direct demoMyLid demoLaterOut.1 demoLaterOut.2).run
      demoReplying = (w, .done (.ok [2])) := by
  have hsame : demoRight.env.pb = demoLeft.env.pb := rfl
  obtain ⟨⟨_, hrefused⟩, _⟩ := crossing_outcome (a := demoLeft) demoPrimitives_lawful
    demoProtobuf_lawful hsame demoLeft_crosses demoRight_crosses demoLeft_keys demoRight_keys
  obtain ⟨⟨hconverges, _⟩, _⟩ := crossing_outcome (a := demoLeft) demoPrimitives_lawful
    demoProtobuf_lawful hsame demoLeft_crosses_apart demoRight_crosses_apart demoLeft_keys
    demoRight_keys
  refine ⟨hrefused (not_not.mpr rfl) _ _ _ demoLeft_sends_next (by decide +kernel), ?_⟩
  have hapart : demoRight.Apart demoPeerLid := by
    rw [Host.Apart]
    decide +kernel
  obtain ⟨_, _, _, _, _, hmsg, hnext⟩ := demo_apart
  have hmeets : Route.Meets demoMyLid
      ⟨demoSending, demoReplying, ⟨none, 2, true, [⟨1, [2], demoLaterOut⟩]⟩⟩ ⟨1, [2], demoLaterOut⟩ :=
    Route.meets_next hmsg rfl hnext
  obtain ⟨w, hopens⟩ := hconverges hapart _ demoSending_run _ List.mem_cons_self hmeets
  dsimp only at hopens
  exact ⟨w, hopens⟩

theorem crossing_loses_next :
    ¬ ∀ (wa wa' wb wb' : World demoPrimitives) (outa outb : String × Bytes) (fromA fromB : JID),
      demoLeft.Crosses demoRight fromB outa outb wa wa' →
      demoRight.Crosses demoLeft fromA outb outa wb wb' →
      ∀ plaintext out w, (demoLeft.encryptFor demoRight plaintext).run wa' = (w, .done (.ok out)) →
        ∃ w', (decryptEnc demoRight.env demoPeer .direct fromA out.1 out.2).run wb' =
          (w', .done (.ok plaintext)) := by
  intro h
  obtain ⟨w, hw⟩ := h _ _ _ _ _ _ _ _ demoLeft_crosses demoRight_crosses _ _ _ demoLeft_sends_next
  obtain ⟨_, _, _, _, _, hrefused⟩ := demo_meet
  rw [hw] at hrefused
  cases hrefused

end Demo

end PyWhats
