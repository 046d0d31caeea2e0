import PyWhats.Preamble

/-! The identity key of the peer stands in three places: in the run that started the
session, in the identity store and in the sender's metadata. -/

namespace PyWhats

variable {P : Primitives} {env : Env P} {dev : Device P}

section Current

def Slot.MetaAgrees (x : Slot) : Prop :=
  ∀ session m, x.session = some session → x.peerMeta = some m →
    m.peerIdentity = session.origin.peerIdentity

def Slot.IdentityAgrees (x : Slot) : Prop :=
  ∀ session identity, x.session = some session → x.identity = some identity →
    identity = session.origin.peerIdentity

/-- The metadata of every stored session names the identity of its run, and did so
whenever a message was encrypted. -/
structure IdentityCurrent (w : World P) : Prop where
  slots : ∀ sid session m, w.sessions.get? sid = some session → w.peerMeta.get? sid = some m →
    m.peerIdentity = session.origin.peerIdentity
  encryptions : ∀ v e, (v, Event.encrypt e) ∈ w.history →
    e.peerMeta.peerIdentity = e.session.origin.peerIdentity

/-- An accepted `pkmsg` carries the identity key the sender's metadata has. -/
def KeepsIdentity (ev : Stores P × Event) : Prop :=
  ∀ sid identityKey channel m, ev.2 = .acceptPrekey sid identityKey channel →
    ev.1.peerMeta.get? sid = some m → m.peerIdentity = identityKey

variable {history : List (Stores P × Event)} {s : Stores P} {sid : String} {x : Slot}

theorem SlotStep.unpinned (h : SlotStep env dev history s sid x)
    (hs : (s.slot sid).session = none → (s.slot sid).identity = none) :
    x.session = none → x.identity = none := by
  cases h with
  | same => exact hs
  | drop => exact fun _ => rfl
  | note hevent hv => exact hs
  | migrateAway h => exact fun _ => rfl
  | _ =>
    intro hx
    cases hx

/-- The metadata agrees as long as it is rebuilt from the identity of the session. -/
theorem SlotStep.metaAgrees (h : SlotStep env dev history s sid x)
    (hcond : ∀ ev ∈ history, KeepsIdentity ev)
    (hrebuild : (s, Event.rehydrate sid) ∈ history → (s.slot sid).IdentityAgrees)
    (hlid : IsLid sid → (s.slot sid).session = none → (s.slot sid).peerMeta = none)
    (hs : (s.slot sid).MetaAgrees) : x.MetaAgrees := by
  intro session' m hsession hm
  cases h with
  | same => exact hs session' m hsession hm
  | initiate hrun hstate =>
    cases hsession
    cases hm
    rfl
  | install hrun hreceipt hid =>
    cases hsession
    cases hm
    rfl
  | @rehydrate session identity h hevent =>
    cases hm
    have hidentity := hrebuild hevent
    rw [h] at hidentity
    exact hidentity session' identity hsession rfl
  | @encrypt session state h hstate =>
    cases hsession
    exact hs session m h hm
  | drop => cases hsession
  | @acceptPrekey start state identityKey v channel hevent hv =>
    cases hsession
    have hkeep : ∀ m', (s.slot sid).peerMeta = some m' → m'.peerIdentity = identityKey :=
      fun m' hm' => hcond _ hevent sid identityKey channel m' rfl
        ((congrArg Slot.peerMeta hv).trans hm')
    cases channel with
    | group => exact hkeep m hm
    | direct =>
      obtain ⟨_, m', hm', heq⟩ := Slot.acknowledged_peerMeta hm
      exact heq.symm.trans (hkeep m' hm')
  | @acceptMessage session state y h hstate hx =>
    cases hsession
    rcases hx with rfl | rfl
    · exact hs session m h hm
    · obtain ⟨_, m', hm', heq⟩ := Slot.acknowledged_peerMeta hm
      exact heq.symm.trans (hs session m' h hm')
  | note hevent hv =>
    obtain ⟨_, m', hm', heq⟩ := Slot.acknowledged_peerMeta hm
    exact heq.symm.trans (hs session' m' hsession hm')
  | migrateAway h => cases hsession
  | @migrateHere pn session hpn hlid' hevent hfrom hfree =>
    have hm' : (s.slot sid).peerMeta = some m := hm
    rw [hlid hlid' hfree] at hm'
    cases hm'

theorem SlotStep.identityAgrees (h : SlotStep env dev history s sid x)
    (hbare : (s.slot sid).session = none → (s.slot sid).identity = none)
    (hs : ∀ sid, (s.slot sid).IdentityAgrees) : x.IdentityAgrees := by
  intro session' identity' hsession hid'
  cases h with
  | same => exact hs sid session' identity' hsession hid'
  | initiate hrun hstate =>
    cases hsession
    cases hid'
    rfl
  | install hrun hreceipt hid => cases hid'
  | @rehydrate session identity h hevent =>
    have hslot := hs sid
    rw [h] at hslot
    exact hslot session' identity' hsession hid'
  | @encrypt session state h hstate =>
    cases hsession
    exact hs sid session identity' h hid'
  | drop => cases hsession
  | @acceptPrekey start state identityKey v channel hevent hv =>
    cases hsession
    cases hid'
    rfl
  | @acceptMessage session state y h hstate hx =>
    cases hsession
    rcases hx with rfl | rfl <;> exact hs sid session identity' h hid'
  | note hevent hv => exact hs sid session' identity' hsession hid'
  | migrateAway h => cases hsession
  | @migrateHere pn session hpn hlid' hevent hfrom hfree =>
    have hfrom' : (s.slot pn).session = some session' := hfrom.trans hsession
    rw [hbare hfree, Option.or_none] at hid'
    exact hs pn session' identity' hfrom' hid'

/-- What every process keeps. -/
structure MetaInv (w : World P) : Prop where
  lidClear : LidClear w
  agrees : ∀ sid, (w.slot sid).MetaAgrees
  encryptions : ∀ v e, (v, Event.encrypt e) ∈ w.history →
    e.peerMeta.peerIdentity = e.session.origin.peerIdentity

theorem MetaInv.current {w : World P} (h : MetaInv w) : IdentityCurrent w :=
  ⟨fun sid session m hsession hm => h.agrees sid session m hsession hm, h.encryptions⟩

theorem metaInv_init {w : World P} (hmeta : w.peerMeta = .empty) (hhistory : w.history = []) :
    MetaInv w := by
  refine ⟨fun sid _ _ => ?_, fun sid session m _ hm => ?_, fun v e hmem => ?_⟩
  · simp [Stores.slot, hmeta]
  · simp [Stores.slot, hmeta] at hm
  · rw [hhistory] at hmem
    cases hmem

theorem Trans.metaInv {w w' : World P} (h : Trans env dev w w')
    (hcond : ∀ ev ∈ w'.history, KeepsIdentity ev)
    (hrebuild : ∀ sid, (w.toStores, Event.rehydrate sid) ∈ w'.history → (w.slot sid).IdentityAgrees)
    (hw : MetaInv w) : MetaInv w' where
  lidClear := h.lidClear hw.lidClear
  agrees sid := (h.slot sid).metaAgrees hcond (hrebuild sid) (hw.lidClear sid) (hw.agrees sid)
  encryptions v e hmem := by
    rcases h.encryption hmem with hold | ⟨hsession, hmeta⟩ | ⟨run, hsession, hmeta⟩
    · exact hw.encryptions v e hold
    · exact hw.agrees e.sid e.session e.peerMeta hsession hmeta
    · rw [hsession, hmeta]
      rfl

/-- Metadata that is missing after a restart is rebuilt from the identity of the session. -/
def RebuildsIdentity (ev : Stores P × Event) : Prop :=
  ∀ sid, ev.2 = .rehydrate sid → (ev.1.slot sid).IdentityAgrees

/-- Whatever a part of a transition left, a new process starts without metadata. -/
theorem metaInv_restart {w t : World P} (ht : t = w ∨ Part env dev w t) (hw : MetaInv w) :
    MetaInv t.restart where
  lidClear sid _ _ := rfl
  agrees sid session m _ hm := by cases hm
  encryptions v e hmem := by
    have hmem' : (v, Event.encrypt e) ∈ t.history :=
      (List.mem_append.mp hmem).resolve_right (by simp)
    rcases ht with rfl | hpart
    · exact hw.encryptions v e hmem'
    · exact hw.encryptions v e (hpart.encryption hmem')

/-- Over any number of processes, whatever the stores hold at first: also the metadata that
is rebuilt has to be the session's. -/
theorem identity_current_lives {w : World P} {m : ClientMachine P} (hmeta : w.peerMeta = .empty)
    (hhistory : w.history = []) (hlife : ClientLife env dev w m)
    (hcond : ∀ ev ∈ m.state.history, KeepsIdentity ev ∧ RebuildsIdentity ev) :
    IdentityCurrent m.state := by
  have hinv := run_invariant (R := EndpointLives env dev) (I := MetaInv) (fun _ _ h => lives_history h)
    (fun u u' h hc hu => ?_) (metaInv_init hmeta hhistory) hlife.lives hcond
  · exact hinv.current
  · rcases h with h | ⟨t, ht, rfl⟩
    · exact h.metaInv (fun ev hev => (hc ev hev).1) (fun sid hev => (hc _ hev).2 sid rfl) hu
    · exact metaInv_restart ht hu

/-- In one process that starts with empty stores the identity store agrees too. -/
structure IdentityInv (w : World P) : Prop extends MetaInv w where
  bare : ∀ sid, (w.slot sid).session = none → (w.slot sid).identity = none
  identities : ∀ sid, (w.slot sid).IdentityAgrees

theorem Trans.identityInv {w w' : World P} (h : Trans env dev w w')
    (hcond : ∀ ev ∈ w'.history, KeepsIdentity ev) (hw : IdentityInv w) : IdentityInv w' where
  toMetaInv := h.metaInv hcond (fun sid _ => hw.identities sid) hw.toMetaInv
  bare sid := (h.slot sid).unpinned (hw.bare sid)
  identities sid := (h.slot sid).identityAgrees (hw.bare sid) hw.identities

/-- The identity in use is the current one as long as no peer comes back with
another identity key. -/
theorem identity_current {w : World P} {m : ClientMachine P} (hsessions : w.sessions = .empty)
    (hidentities : w.identities = .empty) (hmeta : w.peerMeta = .empty) (hhistory : w.history = [])
    (hrun : ClientRun env dev w m) (hcond : ∀ ev ∈ m.state.history, KeepsIdentity ev) :
    IdentityCurrent m.state := by
  have hinit : IdentityInv w := by
    refine ⟨metaInv_init hmeta hhistory, fun sid _ => ?_, fun sid session identity hsession _ => ?_⟩
    · simp [Stores.slot, hidentities]
    · simp [Stores.slot, hsessions] at hsession
  have hinv := run_invariant (R := Trans env dev) (fun _ _ h => h.history)
    (fun u u' h hc hu => h.identityInv hc hu) hinit hrun.trans hcond
  exact hinv.current

theorem identity_current_first :
    ((demoWaiting.state.peerMeta.get? (sessionId demoPeer.ownJid)).isSome ∧
      (demoWaiting.state.sessions.get? (sessionId demoPeer.ownJid)).isSome) ∧
      IdentityCurrent demoWaiting.state := by
  refine ⟨by decide +kernel, identity_current rfl rfl rfl rfl demoWaiting_run ?_⟩
  rintro ⟨v, ev⟩ hmem sid identityKey channel m rfl
  cases history_all (fun e => !e.isAcceptPrekey) demoWaiting_accepts_none hmem

theorem IdentityCurrent.get {w : World P} (h : IdentityCurrent w) (sid : String)
    (hs : (w.sessions.get? sid).isSome) (hm : (w.peerMeta.get? sid).isSome) :
    (w.peerMeta.get? sid).map (·.peerIdentity) =
      (w.sessions.get? sid).map (·.origin.peerIdentity) := by
  obtain ⟨session, hsession⟩ := Option.isSome_iff_exists.mp hs
  obtain ⟨m, hm⟩ := Option.isSome_iff_exists.mp hm
  rw [hsession, hm, Option.map_some, Option.map_some, h.slots sid session m hsession hm]

def demoReturn : Node :=
  .mk "message" [("id", .str "r1"), ("from", .jid demoPeer.ownJid)]
    (.nodes [.mk "enc" [("type", .str "pkmsg")]
      (.bytes (demoPkmsg (demoDevice "200" 4 13 14) demoMe))])

/-- The peer comes back with another identity key, and the metadata keeps the old one. -/
theorem identity_not_current :
    ¬ ∀ m, ClientRun (demoEnv [demoAnswer, demoReturn]) demoMe {} m → IdentityCurrent m.state := by
  intro h
  have hrun := clientAfter_run {} (demoFirst [demoAnswer, demoReturn] ++ [.receive [1]])
  exact absurd ((h _ hrun).get (sessionId demoPeer.ownJid) (by decide +kernel) (by decide +kernel))
    (by decide +kernel)

end Current

section Pinned

def IdentityPinned (w : World P) : Prop :=
  ∀ sid, (w.sessions.get? sid).isSome → (w.identities.get? sid).isSome

def PreKeyBundle.Establishes (dev : Device P) (bundle : PreKeyBundle) : Prop :=
  ∃ (run : InitiatorRun) (generated : KeyPair P), run.bundle = bundle ∧ run.Made dev generated

/-- One operation from its start to its end, with nothing else in between. Nobody
tells the sender after a bare `_decrypt_enc`, as on the group path. -/
inductive Operation (env : Env P) (dev : Device P) (w w' : World P) : Prop
  | encryptForPeer (peer : JID) (plaintext : Bytes) (r : Except PyError (String × Bytes))
      (h : (encryptForPeer env dev (prekeyFetcher env) peer plaintext).Completes w r w')
  | handleRetryReceipt (messageId : String) (peer : JID) (bundle : Option PreKeyBundle) (count : Int)
      (r : Except PyError Unit)
      (h : (handleRetryReceipt env dev (prekeyFetcher env) messageId peer bundle count).Completes
        w r w')
  | dropPeerSession (peer : JID) (r : Except PyError Unit)
      (h : (dropPeerSession peer).Completes w r w')
  | decryptEnc (sender : JID) (encType : String) (ciphertext : Bytes) (r : Except PyError Bytes)
      (h : (decryptEnc env dev .group sender encType ciphertext).Completes w r w')
  | migratePnSessionToLid (pn lid : JID) (r : Except PyError Unit)
      (h : (migratePnSessionToLid pn lid).Completes w r w')

inductive Move (env : Env P) (dev : Device P) (w : World P) : World P → Prop
  | trans {w' : World P} (h : Trans env dev w w') : Move env dev w w'
  | migrate {pn lid : String} {session : Session} (hpn : w.sessions.get? pn = some session)
      (hlid : w.sessions.get? lid = none) :
      Move env dev w (w.log (.migrate pn lid) (.migrate pn lid session))

theorem Move.history {w w' : World P} (h : Move env dev w w') : w.history <+: w'.history := by
  cases h with
  | trans h => exact h.history
  | migrate hpn hlid => exact List.prefix_append _ _

theorem Operation.moves {w w' : World P} (h : Operation env dev w w') :
    Relation.ReflTransGen (Move env dev) w w' := by
  have hfetch : FetchMoves env dev (fun _ => True) (prekeyFetcher env) :=
    fetchMoves_prekeyFetcher (fun _ => trivial) fun _ => trivial
  have hlift : ∀ {u u' : World P}, Relation.ReflTransGen (Trans env dev) u u' →
      Relation.ReflTransGen (Move env dev) u u' := fun hr =>
    Relation.ReflTransGen.mono (fun _ _ => Move.trans) _ _ hr
  cases h with
  | encryptForPeer peer plaintext r h =>
    exact hlift (Co.Safe.completes (moves_encryptForPeer hfetch peer plaintext) h).1
  | handleRetryReceipt messageId peer bundle count r h =>
    exact hlift (Co.Safe.completes (moves_handleRetryReceipt (fun _ => trivial) (fun _ => trivial)
      hfetch messageId peer bundle count) h).1
  | dropPeerSession peer r h =>
    have hmoves : Moves env dev (fun _ => True) _ _ w := moves_dropPeerSession peer
    exact hlift (Co.Safe.completes hmoves h).1
  | decryptEnc sender encType ciphertext r h =>
    have hmoves : Moves env dev (fun _ => True) _ _ w :=
      moves_decryptEnc_group sender encType ciphertext
    exact hlift (Co.Safe.completes hmoves h).1
  | migratePnSessionToLid pn lid r h =>
    have h' := Co.completes_get_bind h
    split at h'
    · rename_i session hpn hlid
      exact .single (Co.completes_modify h' ▸ .migrate hpn hlid)
    · rw [Co.completes_ret h']

theorem SlotStep.pinned {history : List (Stores P × Event)} {s : Stores P} {sid : String} {x : Slot}
    (h : SlotStep env dev history s sid x)
    (hcond : ∀ v messageId peer bundle, (v, Event.resend messageId peer (some bundle)) ∈ history →
      ¬ bundle.Establishes dev)
    (hs : ∀ sid, (s.slot sid).session.isSome → (s.slot sid).identity.isSome) :
    x.session.isSome → x.identity.isSome := by
  intro hx
  cases h with
  | same => exact hs sid hx
  | initiate hrun hstate => rfl
  | install hrun hreceipt hid =>
    obtain ⟨v, messageId, peer, hmem⟩ := hreceipt
    exact absurd ⟨_, _, rfl, hrun⟩ (hcond v messageId peer _ hmem)
  | rehydrate h => rfl
  | encrypt h hstate => exact hs sid (by rw [h]; rfl)
  | drop => cases hx
  | acceptPrekey start state hevent hv => rfl
  | acceptMessage h hstate hy =>
    have hid := hs sid (by rw [h]; rfl)
    rcases hy with rfl | rfl <;> exact hid
  | note hevent hv => exact hs sid hx
  | migrateAway h => cases hx
  | @migrateHere pn session hpn hlid hevent hfrom hfree =>
    have hid := hs pn (by rw [hfrom]; rfl)
    rw [Option.isSome_or, hid]
    rfl

theorem Move.pinned {w w' : World P} (h : Move env dev w w')
    (hcond : ∀ v messageId peer bundle,
      (v, Event.resend messageId peer (some bundle)) ∈ w'.history → ¬ bundle.Establishes dev)
    (hw : IdentityPinned w) : IdentityPinned w' := by
  intro sid hx
  cases h with
  | trans h => exact (h.slot sid).pinned hcond hw hx
  | @migrate pn lid session hpn hlid =>
    have hne : lid ≠ pn := by
      rintro rfl
      rw [hpn] at hlid
      cases hlid
    have hslot := slot_migrate w.toStores sid hne session
    have hid : (w.slot pn).identity.isSome := hw pn (by rw [hpn]; rfl)
    change ((w.toStores.migrate pn lid session).slot sid).session.isSome at hx
    change ((w.toStores.migrate pn lid session).slot sid).identity.isSome
    rw [hslot] at hx ⊢
    split_ifs at hx ⊢ with hp hl
    · cases hx
    · rw [Option.isSome_or, hid]
      rfl
    · exact hw sid hx

/-- After every operation a session stands with its identity, as long as no retry
receipt that is acted upon carries a bundle to establish a session from. -/
theorem identity_pinned {w w' : World P} (hsessions : w.sessions = .empty)
    (hops : Relation.ReflTransGen (Operation env dev) w w')
    (hcond : ∀ v messageId peer bundle,
      (v, Event.resend messageId peer (some bundle)) ∈ w'.history → ¬ bundle.Establishes dev) :
    IdentityPinned w' := by
  have hmoves : Relation.ReflTransGen (Move env dev) w w' := by
    clear hcond
    induction hops with
    | refl => exact .refl
    | tail _ hop ih => exact ih.trans hop.moves
  refine run_invariant (C := fun ev => ∀ messageId peer bundle,
      ev.2 = .resend messageId peer (some bundle) → ¬ bundle.Establishes dev)
    (fun _ _ h => h.history) (fun u u' h hc hu => ?_) (fun sid hx => ?_) hmoves ?_
  · exact h.pinned (fun v id peer b hmem => hc _ hmem id peer b rfl) hu
  · simp [hsessions] at hx
  · rintro ⟨v, ev⟩ hmem id peer b rfl
    exact hcond v id peer b hmem

def demoReply : (q : Request) → Except PyError q.Reply
  | .send _ => .ok ()
  | .emit _ => .ok ()
  | .ack _ => .error .timeoutError
  | .iq _ => .ok demoAnswer

def demoCall {α : Type} (p : CoM demoPrimitives α) (w : World demoPrimitives) :
    World demoPrimitives := (p.finish (fun _ => demoReply) w).2

def demoEncrypted : World demoPrimitives :=
  demoCall (encryptForPeer (demoEnv []) demoMe (prekeyFetcher (demoEnv [])) demoPeer.ownJid [1]) {}

def Event.isResend : Event → Bool
  | .resend _ _ _ => true
  | _ => false

theorem identity_pinned_encrypted :
    (demoEncrypted.sessions.get? (sessionId demoPeer.ownJid)).isSome ∧
      IdentityPinned demoEncrypted := by
  have hop : Operation (demoEnv []) demoMe {} demoEncrypted :=
    .encryptForPeer _ _ _ (Co.completes_finish _ _ _)
  have hnone : demoEncrypted.history.all (fun ev => !ev.2.isResend) = true := by decide +kernel
  refine ⟨by decide +kernel, identity_pinned rfl (.single hop) fun v id peer b hmem => ?_⟩
  cases history_all (fun e => !e.isResend) hnone hmem

def demoCached : World demoPrimitives where
  sent := OrderedMap.empty.set "m9" ⟨demoPeer.ownJid, "", [7], [7], 0, "text", none, "", ""⟩

/-- The bundle of a retry receipt makes a session whose identity is never stored. -/
theorem identity_not_pinned :
    ¬ ∀ w w', w.sessions = .empty → w.identities = .empty →
      Relation.ReflTransGen (Operation (demoEnv []) demoMe) w w' → IdentityPinned w' := by
  intro h
  have hpinned := h demoCached _ rfl rfl
    (.single (.handleRetryReceipt "m9" demoPeer.ownJid (some demoPeer.bundle) 1 _
      (Co.completes_finish (fun _ => demoReply) _ _))) (sessionId demoPeer.ownJid)
  exact absurd (hpinned (by decide +kernel)) (by decide +kernel)

end Pinned

end PyWhats
