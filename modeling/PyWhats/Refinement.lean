import PyWhats.RatchetChain
import PyWhats.Transitions

/-! Every coroutine of the endpoint moves its stores by `Trans` only, from any
state and whatever else runs while it waits. -/

namespace PyWhats

variable {P : Primitives}

/-- Started in `w`, the coroutine moves by transitions, waits only for what `Waits`
allows and ends as `Post` says. -/
def Moves (env : Env P) (dev : Device P) (Waits : Request → Prop) {α : Type}
    (Post : Except PyError α → World P → Prop) (p : CoM P α) (w : World P) : Prop :=
  p.Safe (Trans env dev) (Part env dev) Waits Post w w

def anyEnd {α : Type} : Except PyError α → World P → Prop := fun _ _ => True

section Basic

variable {env : Env P} {dev : Device P} {Waits : Request → Prop} {α β : Type}
  {Post : Except PyError α → World P → Prop} {w : World P}

theorem Quiet.setDrawn {s : Stores P} {n : Nat} (h : s.drawn ≤ n) : Quiet s (s.setDrawn n) :=
  ⟨rfl, rfl, rfl, rfl, rfl, h⟩

theorem trans_setDrawn {n : Nat} (h : w.drawn ≤ n) : Trans env dev w (w.put (.setDrawn n)) :=
  .quiet (.setDrawn h)

theorem moves_seq {p : CoM P β} {f : β → CoM P α} {Mid : Except PyError β → World P → Prop}
    (hp : Moves env dev Waits Mid p w)
    (hok : ∀ b w', Mid (.ok b) w' → Relation.ReflTransGen (Trans env dev) w w' →
      Moves env dev Waits Post (f b) w')
    (herr : ∀ e w', Mid (.error e) w' → Post (.error e) w') :
    Moves env dev Waits Post (p >>= f) w :=
  Co.Safe.seq (Co.Safe.reaches hp) (fun b w' h => hok b w' h.1 h.2) (fun e w' h => herr e w' h.1)

theorem moves_then {p : CoM P β} {f : β → CoM P α} (hp : Moves env dev Waits anyEnd p w)
    (hf : ∀ b w', Moves env dev Waits anyEnd (f b) w') :
    Moves env dev Waits anyEnd (p >>= f) w :=
  moves_seq hp (fun b w' _ _ => hf b w') (fun _ _ _ => trivial)

theorem moves_pure {a : α} (h : Post (.ok a) w) : Moves env dev Waits Post (pure a) w :=
  Co.Safe.pure h

theorem moves_raise {e : PyError} (h : Post (.error e) w) :
    Moves env dev Waits Post (Co.raise e) w := Co.Safe.raise h

theorem moves_lift {r : Except PyError α} (h : Post r w) :
    Moves env dev Waits Post (Co.lift r) w := Co.Safe.lift h

theorem moves_lift_bind {r : Except PyError β} {f : β → CoM P α}
    (hok : ∀ b, r = .ok b → Moves env dev Waits Post (f b) w)
    (herr : ∀ e, r = .error e → Post (.error e) w) :
    Moves env dev Waits Post (Co.lift r >>= f) w := by
  cases r with
  | ok b => exact hok b rfl
  | error e => exact moves_raise (herr e rfl)

theorem moves_get {f : World P → CoM P α} (h : Moves env dev Waits Post (f w) w) :
    Moves env dev Waits Post (Co.get >>= f) w := Co.Safe.get_bind h

theorem moves_update {f : Stores P → Stores P} {k : Unit → CoM P α}
    (hstep : Trans env dev w (w.put f)) (h : Moves env dev Waits Post (k ()) (w.put f)) :
    Moves env dev Waits Post (update f >>= k) w := Co.Safe.modify_bind hstep h

theorem moves_update_end {f : Stores P → Stores P} (hstep : Trans env dev w (w.put f)) :
    Moves env dev Waits anyEnd (update f) w := Co.Safe.modify hstep trivial

theorem moves_record {e : Event} {f : Stores P → Stores P} {k : Unit → CoM P α}
    (hstep : Trans env dev w (w.log e f)) (h : Moves env dev Waits Post (k ()) (w.log e f)) :
    Moves env dev Waits Post (record e f >>= k) w := Co.Safe.modify_bind hstep h

theorem moves_draw {source : Nat → β} {f : β → CoM P α}
    (h : Moves env dev Waits Post (f (source w.drawn)) (w.put (.setDrawn (w.drawn + 1)))) :
    Moves env dev Waits Post (draw source >>= f) w := by
  have hstep : Trans env dev w (w.put (.setDrawn (w.drawn + 1))) := trans_setDrawn (Nat.le_succ _)
  exact ⟨.of_steps (.single hstep), h.trans (.single hstep)⟩

theorem moves_wait {q : Request} (hq : Waits q) : Moves env dev Waits anyEnd (Co.wait q) w :=
  Co.Safe.wait hq fun _ _ _ => trivial

theorem moves_finally {p : CoM P α} {fin : CoM P Unit} (hp : Moves env dev Waits anyEnd p w)
    (hfin : ∀ w', Moves env dev Waits anyEnd fin w') :
    Moves env dev Waits anyEnd (Co.tryFinally p fin) w := by
  refine Co.Safe.tryFinally hp fun r t _ => Co.Safe.mono (hfin t) fun r' t' _ => ?_
  cases r' <;> trivial

theorem moves_catch {p : CoM P α} {h : PyError → CoM P α} (hp : Moves env dev Waits anyEnd p w)
    (hh : ∀ e w', Moves env dev Waits anyEnd (h e) w') :
    Moves env dev Waits anyEnd (Co.tryCatch p h) w :=
  Co.Safe.tryCatch hp (fun _ _ _ => trivial) fun e t _ => hh e t

theorem moves_ite {c : Prop} [Decidable c] {p q : CoM P α} (hp : c → Moves env dev Waits Post p w)
    (hq : ¬ c → Moves env dev Waits Post q w) :
    Moves env dev Waits Post (if c then p else q) w := by
  by_cases hc : c
  · rw [if_pos hc]
    exact hp hc
  · rw [if_neg hc]
    exact hq hc

theorem moves_guarded {p : CoM P Unit} (hp : Moves env dev Waits anyEnd p w) :
    Moves env dev Waits anyEnd (guarded p) w := by
  refine moves_catch hp fun e w' => ?_
  split
  · exact moves_pure trivial
  · exact moves_raise trivial

end Basic

section Futures

variable {env : Env P} {dev : Device P} {Waits : Request → Prop} {w : World P}

theorem moves_routerRegister (id : String) : Moves env dev Waits anyEnd (routerRegister id) w := by
  refine moves_get ?_
  split
  · exact moves_raise trivial
  · refine moves_update (.quiet ?_) (moves_pure trivial)
    exact ⟨rfl, rfl, rfl, rfl, rfl, Nat.le_refl _⟩

theorem moves_routerCancel (id : String) : Moves env dev Waits anyEnd (routerCancel id) w :=
  moves_update_end (.quiet ⟨rfl, rfl, rfl, rfl, rfl, Nat.le_refl _⟩)

theorem moves_routerResolve (id : String) (reply : AckReply) :
    Moves env dev Waits anyEnd (routerResolve id reply) w := by
  refine moves_update_end (.quiet ?_)
  split <;> exact ⟨rfl, rfl, rfl, rfl, rfl, Nat.le_refl _⟩

theorem moves_iqRegister (id : String) : Moves env dev Waits anyEnd (iqRegister id) w := by
  refine moves_get ?_
  split
  · exact moves_raise trivial
  · refine moves_update (.quiet ?_) (moves_pure trivial)
    exact ⟨rfl, rfl, rfl, rfl, rfl, Nat.le_refl _⟩

theorem moves_iqCancel (id : String) : Moves env dev Waits anyEnd (iqCancel id) w :=
  moves_update_end (.quiet ⟨rfl, rfl, rfl, rfl, rfl, Nat.le_refl _⟩)

theorem moves_iqResolve (id : String) (node : Node) :
    Moves env dev Waits anyEnd (iqResolve id node) w := by
  refine moves_update_end (.quiet ?_)
  split <;> exact ⟨rfl, rfl, rfl, rfl, rfl, Nat.le_refl _⟩

theorem moves_sendNode (hsend : ∀ frame, Waits (.send frame)) (node : Node) :
    Moves env dev Waits anyEnd (sendNode env node) w :=
  moves_lift_bind (fun _ _ => moves_wait (hsend _)) (fun _ _ => trivial)

theorem moves_queryIq (hsend : ∀ frame, Waits (.send frame)) (hiq : ∀ future, Waits (.iq future))
    (build : String → Node) : Moves env dev Waits anyEnd (queryIq env build) w := by
  refine moves_draw (moves_then (moves_iqRegister _) fun future w' => ?_)
  refine moves_finally (moves_then (moves_sendNode hsend _) fun _ w'' => ?_)
    (fun w'' => moves_iqCancel _)
  exact moves_wait (hiq _)

theorem moves_prekeyFetcher (hsend : ∀ frame, Waits (.send frame))
    (hiq : ∀ future, Waits (.iq future)) (peer : JID) :
    Moves env dev Waits anyEnd (prekeyFetcher env peer) w :=
  moves_then (moves_queryIq hsend hiq _) fun _ _ => moves_lift trivial

def keyedEnd : Except PyError DeviceMap → World P → Prop
  | .ok m, _ => m.Keyed
  | .error _, _ => True

theorem moves_usyncDeviceFetcher (hsend : ∀ frame, Waits (.send frame))
    (hiq : ∀ future, Waits (.iq future)) (users : List JID) :
    Moves env dev Waits keyedEnd (usyncDeviceFetcher env users) w := by
  refine moves_seq (moves_queryIq hsend hiq _) (fun result w' _ _ => moves_lift ?_) fun _ _ _ => trivial
  cases h : parseDeviceResult result (dedupeBaseUsers users) with
  | ok m => exact parseDeviceResult_keyed h
  | error e => trivial

end Futures

section Drop

variable {env : Env P} {dev : Device P} {Waits : Request → Prop} {w : World P}

def unpinnedEnd (sid : String) : Except PyError Unit → World P → Prop :=
  fun _ w => w.identities.get? sid = none

theorem moves_dropSession {sid : String} (j : String)
    (h : j = sid ∨ w.identities.get? sid = none) :
    Moves env dev Waits (unpinnedEnd sid) (dropSession j) w := by
  have hstep : Trans env dev w
    (((w.log (.drop j) (.dropSession j)).put (.dropMeta j)).put (.dropIdentity j)) := .drop
  refine ⟨⟨w, .refl, .inr .dropSession⟩, ⟨w, .refl, .inr .dropMeta⟩, .of_steps (.single hstep),
    .single hstep, ?_⟩
  change (w.identities.erase j).get? sid = none
  rw [OrderedMap.get?_erase]
  split
  · rfl
  · rename_i hne
    exact h.resolve_left (Ne.symm hne)

theorem moves_dropSessions {sid : String} (js : List JID) (h : w.identities.get? sid = none) :
    Moves env dev Waits (unpinnedEnd sid) (dropSessions js) w := by
  induction js generalizing w with
  | nil => exact moves_pure h
  | cons j js ih =>
    exact moves_seq (moves_dropSession _ (.inr h)) (fun _ w' hw' _ => ih hw') fun _ _ hw' => hw'

theorem moves_dropPeerSession (peer : JID) :
    Moves env dev Waits (unpinnedEnd (sessionId peer)) (dropPeerSession peer) w := by
  refine moves_get ?_
  obtain ⟨rest, hrest⟩ : ∃ rest, peerAndLidAlt w.lidMap peer = peer :: rest := by
    rw [peerAndLidAlt]
    split <;> exact ⟨_, rfl⟩
  rw [hrest]
  exact moves_seq (moves_dropSession _ (.inl rfl)) (fun _ w' hw' _ => moves_dropSessions rest hw')
    fun _ _ hw' => hw'

end Drop

section Encrypt

variable {env : Env P} {dev : Device P} {Waits : Request → Prop} {w : World P}

def producedEnd (env : Env P) (dev : Device P) (peer : JID) (plaintext : Bytes) :
    Except PyError (String × Bytes) → World P → Prop
  | .ok (_, ciphertext), w => ProducedFrom env dev w.history peer plaintext ciphertext
  | .error _, _ => True

theorem produced_wire {w : World P} {e : Encryption} {f : Stores P → Stores P} :
    producedEnd env dev e.peer e.plaintext (e.wire env dev) (w.log (.encrypt e) f) := by
  cases h : e.wire env dev with
  | error _ => trivial
  | ok out => exact ⟨w.toStores, e, out.1, List.mem_append_right _ List.mem_cons_self, rfl, rfl, h⟩

theorem moves_encryptOn {peer : JID} {plaintext : Bytes} {session : Session} {m : PeerSessionMeta}
    (hsession : w.sessions.get? (sessionId peer) = some session)
    (hmeta : w.peerMeta.get? (sessionId peer) = some m) :
    Moves env dev Waits (producedEnd env dev peer plaintext)
      (encryptOn env dev peer plaintext session m) w := by
  rw [encryptOn]
  cases h : ratchetEncrypt P plaintext (dev.identity.pub ++ m.peerIdentity) session.state with
  | error e _ => exact moves_raise trivial
  | ok out state =>
    exact moves_record (.encrypt (e := ⟨peer, plaintext, session, m, out.1, out.2.1, out.2.2⟩)
      hsession hmeta h) (moves_lift produced_wire)

def loadedEnd (sid : String) :
    Except PyError (Option (Session × PeerSessionMeta)) → World P → Prop
  | .ok (some (session, m)), w => w.sessions.get? sid = some session ∧ w.peerMeta.get? sid = some m
  | _, _ => True

theorem moves_loadForPeer (sid : String) :
    Moves env dev Waits (loadedEnd sid) (loadForPeer sid) w := by
  refine moves_get ?_
  split
  · exact moves_pure trivial
  · rename_i session hsession
    split
    · rename_i m hmeta
      exact moves_pure ⟨hsession, hmeta⟩
    · rename_i hmeta
      split
      · exact moves_pure trivial
      · rename_i cached hid
        refine moves_record (.rehydrate hsession hmeta hid) (moves_pure ⟨hsession, ?_⟩)
        simp [Stores.setMeta]

theorem InitiatorRun.Made.encrypts {generated : KeyPair P} {run : InitiatorRun}
    (h : run.Made dev generated) (plaintext ad : Bytes) :
    ∃ out state, ratchetEncrypt P plaintext ad run.start = .ok out state := by
  have hr := h.ratchet
  simp only [ratchetInitAlice, except_bind_ok] at hr
  obtain ⟨shared, _, hstart⟩ := hr
  have hck : run.start.cks = some (kdfRk P run.result.sharedSecret shared).2 := by
    rw [← Except.ok.inj hstart]
  exact ⟨_, _, ratchetEncrypt_eq hck _ _⟩

/-- Inside a burst that began in `s₀`. -/
theorem safe_draw {α β : Type} {Post : Except PyError α → World P → Prop} {s₀ s : World P}
    {source : Nat → β} {f : β → CoM P α}
    (hmid : Co.Amid (Trans env dev) (Part env dev) s₀ (s.put (.setDrawn (s.drawn + 1))))
    (h : (f (source s.drawn)).Safe (Trans env dev) (Part env dev) Waits Post s₀
      (s.put (.setDrawn (s.drawn + 1)))) :
    (draw source >>= f).Safe (Trans env dev) (Part env dev) Waits Post s₀ s := ⟨hmid, h⟩

theorem safe_record {α : Type} {Post : Except PyError α → World P → Prop} {s₀ s : World P}
    {e : Event} {g : Stores P → Stores P} {f : Unit → CoM P α}
    (hmid : Co.Amid (Trans env dev) (Part env dev) s₀ (s.log e g))
    (h : (f ()).Safe (Trans env dev) (Part env dev) Waits Post s₀ (s.log e g)) :
    (record e g >>= f).Safe (Trans env dev) (Part env dev) Waits Post s₀ s := ⟨hmid, h⟩

theorem safe_update {α : Type} {Post : Except PyError α → World P → Prop} {s₀ s : World P}
    {g : Stores P → Stores P} {f : Unit → CoM P α}
    (hmid : Co.Amid (Trans env dev) (Part env dev) s₀ (s.put g))
    (h : (f ()).Safe (Trans env dev) (Part env dev) Waits Post s₀ (s.put g)) :
    (update g >>= f).Safe (Trans env dev) (Part env dev) Waits Post s₀ s := ⟨hmid, h⟩

theorem safe_lift {α β : Type} {Post : Except PyError α → World P → Prop} {s₀ s : World P}
    {r : Except PyError β} {f : β → CoM P α}
    (hok : ∀ b, r = .ok b → (f b).Safe (Trans env dev) (Part env dev) Waits Post s₀ s)
    (herr : ∀ e, r = .error e →
      Relation.ReflTransGen (Trans env dev) s₀ s ∧ Post (.error e) s) :
    (Co.lift r >>= f).Safe (Trans env dev) (Part env dev) Waits Post s₀ s := by
  cases r with
  | ok b => exact hok b rfl
  | error e => exact herr e rfl

/-- Establishing a session draws two keys; the second starts the ratchet. -/
theorem safe_establish {α : Type} {Post : Except PyError α → World P → Prop}
    {bundle : PreKeyBundle} {f : InitiatorRun → CoM P α}
    (hok : ∀ run, run.bundle = bundle → run.Made dev (env.keyPair (w.drawn + 1)) →
      (f run).Safe (Trans env dev) (Part env dev) Waits Post w (w.put (.setDrawn (w.drawn + 2))))
    (herr : ∀ e w', Post (.error e) w') :
    Moves env dev Waits Post (establishSessionFromBundle env dev bundle >>= f) w := by
  have hdraw : Trans env dev w (w.put (.setDrawn (w.drawn + 1))) := trans_setDrawn (Nat.le_succ _)
  have hdraw' : Trans env dev w (w.put (.setDrawn (w.drawn + 2))) := trans_setDrawn (by omega)
  simp only [Moves, establishSessionFromBundle, bind_assoc, pure_bind]
  refine safe_draw (.of_steps (.single hdraw)) (safe_lift (fun result hx => ?_) fun e _ => ?_)
  · refine safe_draw (.of_steps (.single hdraw')) (safe_lift (fun state hr => ?_) fun e _ => ?_)
    · exact hok ⟨bundle, result, state⟩ rfl ⟨⟨_, hx⟩, hr⟩
    · exact ⟨.single hdraw', herr _ _⟩
  · exact ⟨.single hdraw, herr _ _⟩

theorem moves_initiate (peer : JID) (plaintext : Bytes) (bundle : PreKeyBundle) :
    Moves env dev Waits (producedEnd env dev peer plaintext) (do
      let run ← establishSessionFromBundle env dev bundle
      let m := run.peerMeta dev.registrationId
      record (.initiate (sessionId peer) run) (.setMeta (sessionId peer) m)
      update (.setIdentity (sessionId peer) m.peerIdentity)
      encryptOn env dev peer plaintext run.session m) w := by
  refine safe_establish (fun run _ hrun => ?_) fun _ _ => trivial
  obtain ⟨out, state, he⟩ := hrun.encrypts plaintext
    (dev.identity.pub ++ (run.peerMeta dev.registrationId).peerIdentity)
  have hstep : Trans env dev w _ := .initiate (i := w.drawn + 1) (n := w.drawn + 2)
    (e := ⟨peer, plaintext, run.session, run.peerMeta dev.registrationId, out.1, out.2.1, out.2.2⟩)
    (by omega) (by omega) hrun rfl rfl he
  refine safe_record ⟨w, .refl, .inr (.initiateMeta (by omega))⟩ ?_
  refine safe_update ⟨w, .refl, .inr (.initiateIdentity (by omega))⟩ ?_
  have hs : run.session.state = run.start := rfl
  rw [encryptOn, hs, he]
  exact safe_record (.of_steps (.single hstep)) ⟨.single hstep, produced_wire⟩

theorem moves_installBundle {peer : JID} {bundle : Option PreKeyBundle}
    (hreceipt : ∃ s messageId peer, (s, Event.resend messageId peer bundle) ∈ w.history)
    (hid : w.identities.get? (sessionId peer) = none) :
    Moves env dev Waits anyEnd (installBundle env dev peer bundle) w := by
  cases bundle with
  | none => exact moves_pure trivial
  | some bundle =>
    refine safe_establish (fun run hbundle hrun => ?_) fun _ _ => trivial
    have hstep : Trans env dev w _ := .install (i := w.drawn + 1) (n := w.drawn + 2)
      (by rwa [hbundle]) hid (by omega) (by omega) hrun
    refine safe_record ⟨w, .refl, .inr (.install (Nat.le_succ _) (Nat.lt_succ_self _) hrun)⟩ ?_
    exact ⟨.of_steps (.single hstep), .single hstep, trivial⟩

def FetchMoves (env : Env P) (dev : Device P) (Waits : Request → Prop)
    (fetchPrekeys : JID → CoM P PreKeyBundle) : Prop :=
  ∀ peer w, Moves env dev Waits anyEnd (fetchPrekeys peer) w

theorem moves_encryptForPeer {fetchPrekeys : JID → CoM P PreKeyBundle}
    (hfetch : FetchMoves env dev Waits fetchPrekeys) (peer : JID) (plaintext : Bytes) :
    Moves env dev Waits (producedEnd env dev peer plaintext)
      (encryptForPeer env dev fetchPrekeys peer plaintext) w := by
  refine moves_seq (moves_loadForPeer _) (fun loaded w' hloaded _ => ?_) fun _ _ _ => trivial
  cases loaded with
  | some sm => exact moves_encryptOn hloaded.1 hloaded.2
  | none =>
    exact moves_seq (hfetch peer w') (fun bundle w'' _ _ => moves_initiate peer plaintext bundle)
      fun _ _ _ => trivial

end Encrypt

section Stanzas

variable {env : Env P} {dev : Device P}

def Carries (env : Env P) (dev : Device P) (history : List (Stores P × Event))
    (body : JID → Bytes) (device : JID) (node : Node) : Prop :=
  ∃ kind ciphertext count mediatype decryptFail,
    node = buildParticipantNode device kind ciphertext count mediatype decryptFail ∧
      ProducedFrom env dev history device (body device) ciphertext

theorem participantOf_build (device : JID) (kind : String) (ciphertext : Bytes) (count : Option Int)
    (mediatype decryptFail : String) :
    participantOf (buildParticipantNode device kind ciphertext count mediatype decryptFail) =
      some (device, ciphertext) := rfl

theorem mem_participantCiphertexts {tag : String} {attrs : List (String × AttrValue)}
    {participants rest : List Node} {d : JID × Bytes}
    (h : d ∈ participantCiphertexts
      (.mk tag attrs (.nodes (.mk "participants" [] (.nodes participants) :: rest)))) :
    ∃ node ∈ participants, participantOf node = some d := by
  have hchild : Node.getChild (.mk tag attrs
      (.nodes (.mk "participants" [] (.nodes participants) :: rest))) "participants" =
      some (.mk "participants" [] (.nodes participants)) := by
    simp [Node.getChild, Node.getChildren, Node.children, Node.content, Node.tag]
  simp only [participantCiphertexts, hchild, List.mem_filterMap] at h
  obtain ⟨node, hmem, hd⟩ := h
  exact ⟨node, (List.mem_filter.mp hmem).1, hd⟩

theorem carried_of_mem {history : List (Stores P × Event)} {tag : String}
    {attrs : List (String × AttrValue)} {participants rest : List Node} {devices : List JID}
    {body : JID → Bytes} {d : JID × Bytes}
    (hcarry : ∀ node ∈ participants, ∃ device ∈ devices, Carries env dev history body device node)
    (h : d ∈ participantCiphertexts
      (.mk tag attrs (.nodes (.mk "participants" [] (.nodes participants) :: rest)))) :
    d.1 ∈ devices ∧ ProducedFrom env dev history d.1 (body d.1) d.2 := by
  obtain ⟨node, hmem, hd⟩ := mem_participantCiphertexts h
  obtain ⟨device, hdevice, kind, ciphertext, count, mediatype, decryptFail, rfl, hprod⟩ :=
    hcarry node hmem
  rw [participantOf_build] at hd
  cases hd
  exact ⟨hdevice, hprod⟩

theorem skmsgOf_build (messageId : String) (group : JID) (participants : List Node) (skmsg : Bytes) :
    skmsgOf (buildGroupMessageNode dev messageId group participants skmsg) = some skmsg := by
  simp only [skmsgOf, buildGroupMessageNode, deviceIdentityNodes]
  cases dev.advSignedDeviceIdentity with
  | none => rfl
  | some adv =>
    by_cases hadv : adv = []
    · simp [hadv, Node.getChild, Node.getChildren, Node.children, Node.content, Node.tag,
        Node.contentBytes]
    · simp [hadv, Node.getChild, Node.getChildren, Node.children, Node.content, Node.tag,
        Node.contentBytes]

end Stanzas

section Send

variable {env : Env P} {dev : Device P} {Waits : Request → Prop} {w : World P}
  {fetchPrekeys : JID → CoM P PreKeyBundle} {fetchDevices : List JID → CoM P DeviceMap}

def carriedEnd (env : Env P) (dev : Device P) (body : JID → Bytes) (devices : List JID) :
    Except PyError (List Node) → World P → Prop
  | .ok nodes, w => ∀ node ∈ nodes, ∃ d ∈ devices, Carries env dev w.history body d node
  | .error _, _ => True

theorem carriedEnd_cons {body : JID → Bytes} {device : JID} {devices : List JID}
    {nodes : List Node} {node : Node} (hnode : Carries env dev w.history body device node)
    (h : carriedEnd env dev body devices (.ok nodes) w) :
    carriedEnd env dev body (device :: devices) (.ok (node :: nodes)) w := by
  intro x hx
  rcases List.mem_cons.mp hx with rfl | hx
  · exact ⟨device, List.mem_cons_self, hnode⟩
  · obtain ⟨d, hd, hc⟩ := h x hx
    exact ⟨d, List.mem_cons_of_mem _ hd, hc⟩

/-- What `_send_once` encrypts for a device. -/
def Outgoing.bodyFor (msg : Outgoing) (dev : Device P) (device : JID) : Bytes :=
  if device.base = dev.ownJid.base then msg.ownPlaintext else msg.plaintext

theorem moves_encryptForDevices (hfetch : FetchMoves env dev Waits fetchPrekeys) (msg : Outgoing)
    (devices : List JID) :
    Moves env dev Waits (carriedEnd env dev (msg.bodyFor dev) devices)
      (encryptForDevices env dev fetchPrekeys msg devices) w := by
  induction devices generalizing w with
  | nil => exact moves_pure fun _ h => by cases h
  | cons device rest ih =>
    refine moves_seq (moves_encryptForPeer hfetch device _) (fun out w' hprod _ => ?_)
      fun _ _ _ => trivial
    refine moves_seq ih (fun nodes w'' hnodes hreach => moves_pure ?_) fun _ _ _ => trivial
    refine carriedEnd_cons ?_ hnodes
    exact ⟨_, _, _, _, _, rfl, ProducedFrom.mono hprod (history_mono hreach)⟩

def addresseesEnd (dev : Device P) (chat : JID) : Except PyError (List JID) → World P → Prop
  | .ok devices, _ => ∀ d ∈ devices, d.base = chat.base ∨ d.base = dev.ownJid.base
  | .error _, _ => True

theorem mem_devicesOf {m : DeviceMap} (hm : m.Keyed) {users : List JID} {d : JID}
    (h : d ∈ devicesOf m users) (hbase : ∀ u ∈ users, u.base = u) : d.base ∈ users := by
  obtain ⟨user, huser, hd⟩ := List.mem_flatMap.mp h
  cases hget : m.get? user with
  | none =>
    rw [hget] at hd
    rw [List.mem_singleton.mp hd, hbase user huser]
    exact huser
  | some entry =>
    rw [hget] at hd
    rw [hm user entry hget d hd]
    exact huser

def DevicesMove (env : Env P) (dev : Device P) (Waits : Request → Prop)
    (fetchDevices : List JID → CoM P DeviceMap) : Prop :=
  ∀ users w, Moves env dev Waits keyedEnd (fetchDevices users) w

theorem moves_targetDevices (hdev : DevicesMove env dev Waits fetchDevices) (chat : JID) :
    Moves env dev Waits (addresseesEnd dev chat) (targetDevices dev fetchDevices chat) w := by
  rw [targetDevices]
  split
  · refine moves_pure fun d hd => ?_
    rw [List.mem_singleton.mp hd]
    exact Or.inl rfl
  · refine moves_seq (hdev _ w) (fun m w' hm _ => moves_pure fun d hd => ?_) fun _ _ _ => trivial
    have hmem := mem_devicesOf hm (mem_dedupeDevices (List.mem_filter.mp hd).1) (by simp)
    simpa using hmem

theorem moves_transmit_logged (hsend : ∀ frame, Waits (.send frame)) {node : Node}
    {purpose : Purpose} {frame : Bytes} (h : Backed env dev w.history node purpose) :
    Moves env dev Waits (fun _ w' => ∃ s, (s, Event.transmit node purpose) ∈ w'.history)
      (transmit node purpose frame) w := by
  refine moves_record (.transmit h) (Co.Safe.wait (hsend _) fun _ w' hreach => ?_)
  exact ⟨w.toStores, (history_mono hreach).subset (List.mem_append_right _ List.mem_cons_self)⟩

theorem moves_transmit (hsend : ∀ frame, Waits (.send frame)) {node : Node} {purpose : Purpose}
    {frame : Bytes} (h : Backed env dev w.history node purpose) :
    Moves env dev Waits anyEnd (transmit node purpose frame) w :=
  Co.Safe.mono (moves_transmit_logged hsend h) fun _ _ _ => trivial

def dispatchedEnd (env : Env P) (dev : Device P) (msg : Outgoing) {α : Type} :
    Except PyError α → World P → Prop
  | .ok _, w => Dispatched env dev w.history msg.messageId msg.sent
  | .error _, _ => True

theorem sent_bodyFor {msg : Outgoing} (hown : msg.ownPlaintext ≠ []) :
    msg.sent.bodyFor dev = msg.bodyFor dev := by
  funext device
  have hown' : msg.sent.ownPlaintext ≠ [] := hown
  simp only [SentMessage.bodyFor, Outgoing.bodyFor, hown', ne_eq, not_false_eq_true, true_and]
  rfl

theorem moves_sendAttempt (hsend : ∀ frame, Waits (.send frame))
    (hack : ∀ future, Waits (.ack future)) (hfetch : FetchMoves env dev Waits fetchPrekeys)
    (hdev : DevicesMove env dev Waits fetchDevices) {msg : Outgoing}
    (hown : msg.ownPlaintext ≠ []) :
    Moves env dev Waits (dispatchedEnd env dev msg)
      (sendAttempt env dev fetchPrekeys fetchDevices msg) w := by
  refine moves_seq (moves_targetDevices hdev msg.chat) (fun devices w₁ haddr _ => ?_)
    fun _ _ _ => trivial
  refine moves_seq (moves_encryptForDevices hfetch msg devices) (fun nodes w₂ hcarry _ => ?_)
    fun _ _ _ => trivial
  refine moves_lift_bind (fun frame _ => ?_) fun _ _ => trivial
  refine moves_seq (moves_routerRegister _) (fun future w₃ _ hreach => ?_) fun _ _ _ => trivial
  have hcarried : ∀ d ∈ participantCiphertexts (buildMessageNode dev msg.messageId msg.chat.base
      nodes msg.messageType msg.edit), d.1 ∈ devices ∧
        ProducedFrom env dev w₃.history d.1 (msg.bodyFor dev d.1) d.2 := by
    intro d hd
    obtain ⟨hmem, hprod⟩ := carried_of_mem hcarry hd
    exact ⟨hmem, hprod.mono (history_mono hreach)⟩
  refine moves_seq (?_ : Moves env dev Waits (dispatchedEnd env dev msg) _ w₃)
    (fun _ _ hsent _ => moves_pure hsent) fun _ _ _ => trivial
  refine Co.Safe.tryCatch (?_ : Moves env dev Waits (dispatchedEnd env dev msg) _ w₃)
    (fun _ _ hsent => hsent) fun e w' _ => moves_seq (moves_routerCancel _)
      (fun _ _ _ _ => moves_raise trivial) fun _ _ _ => trivial
  refine moves_seq (moves_transmit_logged hsend fun d hd => ?_) (fun _ w₄ hlogged hreach₄ => ?_)
    fun _ _ _ => trivial
  · obtain ⟨hmem, hprod⟩ := hcarried d hd
    refine ⟨hprod.produced, ?_⟩
    rcases haddr d.1 hmem with h | h
    · exact Or.inl h
    · exact Or.inr (Or.inl h)
  · obtain ⟨s, hlogged⟩ := hlogged
    refine Co.Safe.wait (hack _) fun r w₅ hreach₅ => ?_
    cases r with
    | error e => trivial
    | ok reply =>
      refine ⟨s, _, (history_mono hreach₅).subset hlogged, rfl, fun d hd => ?_⟩
      rw [sent_bodyFor hown]
      exact (hcarried d hd).2.mono (history_mono (hreach₄.trans hreach₅))

theorem moves_sendOnce (hsend : ∀ frame, Waits (.send frame))
    (hack : ∀ future, Waits (.ack future)) (hfetch : FetchMoves env dev Waits fetchPrekeys)
    (hdev : DevicesMove env dev Waits fetchDevices) {msg : Outgoing}
    (hown : msg.ownPlaintext ≠ []) (retries : Nat) :
    Moves env dev Waits (dispatchedEnd env dev msg)
      (sendOnce env dev fetchPrekeys fetchDevices msg retries) w := by
  induction retries generalizing w with
  | zero =>
    refine moves_seq (moves_sendAttempt hsend hack hfetch hdev hown) (fun reply w' hsent _ => ?_)
      fun _ _ _ => trivial
    obtain ⟨reply, devices⟩ := reply
    cases reply with
    | ack => exact moves_pure hsent
    | retry attrs => exact moves_raise trivial
  | succ n ih =>
    refine moves_seq (moves_sendAttempt hsend hack hfetch hdev hown) (fun reply w' hsent _ => ?_)
      fun _ _ _ => trivial
    obtain ⟨reply, devices⟩ := reply
    cases reply with
    | ack => exact moves_pure hsent
    | retry attrs =>
      refine moves_lift_bind (fun peer _ => ?_) fun _ _ => trivial
      exact moves_seq (moves_dropPeerSession _) (fun _ _ _ _ => ih) fun _ _ _ => trivial

theorem moves_padRandomMax16 {α : Type} {Post : Except PyError α → World P → Prop}
    {plaintext : Bytes} {f : Bytes → CoM P α}
    (h : ∀ padded, padded ≠ [] →
      Moves env dev Waits Post (f padded) (w.put (.setDrawn (w.drawn + 1)))) :
    Moves env dev Waits Post (padRandomMax16 env plaintext >>= f) w := by
  simp only [padRandomMax16, bind_assoc, pure_bind]
  exact moves_draw (h _ (by simp))

theorem moves_sendMessage (hsend : ∀ frame, Waits (.send frame))
    (hack : ∀ future, Waits (.ack future)) (hfetch : FetchMoves env dev Waits fetchPrekeys)
    (hdev : DevicesMove env dev Waits fetchDevices) (chat : JID) (proto : Bytes) (text : String)
    (messageType edit : Option String) :
    Moves env dev Waits anyEnd
      (sendMessage env dev fetchPrekeys fetchDevices chat proto text messageType edit) w := by
  refine moves_draw (moves_padRandomMax16 fun plaintext _ => moves_padRandomMax16 fun own hown => ?_)
  refine moves_seq (moves_sendOnce hsend hack hfetch hdev hown _) (fun _ _ hsent _ => ?_)
    fun _ _ _ => trivial
  exact moves_update_end (.cacheSent hsent)

theorem moves_handleRetryReceipt (hsend : ∀ frame, Waits (.send frame))
    (hack : ∀ future, Waits (.ack future)) (hfetch : FetchMoves env dev Waits fetchPrekeys)
    (messageId : String) (peer : JID) (bundle : Option PreKeyBundle) (count : Int) :
    Moves env dev Waits anyEnd
      (handleRetryReceipt env dev fetchPrekeys messageId peer bundle count) w := by
  refine moves_get ?_
  split
  · exact moves_pure trivial
  · rename_i cached hcached
    split
    · exact moves_pure trivial
    · refine moves_record (.resend hcached) ?_
      refine moves_seq (moves_dropPeerSession peer) (fun _ w₁ hid hr₁ => ?_) fun _ _ _ => trivial
      have hreceipt : (w.toStores, Event.resend messageId peer bundle) ∈ w₁.history :=
        (history_mono hr₁).subset (List.mem_append_right _ List.mem_cons_self)
      refine moves_seq (moves_installBundle ⟨_, _, _, hreceipt⟩ hid) (fun _ w₂ _ hr₂ => ?_)
        fun _ _ _ => trivial
      refine moves_seq (moves_encryptForPeer hfetch peer _) (fun out w₃ hprod hr₃ => ?_)
        fun _ _ _ => trivial
      refine moves_seq (moves_routerRegister _) (fun future w₄ _ hr₄ => ?_) fun _ _ _ => trivial
      refine moves_finally (moves_catch ?_ fun e w' => ?_) fun w' => moves_routerCancel _
      · refine moves_lift_bind (fun frame _ => ?_) fun _ _ => trivial
        refine moves_then (moves_transmit hsend fun d hd => ?_) fun _ _ =>
          moves_then (moves_wait (hack _)) fun _ _ => moves_pure trivial
        have hcarry : ∀ node ∈ [buildParticipantNode peer out.1 out.2 (some count) cached.mediatype
            cached.decryptFail], ∃ device ∈ [peer],
              Carries env dev w₃.history (cached.bodyFor dev) device node := by
          intro node hnode
          rw [List.mem_singleton.mp hnode]
          exact ⟨peer, List.mem_cons_self, _, _, _, _, _, rfl, hprod⟩
        obtain ⟨hmem, hp⟩ := carried_of_mem hcarry hd
        rw [List.mem_singleton] at hmem
        refine ⟨(hp.mono (history_mono hr₄)).produced, Or.inr (Or.inr ⟨w.toStores, messageId,
          bundle, cached, ?_, hcached, rfl⟩)⟩
        rw [hmem]
        exact (history_mono ((hr₂.trans hr₃).trans hr₄)).subset hreceipt
      · split
        · exact moves_routerCancel _
        · exact moves_raise trivial

theorem moves_distributeTo (hfetch : FetchMoves env dev Waits fetchPrekeys) (plaintext : Bytes)
    (devices : List JID) :
    Moves env dev Waits (carriedEnd env dev (fun _ => plaintext) devices)
      (distributeTo env dev fetchPrekeys plaintext devices) w := by
  induction devices generalizing w with
  | nil => exact moves_pure fun _ h => by cases h
  | cons device rest ih =>
    rw [distributeTo]
    split
    · refine Co.Safe.mono ih fun r w' h => ?_
      cases r with
      | error e => trivial
      | ok nodes =>
        intro node hnode
        obtain ⟨d, hd, hc⟩ := h node hnode
        exact ⟨d, List.mem_cons_of_mem _ hd, hc⟩
    · refine moves_seq (moves_encryptForPeer hfetch device _) (fun out w' hprod _ => ?_)
        fun _ _ _ => trivial
      refine moves_seq ih (fun nodes w'' hnodes hreach => moves_pure ?_) fun _ _ _ => trivial
      refine carriedEnd_cons ?_ hnodes
      exact ⟨_, _, _, _, _, rfl, ProducedFrom.mono hprod (history_mono hreach)⟩

end Send

section Group

variable {env : Env P} {dev : Device P} {Waits : Request → Prop} {w : World P}
  {fetchPrekeys : JID → CoM P PreKeyBundle} {fetchDevices : List JID → CoM P DeviceMap}
  {α β : Type} {Post : Except PyError α → World P → Prop}

theorem safe_draw_at {k : Nat} {source : Nat → β} {f : β → CoM P α} (hk : w.drawn ≤ k)
    (h : (f (source k)).Safe (Trans env dev) (Part env dev) Waits Post w
      (w.put (.setDrawn (k + 1)))) :
    (draw source >>= f).Safe (Trans env dev) (Part env dev) Waits Post w (w.put (.setDrawn k)) :=
  safe_draw (.of_steps (.single (trans_setDrawn (show w.drawn ≤ k + 1 by omega)))) h

theorem safe_pad_at {k : Nat} {plaintext : Bytes} {f : Bytes → CoM P α} (hk : w.drawn ≤ k)
    (h : ∀ padded, (f padded).Safe (Trans env dev) (Part env dev) Waits Post w
      (w.put (.setDrawn (k + 1)))) :
    (padRandomMax16 env plaintext >>= f).Safe (Trans env dev) (Part env dev) Waits Post w
      (w.put (.setDrawn k)) := by
  simp only [padRandomMax16, bind_assoc, pure_bind]
  exact safe_draw_at hk (h _)

theorem safe_lift_at {k : Nat} {r : Except PyError β} {f : β → CoM P α} (hk : w.drawn ≤ k)
    (hok : ∀ b, r = .ok b → (f b).Safe (Trans env dev) (Part env dev) Waits Post w
      (w.put (.setDrawn k)))
    (herr : ∀ e w', Post (.error e) w') :
    (Co.lift r >>= f).Safe (Trans env dev) (Part env dev) Waits Post w (w.put (.setDrawn k)) :=
  safe_lift hok fun _ _ => ⟨.single (trans_setDrawn hk), herr _ _⟩

def OwnSenderKey (env : Env P) (dev : Device P) (w : World P) (group : JID) (n : Nat)
    (state : SenderKeyState) : Prop :=
  w.senderKeys.get? (group.str, sessionId dev.ownJid) = some state ∨
    (w.senderKeys.get? (group.str, sessionId dev.ownJid) = none ∧
      ∃ i keyId signing, w.drawn ≤ i ∧ i < n ∧
        state = createSenderKeyState (P := P) keyId signing (env.token i))

theorem safe_ownSenderKey {group : JID} {f : SenderKeyState → CoM P α}
    (h : ∀ state k, w.drawn ≤ k → OwnSenderKey env dev w group k state →
      (f state).Safe (Trans env dev) (Part env dev) Waits Post w (w.put (.setDrawn k))) :
    Moves env dev Waits Post (ownSenderKey env dev group >>= f) w := by
  simp only [ownSenderKey, bind_assoc]
  refine moves_get ?_
  split
  · rename_i state hstate
    exact h state w.drawn (Nat.le_refl _) (Or.inl hstate)
  · rename_i hnone
    simp only [bind_assoc, pure_bind]
    refine safe_draw_at (k := w.drawn) (Nat.le_refl _) ?_
    refine safe_draw_at (k := w.drawn + 1) (by omega) ?_
    exact h _ (w.drawn + 2) (by omega) (Or.inr ⟨hnone, w.drawn + 1, _, _, by omega, by omega, rfl⟩)

theorem moves_sendGroupText (hsend : ∀ frame, Waits (.send frame))
    (hack : ∀ future, Waits (.ack future)) (hfetch : FetchMoves env dev Waits fetchPrekeys)
    (hdev : DevicesMove env dev Waits fetchDevices) (group : JID) (text : String)
    (participants : List JID) :
    Moves env dev Waits anyEnd
      (sendGroupText env dev fetchPrekeys fetchDevices group text participants) w := by
  refine moves_draw (safe_ownSenderKey fun state k hk hstate => ?_)
  refine safe_lift_at hk (fun axolotl _ => ?_) fun _ _ => trivial
  refine safe_pad_at hk fun skd => safe_pad_at (by omega) fun content => ?_
  refine safe_draw_at (by omega) (safe_lift_at (by omega) (fun out henc => ?_) fun _ _ => trivial)
  obtain ⟨skmsg, state'⟩ := out
  have hstate' : OwnSenderKey env dev (w.put (.setDrawn (w.drawn + 1))) group (k + 3) state := by
    rcases hstate with h | ⟨hnone, i, keyId, signing, hi, hik, hs⟩
    · exact Or.inl h
    · exact Or.inr ⟨hnone, i, keyId, signing, hi, by omega, hs⟩
  have hstep : Trans env dev _ _ := .groupEncrypt (n := k + 3) (by omega) hstate' henc
  refine safe_record (.of_steps (.single hstep)) (Co.Safe.trans (.single hstep) ?_)
  refine moves_seq (hdev _ _) (fun deviceMap w₁ _ hr₁ => ?_) fun _ _ _ => trivial
  refine moves_seq (moves_distributeTo hfetch _ _) (fun nodes w₂ hcarry hr₂ => ?_)
    fun _ _ _ => trivial
  refine moves_seq (moves_routerRegister _) (fun future w₃ _ hr₃ => ?_) fun _ _ _ => trivial
  refine moves_finally (moves_lift_bind (fun frame _ => ?_) fun _ _ => trivial)
    fun w' => moves_routerCancel _
  refine moves_then (moves_transmit hsend ⟨fun d hd => ?_, ?_⟩) fun _ _ =>
    moves_then (moves_wait (hack _)) fun _ _ => moves_pure trivial
  · exact ((carried_of_mem hcarry hd).2.mono (history_mono hr₃)).produced
  · refine ⟨((w.put (.setDrawn (w.drawn + 1))).put (.setDrawn (k + 3))).toStores, group.str, state,
      skmsg, ?_, skmsgOf_build _ _ _ _⟩
    refine (history_mono ((hr₁.trans hr₂).trans hr₃)).subset ?_
    exact List.mem_append_right _ List.mem_cons_self

end Group

section Decrypt

variable {env : Env P} {dev : Device P} {Waits : Request → Prop} {w : World P} {α : Type}
  {Post : Except PyError α → World P → Prop}

theorem moves_migratePnSessionToLid {pn lid : JID} (hpn : pn.server = "s.whatsapp.net")
    (hlid : lid.server = "lid") :
    Moves env dev Waits anyEnd (migratePnSessionToLid pn lid) w := by
  refine moves_get ?_
  split
  · rename_i session hsession hnone
    exact Co.Safe.modify (Trans.migrate hpn hlid hsession hnone) trivial
  · exact moves_pure trivial

theorem moves_migrateKnownLidSender (sender : JID) :
    Moves env dev Waits anyEnd (migrateKnownLidSender sender) w := by
  refine moves_get ?_
  split
  · exact moves_pure trivial
  · rename_i hlid
    split
    · exact moves_pure trivial
    · refine moves_migratePnSessionToLid rfl ?_
      by_contra hne
      exact hlid (Or.inl hne)

theorem moves_lookup {keyId : Option Nat} {f : Option (OneTimePreKey P) → CoM P α}
    (h : ∀ opk, Moves env dev Waits Post (f opk) w) (herr : ∀ e w', Post (.error e) w') :
    Moves env dev Waits Post (lookupOneTimePreKey keyId >>= f) w := by
  cases keyId with
  | none => exact h none
  | some id =>
    simp only [lookupOneTimePreKey, bind_assoc]
    refine moves_get ?_
    cases w.prekeys.get? id with
    | none => exact moves_raise (herr _ _)
    | some opk => exact h (some opk)

/-- Up to the transaction that stores the new session. -/
theorem safe_decryptPkmsg {channel : Channel} {sender : JID} {ciphertext : Bytes}
    {f : Bytes → CoM P α}
    (h : ∀ plaintext opk start state identityKey,
      (∃ secret priv pub, start = ratchetInitBob secret priv pub) →
      Decrypts P (env.keyPair w.drawn) start state →
      Co.Amid (Trans env dev) (Part env dev) w
        (w.acceptedPrekey (w.drawn + 1) (sessionId sender) opk start state identityKey channel) ∧
      (f plaintext).Safe (Trans env dev) (Part env dev) Waits Post w
        (w.acceptedPrekey (w.drawn + 1) (sessionId sender) opk start state identityKey channel))
    (herr : ∀ e w', Post (.error e) w') :
    Moves env dev Waits Post (decryptPkmsg env dev channel sender ciphertext >>= f) w := by
  simp only [decryptPkmsg, bind_assoc]
  refine moves_lift_bind (fun pkmsg _ => ?_) fun _ _ => herr _ _
  refine moves_lift_bind (fun spk _ => ?_) fun _ _ => herr _ _
  refine moves_lookup (fun opk => ?_) herr
  refine moves_lift_bind (fun result _ => ?_) fun _ _ => herr _ _
  have hdraw : Trans env dev w (w.put (.setDrawn (w.drawn + 1))) := trans_setDrawn (Nat.le_succ _)
  refine safe_draw (.of_steps (.single hdraw)) ?_
  split
  · exact ⟨.single hdraw, herr _ _⟩
  · rename_i plaintext state hdec
    obtain ⟨hmid, hsafe⟩ := h plaintext pkmsg.oneTimePreKeyId _ state pkmsg.identityKey
      ⟨_, _, _, rfl⟩ ⟨_, _, _, _, _, hdec⟩
    simp only [bind_assoc, pure_bind]
    exact safe_record hmid hsafe

theorem safe_decryptMsg {channel : Channel} {sender : JID} {ciphertext : Bytes}
    {f : Bytes → CoM P α}
    (h : ∀ plaintext session state, w.sessions.get? (sessionId sender) = some session →
      Decrypts P (env.keyPair w.drawn) session.state state →
      Co.Amid (Trans env dev) (Part env dev) w
        (w.acceptedMessage (w.drawn + 1) (sessionId sender) session state channel) ∧
      (f plaintext).Safe (Trans env dev) (Part env dev) Waits Post w
        (w.acceptedMessage (w.drawn + 1) (sessionId sender) session state channel))
    (herr : ∀ e w', Post (.error e) w') :
    Moves env dev Waits Post (decryptMsg env dev channel sender ciphertext >>= f) w := by
  simp only [decryptMsg, bind_assoc]
  refine moves_get ?_
  split
  · exact moves_raise (herr _ _)
  · rename_i session hsession
    split
    · exact moves_raise (herr _ _)
    · simp only [bind_assoc]
      refine moves_lift_bind (fun inner _ => ?_) fun _ _ => herr _ _
      have hdraw : Trans env dev w (w.put (.setDrawn (w.drawn + 1))) :=
        trans_setDrawn (Nat.le_succ _)
      refine safe_draw (.of_steps (.single hdraw)) ?_
      split
      · exact ⟨.single hdraw, herr _ _⟩
      · rename_i plaintext state hdec
        obtain ⟨hmid, hsafe⟩ := h plaintext session state hsession ⟨_, _, _, _, _, hdec⟩
        simp only [bind_assoc, pure_bind]
        exact safe_record hmid hsafe

theorem moves_decryptEnc_group (sender : JID) (encType : String) (ciphertext : Bytes) :
    Moves env dev Waits anyEnd (decryptEnc env dev .group sender encType ciphertext) w := by
  refine moves_then (moves_migrateKnownLidSender sender) fun _ w' => ?_
  split
  · rw [← bind_pure (decryptPkmsg env dev .group sender ciphertext)]
    refine safe_decryptPkmsg (fun _ opk start state identityKey hstart hdec => ?_) fun _ _ => trivial
    have hstep : Trans env dev w' (w'.acceptedPrekey (w'.drawn + 1) (sessionId sender) opk start state
        identityKey .group) := .acceptPrekey (Nat.le_refl _) (Nat.lt_succ_self _) hstart hdec
    exact ⟨.of_steps (.single hstep), .single hstep, trivial⟩
  · split
    · rw [← bind_pure (decryptMsg env dev .group sender ciphertext)]
      refine safe_decryptMsg (fun _ session state hsession hdec => ?_) fun _ _ => trivial
      have hstep : Trans env dev w' _ :=
        .acceptMessage (Nat.le_refl _) (Nat.lt_succ_self _) hsession hdec
      exact ⟨.of_steps (.single hstep), .single hstep, trivial⟩
    · exact moves_raise trivial

theorem safe_notes {s₀ v : World P} {js : List JID} {f : Unit → CoM P α}
    (hmid : ∀ ns, Co.Amid (Trans env dev) (Part env dev) s₀ (v.noted ns))
    (h : (f ()).Safe (Trans env dev) (Part env dev) Waits Post s₀ (v.noted js)) :
    (noteSessions js >>= f).Safe (Trans env dev) (Part env dev) Waits Post s₀ v := by
  induction js generalizing v with
  | nil => exact h
  | cons j js ih =>
    simp only [noteSessions, bind_assoc]
    exact safe_record (hmid [j]) (ih (fun ns => hmid (j :: ns)) h)

theorem safe_noteIncomingDecrypted {s₀ v : World P} {peer : JID} {f : Unit → CoM P α}
    (hmid : ∀ ns, Co.Amid (Trans env dev) (Part env dev) s₀ (v.noted ns))
    (h : (f ()).Safe (Trans env dev) (Part env dev) Waits Post s₀
      (v.noted (peerAndLidAlt v.lidMap peer))) :
    (noteIncomingDecrypted peer >>= f).Safe (Trans env dev) (Part env dev) Waits Post s₀ v := by
  simp only [noteIncomingDecrypted, bind_assoc]
  exact ⟨hmid [], safe_notes hmid h⟩

/-- Decrypting a 1:1 ciphertext and telling the sender is one transition. -/
theorem moves_decryptDirect (sender : JID) (encType : String) (ciphertext : Bytes) :
    Moves env dev Waits anyEnd (decryptDirect env dev sender encType ciphertext) w := by
  refine moves_catch ?_ fun e w' => moves_pure trivial
  simp only [decryptEnc, bind_assoc]
  refine moves_then (moves_migrateKnownLidSender sender) fun _ w' => ?_
  split
  · refine safe_decryptPkmsg (fun _ opk start state identityKey hstart hdec => ?_) fun _ _ => trivial
    have hstep : Trans env dev w' ((w'.acceptedPrekey (w'.drawn + 1) (sessionId sender) opk start state
        identityKey .direct).noted (peerAndLidAlt w'.lidMap sender)) :=
      .acceptPrekeyNoted (Nat.le_refl _) (Nat.lt_succ_self _) hstart hdec
    have hmid : ∀ ns, Co.Amid (Trans env dev) (Part env dev) w' ((w'.acceptedPrekey (w'.drawn + 1)
        (sessionId sender) opk start state identityKey .direct).noted ns) := fun ns =>
      ⟨w', .refl, .inr (.acceptPrekey (Nat.le_refl _) (Nat.lt_succ_self _) hstart hdec ns)⟩
    exact ⟨hmid [], safe_noteIncomingDecrypted hmid ⟨.single hstep, trivial⟩⟩
  · split
    · refine safe_decryptMsg (fun _ session state hsession hdec => ?_) fun _ _ => trivial
      have hstep : Trans env dev w' _ :=
        .acceptMessageNoted (Nat.le_refl _) (Nat.lt_succ_self _) hsession hdec
      have hmid : ∀ ns, Co.Amid (Trans env dev) (Part env dev) w' ((w'.acceptedMessage
          (w'.drawn + 1) (sessionId sender) session state .direct).noted ns) := fun ns =>
        ⟨w', .refl, .inr (.acceptMessage (Nat.le_refl _) (Nat.lt_succ_self _) hsession hdec ns)⟩
      exact ⟨hmid [], safe_noteIncomingDecrypted hmid ⟨.single hstep, trivial⟩⟩
    · exact moves_raise trivial

end Decrypt

section Handlers

variable {env : Env P} {dev : Device P} {Waits : Request → Prop} {w : World P}

theorem moves_quiet {f : Stores P → Stores P} (h : Quiet w.toStores (f w.toStores)) :
    Moves env dev Waits anyEnd (update f) w := moves_update_end (.quiet h)

theorem moves_recordPeerAddressing (node : Node) (sender : JID) :
    Moves env dev Waits anyEnd (recordPeerAddressing node sender) w := by
  rw [recordPeerAddressing]
  split
  · refine moves_lift_bind (fun alt _ => ?_) fun _ _ => trivial
    split
    · exact moves_quiet ⟨rfl, rfl, rfl, rfl, rfl, Nat.le_refl _⟩
    · exact moves_pure trivial
  · split
    · refine moves_lift_bind (fun alt _ => ?_) fun _ _ => trivial
      split
      · exact moves_quiet ⟨rfl, rfl, rfl, rfl, rfl, Nat.le_refl _⟩
      · exact moves_pure trivial
    · exact moves_pure trivial

theorem moves_safeEmit (hemit : ∀ event, Waits (.emit event)) (event : Emitted) :
    Moves env dev Waits anyEnd (safeEmit event) w := moves_guarded (moves_wait (hemit _))

theorem moves_sendDeliveryReceipt (hsend : ∀ frame, Waits (.send frame)) (node : Node) (dest : JID) :
    Moves env dev Waits anyEnd (sendDeliveryReceipt env node dest) w :=
  moves_guarded (moves_sendNode hsend _)

theorem moves_sendRetryReceipt (hsend : ∀ frame, Waits (.send frame)) (node : Node) (sender : JID) :
    Moves env dev Waits anyEnd (sendRetryReceipt env dev node sender) w := by
  rw [sendRetryReceipt]
  split
  · exact moves_pure trivial
  · exact moves_lift_bind (fun _ _ => moves_sendNode hsend _) fun _ _ => trivial

theorem moves_handleEditOrRevoke (hsend : ∀ frame, Waits (.send frame))
    (hemit : ∀ event, Waits (.emit event)) (proto : Bytes) (chat sender : JID) (timestamp : Int)
    (node : Node) :
    Moves env dev Waits anyEnd (handleEditOrRevoke env proto chat sender timestamp node) w := by
  rw [handleEditOrRevoke]
  split
  · exact moves_then (moves_safeEmit hemit _) fun _ _ =>
      moves_then (moves_sendDeliveryReceipt hsend _ _) fun _ _ => moves_pure trivial
  · exact moves_then (moves_safeEmit hemit _) fun _ _ =>
      moves_then (moves_sendDeliveryReceipt hsend _ _) fun _ _ => moves_pure trivial
  · exact moves_pure trivial

theorem moves_handleProtocolMessage (proto : Bytes) (sender : JID) :
    Moves env dev Waits anyEnd (handleProtocolMessage env dev proto sender) w := by
  rw [handleProtocolMessage]
  split
  · exact moves_quiet ⟨rfl, rfl, rfl, rfl, rfl, Nat.le_refl _⟩
  · exact moves_pure trivial

theorem moves_dispatchPlaintext (hsend : ∀ frame, Waits (.send frame))
    (hemit : ∀ event, Waits (.emit event)) (node : Node) (sender : JID) (plaintext : Bytes) :
    Moves env dev Waits anyEnd (dispatchPlaintext env dev node sender plaintext) w := by
  rw [dispatchPlaintext]
  split
  · exact moves_safeEmit hemit _
  · split
    · exact moves_safeEmit hemit _
    · split
      · exact moves_then (moves_safeEmit hemit _) fun _ _ => moves_sendDeliveryReceipt hsend _ _
      · refine moves_then (moves_handleEditOrRevoke hsend hemit _ _ _ _ _) fun handled _ => ?_
        split
        · exact moves_pure trivial
        · exact moves_then (moves_handleProtocolMessage _ _) fun _ _ =>
            moves_then (moves_safeEmit hemit _) fun _ _ => moves_sendDeliveryReceipt hsend _ _

theorem processDistributionMessage_verifies {pb : Protobuf} {data : Bytes} {state : SenderKeyState}
    (h : processDistributionMessage pb data = .ok state) : state.signingPrivate = none := by
  rw [processDistributionMessage] at h
  split at h
  · cases h
  · obtain ⟨_, _, h⟩ := except_bind_ok.mp h
    cases h
    rfl

theorem moves_ingestGroupSkdm (enc : Node) (group participant : JID) :
    Moves env dev Waits anyEnd (ingestGroupSkdm env dev enc group participant) w := by
  refine moves_then (moves_catch (moves_then (moves_decryptEnc_group _ _ _) fun _ _ =>
    moves_pure trivial) fun _ _ => moves_pure trivial) fun result w' => ?_
  split
  · exact moves_pure trivial
  · split
    · exact moves_pure trivial
    · split
      · exact moves_pure trivial
      · split
        · exact moves_pure trivial
        · split
          · exact moves_pure trivial
          · rename_i state hstate
            exact moves_update_end (.learnSenderKey (processDistributionMessage_verifies hstate))

theorem moves_ingestAll (group participant : JID) (encs : List Node) :
    Moves env dev Waits anyEnd (ingestAll env dev group participant encs) w := by
  induction encs generalizing w with
  | nil => exact moves_pure trivial
  | cons enc rest ih =>
    rw [ingestAll]
    split
    · exact moves_then (moves_ingestGroupSkdm _ _ _) fun _ _ => ih
    · exact ih

theorem moves_decryptSkmsg (group participant : JID) (skmsg : Bytes) :
    Moves env dev Waits anyEnd (decryptSkmsg env group participant skmsg) w := by
  refine moves_get ?_
  split
  · exact moves_pure trivial
  · rename_i state hstate
    split
    · exact moves_pure trivial
    · rename_i plaintext state' hdec
      obtain ⟨n, rfl⟩ := groupDecrypt_inv hdec
      refine moves_update (.advanceSenderKey hstate) ?_
      split <;> exact moves_pure trivial

theorem moves_handleGroupMessage (hsend : ∀ frame, Waits (.send frame))
    (hemit : ∀ event, Waits (.emit event)) (node : Node) (group : JID) :
    Moves env dev Waits anyEnd (handleGroupMessage env dev node group) w := by
  refine moves_lift_bind (fun participant _ => ?_) fun _ _ => trivial
  refine moves_then (moves_ingestAll _ _ _) fun _ _ => ?_
  split
  · exact moves_pure trivial
  · refine moves_then (moves_decryptSkmsg _ _ _) fun result _ => ?_
    split
    · exact moves_safeEmit hemit _
    · exact moves_safeEmit hemit _
    · exact moves_then (moves_safeEmit hemit _) fun _ _ => moves_sendDeliveryReceipt hsend _ _

theorem moves_handleMessage (hsend : ∀ frame, Waits (.send frame))
    (hemit : ∀ event, Waits (.emit event)) (node : Node) :
    Moves env dev Waits anyEnd (handleMessage env dev node) w := by
  refine moves_lift_bind (fun sender _ => ?_) fun _ _ => trivial
  split
  · exact moves_handleGroupMessage hsend hemit _ _
  · split
    · exact moves_pure trivial
    · refine moves_then (moves_recordPeerAddressing _ _) fun _ _ => ?_
      refine moves_lift_bind (fun enc _ => ?_) fun _ _ => trivial
      split
      · exact moves_pure trivial
      · refine moves_then (moves_decryptDirect _ _ _) fun result _ => ?_
        split
        · exact moves_then (moves_safeEmit hemit _) fun _ _ =>
            moves_guarded (moves_sendRetryReceipt hsend _ _)
        · exact moves_dispatchPlaintext hsend hemit _ _ _

theorem moves_handleAck (node : Node) : Moves env dev Waits anyEnd (handleAck node) w := by
  rw [handleAck]
  split
  · exact moves_pure trivial
  · split <;> exact moves_routerResolve _ _

theorem moves_handleIq (hsend : ∀ frame, Waits (.send frame)) (node : Node) :
    Moves env dev Waits anyEnd (handleIq env node) w := by
  rw [handleIq]
  split
  · exact moves_pure trivial
  · split
    · exact moves_iqResolve _ _
    · exact moves_sendNode hsend _

theorem moves_handleIb (hsend : ∀ frame, Waits (.send frame)) (children : List Node) :
    Moves env dev Waits anyEnd (handleIb env children) w := by
  induction children generalizing w with
  | nil => exact moves_pure trivial
  | cons child rest ih =>
    rw [handleIb]
    split
    · exact moves_then (moves_guarded (moves_sendNode hsend _)) fun _ _ => ih
    · exact ih

theorem moves_emitLoggedOut (hemit : ∀ event, Waits (.emit event)) (code : String) :
    Moves env dev Waits anyEnd (emitLoggedOut code) w := by
  rw [emitLoggedOut]
  split
  · exact moves_safeEmit hemit _
  · exact moves_pure trivial

variable {fetchPrekeys : JID → CoM P PreKeyBundle}

theorem moves_handleReceipt (hsend : ∀ frame, Waits (.send frame))
    (hemit : ∀ event, Waits (.emit event))
    (hretry : ∀ messageId peer bundle count w, Moves env dev Waits anyEnd
      (handleRetryReceipt env dev fetchPrekeys messageId peer bundle count) w) (node : Node) :
    Moves env dev Waits anyEnd (handleReceipt env dev fetchPrekeys node) w := by
  rw [handleReceipt]
  split
  · exact moves_lift_bind (fun _ _ => moves_then (moves_safeEmit hemit _) fun _ _ =>
      moves_sendNode hsend _) fun _ _ => trivial
  · refine moves_lift_bind (fun peer _ => ?_) fun _ _ => trivial
    split
    · exact moves_then (hretry _ _ _ _ _) fun _ _ => moves_sendNode hsend _
    · exact moves_sendNode hsend _

/-- Every stanza but a receipt, and a receipt if its handler moves well. -/
theorem moves_handleNode (hsend : ∀ frame, Waits (.send frame))
    (hemit : ∀ event, Waits (.emit event)) {node : Node}
    (hreceipt : node.tag = "receipt" →
      Moves env dev Waits anyEnd (handleReceipt env dev fetchPrekeys node) w) :
    Moves env dev Waits anyEnd (handleNode env dev fetchPrekeys node) w := by
  refine moves_ite (fun _ => moves_handleMessage hsend hemit _) fun _ => ?_
  refine moves_ite (fun _ => moves_handleAck _) fun _ => ?_
  refine moves_ite (fun _ => moves_handleIq hsend _) fun _ => ?_
  refine moves_ite hreceipt fun _ => ?_
  refine moves_ite (fun _ => moves_quiet ⟨rfl, rfl, rfl, rfl, rfl, Nat.le_refl _⟩) fun _ => ?_
  refine moves_ite (fun _ => moves_handleIb hsend _) fun _ => ?_
  refine moves_ite (fun _ => ?_) fun _ => ?_
  · exact moves_lift_bind (fun _ _ => moves_safeEmit hemit _) fun _ _ => trivial
  refine moves_ite (fun _ => ?_) fun _ => ?_
  · exact moves_lift_bind (fun _ _ => moves_safeEmit hemit _) fun _ _ => trivial
  refine moves_ite (fun _ => ?_) fun _ => ?_
  · refine moves_ite (fun _ => ?_) fun _ => moves_sendNode hsend _
    exact moves_then (moves_quiet ⟨rfl, rfl, rfl, rfl, rfl, Nat.le_refl _⟩) fun _ _ =>
      moves_sendNode hsend _
  refine moves_ite (fun _ => moves_emitLoggedOut hemit _) fun _ => ?_
  exact moves_ite (fun _ => moves_emitLoggedOut hemit _) fun _ => moves_pure trivial

end Handlers

end PyWhats
