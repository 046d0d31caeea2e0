import PyWhats.Client

/-! The stores seen from one session id: its session, its pinned identity and the
sender's metadata. A transition changes such a slot in one of a few ways, and
these are what the invariants of sessions are proved against. -/

namespace PyWhats

variable {P : Primitives}

@[ext] structure Slot where
  session : Option Session
  identity : Option Bytes
  peerMeta : Option PeerSessionMeta

def Stores.slot (s : Stores P) (sid : String) : Slot :=
  ⟨s.sessions.get? sid, s.identities.get? sid, s.peerMeta.get? sid⟩

def PeerSessionMeta.acknowledged (m : PeerSessionMeta) : PeerSessionMeta :=
  { m with pendingPrekey := none }

def Slot.acknowledged (x : Slot) : Slot :=
  ⟨x.session, x.identity, x.peerMeta.map .acknowledged⟩

theorem Slot.acknowledged_twice (x : Slot) : x.acknowledged.acknowledged = x.acknowledged := by
  obtain ⟨session, identity, m⟩ := x
  cases m <;> rfl

/-- Only a message on the direct path is reported to the sender. -/
def Slot.told (x : Slot) : Channel → Slot
  | .group => x
  | .direct => x.acknowledged

/-- One call of the ratchet that succeeded. -/
def RatchetAdvance (P : Primitives) (state state' : RatchetState) : Prop :=
  (∃ plaintext ad out, ratchetEncrypt P plaintext ad state = .ok out state') ∨
    ∃ generated, Decrypts P generated state state'

def IsPn (sid : String) : Prop := ∃ pn : JID, pn.server = "s.whatsapp.net" ∧ sid = sessionId pn

def IsLid (sid : String) : Prop := ∃ lid : JID, lid.server = "lid" ∧ sid = sessionId lid

theorem sessionId_getLast {jid : JID} {c : Char} (h : jid.server.toList.getLast? = some c) :
    (sessionId jid).toList.getLast? = some c := by
  rw [sessionId, String.toList_append, List.getLast?_append, h]
  rfl

/-- No session id is both a phone number's and a LID's. -/
theorem IsLid.not_isPn {sid : String} (h : IsLid sid) : ¬ IsPn sid := by
  obtain ⟨lid, hlid, rfl⟩ := h
  rintro ⟨pn, hpn, heq⟩
  have hd := sessionId_getLast (show lid.server.toList.getLast? = some 'd' by rw [hlid]; decide)
  have ht := sessionId_getLast (show pn.server.toList.getLast? = some 't' by rw [hpn]; decide)
  rw [heq, ht] at hd
  cases hd

section Writes

variable (s : Stores P) (a sid : String)

theorem slot_setSession (x : Session) : (s.setSession a x).slot sid =
    if sid = a then { s.slot sid with session := some x } else s.slot sid := by
  by_cases h : sid = a <;> simp [Stores.slot, Stores.setSession, OrderedMap.get?_set, h]

theorem slot_setIdentity (x : Bytes) : (s.setIdentity a x).slot sid =
    if sid = a then { s.slot sid with identity := some x } else s.slot sid := by
  by_cases h : sid = a <;> simp [Stores.slot, Stores.setIdentity, OrderedMap.get?_set, h]

theorem slot_setMeta (x : PeerSessionMeta) : (s.setMeta a x).slot sid =
    if sid = a then { s.slot sid with peerMeta := some x } else s.slot sid := by
  by_cases h : sid = a <;> simp [Stores.slot, Stores.setMeta, OrderedMap.get?_set, h]

theorem slot_drop : (((s.dropSession a).dropMeta a).dropIdentity a).slot sid =
    if sid = a then ⟨none, none, none⟩ else s.slot sid := by
  by_cases h : sid = a <;>
    simp [Stores.slot, Stores.dropSession, Stores.dropMeta, Stores.dropIdentity,
      OrderedMap.get?_erase, h]

theorem slot_note : (s.note a).slot sid =
    if sid = a then (s.slot sid).acknowledged else s.slot sid := by
  cases h : s.peerMeta.get? a with
  | none => by_cases hs : sid = a <;> simp [Stores.slot, Slot.acknowledged, Stores.note, h, hs]
  | some m =>
    by_cases hs : sid = a <;>
      simp [Stores.slot, Slot.acknowledged, Stores.note, Stores.setMeta, OrderedMap.get?_set, h, hs,
        PeerSessionMeta.acknowledged]

theorem slot_acceptPrekey (opk : Option Nat) (x : Session) (identity : Bytes) :
    (s.acceptPrekey a opk x identity).slot sid =
      if sid = a then ⟨some x, some identity, (s.slot sid).peerMeta⟩ else s.slot sid := by
  by_cases h : sid = a <;> simp [Stores.slot, Stores.acceptPrekey, OrderedMap.get?_set, h]

theorem slot_migrate {pn lid : String} (hne : lid ≠ pn) (x : Session) :
    (s.migrate pn lid x).slot sid =
      if sid = pn then ⟨none, none, (s.slot sid).peerMeta⟩
      else if sid = lid then
        ⟨some x, (s.slot pn).identity.or (s.slot sid).identity, (s.slot sid).peerMeta⟩
      else s.slot sid := by
  by_cases hp : sid = pn
  · simp [Stores.slot, Stores.migrate, hp]
  · cases hi : s.identities.get? pn <;> by_cases hl : sid = lid <;>
      simp [Stores.slot, Stores.migrate, OrderedMap.get?_erase, OrderedMap.get?_set, hp, hl, hi, hne]

theorem slot_of_quiet {s s' : Stores P} (h : Quiet s s') (sid : String) : s'.slot sid = s.slot sid := by
  simp only [Stores.slot, h.sessions, h.identities, h.peerMeta]

end Writes

theorem noted_sessions (w : World P) (js : List JID) : (w.noted js).sessions = w.sessions := by
  induction js generalizing w with
  | nil => rfl
  | cons j js ih =>
    rw [World.noted, ih]
    change (w.toStores.note (sessionId j)).sessions = w.sessions
    rw [Stores.note]
    split <;> rfl

theorem noted_slot (w : World P) (js : List JID) (sid : String) :
    (w.noted js).slot sid =
      if sid ∈ js.map sessionId then (w.slot sid).acknowledged else w.slot sid := by
  induction js generalizing w with
  | nil => simp [World.noted]
  | cons j js ih =>
    have hj : (w.log (.note (sessionId j)) (.note (sessionId j))).slot sid = _ :=
      slot_note w.toStores (sessionId j) sid
    rw [World.noted, ih, hj]
    by_cases hs : sid = sessionId j <;> by_cases hm : sid ∈ js.map sessionId
    · simp only [List.map_cons, List.mem_cons, hs ▸ hm, hs, true_or, if_true,
        Slot.acknowledged_twice]
    · simp [hs, hs ▸ hm]
    · simp only [List.map_cons, List.mem_cons, hm, hs, false_or, if_true, if_false]
    · simp only [List.map_cons, List.mem_cons, hm, hs, false_or, if_false]

theorem noted_event {w : World P} {js : List JID} {sid : String} (h : sid ∈ js.map sessionId) :
    ∃ v, (v, Event.note sid) ∈ (w.noted js).history ∧ v.sessions = w.sessions := by
  induction js generalizing w with
  | nil => cases h
  | cons j js ih =>
    rcases List.mem_cons.mp h with rfl | h
    · exact ⟨w.toStores, (World.noted_history (w.log _ _) js).subset (List.mem_append_right _
        List.mem_cons_self), rfl⟩
    · obtain ⟨v, hv, hsess⟩ := ih (w := w.log _ (.note (sessionId j))) h
      exact ⟨v, hv, hsess.trans (noted_sessions w [j])⟩

section SlotStep

variable (env : Env P) (dev : Device P)

/-- What one transition can do to the slot of `sid`, when it starts from `s` and the
history it leaves is `history`. -/
inductive SlotStep (history : List (Stores P × Event)) (s : Stores P) (sid : String) : Slot → Prop
  | same : SlotStep history s sid (s.slot sid)
  | initiate {run : InitiatorRun} {state : RatchetState} {i : Nat}
      (hrun : run.Made dev (env.keyPair i)) (hstate : RatchetAdvance P run.start state) :
      SlotStep history s sid ⟨some { run.session with state := state }, some run.bundle.identityKey,
        some (run.peerMeta dev.registrationId)⟩
  | install {run : InitiatorRun} {i : Nat} (hrun : run.Made dev (env.keyPair i))
      (hreceipt : ∃ v messageId peer, (v, Event.resend messageId peer (some run.bundle)) ∈ history)
      (hid : (s.slot sid).identity = none) :
      SlotStep history s sid ⟨some run.session, none, some (run.peerMeta dev.registrationId)⟩
  | rehydrate {session : Session} {identity : Bytes}
      (h : s.slot sid = ⟨some session, some identity, none⟩)
      (hevent : (s, Event.rehydrate sid) ∈ history) :
      SlotStep history s sid ⟨some session, some identity, some ⟨identity, none⟩⟩
  | encrypt {session : Session} {state : RatchetState} (h : (s.slot sid).session = some session)
      (hstate : RatchetAdvance P session.state state) :
      SlotStep history s sid { s.slot sid with session := some { session with state := state } }
  | drop : SlotStep history s sid ⟨none, none, none⟩
  | acceptPrekey (start state : RatchetState) {identityKey : Bytes} {v : Stores P} {channel : Channel}
      (hevent : (v, Event.acceptPrekey sid identityKey channel) ∈ history)
      (hv : v.slot sid = s.slot sid) :
      SlotStep history s sid ⟨some ⟨state, .accepted identityKey start, true⟩, some identityKey,
        ((s.slot sid).told channel).peerMeta⟩
  | acceptMessage {session : Session} {state : RatchetState} {x : Slot}
      (h : (s.slot sid).session = some session) (hstate : RatchetAdvance P session.state state)
      (hx : x = s.slot sid ∨ x = (s.slot sid).acknowledged) :
      SlotStep history s sid
        { x with session := some { session with state := state, heard := true } }
  | note {v : Stores P} (hevent : (v, Event.note sid) ∈ history)
      (hv : (v.slot sid).session = (s.slot sid).session) :
      SlotStep history s sid (s.slot sid).acknowledged
  | migrateAway (h : IsPn sid) : SlotStep history s sid ⟨none, none, (s.slot sid).peerMeta⟩
  | migrateHere {pn : String} {session : Session} (hpn : IsPn pn) (hlid : IsLid sid)
      (hevent : (s, Event.migrate pn sid) ∈ history) (hsession : (s.slot pn).session = some session)
      (hfree : (s.slot sid).session = none) :
      SlotStep history s sid
        ⟨some session, (s.slot pn).identity.or (s.slot sid).identity, (s.slot sid).peerMeta⟩

variable {env dev}

theorem SlotStep.of_eq {history : List (Stores P × Event)} {s : Stores P} {sid : String}
    {x y : Slot} (h : SlotStep env dev history s sid x) (heq : y = x) :
    SlotStep env dev history s sid y := heq ▸ h

/-- A transition that writes to the slot of `a` only. -/
theorem SlotStep.touches {history : List (Stores P × Event)} {s : Stores P} {sid a : String}
    {x y : Slot} (hslot : y = if sid = a then x else s.slot sid)
    (h : sid = a → SlotStep env dev history s sid x) : SlotStep env dev history s sid y := by
  by_cases hs : sid = a
  · exact (h hs).of_eq (hslot.trans (if_pos hs))
  · exact SlotStep.same.of_eq (hslot.trans (if_neg hs))

theorem Decrypts.advance {generated : KeyPair P} {state state' : RatchetState}
    (h : Decrypts P generated state state') : RatchetAdvance P state state' := .inr ⟨_, h⟩

theorem Encryption.Made.advance {e : Encryption} {state : RatchetState} (h : e.Made dev state) :
    RatchetAdvance P e.session.state state := .inl ⟨_, _, _, h⟩

/-- The slots of the other addresses, when the preambles of `js` are cleared after
the session of `a` was replaced. -/
theorem slot_noted_of_ne {w v : World P} {js : List JID} {a sid : String} (hne : sid ≠ a)
    (hslot : ∀ x, x ≠ a → v.slot x = w.slot x) :
    SlotStep env dev (v.noted js).history w.toStores sid ((v.noted js).slot sid) := by
  by_cases hmem : sid ∈ js.map sessionId
  · obtain ⟨u, hu, hsess⟩ := noted_event (w := v) hmem
    refine (SlotStep.note hu ?_).of_eq (by rw [noted_slot, if_pos hmem, hslot sid hne])
    rw [← hslot sid hne]
    exact congrArg (fun m => m.get? sid) hsess
  · exact SlotStep.same.of_eq (by rw [noted_slot, if_neg hmem, hslot sid hne])

theorem mem_peerAndLidAlt (lidMap : LidMap) (peer : JID) :
    sessionId peer ∈ (peerAndLidAlt lidMap peer).map sessionId := by
  rw [peerAndLidAlt]
  split <;> exact List.mem_cons_self

theorem acceptedPrekey_slot (w : World P) (n : Nat) (a : String) (opk : Option Nat)
    (start state : RatchetState) (identityKey : Bytes) (channel : Channel) (sid : String) :
    (w.acceptedPrekey n a opk start state identityKey channel).slot sid =
      if sid = a then
        ⟨some ⟨state, .accepted identityKey start, true⟩, some identityKey, (w.slot sid).peerMeta⟩
      else w.slot sid :=
  slot_acceptPrekey (w.toStores.setDrawn n) a sid opk _ identityKey

theorem acceptedPrekey_event (w : World P) (n : Nat) (a : String) (opk : Option Nat)
    (start state : RatchetState) (identityKey : Bytes) (channel : Channel) :
    (w.toStores.setDrawn n, Event.acceptPrekey a identityKey channel) ∈
      (w.acceptedPrekey n a opk start state identityKey channel).history :=
  List.mem_append_right _ List.mem_cons_self

theorem acceptedMessage_slot (w : World P) (n : Nat) (a : String) (session : Session)
    (state : RatchetState) (channel : Channel) (sid : String) :
    (w.acceptedMessage n a session state channel).slot sid =
      if sid = a then
        { w.slot sid with session := some { session with state := state, heard := true } }
      else w.slot sid :=
  slot_setSession (w.toStores.setDrawn n) a sid _

theorem initiated_slot (w : World P) (n : Nat) (run : InitiatorRun) (e : Encryption) (x : Session)
    (sid : String) :
    ((((w.put (.setDrawn n)).log (.initiate e.sid run) (.setMeta e.sid e.peerMeta)).put
      (.setIdentity e.sid e.peerMeta.peerIdentity)).log (.encrypt e) (.setSession e.sid x)).slot sid =
      if sid = e.sid then ⟨some x, some e.peerMeta.peerIdentity, some e.peerMeta⟩
      else w.slot sid := by
  simp only [World.log_toStores, World.put_toStores, slot_setSession, slot_setIdentity, slot_setMeta]
  split <;> rfl

theorem installed_slot (w : World P) (n : Nat) (a : String) (run : InitiatorRun)
    (m : PeerSessionMeta) (sid : String) :
    (((w.put (.setDrawn n)).log (.install a run) (.setSession a run.session)).put
      (.setMeta a m)).slot sid =
      if sid = a then ⟨some run.session, (w.slot sid).identity, some m⟩ else w.slot sid := by
  simp only [World.log_toStores, World.put_toStores, slot_setSession, slot_setMeta]
  split <;> rfl

/-- A pkmsg on the direct path: its own slot is told of it, and others lose their preamble. -/
theorem acceptedPrekey_noted (w : World P) (n : Nat) (peer : JID) (opk : Option Nat)
    (start state : RatchetState) (identityKey : Bytes) (sid : String) :
    SlotStep env dev ((w.acceptedPrekey n (sessionId peer) opk start state identityKey .direct).noted
      (peerAndLidAlt w.lidMap peer)).history w.toStores sid
      (((w.acceptedPrekey n (sessionId peer) opk start state identityKey .direct).noted
        (peerAndLidAlt w.lidMap peer)).slot sid) := by
  by_cases hs : sid = sessionId peer
  · subst hs
    have hevent := acceptedPrekey_event w n (sessionId peer) opk start state identityKey .direct
    refine (SlotStep.acceptPrekey (s := w.toStores) start state
      ((World.noted_history _ _).subset hevent) rfl).of_eq ?_
    rw [noted_slot, if_pos (mem_peerAndLidAlt _ _), acceptedPrekey_slot, if_pos rfl]
    rfl
  · exact slot_noted_of_ne hs fun x hx => by rw [acceptedPrekey_slot, if_neg hx]

theorem acceptedMessage_noted (w : World P) (n : Nat) (peer : JID) {session : Session}
    {state : RatchetState} (hsession : w.sessions.get? (sessionId peer) = some session)
    (hstate : RatchetAdvance P session.state state) (sid : String) :
    SlotStep env dev ((w.acceptedMessage n (sessionId peer) session state .direct).noted
      (peerAndLidAlt w.lidMap peer)).history w.toStores sid
      (((w.acceptedMessage n (sessionId peer) session state .direct).noted
        (peerAndLidAlt w.lidMap peer)).slot sid) := by
  by_cases hs : sid = sessionId peer
  · subst hs
    refine (SlotStep.acceptMessage hsession hstate (.inr rfl)).of_eq ?_
    rw [noted_slot, if_pos (mem_peerAndLidAlt _ _), acceptedMessage_slot, if_pos rfl]
    rfl
  · exact slot_noted_of_ne hs fun x hx => by rw [acceptedMessage_slot, if_neg hx]

theorem migrated_step (w : World P) {pn lid : JID} {session : Session}
    (hserver : pn.server = "s.whatsapp.net") (hserver' : lid.server = "lid")
    (hpn : w.sessions.get? (sessionId pn) = some session)
    (hlid : w.sessions.get? (sessionId lid) = none) (sid : String) :
    SlotStep env dev (w.history ++ [(w.toStores, .migrate (sessionId pn) (sessionId lid))])
      w.toStores sid
      ((w.toStores.migrate (sessionId pn) (sessionId lid) session).slot sid) := by
  have hisPn : IsPn (sessionId pn) := ⟨pn, hserver, rfl⟩
  have hisLid : IsLid (sessionId lid) := ⟨lid, hserver', rfl⟩
  have hne : sessionId lid ≠ sessionId pn := fun h => hisLid.not_isPn (h ▸ hisPn)
  have hslot := slot_migrate w.toStores sid hne session
  by_cases hs : sid = sessionId pn
  · exact (SlotStep.migrateAway (hs ▸ hisPn)).of_eq (hslot.trans (if_pos hs))
  · rw [if_neg hs] at hslot
    by_cases hl : sid = sessionId lid
    · subst hl
      exact (SlotStep.migrateHere hisPn hisLid (List.mem_append_right _ List.mem_cons_self) hpn
        hlid).of_eq (hslot.trans (if_pos rfl))
    · exact SlotStep.same.of_eq (hslot.trans (if_neg hl))

theorem Trans.slot {w w' : World P} (h : Trans env dev w w') (sid : String) :
    SlotStep env dev w'.history w.toStores sid (w'.slot sid) := by
  cases h with
  | quiet h => exact SlotStep.same.of_eq (slot_of_quiet h sid)
  | @initiate run e state i n hi hn hrun hsession hmeta he =>
    refine SlotStep.touches (initiated_slot w n run e _ sid) fun _ => ?_
    have hadv : RatchetAdvance P run.start state := by
      have hsent := he.advance
      rwa [hsession] at hsent
    exact (SlotStep.initiate hrun hadv).of_eq (by rw [hsession, hmeta]; rfl)
  | @install a run i n hreceipt hid hi hn hrun =>
    refine SlotStep.touches (installed_slot w n a run _ sid) fun hs => ?_
    subst hs
    obtain ⟨v, messageId, peer, hmem⟩ := hreceipt
    exact (SlotStep.install hrun ⟨v, messageId, peer, List.mem_append_left _ hmem⟩ hid).of_eq
      (Slot.ext rfl hid rfl)
  | @rehydrate a session identity hsession hmeta hid =>
    refine SlotStep.touches (slot_setMeta w.toStores a sid _) fun hs => ?_
    subst hs
    have hslot : w.slot sid = ⟨some session, some identity, none⟩ := Slot.ext hsession hid hmeta
    exact (SlotStep.rehydrate hslot (List.mem_append_right _ List.mem_cons_self)).of_eq
      (by rw [hslot])
  | @encrypt e state hsession hmeta he =>
    refine SlotStep.touches (slot_setSession w.toStores e.sid sid _) fun hs => ?_
    subst hs
    exact SlotStep.encrypt hsession he.advance
  | @drop a => exact SlotStep.touches (slot_drop w.toStores a sid) fun _ => .drop
  | @acceptPrekey a opk start state identityKey i n hi hn hstart hdec =>
    refine SlotStep.touches (acceptedPrekey_slot w n a opk start state identityKey .group sid)
      fun hs => ?_
    subst hs
    have hevent := acceptedPrekey_event w n sid opk start state identityKey .group
    exact SlotStep.acceptPrekey (s := w.toStores) start state hevent rfl
  | acceptPrekeyNoted hi hn hstart hdec => exact acceptedPrekey_noted w _ _ _ _ _ _ sid
  | @acceptMessage a session state i n hi hn hsession hdec =>
    refine SlotStep.touches (acceptedMessage_slot w n a session state .group sid) fun hs => ?_
    subst hs
    exact SlotStep.acceptMessage hsession hdec.advance (.inl rfl)
  | acceptMessageNoted hi hn hsession hdec =>
    exact acceptedMessage_noted w _ _ hsession hdec.advance sid
  | migrate hserver hserver' hpn hlid => exact migrated_step w hserver hserver' hpn hlid sid
  | cacheSent => exact .same
  | resend h => exact .same
  | groupEncrypt hn hstate henc => exact .same
  | learnSenderKey h => exact .same
  | advanceSenderKey h => exact .same
  | transmit h => exact .same

end SlotStep

section Runs

variable {env : Env P} {dev : Device P}

/-- An invariant of every run whose events all meet the condition. -/
theorem run_invariant {R : World P → World P → Prop} {I : World P → Prop}
    {C : Stores P × Event → Prop} (hgrow : ∀ u u', R u u' → u.history <+: u'.history)
    (hstep : ∀ u u', R u u' → (∀ ev ∈ u'.history, C ev) → I u → I u') {w w' : World P}
    (hw : I w) (h : Relation.ReflTransGen R w w') (hcond : ∀ ev ∈ w'.history, C ev) : I w' := by
  induction h with
  | refl => exact hw
  | tail _ hr ih =>
    exact hstep _ _ hr hcond (ih fun ev hev => hcond ev ((hgrow _ _ hr).subset hev))

/-- The lives of an endpoint: transitions, and restarts from what a part of one left. -/
abbrev EndpointLives (env : Env P) (dev : Device P) : World P → World P → Prop :=
  Machine.Lives (Trans env dev) (Part env dev) World.restart

theorem Part.history {w w' : World P} (h : Part env dev w w') : w.history <+: w'.history := by
  cases h with
  | acceptPrekey hi hn hstart hdec js =>
    refine List.IsPrefix.trans ?_ (World.noted_history _ js)
    exact List.prefix_append _ _
  | acceptMessage hi hn hsession hdec js =>
    refine List.IsPrefix.trans ?_ (World.noted_history _ js)
    exact List.prefix_append _ _
  | _ => exact List.prefix_append _ _

theorem lives_history {w w' : World P} (h : EndpointLives env dev w w') :
    w.history <+: w'.history := by
  rcases h with h | ⟨t, rfl | hpart, rfl⟩
  · exact h.history
  · exact List.prefix_append _ _
  · exact hpart.history.trans (List.prefix_append _ _)

theorem mem_noted_history {w : World P} {js : List JID} {ev : Stores P × Event}
    (h : ev ∈ (w.noted js).history) : ev ∈ w.history ∨ ∃ sid, ev.2 = .note sid := by
  induction js generalizing w with
  | nil => exact .inl h
  | cons j js ih =>
    rcases ih h with h | h
    · rcases List.mem_append.mp h with h | h
      · exact .inl h
      · exact .inr ⟨sessionId j, by rw [List.mem_singleton.mp h]⟩
    · exact .inr h

/-- What is known of an event when it is recorded. An encryption used the stored
session with its metadata, or a session that was started for it. -/
def NewEvent (env : Env P) (dev : Device P) (w : World P) : Event → Prop
  | .encrypt e =>
      ((w.slot e.sid).session = some e.session ∧ (w.slot e.sid).peerMeta = some e.peerMeta) ∨
        ∃ run : InitiatorRun, e.session = run.session ∧ e.peerMeta = run.peerMeta dev.registrationId
  | .transmit node purpose => Backed env dev w.history node purpose
  | _ => True

theorem newEvent_last {w : World P} {e : Event} {s : Stores P} {ev : Stores P × Event}
    (hmem : ev ∈ w.history ++ [(s, e)]) (he : NewEvent env dev w e) :
    ev ∈ w.history ∨ NewEvent env dev w ev.2 := by
  rcases List.mem_append.mp hmem with h | h
  · exact .inl h
  · rw [List.mem_singleton.mp h]
    exact .inr he

theorem newEvent_noted {w v : World P} {js : List JID} {e : Event} {s : Stores P}
    (hv : v.history = w.history ++ [(s, e)]) {ev : Stores P × Event}
    (hmem : ev ∈ (v.noted js).history) (he : NewEvent env dev w e) :
    ev ∈ w.history ∨ NewEvent env dev w ev.2 := by
  rcases mem_noted_history hmem with h | ⟨sid, h⟩
  · rw [hv] at h
    exact newEvent_last h he
  · rw [h]
    exact .inr trivial

theorem Trans.newEvent {w w' : World P} (h : Trans env dev w w') {ev : Stores P × Event}
    (hmem : ev ∈ w'.history) : ev ∈ w.history ∨ NewEvent env dev w ev.2 := by
  cases h with
  | quiet h => exact .inl hmem
  | @initiate run e state i n hi hn hrun hsession hmeta he =>
    rcases List.mem_append.mp hmem with hmem | hmem
    · exact newEvent_last hmem trivial
    · rw [List.mem_singleton.mp hmem]
      exact .inr (.inr ⟨run, hsession, hmeta⟩)
  | encrypt hsession hmeta he => exact newEvent_last hmem (.inl ⟨hsession, hmeta⟩)
  | acceptPrekeyNoted hi hn hstart hdec =>
    exact newEvent_noted (e := .acceptPrekey _ _ _) rfl hmem trivial
  | acceptMessageNoted hi hn hsession hdec =>
    exact newEvent_noted (e := .acceptMessage _ _) rfl hmem trivial
  | cacheSent => exact .inl hmem
  | learnSenderKey h => exact .inl hmem
  | advanceSenderKey h => exact .inl hmem
  | transmit h => exact newEvent_last hmem h
  | _ => exact newEvent_last hmem trivial

/-- A step that is cut short has not encrypted or transmitted anything. -/
theorem Part.newEvent {w w' : World P} (h : Part env dev w w') {ev : Stores P × Event}
    (hmem : ev ∈ w'.history) : ev ∈ w.history ∨
      (∀ e, ev.2 ≠ .encrypt e) ∧ ∀ node purpose, ev.2 ≠ .transmit node purpose := by
  have hlast : ∀ {s : Stores P} {e : Event}, ((∀ e', e ≠ .encrypt e') ∧
      ∀ node purpose, e ≠ .transmit node purpose) → ev ∈ w.history ++ [(s, e)] →
      ev ∈ w.history ∨ (∀ e', ev.2 ≠ .encrypt e') ∧ ∀ node purpose, ev.2 ≠ .transmit node purpose := by
    intro s e he hmem
    rcases List.mem_append.mp hmem with hmem | hmem
    · exact .inl hmem
    · rw [List.mem_singleton.mp hmem]
      exact .inr he
  cases h with
  | acceptPrekey hi hn hstart hdec js =>
    rcases mem_noted_history hmem with hmem | ⟨sid, h⟩
    · exact hlast (by simp) hmem
    · exact .inr (by simp [h])
  | acceptMessage hi hn hsession hdec js =>
    rcases mem_noted_history hmem with hmem | ⟨sid, h⟩
    · exact hlast (by simp) hmem
    · exact .inr (by simp [h])
  | _ => exact hlast (by simp) hmem

theorem Trans.encryption {w w' : World P} (h : Trans env dev w w') {v : Stores P} {e : Encryption}
    (hmem : (v, Event.encrypt e) ∈ w'.history) :
    (v, Event.encrypt e) ∈ w.history ∨
      ((w.slot e.sid).session = some e.session ∧ (w.slot e.sid).peerMeta = some e.peerMeta) ∨
      ∃ run : InitiatorRun, e.session = run.session ∧
        e.peerMeta = run.peerMeta dev.registrationId := h.newEvent hmem

theorem Part.encryption {w w' : World P} (h : Part env dev w w') {v : Stores P} {e : Encryption}
    (hmem : (v, Event.encrypt e) ∈ w'.history) : (v, Event.encrypt e) ∈ w.history :=
  (h.newEvent hmem).resolve_right fun hne => hne.1 e rfl

theorem Backed.mono {history history' : List (Stores P × Event)} {node : Node} {purpose : Purpose}
    (h : Backed env dev history node purpose) (hpre : history <+: history') :
    Backed env dev history' node purpose := by
  cases purpose with
  | body chat =>
    intro d hd
    obtain ⟨hprod, haddr⟩ := h d hd
    refine ⟨hprod.mono hpre, haddr.imp_right (Or.imp_right ?_)⟩
    rintro ⟨s, messageId, bundle, cached, hmem, hrest⟩
    exact ⟨s, messageId, bundle, cached, hpre.subset hmem, hrest⟩
  | group chat =>
    obtain ⟨hprod, s, group, state, skmsg, hmem, hnode⟩ := h
    exact ⟨fun d hd => (hprod d hd).mono hpre, s, group, state, skmsg, hpre.subset hmem, hnode⟩

/-- Every stanza that was handed to the transport is accounted for. -/
def AllBacked (env : Env P) (dev : Device P) (w : World P) : Prop :=
  ∀ v node purpose, (v, Event.transmit node purpose) ∈ w.history →
    Backed env dev w.history node purpose

theorem lives_allBacked {w w' : World P} (h : EndpointLives env dev w w')
    (hw : AllBacked env dev w) : AllBacked env dev w' := by
  intro v node purpose hmem
  suffices hold : Backed env dev w.history node purpose from hold.mono (lives_history h)
  rcases h with h | ⟨t, ht, rfl⟩
  · rcases h.newEvent hmem with hold | hnew
    · exact hw v node purpose hold
    · exact hnew
  · have hmem' : (v, Event.transmit node purpose) ∈ t.history :=
      (List.mem_append.mp hmem).resolve_right (by simp)
    rcases ht with rfl | hpart
    · exact hw v node purpose hmem'
    · exact hw v node purpose ((hpart.newEvent hmem').resolve_right fun hne => hne.2 node purpose rfl)

theorem allBacked_of_lives {w w' : World P} (hhistory : w.history = [])
    (h : Relation.ReflTransGen (EndpointLives env dev) w w') : AllBacked env dev w' := by
  induction h with
  | refl =>
    intro v node purpose hmem
    rw [hhistory] at hmem
    cases hmem
  | tail _ hstep ih => exact lives_allBacked hstep ih

end Runs

end PyWhats
