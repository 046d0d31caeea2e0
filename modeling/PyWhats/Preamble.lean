import PyWhats.Slots

/-! The X3DH preamble of outbound messages: that a pending preamble belongs to the
session it is sent with, and that it is sent until the peer has answered. -/

namespace PyWhats

variable {P : Primitives} {env : Env P} {dev : Device P}

def Descends (P : Primitives) : RatchetState → RatchetState → Prop :=
  Relation.ReflTransGen (RatchetAdvance P)

/-- If a preamble is pending, it is the one of the run that started the session. -/
def Session.Owns (P : Primitives) (registrationId : Nat) (session : Session) (m : PeerSessionMeta) :
    Prop :=
  ∀ pp, m.pendingPrekey = some pp → ∃ run : InitiatorRun, session.origin = .initiated run ∧
    pp = run.pendingPrekey registrationId ∧ Descends P run.start session.state

def Slot.Owned (P : Primitives) (registrationId : Nat) (x : Slot) : Prop :=
  ∀ session m, x.session = some session → x.peerMeta = some m → session.Owns P registrationId m

/-- Every stored session owns its pending preamble, and so did every session a
message was encrypted on. -/
structure PreambleOwned (dev : Device P) (w : World P) : Prop where
  slots : ∀ sid, (w.slot sid).Owned P dev.registrationId
  encryptions : ∀ v e, (v, Event.encrypt e) ∈ w.history →
    e.session.Owns P dev.registrationId e.peerMeta

def LidClear (w : World P) : Prop :=
  ∀ sid, IsLid sid → (w.slot sid).session = none → (w.slot sid).peerMeta = none

section Steps

variable {history : List (Stores P × Event)} {s : Stores P} {sid : String} {x : Slot}

theorem Slot.acknowledged_peerMeta {y : Slot} {m : PeerSessionMeta}
    (h : y.acknowledged.peerMeta = some m) :
    m.pendingPrekey = none ∧ ∃ m', y.peerMeta = some m' ∧ m'.peerIdentity = m.peerIdentity := by
  obtain ⟨m', hm', rfl⟩ := Option.map_eq_some_iff.mp h
  exact ⟨rfl, m', hm', rfl⟩

theorem SlotStep.clear (h : SlotStep env dev history s sid x) (hlid : IsLid sid)
    (hs : (s.slot sid).session = none → (s.slot sid).peerMeta = none) :
    x.session = none → x.peerMeta = none := by
  cases h with
  | same => exact hs
  | drop => exact fun _ => rfl
  | note hevent hv =>
    intro hx
    simp only [Slot.acknowledged, hs hx, Option.map_none]
  | migrateAway h => exact absurd h hlid.not_isPn
  | _ =>
    intro hx
    cases hx

theorem Session.Owns.of_none {session : Session} {m : PeerSessionMeta} {reg : Nat}
    (h : m.pendingPrekey = none) : session.Owns P reg m := by
  intro pp hpp
  rw [h] at hpp
  cases hpp

theorem Session.Owns.advance {session : Session} {m : PeerSessionMeta} {reg : Nat}
    {state : RatchetState} {heard : Bool} (h : session.Owns P reg m)
    (hstate : RatchetAdvance P session.state state) :
    Session.Owns P reg { session with state := state, heard := heard } m := by
  intro pp hpp
  obtain ⟨run, horigin, hrun, hdesc⟩ := h pp hpp
  exact ⟨run, horigin, hrun, hdesc.tail hstate⟩

theorem InitiatorRun.owns (run : InitiatorRun) {reg : Nat} {state : RatchetState}
    (h : Descends P run.start state) :
    Session.Owns P reg { run.session with state := state } (run.peerMeta reg) := by
  intro pp hpp
  cases hpp
  exact ⟨run, rfl, rfl, h⟩

theorem SlotStep.owned (h : SlotStep env dev history s sid x)
    (hcond : ∀ v identityKey, (v, Event.acceptPrekey sid identityKey .group) ∈ history →
      ∀ m, (v.slot sid).peerMeta = some m → m.pendingPrekey = none)
    (hlid : IsLid sid → (s.slot sid).session = none → (s.slot sid).peerMeta = none)
    (hs : (s.slot sid).Owned P dev.registrationId) : x.Owned P dev.registrationId := by
  intro session' m hsession hm
  cases h with
  | same => exact hs session' m hsession hm
  | initiate hrun hstate =>
    cases hsession
    cases hm
    exact InitiatorRun.owns _ (.single hstate)
  | @install run i hrun hreceipt hid =>
    cases hsession
    cases hm
    exact run.owns .refl
  | rehydrate h =>
    cases hm
    exact .of_none rfl
  | encrypt h hstate =>
    cases hsession
    exact (hs _ m h hm).advance hstate
  | drop => cases hsession
  | @acceptPrekey start state identityKey v channel hevent hv =>
    cases channel with
    | direct => exact .of_none (Slot.acknowledged_peerMeta hm).1
    | group => exact .of_none (hcond v identityKey hevent m (by rw [hv]; exact hm))
  | acceptMessage h hstate hx =>
    cases hsession
    rcases hx with rfl | rfl
    · exact (hs _ m h hm).advance hstate
    · exact .of_none (Slot.acknowledged_peerMeta hm).1
  | note hevent hv => exact .of_none (Slot.acknowledged_peerMeta hm).1
  | migrateAway h => cases hsession
  | migrateHere hpn hlid' hevent hfrom hfree =>
    have hm' : (s.slot sid).peerMeta = some m := hm
    rw [hlid hlid' hfree] at hm'
    cases hm'

end Steps

theorem Trans.lidClear {w w' : World P} (h : Trans env dev w w') (hw : LidClear w) : LidClear w' :=
  fun sid hlid => (h.slot sid).clear hlid (hw sid hlid)

theorem Trans.preambleOwned {w w' : World P} (h : Trans env dev w w')
    (hcond : ∀ v sid identityKey, (v, Event.acceptPrekey sid identityKey .group) ∈ w'.history →
      ∀ m, v.peerMeta.get? sid = some m → m.pendingPrekey = none)
    (hlid : LidClear w) (hw : PreambleOwned dev w) : PreambleOwned dev w' where
  slots sid := (h.slot sid).owned (fun v => hcond v sid) (hlid sid) (hw.slots sid)
  encryptions v e hmem := by
    rcases h.encryption hmem with hold | ⟨hsession, hmeta⟩ | ⟨run, hsession, hmeta⟩
    · exact hw.encryptions v e hold
    · exact hw.slots e.sid e.session e.peerMeta hsession hmeta
    · rw [hsession, hmeta]
      exact run.owns .refl

/-- In a process that accepts no `pkmsg` with a group key distribution while a
preamble is pending for its sender, the preamble belongs to the session. -/
theorem preamble_owned {w : World P} {m : ClientMachine P} (hmeta : w.peerMeta = .empty)
    (hhistory : w.history = []) (hrun : ClientRun env dev w m)
    (hcond : ∀ v sid identityKey, (v, Event.acceptPrekey sid identityKey .group) ∈ m.state.history →
      ∀ pm, v.peerMeta.get? sid = some pm → pm.pendingPrekey = none) :
    PreambleOwned dev m.state := by
  have hempty : ∀ sid, (w.slot sid).peerMeta = none := fun sid => by simp [Stores.slot, hmeta]
  have hinit : LidClear w ∧ PreambleOwned dev w := by
    refine ⟨fun sid _ _ => hempty sid, fun sid session pm _ hpm => ?_, fun v e hmem => ?_⟩
    · rw [hempty sid] at hpm
      cases hpm
    · rw [hhistory] at hmem
      cases hmem
  refine (run_invariant (R := Trans env dev) (I := fun u => LidClear u ∧ PreambleOwned dev u)
    (C := fun ev => ∀ sid identityKey, ev.2 = .acceptPrekey sid identityKey .group →
      ∀ pm, ev.1.peerMeta.get? sid = some pm → pm.pendingPrekey = none)
    (fun _ _ h => h.history) (fun u u' h hc hu => ?_) hinit hrun.trans ?_).2
  · exact ⟨h.lidClear hu.1, h.preambleOwned (fun v sid idk hmem => hc _ hmem sid idk rfl) hu.1 hu.2⟩
  · rintro ⟨v, ev⟩ hmem sid idk rfl
    exact hcond v sid idk hmem

section Demo

def Event.isAcceptPrekey : Event → Bool
  | .acceptPrekey _ _ _ => true
  | _ => false

def demoWaiting : ClientMachine demoPrimitives :=
  clientAfter (demoEnv [demoAnswer]) demoMe {} (demoFirst [demoAnswer])

theorem demoWaiting_run : ClientRun (demoEnv [demoAnswer]) demoMe {} demoWaiting :=
  clientAfter_run _ _

theorem demoWaiting_accepts_none :
    demoWaiting.state.history.all (fun ev => !ev.2.isAcceptPrekey) = true := by decide +kernel

theorem preamble_owned_first :
    (demoWaiting.state.peerMeta.get? (sessionId demoPeer.ownJid)).any
        (·.pendingPrekey.isSome) = true ∧
      PreambleOwned demoMe demoWaiting.state := by
  refine ⟨by decide +kernel, preamble_owned rfl rfl demoWaiting_run fun v sid idk hmem => ?_⟩
  cases history_all (fun e => !e.isAcceptPrekey) demoWaiting_accepts_none hmem

def Origin.isAccepted : Origin → Bool
  | .initiated _ => false
  | .accepted _ _ => true

theorem Slot.not_owned {x : Slot} {reg : Nat} (hs : x.session.any (·.origin.isAccepted) = true)
    (hm : x.peerMeta.any (·.pendingPrekey.isSome) = true) : ¬ x.Owned P reg := by
  intro h
  obtain ⟨session, hsession, horigin⟩ := (Option.any_eq_true _ _).mp hs
  obtain ⟨m, hmeta, hpending⟩ := (Option.any_eq_true _ _).mp hm
  obtain ⟨pp, hpp⟩ := Option.isSome_iff_exists.mp hpending
  obtain ⟨run, hrun, _⟩ := h session m hsession hmeta pp hpp
  rw [hrun] at horigin
  cases horigin

def demoDistribution : Node :=
  .mk "message" [("id", .str "g1"), ("from", .jid { user := "555", server := "g.us" }),
      ("participant", .jid demoPeer.ownJid)]
    (.nodes [.mk "enc" [("type", .str "pkmsg")] (.bytes (demoPkmsg demoPeer demoMe))])

/-- The peer's key distribution replaces the session, and the preamble stays. -/
theorem preamble_not_owned : ¬ ∀ m, ClientRun (demoEnv [demoAnswer, demoDistribution]) demoMe {} m →
    PreambleOwned demoMe m.state := by
  intro h
  have hrun := clientAfter_run {} (demoFirst [demoAnswer, demoDistribution] ++ [.receive [1]])
  exact Slot.not_owned (by decide +kernel) (by decide +kernel)
    ((h _ hrun).slots (sessionId demoPeer.ownJid))

end Demo

section Restart

/-- Started here, and no message of the peer was decrypted on it yet. -/
def Session.Unanswered (session : Session) (run : InitiatorRun) : Prop :=
  session.origin = .initiated run ∧ session.heard = false

/-- The frame of the encryption is a `pkmsg` with the preamble of the run. -/
def Encryption.Preambled (env : Env P) (dev : Device P) (e : Encryption) (run : InitiatorRun) : Prop :=
  ∀ kind frame, e.wire env dev = .ok (kind, frame) → kind = "pkmsg" ∧
    (run.prekeyMessage dev.registrationId { header := e.header, ciphertext := e.ciphertext }).encode P
      env.pb dev.identity.pub e.peerMeta.peerIdentity e.macKey = .ok frame

/-- Every frame made on an unanswered session carries its preamble. -/
def PreambleSent (env : Env P) (dev : Device P) (w : World P) : Prop :=
  ∀ v e run, (v, Event.encrypt e) ∈ w.history → e.session.Unanswered run → e.Preambled env dev run

theorem Encryption.preambled_of_pending {e : Encryption} {run : InitiatorRun}
    (h : e.peerMeta.pendingPrekey = some (run.pendingPrekey dev.registrationId)) :
    e.Preambled env dev run := by
  intro kind frame hwire
  simp only [Encryption.wire, h] at hwire
  obtain ⟨_, _, hwire⟩ := except_bind_ok.mp hwire
  obtain ⟨frame', hframe, hwire⟩ := except_bind_ok.mp hwire
  cases hwire
  exact ⟨rfl, hframe⟩

/-- An unanswered session has its preamble at hand, or cannot be used any more. -/
def Slot.Kept (registrationId : Nat) (x : Slot) : Prop :=
  ∀ session run, x.session = some session → session.Unanswered run →
    (∀ m, x.peerMeta = some m → m.pendingPrekey = some (run.pendingPrekey registrationId)) ∧
      (x.peerMeta = none → x.identity = none)

/-- The event does not lose the preamble of an unanswered session: none is cleared
because a message came in from the peer's other address, and none is forgotten
by a migration or a restart while the peer's identity stays pinned. -/
def KeepsPreamble (ev : Stores P × Event) : Prop :=
  match ev.2 with
  | .note sid => ∀ session run, ev.1.sessions.get? sid = some session → ¬ session.Unanswered run
  | .migrate pn lid => ∀ session run, ev.1.sessions.get? pn = some session →
      session.Unanswered run → ev.1.identities.get? pn = none ∧ ev.1.identities.get? lid = none
  | .restart => ∀ sid session run, ev.1.sessions.get? sid = some session →
      session.Unanswered run → ev.1.identities.get? sid = none
  | _ => True

theorem SlotStep.kept {history : List (Stores P × Event)} {s : Stores P} {sid : String} {x : Slot}
    (h : SlotStep env dev history s sid x) (hcond : ∀ ev ∈ history, KeepsPreamble ev)
    (hlid : IsLid sid → (s.slot sid).session = none → (s.slot sid).peerMeta = none)
    (hs : (s.slot sid).Kept dev.registrationId) : x.Kept dev.registrationId := by
  intro session' run hsession hun
  cases h with
  | same => exact hs session' run hsession hun
  | initiate hrun hstate =>
    cases hsession
    cases hun.1
    exact ⟨fun m hm => by cases hm; rfl, fun hm => nomatch hm⟩
  | install hrun hreceipt hid =>
    cases hsession
    cases hun.1
    exact ⟨fun m hm => by cases hm; rfl, fun hm => nomatch hm⟩
  | rehydrate h =>
    rw [h] at hs
    cases (hs session' run hsession hun).2 rfl
  | encrypt h hstate =>
    cases hsession
    exact hs _ run h hun
  | drop => cases hsession
  | acceptPrekey start state hevent hv =>
    cases hsession
    cases hun.1
  | acceptMessage h hstate hx =>
    cases hsession
    cases hun.2
  | @note v hevent hv =>
    have hsession' : v.sessions.get? sid = some session' := hv.trans hsession
    exact absurd hun (hcond _ hevent session' run hsession')
  | migrateAway h => cases hsession
  | migrateHere hpn hlid' hevent hfrom hfree =>
    cases hsession
    obtain ⟨hidpn, hidlid⟩ := hcond _ hevent _ run hfrom hun
    refine ⟨fun m hm => ?_, fun _ => ?_⟩
    · have hm' : (s.slot sid).peerMeta = some m := hm
      rw [hlid hlid' hfree] at hm'
      cases hm'
    · simp only [Stores.slot, hidpn, hidlid, Option.or_none]

structure PreambleInv (env : Env P) (dev : Device P) (w : World P) : Prop where
  lidClear : LidClear w
  kept : ∀ sid, (w.slot sid).Kept dev.registrationId
  sent : PreambleSent env dev w

theorem Trans.preambleInv {w w' : World P} (h : Trans env dev w w')
    (hcond : ∀ ev ∈ w'.history, KeepsPreamble ev) (hw : PreambleInv env dev w) :
    PreambleInv env dev w' where
  lidClear := h.lidClear hw.lidClear
  kept sid := (h.slot sid).kept hcond (hw.lidClear sid) (hw.kept sid)
  sent v e run hmem hun := by
    rcases h.encryption hmem with hold | ⟨hsession, hmeta⟩ | ⟨run', hsession, hmeta⟩
    · exact hw.sent v e run hold hun
    · exact Encryption.preambled_of_pending ((hw.kept e.sid _ run hsession hun).1 _ hmeta)
    · rw [hsession] at hun
      cases hun.1
      exact Encryption.preambled_of_pending (by rw [hmeta]; rfl)

theorem preambleInv_restart {w t : World P} (ht : t = w ∨ Part env dev w t)
    (hcond : ∀ ev ∈ t.restart.history, KeepsPreamble ev) (hw : PreambleInv env dev w) :
    PreambleInv env dev t.restart where
  lidClear _ _ _ := rfl
  kept sid session run hsession hun := by
    refine ⟨fun m hm => (nomatch hm), fun _ => ?_⟩
    exact hcond _ (List.mem_append_right _ List.mem_cons_self) sid session run hsession hun
  sent v e run hmem hun := by
    have hmem' : (v, Event.encrypt e) ∈ t.history :=
      (List.mem_append.mp hmem).resolve_right (by simp)
    rcases ht with rfl | hpart
    · exact hw.sent v e run hmem' hun
    · exact hw.sent v e run (hpart.encryption hmem') hun

/-- Over any number of restarts, as long as each event keeps the preambles of the
unanswered sessions it meets. -/
theorem preamble_sent {w : World P} {m : ClientMachine P} (hsessions : w.sessions = .empty)
    (hmeta : w.peerMeta = .empty) (hhistory : w.history = []) (hlife : ClientLife env dev w m)
    (hcond : ∀ ev ∈ m.state.history, KeepsPreamble ev) : PreambleSent env dev m.state := by
  have hinit : PreambleInv env dev w := by
    refine ⟨fun sid _ _ => ?_, fun sid session run hsession => ?_, fun v e run hmem => ?_⟩
    · simp [Stores.slot, hmeta]
    · simp [Stores.slot, hsessions] at hsession
    · rw [hhistory] at hmem
      cases hmem
  refine (run_invariant (R := EndpointLives env dev) (fun _ _ h => lives_history h)
    (fun u u' h hc hu => ?_) hinit hlife.lives hcond).sent
  rcases h with h | ⟨t, ht, rfl⟩
  · exact h.preambleInv hc hu
  · exact preambleInv_restart ht hc hu

def demoReborn : ClientMachine demoPrimitives :=
  clientAfter (demoEnv [demoAnswer]) demoMe (World.restart {}) (demoFirst [demoAnswer])

def Event.harmless {P : Primitives} (ev : Stores P × Event) : Bool :=
  match ev.2 with
  | .note _ => false
  | .migrate _ _ => false
  | .restart => ev.1.sessions.entries.isEmpty
  | _ => true

theorem keepsPreamble_of_harmless {ev : Stores P × Event} (h : Event.harmless ev = true) :
    KeepsPreamble ev := by
  obtain ⟨s, e⟩ := ev
  cases e with
  | note sid => cases h
  | migrate pn lid => cases h
  | restart =>
    intro sid session run hsession
    have hentries : s.sessions.entries = [] := List.isEmpty_iff.mp h
    simp [OrderedMap.get?, hentries] at hsession
  | _ => trivial

theorem preamble_sent_reborn : demoReborn.state.history.length = 4 ∧
    PreambleSent (demoEnv [demoAnswer]) demoMe demoReborn.state := by
  refine ⟨by decide +kernel, preamble_sent (w := {}) rfl rfl rfl
    (ClientLife.restart (m := .idle {}) .refl (clientAfter_run _ _)) fun ev hev => ?_⟩
  have hall : demoReborn.state.history.all Event.harmless = true := by decide +kernel
  exact keepsPreamble_of_harmless (List.all_eq_true.mp hall ev hev)

def Encryption.bare {P : Primitives} (env : Env P) (dev : Device P) (e : Encryption) : Bool :=
  match e.session.origin, e.session.heard, e.wire env dev with
  | .initiated _, false, .ok (kind, _) => kind ≠ "pkmsg"
  | _, _, _ => false

theorem Encryption.not_preambled {e : Encryption} (h : e.bare env dev = true) :
    ∃ run, e.session.Unanswered run ∧ ¬ e.Preambled env dev run := by
  rw [Encryption.bare] at h
  split at h
  · rename_i run kind frame horigin hheard hwire
    refine ⟨run, ⟨horigin, hheard⟩, fun hpre => ?_⟩
    exact absurd (hpre kind frame hwire).1 (by simpa using h)
  · cases h

theorem not_preambleSent {w : World P}
    (h : w.history.any (fun ev => match ev.2 with | .encrypt e => e.bare env dev | _ => false) = true) :
    ¬ PreambleSent env dev w := by
  intro hsent
  obtain ⟨⟨v, ev⟩, hmem, hbare⟩ := List.any_eq_true.mp h
  cases ev with
  | encrypt e =>
    obtain ⟨run, hun, hnot⟩ := Encryption.not_preambled hbare
    exact hnot (hsent v e run hmem hun)
  | _ => cases hbare

/-- The second message after a restart goes out without the preamble. -/
theorem preamble_lost_in_restart :
    ¬ ∀ m, ClientLife (demoEnv [demoAnswer]) demoMe {} m →
      PreambleSent (demoEnv [demoAnswer]) demoMe m.state := by
  intro h
  have hagain := demoWaiting_run.life.restart
    (clientAfter_run demoWaiting.state.restart [demoSend [demoAnswer]])
  exact not_preambleSent (by decide +kernel) (h _ hagain)

end Restart

end PyWhats
