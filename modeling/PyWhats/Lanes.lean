import PyWhats.Handshake
import PyWhats.Slots

/-! The messages of one device to another, when what comes in is stored in another
slot than the one it sends on. Its session is then never replaced, and each
message that the receiver can reach is decrypted. -/

namespace PyWhats

variable {P : Primitives}

/-- A message on the way, with its number in the session it was sent on. -/
structure Posted where
  number : Nat
  plaintext : Bytes
  out : String × Bytes

section Hearing

/-- Message `n` was skipped, or the keys before it can be skipped. -/
def RatchetState.Reaches (st : RatchetState) (n : Nat) : Prop :=
  n < st.nr ∨ n ≤ st.nr + st.maxSkip ∧ st.mkskipped.size + (n - st.nr) ≤ maxSkippedTotal

namespace Handshake

variable {hs : Handshake P} {sent : Nat} {posted before after : List Posted} {m : Posted}
  {st : RatchetState}

/-- The state follows the chain of the initiator, and has the key of each message on the
way that it went past. -/
structure Hears (hs : Handshake P) (sent : Nat) (posted : List Posted) (st : RatchetState) :
    Prop where
  dhr : st.dhr = some hs.ratchet.pub
  ckr : st.ckr = some (chainAt P hs.first.2 st.nr)
  le : st.nr ≤ sent
  ahead : ∀ n, st.nr ≤ n → st.mkskipped.get? (hs.ratchet.pub, n) = none
  behind : ∀ m ∈ posted, m.number < st.nr →
    st.mkskipped.get? (hs.ratchet.pub, m.number) = some (messageKey P hs.first.2 m.number)

theorem Hears.receiving {st' : RatchetState} (h : hs.Hears sent posted st) (hdhr : st'.dhr = st.dhr)
    (hckr : st'.ckr = st.ckr) (hnr : st'.nr = st.nr) (hskipped : st'.mkskipped = st.mkskipped) :
    hs.Hears sent posted st' where
  dhr := hdhr.trans h.dhr
  ckr := by rw [hckr, hnr, h.ckr]
  le := hnr ▸ h.le
  ahead n hn := by
    rw [hskipped]
    exact h.ahead n (hnr ▸ hn)
  behind m hm hlt := by
    rw [hskipped]
    exact h.behind m hm (hnr ▸ hlt)

theorem Hears.post (h : hs.Hears sent posted st) {new : List Posted}
    (hnew : ∀ m ∈ new, m.number = sent) : hs.Hears (sent + 1) (posted ++ new) st where
  dhr := h.dhr
  ckr := h.ckr
  le := Nat.le_succ_of_le h.le
  ahead := h.ahead
  behind m hm hlt := by
    rcases List.mem_append.mp hm with hm | hm
    · exact h.behind m hm hlt
    · have hle := h.le
      rw [hnew m hm] at hlt
      omega

theorem received_hears (generated : KeyPair P) {n : Nat}
    {skipped : OrderedMap (Bytes × Nat) Bytes} (hskipped : hs.SkippedTo n skipped) (hn : n < sent)
    (hne : ∀ m ∈ posted, m.number ≠ n) :
    hs.Hears sent posted (hs.received generated n skipped) where
  dhr := rfl
  ckr := rfl
  le := hn
  ahead k hk := by
    have hk' : n + 1 ≤ k := hk
    exact (hskipped _).trans (if_neg fun h => by have := h.2; simp only at this; omega)
  behind m hm hlt := by
    have hne' := hne m hm
    have hlt' : m.number < n + 1 := hlt
    exact (hskipped _).trans (if_pos ⟨rfl, show m.number < n by omega⟩)

/-- In this state message `n` is opened with its key. -/
def Opens (hs : Handshake P) (n : Nat) (st st' : RatchetState) : Prop :=
  ∀ generated ct ad v, ratchetDecrypt P generated ⟨hs.ratchet.pub, 0, n⟩ ct ad v st =
    openMessage P (messageKey P hs.first.2 n) ct v st'

theorem Hears.opens_skipped {rest : List Posted} (h : hs.Hears sent posted st) (hm : m ∈ posted)
    (hsub : rest ⊆ posted) (hne : ∀ m' ∈ rest, m'.number ≠ m.number) (hnr : m.number < st.nr) :
    ∃ st', hs.Opens m.number st st' ∧ hs.Hears sent rest st' := by
  have hkey := h.behind m hm hnr
  refine ⟨{ st with mkskipped := st.mkskipped.erase (hs.ratchet.pub, m.number) },
    fun _ _ _ _ => ratchetDecrypt_cached hkey, h.dhr, h.ckr, h.le, fun n hn => ?_,
    fun m' hm' hlt => ?_⟩
  · have hkept := h.ahead n hn
    rw [OrderedMap.get?_erase]
    split
    · rfl
    · exact hkept
  · have hkept := h.behind m' (hsub hm') hlt
    refine (OrderedMap.get?_erase_ne _ fun heq => ?_).trans hkept
    exact hne m' hm' (congrArg Prod.snd heq)

theorem Hears.opens_ahead {rest : List Posted} (h : hs.Hears sent posted st) (hsub : rest ⊆ posted)
    (hlt : m.number < sent) (hne : ∀ m' ∈ rest, m'.number ≠ m.number) (hnr : st.nr ≤ m.number)
    (hmax : m.number ≤ st.nr + st.maxSkip)
    (hsize : st.mkskipped.size + (m.number - st.nr) ≤ maxSkippedTotal) :
    ∃ st', hs.Opens m.number st st' ∧ hs.Hears sent rest st' := by
  obtain ⟨skipped, hopen, hget⟩ := receiveAt_spec (P := P) h.ckr h.dhr hnr hmax hsize
  simp only [messageKey_chainAt, chainAt_add] at hopen hget
  rw [show st.nr + (m.number - st.nr) = m.number by omega,
    show st.nr + (m.number - st.nr + 1) = m.number + 1 by omega] at hopen
  refine ⟨{ st with
      ckr := some (chainAt P hs.first.2 (m.number + 1)), nr := m.number + 1, mkskipped := skipped },
    fun generated ct ad v => ?_, h.dhr, rfl, hlt, fun n hn => ?_, fun m' hm' hlt' => ?_⟩
  · have hnone : st.mkskipped.get? (hs.ratchet.pub, m.number) = none := h.ahead m.number hnr
    exact (ratchetDecrypt_current hnone h.dhr).trans (hopen ct v)
  · have hn' : m.number + 1 ≤ n := hn
    refine (hget _).trans ((if_neg fun hin => ?_).trans (h.ahead n (by omega)))
    have := hin.2.2
    simp only at this
    omega
  · have hne' := hne m' hm'
    have hlt'' : m'.number < m.number + 1 := hlt'
    refine (hget _).trans ?_
    by_cases hold : m'.number < st.nr
    · rw [if_neg fun hin => by have := hin.2.1; simp only at this; omega]
      exact h.behind m' (hsub hm') hold
    · rw [if_pos ⟨rfl, by simp only; omega, by simp only; omega⟩]
      simp only
      rw [show st.nr + (m'.number - st.nr) = m'.number by omega]

/-- One message in reach is opened, and the others on the way stay in order. -/
theorem Hears.opens (h : hs.Hears sent (before ++ m :: after) st) (hlt : m.number < sent)
    (hne : ∀ m' ∈ before ++ after, m'.number ≠ m.number) (hreach : st.Reaches m.number) :
    ∃ st', hs.Opens m.number st st' ∧ hs.Hears sent (before ++ after) st' := by
  have hsub : before ++ after ⊆ before ++ m :: after := by
    intro m' hm'
    rcases List.mem_append.mp hm' with hm' | hm'
    · exact List.mem_append_left _ hm'
    · exact List.mem_append_right _ (List.mem_cons_of_mem _ hm')
  by_cases hnr : m.number < st.nr
  · exact h.opens_skipped (List.mem_append_right _ List.mem_cons_self) hsub hne hnr
  · obtain ⟨hmax, hsize⟩ := hreach.resolve_left hnr
    exact h.opens_ahead hsub hlt hne (by omega) hmax hsize

end Handshake

end Hearing

section Frames

variable {hs : Handshake P} {n : Nat} {plaintext : Bytes} {out : String × Bytes}

/-- The output of `_encrypt_for_peer` for the `n`th message without the preamble. -/
def Handshake.Bare (hs : Handshake P) (pb : Protobuf) (n : Nat) (plaintext : Bytes)
    (out : String × Bytes) : Prop :=
  out.1 = "msg" ∧ (hs.message n plaintext).encode P pb hs.initiator.identity.pub
    hs.responder.identity.pub (encryptAesCbc P (messageKey P hs.first.2 n) plaintext).2 = .ok out.2

theorem Handshake.bare_of_wire {env : Env P} (hs : Handshake P) {peer : JID}
    (h : ((hs.sending n).encryption P peer plaintext hs.peerMeta.acknowledged
      (chainAt P hs.first.2 n)).wire env hs.initiator = .ok out) : hs.Bare env.pb n plaintext out := by
  obtain ⟨inner, hinner, h⟩ := except_bind_ok.mp h
  cases h
  exact ⟨rfl, hinner⟩

theorem decryptMsg_opens {env : Env P} {w : World P} (channel : Channel) {sender : JID}
    {session : Session} {st : RatchetState} (hP : P.Lawful) (hpb : env.pb.Lawful)
    (hsession : w.sessions.get? (sessionId sender) = some session)
    (hidentity : w.identities.get? (sessionId sender) = some hs.initiator.identity.pub)
    (hframe : hs.Bare env.pb n plaintext out) (hopens : hs.Opens n session.state st) :
    (decryptMsg env hs.responder channel sender out.2).run w =
      (w.acceptedMessage (w.drawn + 1) (sessionId sender) session st channel,
        .done (.ok plaintext)) := by
  obtain ⟨body, mac, _, hmac, hdecode⟩ := SignalMessage.decode_encoded hP hpb
    (hP.public_length hs.ratchet) hframe.2
  have hverify := SignalMessage.verifyMac_of_mac (m := {
    header := ⟨hs.ratchet.pub, 0, n⟩
    ciphertext := (encryptAesCbc P (messageKey P hs.first.2 n) plaintext).1 }) hmac
  rw [decryptMsg, Co.run_get_bind]
  simp only [hsession, hidentity]
  rw [Co.run_lift_bind hdecode]
  refine (Co.run_bind_ok rfl).trans ?_
  rw [hopens, openMessage_encrypt hP]
  simp only [verdict, hverify]
  rfl

end Frames

section Elsewhere

variable {a b : Host P} {w w' : World P} {sid : String}

def SlotKept (sid : String) (w w' : World P) : Prop := w'.slot sid = w.slot sid

theorem slotKept_run (h : Relation.ReflTransGen (SlotKept sid) w w') : w'.slot sid = w.slot sid := by
  induction h with
  | refl => rfl
  | tail _ hstep ih => exact hstep.trans ih

theorem setSession_keeps {peer : String} (hne : sid ≠ peer) (x : Session) (s : Stores P) :
    (s.setSession peer x).slot sid = s.slot sid := by rw [slot_setSession, if_neg hne]

theorem setMeta_keeps {peer : String} (hne : sid ≠ peer) (x : PeerSessionMeta) (s : Stores P) :
    (s.setMeta peer x).slot sid = s.slot sid := by rw [slot_setMeta, if_neg hne]

theorem setIdentity_keeps {peer : String} (hne : sid ≠ peer) (x : Bytes) (s : Stores P) :
    (s.setIdentity peer x).slot sid = s.slot sid := by rw [slot_setIdentity, if_neg hne]

/-- Encrypting for a device writes to the slot of its address only. -/
theorem Host.encryptFor_keeps (hne : sid ≠ b.sid) (plaintext : Bytes) :
    (a.encryptFor b plaintext).Each (SlotKept sid) := by
  have hload : (loadForPeer b.sid : CoM P _).Each (SlotKept sid) :=
    loadForPeer_actions (fun _ => rfl) fun w _ => setMeta_keeps hne _ w.toStores
  have hencrypt : ∀ session m, (encryptOn a.env a.dev b.dev.ownJid plaintext session m).Each
      (SlotKept sid) :=
    encryptOn_actions (fun w _ _ => setSession_keeps hne _ w.toStores) plaintext
  refine .bind hload fun loaded => ?_
  cases loaded with
  | some loaded => exact hencrypt _ _
  | none =>
    refine .bind (.ret _) fun bundle => .bind (establishSession_actions (fun _ _ => rfl) bundle) fun run => ?_
    exact .bind (.modify fun w => setMeta_keeps hne _ w.toStores) fun _ =>
      .bind (.modify fun w => setIdentity_keeps hne _ w.toStores) fun _ => hencrypt _ _

theorem Host.encryptFor_slot {plaintext : Bytes} {stop} (hne : sid ≠ b.sid)
    (h : (a.encryptFor b plaintext).run w = (w', stop)) : w'.slot sid = w.slot sid := by
  have hrun := (Host.encryptFor_keeps (a := a) hne plaintext).run w
  rw [h] at hrun
  exact slotKept_run hrun

/-- With a session and an identity at hand, encrypting only moves the sending chain. -/
theorem Host.encryptFor_known {plaintext : Bytes} {stop} {session : Session} {identity : Bytes}
    (hsession : w.sessions.get? b.sid = some session)
    (hidentity : w.identities.get? b.sid = some identity)
    (h : (a.encryptFor b plaintext).run w = (w', stop)) :
    ∃ session' cks ns, w'.sessions.get? b.sid = some session' ∧
      w'.identities.get? b.sid = some identity ∧
      session'.state = { session.state with cks := cks, ns := ns } := by
  have hload : ∃ w₁ m, (loadForPeer b.sid).run w = (w₁, .done (.ok (some (session, m)))) ∧
      w₁.sessions = w.sessions ∧ w₁.identities = w.identities := by
    rw [loadForPeer, Co.run_get_bind]
    cases hm : w.peerMeta.get? b.sid with
    | some m =>
      simp only [hsession]
      exact ⟨w, m, rfl, rfl, rfl⟩
    | none =>
      simp only [hsession, hidentity]
      exact ⟨_, _, rfl, rfl, rfl⟩
  obtain ⟨w₁, m, hload, hsessions, hidentities⟩ := hload
  have hrun := (Co.run_bind_ok hload).symm.trans h
  cases hck : session.state.cks with
  | none =>
    simp only [encryptOn, ratchetEncrypt_none hck] at hrun
    cases hrun
    refine ⟨session, session.state.cks, session.state.ns, ?_, ?_, rfl⟩
    · rw [hsessions, hsession]
    · rw [hidentities, hidentity]
  | some ck =>
    rw [encryptOn_run hck] at hrun
    cases hrun
    refine ⟨session.next P ck, _, _, OrderedMap.get?_set_self _ _ _, ?_, rfl⟩
    change w₁.identities.get? b.sid = some identity
    rw [hidentities, hidentity]

variable {env : Env P} {dev : Device P} {sender : JID}

theorem noteSessions_run (w : World P) (js : List JID) :
    (noteSessions js).run w = (w.noted js, .done (.ok ())) := by
  induction js generalizing w with
  | nil => rfl
  | cons j js ih => exact ih _

theorem decryptDirect_opens {encType : String} {ciphertext plaintext : Bytes}
    (h : (decryptEnc env dev .direct sender encType ciphertext).run w =
      (w', .done (.ok plaintext))) :
    (decryptDirect env dev sender encType ciphertext).run w =
      (w'.noted (peerAndLidAlt w'.lidMap sender), .done (.ok (.ok plaintext))) := by
  refine Co.run_tryCatch_ok ((Co.run_bind_ok h).trans ?_)
  refine (Co.run_bind_ok (Co.run_get_bind.trans (noteSessions_run w' _))).trans ?_
  rfl

theorem decryptDirect_fails {encType : String} {ciphertext : Bytes} {e : PyError}
    (h : (decryptEnc env dev .direct sender encType ciphertext).run w = (w', .done (.error e))) :
    (decryptDirect env dev sender encType ciphertext).run w = (w', .done (.ok (.error e))) :=
  Co.run_tryCatch_error (Co.run_bind_error h)

/-- A ciphertext from a known address, whatever it is: its own slot keeps a session, and
the others lose at most their preamble. -/
theorem decryptDirect_slots {encType : String} {ciphertext : Bytes} {stop}
    (hknown : (w.sessions.get? (sessionId sender)).isSome = true)
    (h : (decryptDirect env dev sender encType ciphertext).run w = (w', stop)) :
    (w'.sessions.get? (sessionId sender)).isSome = true ∧
      ∀ sid, sid ≠ sessionId sender →
        w'.slot sid = w.slot sid ∨ w'.slot sid = (w.slot sid).acknowledged := by
  obtain ⟨w₁, r, hrun, hout⟩ := decryptEnc_received env dev .direct sender ciphertext w encType
  rw [World.arrive_known hknown] at hout
  have hnoted : ∀ (v : World P) js, (v.sessions.get? (sessionId sender)).isSome = true →
      (∀ sid, sid ≠ sessionId sender → v.slot sid = w.slot sid) →
      ((v.noted js).sessions.get? (sessionId sender)).isSome = true ∧
        ∀ sid, sid ≠ sessionId sender →
          (v.noted js).slot sid = w.slot sid ∨ (v.noted js).slot sid = (w.slot sid).acknowledged := by
    intro v js hsession hslot
    refine ⟨by rwa [noted_sessions], fun sid hne => ?_⟩
    rw [noted_slot, hslot sid hne]
    split
    · exact .inr rfl
    · exact .inl rfl
  cases hout with
  | refused _ n e =>
    cases (decryptDirect_fails hrun).symm.trans h
    exact ⟨hknown, fun sid _ => .inl rfl⟩
  | message hsession hidentity hdecode hdec =>
    cases (decryptDirect_opens hrun).symm.trans h
    refine hnoted _ _ ?_ fun sid hne => ?_
    · exact Option.isSome_iff_exists.mpr ⟨_, OrderedMap.get?_set_self _ _ _⟩
    · rw [acceptedMessage_slot, if_neg hne]
  | prekey hdecode hspk hopk hheld hx3dh hdec =>
    cases (decryptDirect_opens hrun).symm.trans h
    refine hnoted _ _ ?_ fun sid hne => ?_
    · exact Option.isSome_iff_exists.mpr ⟨_, OrderedMap.get?_set_self _ _ _⟩
    · rw [acceptedPrekey_slot, if_neg hne]

end Elsewhere

/-- The messages of one device to another: the one-time prekey of their session, how
many were sent on it, whether one was received, and those on the way. -/
structure Lane (P : Primitives) where
  opk : Option (OneTimePreKey P)
  sent : Nat
  received : Bool
  posted : List Posted

structure Route (P : Primitives) where
  source : World P
  target : World P
  lane : Lane P

section Routes

/-- The address under which the messages of `b` come in is stored in another slot. -/
def Host.Apart (b : Host P) (sender : JID) : Prop := b.sid ≠ sessionId sender

/-- A message with the preamble finds the one-time prekey that this names, and a bare
one comes after the first of its session. Neither is out of reach. -/
def Route.Meets (sender : JID) (r : Route P) (m : Posted) : Prop :=
  (m.out.1 = "pkmsg" → m.number ≤ defaultMaxSkip ∧
    ∀ k, r.lane.opk = some k → r.target.prekeys.get? k.keyId = some k) ∧
  (m.out.1 = "msg" → r.lane.received = true ∧
    ∀ session, r.target.sessions.get? (sessionId sender) = some session →
      session.state.Reaches m.number)

/-- What can happen on the way from `a` to `b`. The messages of `b` come to `a` from
`fromB`, and what they are is left open, and those of `a` come to `b` from `fromA`,
in any order. -/
inductive Route.Step (a b : Host P) (fromA fromB : JID) : Route P → Route P → Prop
  | starts {r : Route P} {opk : Option (OneTimePreKey P)} {plaintext : Bytes} {out : String × Bytes}
      {w : World P} (hnew : r.source.Unknown b.sid)
      (h : (a.encryptFor { b with opk := opk } plaintext).run r.source = (w, .done (.ok out))) :
      Step a b fromA fromB r { r with
        source := w, lane := ⟨opk, 1, false, r.lane.posted ++ [⟨0, plaintext, out⟩]⟩ }
  | sends {r : Route P} {opk : Option (OneTimePreKey P)} {plaintext : Bytes}
      {result : Except PyError (String × Bytes)} {w : World P} (hold : ¬ r.source.Unknown b.sid)
      (h : (a.encryptFor { b with opk := opk } plaintext).run r.source = (w, .done result)) :
      Step a b fromA fromB r { r with
        source := w
        lane := { r.lane with
          sent := r.lane.sent + 1
          posted := r.lane.posted ++
            (result.toOption.map fun out => ⟨r.lane.sent, plaintext, out⟩).toList } }
  | hears {r : Route P} {encType : String} {ciphertext : Bytes} {w : World P} {stop}
      (h : (decryptDirect a.env a.dev fromB encType ciphertext).run r.source = (w, stop)) :
      Step a b fromA fromB r { r with source := w }
  | answers {r : Route P} {opk : Option (OneTimePreKey P)} {plaintext : Bytes} {w : World P} {stop}
      (h : (b.encryptFor { a with opk := opk } plaintext).run r.target = (w, stop)) :
      Step a b fromA fromB r { r with target := w }
  | receives {r : Route P} {before after : List Posted} {m : Posted} {w : World P} {stop}
      (hm : r.lane.posted = before ++ m :: after) (hmeets : r.Meets fromA m)
      (h : (decryptDirect b.env b.dev fromA m.out.1 m.out.2).run r.target = (w, stop)) :
      Step a b fromA fromB r { r with
        target := w, lane := { r.lane with received := true, posted := before ++ after } }
  | learns {r : Route P} (own other : LidMap) :
      Step a b fromA fromB r { r with
        source := r.source.put (.setLidMap own), target := r.target.put (.setLidMap other) }

variable {a b : Host P} {fromA fromB : JID} {hs : Handshake P} {r r' : Route P}

/-- The session that `a` sends on is the one it started, and `b` follows it. -/
structure Route.Along (a b : Host P) (fromA : JID) (hs : Handshake P) (r : Route P) : Prop where
  initiator : hs.initiator = a.dev
  responder : hs.responder = b.dev
  opk : hs.opk = r.lane.opk
  session : r.source.sessions.get? b.sid = some (hs.sending r.lane.sent)
  preamble : ∃ m, r.source.peerMeta.get? b.sid = some m ∧
    (m = hs.peerMeta ∨ m = hs.peerMeta.acknowledged)
  framed : ∀ m ∈ r.lane.posted, m.number < r.lane.sent ∧
    (hs.Frame b.env.pb m.number m.plaintext m.out ∨ hs.Bare b.env.pb m.number m.plaintext m.out)
  distinct : (r.lane.posted.map Posted.number).Nodup
  heard : r.lane.received = true → ∃ session,
    r.target.sessions.get? (sessionId fromA) = some session ∧
    r.target.identities.get? (sessionId fromA) = some a.dev.identity.pub ∧
    hs.Hears r.lane.sent r.lane.posted session.state

/-- What holds along a route: nothing was sent on a new session yet, or a session that
`a` started is in use. -/
structure Route.Inv (a b : Host P) (fromA fromB : JID) (r : Route P) : Prop where
  inbound : (r.source.sessions.get? (sessionId fromB)).isSome = true
  along : (r.source.Unknown b.sid ∧ r.lane.posted = []) ∨ ∃ hs, r.Along a b fromA hs

theorem Route.Along.known (h : r.Along a b fromA hs) : ¬ r.source.Unknown b.sid := by
  obtain ⟨m, hm, _⟩ := h.preamble
  rintro (hnone | ⟨hnone, _⟩)
  · cases hnone.symm.trans h.session
  · cases hnone.symm.trans hm

theorem Route.Along.starts (hP : P.Lawful) (hsame : a.env.pb = b.env.pb)
    {opk : Option (OneTimePreKey P)} {plaintext : Bytes} {out : String × Bytes} {w : World P}
    (hnew : r.source.Unknown b.sid)
    (h : (a.encryptFor { b with opk := opk } plaintext).run r.source = (w, .done (.ok out))) :
    Route.Along a b fromA (a.handshake { b with opk := opk } r.source)
      ⟨w, r.target, ⟨opk, 1, false, [⟨0, plaintext, out⟩]⟩⟩ := by
  obtain ⟨hframe, hsession, hmeta, _⟩ :=
    Host.encryptFor_unknown (b := { b with opk := opk }) hP hnew h
  refine ⟨rfl, rfl, rfl, hsession, ⟨_, hmeta, .inl rfl⟩, fun m hm => ?_, List.nodup_singleton _,
    fun hreceived => nomatch hreceived⟩
  cases List.mem_singleton.mp hm
  exact ⟨Nat.one_pos, .inl (hsame ▸ hframe)⟩

theorem Route.Along.sends (hsame : a.env.pb = b.env.pb) {opk : Option (OneTimePreKey P)}
    {plaintext : Bytes} {result : Except PyError (String × Bytes)} {w : World P}
    (hr : r.Along a b fromA hs)
    (h : (a.encryptFor { b with opk := opk } plaintext).run r.source = (w, .done result)) :
    Route.Along a b fromA hs { r with
      source := w
      lane := { r.lane with
        sent := r.lane.sent + 1
        posted := r.lane.posted ++
          (result.toOption.map fun out => ⟨r.lane.sent, plaintext, out⟩).toList } } := by
  obtain ⟨m, hm, hpreamble⟩ := hr.preamble
  obtain ⟨rfl, rfl⟩ := Co.run_done_inj h (encryptForPeer_known hr.session hm rfl plaintext)
  generalize hwire : ((hs.sending r.lane.sent).encryption P b.dev.ownJid plaintext m
    (chainAt P hs.first.2 r.lane.sent)).wire a.env a.dev = result
  have hnew : ∀ p ∈ (result.toOption.map fun out => (⟨r.lane.sent, plaintext, out⟩ : Posted)).toList,
      p.number = r.lane.sent ∧ (hs.Frame b.env.pb p.number p.plaintext p.out ∨
        hs.Bare b.env.pb p.number p.plaintext p.out) := by
    intro p hp
    cases result with
    | error e => cases hp
    | ok out =>
      cases List.mem_singleton.mp hp
      rw [← hr.initiator] at hwire
      rw [← hsame]
      rcases hpreamble with rfl | rfl
      · exact ⟨rfl, .inl (hs.frame_of_wire hwire)⟩
      · exact ⟨rfl, .inr (hs.bare_of_wire hwire)⟩
  refine ⟨hr.initiator, hr.responder, hr.opk, ?_, ⟨m, hm, hpreamble⟩, fun p hp => ?_, ?_,
    fun hreceived => ?_⟩
  · exact (OrderedMap.get?_set_self _ _ _).trans (congrArg some (hs.sending_next _))
  · rcases List.mem_append.mp hp with hp | hp
    · exact ⟨Nat.lt_succ_of_lt (hr.framed p hp).1, (hr.framed p hp).2⟩
    · obtain ⟨hnumber, hframe⟩ := hnew p hp
      exact ⟨by rw [hnumber]; exact Nat.lt_succ_self _, hframe⟩
  · cases result with
    | error e => simpa [Except.toOption] using hr.distinct
    | ok out =>
      have hfresh : ∀ p ∈ r.lane.posted, p.number ≠ r.lane.sent := fun p hp => by
        have := (hr.framed p hp).1
        omega
      simpa [Except.toOption, List.nodup_append, hr.distinct] using hfresh
  · obtain ⟨session, hsession, hidentity, hhears⟩ := hr.heard hreceived
    exact ⟨session, hsession, hidentity, hhears.post fun p hp => (hnew p hp).1⟩

/-- The session of `a` stays, whatever comes in under the other address. -/
theorem Route.Along.hears {w : World P} (hr : r.Along a b fromA hs)
    (hslot : w.slot b.sid = r.source.slot b.sid ∨
      w.slot b.sid = (r.source.slot b.sid).acknowledged) :
    Route.Along a b fromA hs { r with source := w } := by
  obtain ⟨m, hm, hpreamble⟩ := hr.preamble
  refine ⟨hr.initiator, hr.responder, hr.opk, ?_, ?_, hr.framed, hr.distinct, hr.heard⟩
  · rcases hslot with hslot | hslot <;> exact (congrArg Slot.session hslot).trans hr.session
  · rcases hslot with hslot | hslot
    · exact ⟨m, (congrArg Slot.peerMeta hslot).trans hm, hpreamble⟩
    · refine ⟨m.acknowledged, (congrArg Slot.peerMeta hslot).trans ?_, .inr ?_⟩
      · exact congrArg (Option.map PeerSessionMeta.acknowledged) hm
      · rcases hpreamble with rfl | rfl <;> rfl

theorem World.Unknown.hears {w w' : World P} {sid : String} (h : w.Unknown sid)
    (hslot : w'.slot sid = w.slot sid ∨ w'.slot sid = (w.slot sid).acknowledged) :
    w'.Unknown sid := by
  have hslots : (w'.slot sid).session = (w.slot sid).session ∧
      (w'.slot sid).identity = (w.slot sid).identity ∧
      ((w.slot sid).peerMeta = none → (w'.slot sid).peerMeta = none) := by
    rcases hslot with hslot | hslot <;> rw [hslot]
    · exact ⟨rfl, rfl, id⟩
    · exact ⟨rfl, rfl, congrArg (Option.map PeerSessionMeta.acknowledged)⟩
  obtain ⟨hsession, hidentity, hmeta⟩ := hslots
  exact h.imp hsession.trans fun h => ⟨hmeta h.1, hidentity.trans h.2⟩

theorem Route.Along.learns (own other : LidMap) (hr : r.Along a b fromA hs) :
    Route.Along a b fromA hs { r with
      source := r.source.put (.setLidMap own), target := r.target.put (.setLidMap other) } :=
  ⟨hr.initiator, hr.responder, hr.opk, hr.session, hr.preamble, hr.framed, hr.distinct, hr.heard⟩

/-- What `b` sends on a session that it also receives on moves the other chain. -/
theorem Route.Along.answers {opk : Option (OneTimePreKey P)} {plaintext : Bytes} {w : World P} {stop}
    (hr : r.Along a b fromA hs)
    (h : (b.encryptFor { a with opk := opk } plaintext).run r.target = (w, stop)) :
    Route.Along a b fromA hs { r with target := w } := by
  refine ⟨hr.initiator, hr.responder, hr.opk, hr.session, hr.preamble, hr.framed, hr.distinct,
    fun hreceived => ?_⟩
  obtain ⟨session, hsession, hidentity, hhears⟩ := hr.heard hreceived
  by_cases hsid : sessionId fromA = a.sid
  · rw [hsid] at hsession hidentity ⊢
    obtain ⟨session', cks, ns, hsession', hidentity', hstate⟩ :=
      Host.encryptFor_known (b := { a with opk := opk }) hsession hidentity h
    refine ⟨session', hsession', hidentity', hhears.receiving ?_ ?_ ?_ ?_⟩ <;> rw [hstate]
  · have hslot := Host.encryptFor_slot (b := { a with opk := opk }) hsid h
    exact ⟨session, (congrArg Slot.session hslot).trans hsession,
      (congrArg Slot.identity hslot).trans hidentity, hhears⟩

/-- Each message on the way that meets the conditions is decrypted, and `b` can go on. -/
theorem Route.Along.opens (hP : P.Lawful) (hpb : b.env.pb.Lawful) (hr : r.Along a b fromA hs)
    {before after : List Posted} {m : Posted} (hm : r.lane.posted = before ++ m :: after)
    (hmeets : r.Meets fromA m) :
    ∃ w, (decryptEnc b.env b.dev .direct fromA m.out.1 m.out.2).run r.target =
        (w, .done (.ok m.plaintext)) ∧ ∃ session,
      w.sessions.get? (sessionId fromA) = some session ∧
      w.identities.get? (sessionId fromA) = some a.dev.identity.pub ∧
      hs.Hears r.lane.sent (before ++ after) session.state := by
  have hmem : m ∈ r.lane.posted := hm ▸ List.mem_append_right _ List.mem_cons_self
  obtain ⟨hlt, hframed⟩ := hr.framed m hmem
  have hne : ∀ m' ∈ before ++ after, m'.number ≠ m.number := by
    intro m' hm' heq
    have hdistinct := hr.distinct
    rw [hm, List.map_append, List.map_cons, List.nodup_middle, List.nodup_cons, ← List.map_append]
      at hdistinct
    exact hdistinct.1 (heq ▸ List.mem_map_of_mem hm')
  rcases hframed with hframe | hbare
  · obtain ⟨hn, hheld⟩ := hmeets.1 hframe.1
    have hheld' : ∀ k, hs.opk = some k →
        (r.target.arrive fromA).prekeys.get? k.keyId = some k := by
      rw [World.arrive_prekeys, hr.opk]
      exact hheld
    obtain ⟨skipped, hskipped, hopen⟩ := decryptPkmsg_opens hP hpb hframe hheld' hn .direct fromA
    rw [hr.responder] at hopen
    refine ⟨_, (decryptEnc_pkmsg hframe.1).trans hopen, _, OrderedMap.get?_set_self _ _ _, ?_, ?_⟩
    · rw [← hr.initiator]
      exact OrderedMap.get?_set_self _ _ _
    · exact Handshake.received_hears _ hskipped hlt hne
  · obtain ⟨hreceived, hreach⟩ := hmeets.2 hbare.1
    obtain ⟨session, hsession, hidentity, hhears⟩ := hr.heard hreceived
    rw [hm] at hhears
    obtain ⟨st, hopens, hhears'⟩ := hhears.opens hlt hne (hreach session hsession)
    rw [← hr.initiator] at hidentity
    have hopen := decryptMsg_opens .direct hP hpb hsession hidentity hbare hopens
    rw [hr.responder] at hopen
    refine ⟨_, (decryptEnc_msg hbare.1 (Option.isSome_iff_exists.mpr ⟨_, hsession⟩)).trans hopen, _,
      OrderedMap.get?_set_self _ _ _, ?_, hhears'⟩
    rw [← hr.initiator]
    exact hidentity

theorem Route.Along.receives (hP : P.Lawful) (hpb : b.env.pb.Lawful) (hr : r.Along a b fromA hs)
    {before after : List Posted} {m : Posted} {w : World P} {stop}
    (hm : r.lane.posted = before ++ m :: after) (hmeets : r.Meets fromA m)
    (h : (decryptDirect b.env b.dev fromA m.out.1 m.out.2).run r.target = (w, stop)) :
    Route.Along a b fromA hs { r with
      target := w, lane := { r.lane with received := true, posted := before ++ after } } := by
  obtain ⟨w₁, hrun, session, hsession, hidentity, hhears⟩ := hr.opens hP hpb hm hmeets
  cases (decryptDirect_opens hrun).symm.trans h
  have hsub : ∀ m' ∈ before ++ after, m' ∈ r.lane.posted := by
    intro m' hm'
    rw [hm]
    exact (List.mem_append.mp hm').elim (List.mem_append_left _)
      fun h => List.mem_append_right _ (List.mem_cons_of_mem _ h)
  have hdistinct := hr.distinct
  rw [hm, List.map_append, List.map_cons, List.nodup_middle, List.nodup_cons, ← List.map_append]
    at hdistinct
  refine ⟨hr.initiator, hr.responder, hr.opk, hr.session, hr.preamble,
    fun m' hm' => hr.framed m' (hsub m' hm'), hdistinct.2, fun _ => ⟨session, ?_, ?_, hhears⟩⟩
  · rwa [noted_sessions]
  · have hslot := noted_slot w₁ (peerAndLidAlt w₁.lidMap fromA) (sessionId fromA)
    rw [if_pos (mem_peerAndLidAlt _ _)] at hslot
    exact (congrArg Slot.identity hslot).trans hidentity

theorem Route.Inv.step (hP : P.Lawful) (hpb : b.env.pb.Lawful) (hsame : a.env.pb = b.env.pb)
    (hapart : b.Apart fromB) (hr : r.Inv a b fromA fromB) (h : Route.Step a b fromA fromB r r') :
    r'.Inv a b fromA fromB := by
  cases h with
  | @starts opk plaintext out w hnew h =>
    have hslot := Host.encryptFor_slot (b := { b with opk := opk }) (Ne.symm hapart) h
    have hsession := congrArg Slot.session hslot
    refine ⟨(congrArg Option.isSome hsession).trans hr.inbound, .inr ?_⟩
    obtain ⟨_, hposted⟩ | ⟨hs, halong⟩ := hr.along
    · rw [hposted]
      exact ⟨_, .starts hP hsame hnew h⟩
    · exact absurd hnew halong.known
  | @sends opk plaintext result w hold h =>
    have hslot := Host.encryptFor_slot (b := { b with opk := opk }) (Ne.symm hapart) h
    have hsession := congrArg Slot.session hslot
    obtain ⟨hs, halong⟩ := hr.along.resolve_left fun hidle => hold hidle.1
    exact ⟨(congrArg Option.isSome hsession).trans hr.inbound, .inr ⟨hs, halong.sends hsame h⟩⟩
  | hears h =>
    obtain ⟨hknown, hslots⟩ := decryptDirect_slots hr.inbound h
    have hslot := hslots b.sid hapart
    exact ⟨hknown, hr.along.imp (fun hidle => ⟨hidle.1.hears hslot, hidle.2⟩) fun ⟨hs, halong⟩ =>
      ⟨hs, halong.hears hslot⟩⟩
  | answers h =>
    exact ⟨hr.inbound, hr.along.imp id fun ⟨hs, halong⟩ => ⟨hs, halong.answers h⟩⟩
  | receives hm hmeets h =>
    obtain ⟨_, hposted⟩ | ⟨hs, halong⟩ := hr.along
    · cases (List.append_eq_nil_iff.mp (hm.symm.trans hposted)).2
    · exact ⟨hr.inbound, .inr ⟨hs, halong.receives hP hpb hm hmeets h⟩⟩
  | learns own other =>
    exact ⟨hr.inbound, hr.along.imp id fun ⟨hs, halong⟩ => ⟨hs, halong.learns own other⟩⟩

theorem Route.Inv.run (hP : P.Lawful) (hpb : b.env.pb.Lawful) (hsame : a.env.pb = b.env.pb)
    (hapart : b.Apart fromB) (hr : r.Inv a b fromA fromB)
    (h : Relation.ReflTransGen (Route.Step a b fromA fromB) r r') : r'.Inv a b fromA fromB := by
  induction h with
  | refl => exact hr
  | tail _ hstep ih => exact ih.step hP hpb hsame hapart hstep

/-- In every state that a run comes to, each message on the way that meets the conditions
is decrypted to its plaintext. -/
theorem Route.Inv.opens (hP : P.Lawful) (hpb : b.env.pb.Lawful) (hr : r.Inv a b fromA fromB)
    {m : Posted} (hm : m ∈ r.lane.posted) (hmeets : r.Meets fromA m) :
    ∃ w, (decryptEnc b.env b.dev .direct fromA m.out.1 m.out.2).run r.target =
      (w, .done (.ok m.plaintext)) := by
  obtain ⟨before, after, hsplit⟩ := List.append_of_mem hm
  obtain ⟨_, hposted⟩ | ⟨hs, halong⟩ := hr.along
  · rw [hposted] at hm
    cases hm
  · obtain ⟨w, hrun, _⟩ := halong.opens hP hpb hsplit hmeets
    exact ⟨w, hrun⟩

end Routes

end PyWhats
