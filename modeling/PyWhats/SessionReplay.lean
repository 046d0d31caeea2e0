import PyWhats.Crossing
import PyWhats.SessionKeys
import PyWhats.SessionStore

/-! What one stored session accepts: no message twice, whatever arrives, is sent or is
read back from the store in between. -/

namespace PyWhats

variable {P : Primitives}

/-- One session, followed from address to address. -/
structure SessionTrace (P : Primitives) where
  world : World P
  sid : String
  chain : ChainId
  made : List ((ChainId × Nat) × Bytes)
  accepted : List Acceptance

namespace SessionTrace

def start (w : World P) (sid : String) : SessionTrace P where
  world := w
  sid := sid
  chain := .initial sid
  made := ((w.sessions.get? sid).map fun session => session.state.cachedPositions P sid).getD []
  accepted := []

def arrive (t : SessionTrace P) (sender : JID) : SessionTrace P :=
  { t with
    world := t.world.arrive sender
    sid := if (t.world.movesFrom sender).map Prod.fst = some t.sid then sessionId sender else t.sid }

section Steps

variable (env : Env P) (dev : Device P)

def deliver (t : SessionTrace P) (channel : Channel) (sender : JID) (encType : String)
    (ciphertext : Bytes) : SessionTrace P :=
  let out := (decryptEnc env dev channel sender encType ciphertext).run t.world
  let t := t.arrive sender
  match out.2.ok?, t.world.msgAcceptance env sender ciphertext t.chain (.ratchet t.accepted.length) with
  | some _, some a => { t with
      world := out.1, chain := a.chain, made := t.made ++ a.derived, accepted := t.accepted ++ [a] }
  | _, _ => { t with world := out.1 }

end Steps

end SessionTrace

/-- A ciphertext arrives for the session and no `pkmsg` is accepted, a message is sent, the
session is saved and loaded again or moves to another address, or something happens that
leaves it alone, such as a restart. -/
inductive SessionStep (env : Env P) (dev : Device P) : SessionTrace P → SessionTrace P → Prop
  | deliver {t : SessionTrace P} {channel : Channel} {sender : JID} {encType : String}
      {ciphertext : Bytes} (hsender : sessionId sender = (t.arrive sender).sid)
      (hno : encType = "pkmsg" →
        ((decryptEnc env dev channel sender encType ciphertext).run t.world).2.ok? = none) :
      SessionStep env dev t (t.deliver env dev channel sender encType ciphertext)
  | sent {t : SessionTrace P} {e : Encryption} {state : RatchetState}
      (hsession : t.world.sessions.get? e.sid = some e.session) (he : e.Made dev state) :
      SessionStep env dev t { t with
        world := t.world.log (.encrypt e) (.setSession e.sid { e.session with state := state }) }
  | reloaded {t : SessionTrace P} {session : Session} {state : RatchetState}
      (hsession : t.world.sessions.get? t.sid = some session)
      (h : deserializeState (serializeState session.state) = .ok state) :
      SessionStep env dev t { t with
        world := t.world.put (.setSession t.sid { session with state := state }) }
  | moved {t : SessionTrace P} {session : Session} {lid : String}
      (hsession : t.world.sessions.get? t.sid = some session)
      (hfree : t.world.sessions.get? lid = none) :
      SessionStep env dev t { t with
        world := t.world.log (.migrate t.sid lid) (.migrate t.sid lid session), sid := lid }
  | elsewhere {t : SessionTrace P} {w : World P}
      (h : w.sessions.get? t.sid = t.world.sessions.get? t.sid) :
      SessionStep env dev t { t with world := w }

namespace SessionTrace

structure Inv (env : Env P) (t : SessionTrace P) (session : Session) : Prop where
  stored : t.world.sessions.get? t.sid = some session
  keys : KeysInv P (fun _ : Unit => some session) (fun _ => t.chain) t.made t.accepted
  decoded : ∀ a ∈ t.accepted, SignalMessage.decode env.pb a.ciphertext = .ok a.message

variable {env : Env P} {dev : Device P} {t : SessionTrace P} {session : Session}

theorem update_unit {α : Type} (f : Unit → α) (x : α) : Function.update f () x = fun _ => x :=
  funext fun _ => Function.update_self () x f

theorem inv_start {w : World P} {sid : String} (h : w.sessions.get? sid = some session) :
    (start w sid).Inv env session := by
  have hmade : (start w sid).made = session.state.cachedPositions P sid := by
    rw [start, h]
    rfl
  refine ⟨h, ?_, fun a ha => absurd ha List.not_mem_nil⟩
  rw [hmade]
  refine keysInv_start (fun _ : Unit => sid) (fun _ _ _ => rfl) (fun d hd => ?_)
    (cachedPositions_nodup sid session.state) ?_
  · obtain ⟨e, _, rfl⟩ := List.mem_map.mp hd
    exact ⟨_, _, rfl⟩
  · rintro _ _ ⟨⟩
    exact List.Sublist.refl _

/-- Steps that keep what was derived and accepted. -/
theorem Inv.keep (h : t.Inv env session) {w : World P} (sid : String) {session' : Session}
    (hstored : w.sessions.get? sid = some session')
    (hsame : SameReceiving session.state session'.state) :
    Inv env { t with world := w, sid := sid } session' := by
  refine ⟨hstored, ?_, h.decoded⟩
  simpa only [update_unit] using h.keys.same () rfl hsame

theorem Inv.arrive (h : t.Inv env session) {sender : JID}
    (hsender : sessionId sender = (t.arrive sender).sid) : (t.arrive sender).Inv env session := by
  refine h.keep _ ?_ ⟨rfl, rfl, rfl⟩
  have hstored := h.stored
  unfold SessionTrace.arrive at hsender
  cases hmoves : t.world.movesFrom sender with
  | none =>
    rw [World.arrive, hmoves]
    simpa using hstored
  | some from' =>
    obtain ⟨pn, session'⟩ := from'
    obtain ⟨hpn, hfree⟩ := World.movesFrom_spec hmoves
    simp only [hmoves, Option.map_some, Option.some.injEq] at hsender ⊢
    by_cases hours : pn = t.sid
    · subst hours
      cases hpn.symm.trans hstored
      have hne : sessionId sender ≠ t.sid := by
        rintro heq
        rw [heq, hstored] at hfree
        cases hfree
      rw [if_pos rfl, World.arrive, hmoves]
      simp only [World.log_toStores, Stores.migrate]
      rw [OrderedMap.get?_erase_ne _ hne, OrderedMap.get?_set_self]
    · rw [if_neg hours] at hsender
      rw [hsender, hstored] at hfree
      cases hfree

/-- A message is accepted on the session. -/
theorem Inv.accept (h : t.Inv env session) {a : Acceptance} {header : MessageHeader}
    {generated : KeyPair P} {ct ad plaintext : Bytes} {verify : MacVerifier} {state : RatchetState}
    {w : World P}
    (hdec : ratchetDecrypt P generated header ct ad (some verify) session.state =
      .ok plaintext state)
    (hkey : a.macKey = session.state.usedMacKey P header)
    (hderived : a.derived =
      session.state.derived P t.chain (.ratchet t.accepted.length) header)
    (hchain : a.chain = session.state.chainAfter t.chain (.ratchet t.accepted.length) header)
    (hdecode : SignalMessage.decode env.pb a.ciphertext = .ok a.message)
    (hstored : w.sessions.get? t.sid = some { session with state := state, heard := true }) :
    Inv env { t with
      world := w, chain := a.chain, made := t.made ++ a.derived, accepted := t.accepted ++ [a] }
      { session with state := state, heard := true } := by
  refine ⟨hstored, ?_, ?_⟩
  · have hnew : ¬ (ChainId.ratchet t.accepted.length).Known t.accepted.length
        (spentKeys t.accepted) := Nat.lt_irrefl _
    have hknown : (ChainId.ratchet t.accepted.length).Known (t.accepted ++ [a]).length
        (spentKeys (t.accepted ++ [a])) := by simp [ChainId.Known]
    simpa only [update_unit] using
      h.keys.accept () _ rfl hdec hnew hknown hkey hderived hchain rfl
  · rw [List.forall_mem_append, List.forall_mem_singleton]
    exact ⟨h.decoded, hdecode⟩

theorem Inv.deliver (h : t.Inv env session) {channel : Channel} {sender : JID} {encType : String}
    {ciphertext : Bytes} (hsender : sessionId sender = (t.arrive sender).sid)
    (hno : encType = "pkmsg" →
      ((decryptEnc env dev channel sender encType ciphertext).run t.world).2.ok? = none) :
    ∃ session', (t.deliver env dev channel sender encType ciphertext).Inv env session' := by
  have harrived := h.arrive hsender
  obtain ⟨w', r, hrun, hreceived⟩ := decryptEnc_received env dev channel sender ciphertext
    t.world encType
  rw [SessionTrace.deliver]
  rw [hrun] at hno ⊢
  cases hreceived with
  | refused _ n e =>
    refine ⟨session, harrived.keep (t.arrive sender).sid harrived.stored ⟨rfl, rfl, rfl⟩⟩
  | @message session' identity plaintext inner state hsession hidentity hdecode hdec =>
    have hstored := harrived.stored
    rw [← hsender] at hstored
    cases hsession.symm.trans hstored
    have hacceptance := msgAcceptance_eq (t.arrive sender).world hsession hdecode
      (t.arrive sender).chain (.ratchet (t.arrive sender).accepted.length)
    simp only [hacceptance, Co.Stop.ok?]
    refine ⟨_, harrived.accept (a := ⟨"msg", ciphertext, inner, none, _, _, _⟩) hdec rfl rfl rfl
      hdecode ?_⟩
    rw [← hsender]
    exact OrderedMap.get?_set_self _ _ _
  | prekey hdecode hspk hopk hheld hx3dh hdec => cases hno rfl

theorem inv_step {t' : SessionTrace P} (hstep : SessionStep env dev t t')
    (h : t.Inv env session) : ∃ session', t'.Inv env session' := by
  cases hstep with
  | deliver hsender hno => exact h.deliver hsender hno
  | @sent e state hsession he =>
    by_cases hours : t.sid = e.sid
    · have hstored := h.stored
      rw [hours] at hstored
      cases hsession.symm.trans hstored
      refine ⟨{ e.session with state := state }, h.keep t.sid ?_ he.receiving⟩
      rw [hours]
      exact OrderedMap.get?_set_self _ _ _
    · refine ⟨session, h.keep t.sid ?_ ⟨rfl, rfl, rfl⟩⟩
      exact (OrderedMap.get?_set_ne _ _ hours).trans h.stored
  | @reloaded session' state hsession hload =>
    rw [deserializeState_serializeState] at hload
    cases hload
    cases h.stored.symm.trans hsession
    refine ⟨session, h.keep t.sid ?_ ⟨rfl, rfl, rfl⟩⟩
    exact OrderedMap.get?_set_self _ _ _
  | @moved session' lid hsession hfree =>
    cases h.stored.symm.trans hsession
    have hne : lid ≠ t.sid := by
      rintro rfl
      rw [hfree] at hsession
      cases hsession
    refine ⟨session, h.keep lid ?_ ⟨rfl, rfl, rfl⟩⟩
    simp only [World.log_toStores, Stores.migrate]
    rw [OrderedMap.get?_erase_ne _ hne, OrderedMap.get?_set_self]
  | elsewhere hsame =>
    exact ⟨session, h.keep t.sid (hsame.trans h.stored) ⟨rfl, rfl, rfl⟩⟩

end SessionTrace

/-- Everything that is accepted is recorded. -/
theorem SessionTrace.deliver_accepted {env : Env P} {dev : Device P} {t : SessionTrace P}
    {channel : Channel} {sender : JID} {encType : String} {ciphertext plaintext : Bytes}
    {w : World P} (htype : encType ≠ "pkmsg")
    (h : (decryptEnc env dev channel sender encType ciphertext).run t.world =
      (w, .done (.ok plaintext))) :
    (t.deliver env dev channel sender encType ciphertext).accepted.map Acceptance.ciphertext =
      t.accepted.map Acceptance.ciphertext ++ [ciphertext] := by
  obtain ⟨w', r, hrun, hreceived⟩ := decryptEnc_received env dev channel sender ciphertext
    t.world encType
  cases h.symm.trans hrun
  cases hreceived with
  | message hsession hidentity hdecode hdec =>
    have hacceptance := msgAcceptance_eq (t.arrive sender).world hsession hdecode
      (t.arrive sender).chain (.ratchet (t.arrive sender).accepted.length)
    simp only [SessionTrace.deliver, h, hacceptance, Co.Stop.ok?, List.map_append,
      List.map_singleton]
    rfl
  | prekey hdecode hspk hopk hheld hx3dh hdec => exact absurd rfl htype

/-- From any stored session on, no message is accepted twice as long as no `pkmsg` replaces
the session. -/
theorem session_accepts_once {env : Env P} {dev : Device P} {w : World P} {sid : String}
    {session : Session} {t : SessionTrace P} (hstored : w.sessions.get? sid = some session)
    (hrun : Relation.ReflTransGen (SessionStep env dev) (.start w sid) t)
    (hmacs : MacsApart t.made t.accepted) : (t.accepted.map Acceptance.ciphertext).Nodup := by
  have hinv : ∃ session', t.Inv env session' := by
    clear hmacs
    induction hrun with
    | refl => exact ⟨session, SessionTrace.inv_start hstored⟩
    | tail _ hstep ih =>
      obtain ⟨session', hinv⟩ := ih
      exact SessionTrace.inv_step hstep hinv
  obtain ⟨session', hinv⟩ := hinv
  have hused : (t.accepted.map Acceptance.macKey).Nodup :=
    (hinv.keys.rings (hmacs.nodup hinv.keys.counts.nodup)).used_nodup
  refine nodup_map_of_nodup_map hused fun a ha a' ha' hct => ?_
  have hmessage : a.message = a'.message :=
    Except.ok.inj ((hinv.decoded a ha).symm.trans (hct ▸ hinv.decoded a' ha'))
  exact hmacs.tags a ha a' ha' (by rw [hmessage]) (by rw [hmessage])

section Demo

def demoFirstReply : World demoPrimitives × Bytes :=
  let out := (demoRight.encryptFor demoLeft [7]).run demoHeard
  (out.1, (out.2.ok?.map Prod.snd).getD [])

def demoSecondReply : Bytes :=
  (((demoRight.encryptFor demoLeft [8]).run demoFirstReply.1).2.ok?.map Prod.snd).getD []

def demoDeliver (t : SessionTrace demoPrimitives) (ciphertext : Bytes) : SessionTrace demoPrimitives :=
  t.deliver demoLeft.env demoMe .direct demoPeer.ownJid "msg" ciphertext

theorem foldl_demoDeliver_run (ciphertexts : List Bytes) {t : SessionTrace demoPrimitives}
    (hsender : t.sid = sessionId demoPeer.ownJid) :
    Relation.ReflTransGen (SessionStep demoLeft.env demoMe) t (ciphertexts.foldl demoDeliver t) := by
  have harrive : ∀ t : SessionTrace demoPrimitives, t.sid = sessionId demoPeer.ownJid →
      (t.arrive demoPeer.ownJid).sid = sessionId demoPeer.ownJid := by
    intro t ht
    rw [SessionTrace.arrive]
    split
    · rfl
    · exact ht
  induction ciphertexts generalizing t with
  | nil => exact .refl
  | cons ciphertext ciphertexts ih =>
    refine .head (.deliver (harrive t hsender).symm fun h => absurd h (by decide)) (ih ?_)
    rw [SessionTrace.deliver]
    split <;> exact harrive t hsender

/-- The second reply comes before the first, and then both once more. -/
def demoTwice : SessionTrace demoPrimitives :=
  [demoSecondReply, demoFirstReply.2, demoSecondReply, demoFirstReply.2].foldl demoDeliver
    (.start (demoGiven demoLeft demoRight) (sessionId demoPeer.ownJid))

theorem session_accepts_once_out_of_order :
    demoTwice.accepted.map Acceptance.ciphertext = [demoSecondReply, demoFirstReply.2] ∧
      (demoTwice.accepted.map Acceptance.ciphertext).Nodup := by
  have hstored : ((demoGiven demoLeft demoRight).sessions.get?
      (sessionId demoPeer.ownJid)).isSome = true := by decide +kernel
  obtain ⟨session, hsession⟩ := Option.isSome_iff_exists.mp hstored
  refine ⟨by decide +kernel, session_accepts_once hsession (foldl_demoDeliver_run _ rfl) ⟨?_, ?_⟩⟩
  · decide +kernel
  · decide +kernel

end Demo

end PyWhats
