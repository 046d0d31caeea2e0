import PyWhats.Transitions

/-! One call of `_decrypt_enc`. It does not wait, a refused ciphertext leaves the
stores alone but for the move of a known LID sender's session, and an accepted one
was opened by the ratchet. -/

namespace PyWhats

variable {P : Primitives}

/-- The address a session moves away from when its known LID sender writes. -/
def World.movesFrom (w : World P) (sender : JID) : Option (String × Session) :=
  if sender.server ≠ "lid" ∨ (w.sessions.get? (sessionId sender)).isSome then none
  else
    (w.lidMap.getPn sender.user).bind fun pnUser =>
      let pn : JID := { user := pnUser, server := "s.whatsapp.net", device := sender.device }
      (w.sessions.get? (sessionId pn)).map fun session => (sessionId pn, session)

def World.arrive (w : World P) (sender : JID) : World P :=
  match w.movesFrom sender with
  | none => w
  | some (pn, session) =>
    w.log (.migrate pn (sessionId sender)) (.migrate pn (sessionId sender) session)

theorem migrateKnownLidSender_arrive (w : World P) (sender : JID) :
    (migrateKnownLidSender sender).run w = (w.arrive sender, .done (.ok ())) := by
  rw [migrateKnownLidSender, Co.run_get_bind, World.arrive, World.movesFrom]
  by_cases hstays : sender.server ≠ "lid" ∨ (w.sessions.get? (sessionId sender)).isSome
  · rw [if_pos hstays, if_pos hstays]
    rfl
  · rw [if_neg hstays, if_neg hstays]
    have hfree : w.sessions.get? (sessionId sender) = none := by
      simpa using (not_or.mp hstays).2
    cases w.lidMap.getPn sender.user with
    | none => rfl
    | some pnUser =>
      simp only [Option.bind_some, migratePnSessionToLid, Co.run_get_bind, hfree]
      cases w.sessions.get?
        (sessionId { user := pnUser, server := "s.whatsapp.net", device := sender.device }) with
      | none => rfl
      | some session => rfl

theorem World.movesFrom_spec {w : World P} {sender : JID} {pn : String} {session : Session}
    (h : w.movesFrom sender = some (pn, session)) :
    w.sessions.get? pn = some session ∧ w.sessions.get? (sessionId sender) = none := by
  rw [World.movesFrom] at h
  split at h
  · cases h
  rename_i hstays
  obtain ⟨pnUser, _, h⟩ := Option.bind_eq_some_iff.mp h
  obtain ⟨session', hsession, h⟩ := Option.map_eq_some_iff.mp h
  cases h
  exact ⟨hsession, by simpa using (not_or.mp hstays).2⟩

theorem World.arrive_senderKeys (w : World P) (sender : JID) :
    (w.arrive sender).senderKeys = w.senderKeys := by
  rw [World.arrive]
  split <;> rfl

theorem World.arrive_prekeys (w : World P) (sender : JID) :
    (w.arrive sender).prekeys = w.prekeys := by
  rw [World.arrive]
  split <;> rfl

theorem World.arrive_drawn (w : World P) (sender : JID) : (w.arrive sender).drawn = w.drawn := by
  rw [World.arrive]
  split <;> rfl

theorem World.arrive_known {w : World P} {sender : JID}
    (h : (w.sessions.get? (sessionId sender)).isSome = true) : w.arrive sender = w := by
  rw [World.arrive, World.movesFrom, if_pos (.inr h)]

/-- How a call of `_decrypt_enc` ends on the stores `w` it finds after the arrival. -/
inductive EncOutcome (env : Env P) (dev : Device P) (channel : Channel) (sender : JID)
    (ciphertext : Bytes) (w : World P) : String → World P → Except PyError Bytes → Prop
  | refused (encType : String) (n : Nat) (e : PyError) :
      EncOutcome env dev channel sender ciphertext w encType (w.put (.setDrawn n)) (.error e)
  | message {session : Session} {identity plaintext : Bytes} {inner : SignalMessage}
      {state : RatchetState} (hsession : w.sessions.get? (sessionId sender) = some session)
      (hidentity : w.identities.get? (sessionId sender) = some identity)
      (hdecode : SignalMessage.decode env.pb ciphertext = .ok inner)
      (hdec : ratchetDecrypt P (env.keyPair w.drawn) inner.header inner.ciphertext
        (identity ++ dev.identity.pub) (some (inner.verifyMac P identity dev.identity.pub))
        session.state = .ok plaintext state) :
      EncOutcome env dev channel sender ciphertext w "msg"
        (w.acceptedMessage (w.drawn + 1) (sessionId sender) session state channel) (.ok plaintext)
  | prekey {pkmsg : PreKeySignalMessage} {spk : SignedPreKey P} {opk : Option (OneTimePreKey P)}
      {result : X3DHResponderResult} {plaintext : Bytes} {state : RatchetState}
      (hdecode : PreKeySignalMessage.decode env.pb ciphertext = .ok pkmsg)
      (hspk : getSignedPreKey dev pkmsg.signedPreKeyId = .ok spk)
      (hopk : pkmsg.oneTimePreKeyId.bind w.prekeys.get? = opk)
      (hheld : opk.isSome = pkmsg.oneTimePreKeyId.isSome)
      (hx3dh : x3dhResponder P dev.identity spk opk pkmsg.identityKey pkmsg.baseKey = .ok result)
      (hdec : ratchetDecrypt P (env.keyPair w.drawn) pkmsg.message.header pkmsg.message.ciphertext
        (pkmsg.identityKey ++ dev.identity.pub)
        (some (pkmsg.message.verifyMac P pkmsg.identityKey dev.identity.pub))
        (ratchetInitBob result.sharedSecret spk.pair.priv spk.pair.pub) = .ok plaintext state) :
      EncOutcome env dev channel sender ciphertext w "pkmsg"
        (w.acceptedPrekey (w.drawn + 1) (sessionId sender) pkmsg.oneTimePreKeyId
          (ratchetInitBob result.sharedSecret spk.pair.priv spk.pair.pub) state pkmsg.identityKey
          channel) (.ok plaintext)

section Calls

variable {env : Env P} {dev : Device P} {channel : Channel} {sender : JID} {ciphertext : Bytes}
  {w : World P}

/-- What is raised before the key pair is drawn. -/
theorem EncOutcome.raised (encType : String) (e : PyError) :
    EncOutcome env dev channel sender ciphertext w encType w (.error e) :=
  .refused encType w.drawn e

theorem run_lift_error {α β : Type} {x : Except PyError α} {f : α → CoM P β} {e : PyError}
    (h : x = .error e) : (Co.lift x >>= f).run w = (w, .done (.error e)) := by
  subst h
  rfl

theorem decryptMsg_received :
    ∃ w' r, (decryptMsg env dev channel sender ciphertext).run w = (w', .done r) ∧
      EncOutcome env dev channel sender ciphertext w "msg" w' r := by
  rw [decryptMsg, Co.run_get_bind]
  cases hsession : w.sessions.get? (sessionId sender) with
  | none => exact ⟨_, _, rfl, .raised _ _⟩
  | some session =>
    cases hidentity : w.identities.get? (sessionId sender) with
    | none => exact ⟨_, _, rfl, .raised _ _⟩
    | some identity =>
      simp only
      cases hdecode : SignalMessage.decode env.pb ciphertext with
      | error e => exact ⟨_, _, run_lift_error rfl, .raised _ _⟩
      | ok inner =>
        rw [Co.run_lift_bind rfl]
        cases hdec : ratchetDecrypt P (env.keyPair w.drawn) inner.header inner.ciphertext
            (identity ++ dev.identity.pub) (some (inner.verifyMac P identity dev.identity.pub))
            session.state with
        | error e state =>
          refine ⟨w.put (.setDrawn (w.drawn + 1)), .error e, ?_, .refused _ _ _⟩
          refine (Co.run_bind_ok rfl).trans ?_
          rw [hdec]
          rfl
        | ok plaintext state =>
          refine ⟨_, .ok plaintext, ?_, .message hsession hidentity hdecode hdec⟩
          refine (Co.run_bind_ok rfl).trans ?_
          rw [hdec]
          rfl

theorem decryptPkmsg_received :
    ∃ w' r, (decryptPkmsg env dev channel sender ciphertext).run w = (w', .done r) ∧
      EncOutcome env dev channel sender ciphertext w "pkmsg" w' r := by
  rw [decryptPkmsg]
  cases hdecode : PreKeySignalMessage.decode env.pb ciphertext with
  | error e => exact ⟨_, _, run_lift_error rfl, .raised _ _⟩
  | ok pkmsg =>
    rw [Co.run_lift_bind rfl]
    cases hspk : getSignedPreKey dev pkmsg.signedPreKeyId with
    | error e => exact ⟨_, _, run_lift_error rfl, .raised _ _⟩
    | ok spk =>
      rw [Co.run_lift_bind rfl]
      have hlookup : (∃ e, (lookupOneTimePreKey pkmsg.oneTimePreKeyId).run w =
            (w, .done (.error e))) ∨
          (lookupOneTimePreKey pkmsg.oneTimePreKeyId).run w =
            (w, .done (.ok (pkmsg.oneTimePreKeyId.bind w.prekeys.get?))) ∧
          (pkmsg.oneTimePreKeyId.bind w.prekeys.get?).isSome = pkmsg.oneTimePreKeyId.isSome := by
        cases pkmsg.oneTimePreKeyId with
        | none => exact .inr ⟨rfl, rfl⟩
        | some id =>
          rw [lookupOneTimePreKey, Co.run_get_bind, Option.bind_some]
          cases w.prekeys.get? id with
          | none => exact .inl ⟨_, rfl⟩
          | some opk => exact .inr ⟨rfl, rfl⟩
      rcases hlookup with ⟨e, he⟩ | ⟨hopk, hheld⟩
      · exact ⟨_, _, Co.run_bind_error he, .raised _ _⟩
      · rw [Co.run_bind_ok hopk]
        cases hx3dh : x3dhResponder P dev.identity spk (pkmsg.oneTimePreKeyId.bind w.prekeys.get?)
            pkmsg.identityKey pkmsg.baseKey with
        | error e => exact ⟨_, _, run_lift_error rfl, .raised _ _⟩
        | ok result =>
          rw [Co.run_lift_bind rfl]
          cases hdec : ratchetDecrypt P (env.keyPair w.drawn) pkmsg.message.header
              pkmsg.message.ciphertext (pkmsg.identityKey ++ dev.identity.pub)
              (some (pkmsg.message.verifyMac P pkmsg.identityKey dev.identity.pub))
              (ratchetInitBob result.sharedSecret spk.pair.priv spk.pair.pub) with
          | error e state =>
            refine ⟨w.put (.setDrawn (w.drawn + 1)), .error e, ?_, .refused _ _ _⟩
            refine (Co.run_bind_ok rfl).trans ?_
            rw [hdec]
            rfl
          | ok plaintext state =>
            refine ⟨_, .ok plaintext, ?_, .prekey hdecode hspk rfl hheld hx3dh hdec⟩
            refine (Co.run_bind_ok rfl).trans ?_
            rw [hdec]
            rfl

variable (env dev channel sender ciphertext w) in
theorem decryptEnc_received (encType : String) :
    ∃ w' r, (decryptEnc env dev channel sender encType ciphertext).run w = (w', .done r) ∧
      EncOutcome env dev channel sender ciphertext (w.arrive sender) encType w' r := by
  rw [decryptEnc, Co.run_bind_ok (migrateKnownLidSender_arrive w sender)]
  split
  · rename_i htype
    subst htype
    exact decryptPkmsg_received
  · split
    · rename_i htype
      subst htype
      exact decryptMsg_received
    · exact ⟨_, _, rfl, .raised _ _⟩

theorem EncOutcome.senderKeys {encType : String} {w' : World P} {r : Except PyError Bytes}
    (h : EncOutcome env dev channel sender ciphertext w encType w' r) :
    w'.senderKeys = w.senderKeys := by
  cases h <;> rfl

end Calls

end PyWhats
