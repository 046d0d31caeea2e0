import PyWhats.SessionPersistence
import PyWhats.SkippedKeys

/-! The two assertions of the ratchet, over every state that calls lead to, those that
raised included. A receiving chain has a peer key, so only its absence can fail. -/

namespace PyWhats

variable {P : Primitives} {s t : RatchetState}

inductive Reachable (P : Primitives) : RatchetState → Prop
  | alice {generated : KeyPair P} {sharedSecret peerSignedPreKeyPublic : Bytes} {s : RatchetState}
      (h : ratchetInitAlice P generated sharedSecret peerSignedPreKeyPublic = .ok s) : Reachable P s
  | bob (sharedSecret signedPreKeyPrivate signedPreKeyPublic : Bytes) :
      Reachable P (ratchetInitBob sharedSecret signedPreKeyPrivate signedPreKeyPublic)
  | call {s : RatchetState} (h : Reachable P s) (call : RatchetCall P) :
      Reachable P (call.outcome s).state

structure Linked (s : RatchetState) : Prop where
  dhr : s.ckr.isSome = true → s.dhr.isSome = true
  cache : s.ckr = none → s.mkskipped = .empty

/-- The peer key stays, and so does the absence of a receiving chain. -/
structure Follows (s t : RatchetState) : Prop where
  dhr : t.dhr = s.dhr
  ckr : t.ckr.isSome = s.ckr.isSome
  cache : s.ckr = none → t.mkskipped = s.mkskipped

theorem Follows.refl (s : RatchetState) : Follows s s := ⟨rfl, rfl, fun _ => rfl⟩

theorem Follows.none_iff (h : Follows s t) : t.ckr = none ↔ s.ckr = none := by
  rw [← Option.not_isSome_iff_eq_none, ← Option.not_isSome_iff_eq_none, h.ckr]

theorem Linked.follows (h : Linked s) (hst : Follows s t) : Linked t := by
  refine ⟨fun hc => ?_, fun hc => ?_⟩
  · rw [hst.dhr]
    exact h.dhr (hst.ckr ▸ hc)
  · have hnone := hst.none_iff.mp hc
    rw [hst.cache hnone, h.cache hnone]

theorem loggedSkipLoop_follows (turns : Nat) (ckr : Bytes) (hd : s.dhr.isSome = true)
    (hc : s.ckr.isSome = true) :
    (loggedSkipLoop P turns ckr).Ends s fun _ r => ∃ t, r = .ok () t ∧ Follows s t := by
  induction turns generalizing ckr s with
  | zero => exact ⟨s, rfl, .refl s⟩
  | succ turns ih =>
    obtain ⟨dhr, hdhr⟩ := Option.isSome_iff_exists.mp hd
    rw [Logged.Ends, loggedSkipLoop_some turns ckr hdhr]
    obtain ⟨t, hr, hst⟩ := ih (s := skipTurn P ckr dhr s) (kdfCk P ckr).2 hd rfl
    refine ⟨t, hr, hst.dhr, hst.ckr.trans hc.symm, fun hnone => ?_⟩
    rw [hnone] at hc
    cases hc

theorem loggedSkip_follows (h : Linked s) (upTo : Nat) :
    (loggedSkip P upTo).Ends s fun _ r => (∃ t, r = .ok () t ∧ Follows s t) ∨
      s.ckr.isSome = true ∧ r = .error (.signalCryptoError "too many skipped messages") s := by
  cases hc : s.ckr with
  | none =>
    rw [Logged.Ends, loggedSkip_none upTo hc]
    exact .inl ⟨s, rfl, .refl s⟩
  | some ckr =>
    have hsome : s.ckr.isSome = true := by rw [hc]; rfl
    rw [Logged.Ends, loggedSkip_some upTo hc]
    by_cases hlimit : s.nr + s.maxSkip < upTo
    · rw [if_pos hlimit]
      exact .inr ⟨rfl, rfl⟩
    · rw [if_neg hlimit]
      exact .inl (loggedSkipLoop_follows (upTo - s.nr) ckr (h.dhr hsome) hsome)

/-- The verifier itself fails no assertion. -/
def Asserts (verifyMac : Option MacVerifier) : Prop :=
  ∃ verify, verifyMac = some verify ∧ ∃ macKey, verify macKey = .error .assertionError

def Asserted {α : Type} (r : EStateM.Result PyError RatchetState α) : Prop :=
  outcome r = .error .assertionError

theorem decryptAesCbc_asserts (mk ciphertext : Bytes) :
    decryptAesCbc P mk ciphertext ≠ .error .assertionError := by
  intro h
  simp only [decryptAesCbc] at h
  split at h
  · cases h
  · split at h
    · cases h
    · cases h

theorem openMessage_outcome (mk ciphertext : Bytes) (verifyMac : Option MacVerifier)
    (s : RatchetState) : outcome (openMessage P mk ciphertext verifyMac s) =
      (match verifyMac with
        | none => Except.ok ()
        | some verify => verify (deriveMessageKeys P mk).macKey).bind
          fun _ => decryptAesCbc P mk ciphertext := by
  cases verifyMac with
  | none => cases hd : decryptAesCbc P mk ciphertext <;> simp only [openMessage, hd] <;> rfl
  | some verify =>
    cases hv : verify (deriveMessageKeys P mk).macKey <;>
      cases hd : decryptAesCbc P mk ciphertext <;> simp only [openMessage, hv, hd] <;> rfl

theorem openMessage_asserts {verifyMac : Option MacVerifier} (hv : ¬ Asserts verifyMac)
    (mk ciphertext : Bytes) (s : RatchetState) :
    ¬ Asserted (openMessage P mk ciphertext verifyMac s) := by
  intro h
  rw [Asserted, openMessage_outcome] at h
  cases verifyMac with
  | none => exact decryptAesCbc_asserts mk ciphertext h
  | some verify =>
    cases hverify : verify (deriveMessageKeys P mk).macKey with
    | ok _ =>
      simp only [hverify] at h
      exact decryptAesCbc_asserts mk ciphertext h
    | error e =>
      simp only [hverify] at h
      cases h
      exact hv ⟨verify, rfl, _, hverify⟩

theorem dhRatchet_asserts (generated : KeyPair P) (header : MessageHeader) (s : RatchetState) :
    ¬ Asserted (dhRatchet P generated header s) := by
  intro hasserted
  cases h : P.x25519Exchange s.dhsPriv header.dh with
  | none =>
    rw [dhRatchet_unagreed h] at hasserted
    cases hasserted
  | some sh =>
    cases h' : P.x25519Exchange generated.priv header.dh with
    | none =>
      rw [dhRatchet_halfway h h'] at hasserted
      cases hasserted
    | some sh' =>
      rw [dhRatchet_eq h h'] at hasserted
      cases hasserted

theorem useChain_follows (ciphertext : Bytes) (verifyMac : Option MacVerifier) (s : RatchetState) :
    Follows s (finalState (useChain P ciphertext verifyMac s)) ∧ (¬ Asserts verifyMac →
      (Asserted (useChain P ciphertext verifyMac s) ↔ s.ckr = none)) := by
  cases hc : s.ckr with
  | none =>
    rw [useChain_none hc]
    exact ⟨.refl s, fun _ => iff_of_true rfl rfl⟩
  | some ckr =>
    rw [useChain_some hc, openMessage_final]
    have hckr : s.ckr.isSome = true := congrArg Option.isSome hc
    exact ⟨⟨rfl, hckr.symm, fun _ => rfl⟩,
      fun hv => iff_of_false (openMessage_asserts hv _ _ _)
        fun hnone => by cases hnone⟩

theorem Follows.trans {u : RatchetState} (h : Follows s t) (h' : Follows t u) : Follows s u := by
  refine ⟨h'.dhr.trans h.dhr, h'.ckr.trans h.ckr, fun hnone => ?_⟩
  rw [h'.cache (h.none_iff.mpr hnone), h.cache hnone]

theorem loggedReceiveAt_follows (h : Linked s) (n : Nat) (ciphertext : Bytes)
    (verifyMac : Option MacVerifier) :
    (loggedReceiveAt P n ciphertext verifyMac).Ends s fun _ r => Follows s (finalState r) ∧
      (¬ Asserts verifyMac → (Asserted r ↔ s.ckr = none)) := by
  refine (loggedSkip_follows h n).bind (fun _ _ t ht => ?_) fun _ e t ht => ?_
  · obtain ⟨t', hok, hst⟩ | ⟨_, herror⟩ := ht
    · cases hok
      obtain ⟨huse, hiff⟩ := useChain_follows (P := P) ciphertext verifyMac t
      exact ⟨hst.trans huse, fun hv => (hiff hv).trans hst.none_iff⟩
    · cases herror
  · obtain ⟨t', hok, _⟩ | ⟨hc, herror⟩ := ht
    · cases hok
    · cases herror
      refine ⟨.refl s, fun _ => iff_of_false (fun hraised => by cases hraised) fun hnone => ?_⟩
      rw [hnone] at hc
      cases hc

theorem loggedTurn_linked (h : Linked s) (generated : KeyPair P) (header : MessageHeader) :
    (loggedTurn P generated header).Ends s fun _ r => Linked (finalState r) ∧ ¬ Asserted r ∧
      ((outcome r).isOk = true → (finalState r).ckr.isSome = true) := by
  refine (loggedSkip_follows h header.pn).bind (fun _ _ t ht => ?_) fun _ e t ht => ?_
  · obtain ⟨t', hok, hst⟩ | ⟨_, herror⟩ := ht
    · cases hok
      have hturned := dhRatchet_turned generated header t
      have hasserts := dhRatchet_asserts generated header t
      rw [Logged.Ends, Logged.lift]
      generalize dhRatchet P generated header t = r at hturned hasserts ⊢
      refine ⟨⟨fun _ => congrArg Option.isSome hturned.dhr, fun hnone => ?_⟩, hasserts, fun hok => ?_⟩
      · obtain hsome | ⟨hsame, _⟩ := hturned.ckr
        · rw [hnone] at hsome
          cases hsome
        · rw [hturned.mkskipped, (h.follows hst).cache (hsame.symm.trans hnone)]
      · obtain hsome | ⟨_, e, t', herror⟩ := hturned.ckr
        · exact hsome
        · rw [herror] at hok
          cases hok
    · cases herror
  · obtain ⟨t', hok, _⟩ | ⟨hc, herror⟩ := ht
    · cases hok
    · cases herror
      refine ⟨h, ?_, ?_⟩
      · intro hraised
        cases hraised
      · intro hok
        cases hok

/-- The call that fails an assertion: no receiving chain, and not a new peer key. -/
def Stuck (s : RatchetState) (header : MessageHeader) : Prop :=
  s.ckr = none ∧ s.dhr = some header.dh

theorem loggedDecrypt_linked (h : Linked s) (generated : KeyPair P) (header : MessageHeader)
    (ciphertext : Bytes) (verifyMac : Option MacVerifier) :
    (loggedDecrypt P generated header ciphertext verifyMac).Ends s fun _ r =>
      Linked (finalState r) ∧ (¬ Asserts verifyMac → (Asserted r ↔ Stuck s header)) := by
  cases hk : s.mkskipped.get? (header.dh, header.n) with
  | some mk =>
    have hsome : s.ckr.isSome = true := by
      by_contra hnone
      rw [h.cache (Option.not_isSome_iff_eq_none.mp hnone)] at hk
      cases hk
    have hfree : ¬ Stuck s header := by
      intro hstuck
      rw [hstuck.1] at hsome
      cases hsome
    have hlinked : Linked { s with mkskipped := s.mkskipped.erase (header.dh, header.n) } := by
      refine ⟨h.dhr, fun hnone => ?_⟩
      rw [hnone] at hsome
      cases hsome
    refine (loggedTrySkipped_some hk).bind (fun _ plain t ht => ?_) fun _ e t ht => ?_
    · obtain ⟨_, hfinal, hplain, _⟩ := ht
      cases plain with
      | none => exact absurd rfl hplain
      | some plain => exact ⟨hfinal ▸ hlinked, fun _ => iff_of_false (fun hraised => by cases hraised) hfree⟩
    · obtain ⟨_, hfinal, _, herror⟩ := ht
      refine ⟨hfinal ▸ hlinked, fun hv => iff_of_false (fun hasserted => ?_) hfree⟩
      exact openMessage_asserts hv mk ciphertext _ ((herror e rfl).trans hasserted)
  | none =>
    have htry : (loggedTrySkipped P header ciphertext verifyMac).Ends s fun _ r =>
        r = .ok none s := by
      rw [Logged.Ends, loggedTrySkipped_none hk]
    refine htry.bind (fun _ plain t ht => ?_) fun _ _ _ ht => by cases ht
    cases ht
    refine Logged.Ends.get_bind ?_
    by_cases hd : s.dhr = some header.dh
    · rw [if_pos hd]
      refine (loggedReceiveAt_follows h header.n ciphertext verifyMac).mono fun _ r hr => ?_
      refine ⟨h.follows hr.1, fun hv => (hr.2 hv).trans ?_⟩
      exact ⟨fun hnone => ⟨hnone, hd⟩, fun hstuck => hstuck.1⟩
    · rw [if_neg hd]
      have hfree : ¬ Stuck s header := fun hstuck => hd hstuck.2
      refine (loggedTurn_linked h generated header).bind (fun _ _ t ht => ?_) fun _ e t ht => ?_
      · obtain ⟨hlinked, _, hsome⟩ := ht
        refine (loggedReceiveAt_follows hlinked header.n ciphertext verifyMac).mono fun _ r hr => ?_
        refine ⟨hlinked.follows hr.1, fun hv => (hr.2 hv).trans (iff_of_false (fun hnone => ?_) hfree)⟩
        have hckr := hsome rfl
        rw [hnone] at hckr
        cases hckr
      · obtain ⟨hlinked, hasserts, _⟩ := ht
        refine ⟨hlinked, fun _ => iff_of_false (fun h => hasserts ?_) hfree⟩
        cases h
        rfl

theorem ratchetDecrypt_linked (h : Linked s) (generated : KeyPair P) (header : MessageHeader)
    (ciphertext ad : Bytes) (verifyMac : Option MacVerifier) :
    Linked (finalState (ratchetDecrypt P generated header ciphertext ad verifyMac s)) ∧
      (¬ Asserts verifyMac →
        (Asserted (ratchetDecrypt P generated header ciphertext ad verifyMac s) ↔
          Stuck s header)) := by
  rw [← loggedDecrypt_erase generated header ciphertext ad verifyMac]
  exact loggedDecrypt_linked h generated header ciphertext verifyMac

theorem ratchetEncrypt_linked (h : Linked s) (plaintext ad : Bytes) :
    Linked (finalState (ratchetEncrypt P plaintext ad s)) := by
  cases hc : s.cks with
  | none =>
    rw [ratchetEncrypt_none hc]
    exact h
  | some cks =>
    rw [ratchetEncrypt_eq hc]
    exact ⟨h.dhr, h.cache⟩

theorem outcome_linked (h : Linked s) (call : RatchetCall P) : Linked (call.outcome s).state := by
  cases call with
  | encrypt plaintext ad =>
    have hlinked := ratchetEncrypt_linked (P := P) h plaintext ad
    simp only [RatchetCall.outcome, RatchetCall.run, EStateM.run, bind, EStateM.bind]
    cases hrun : ratchetEncrypt P plaintext ad s <;> rw [hrun] at hlinked <;> exact hlinked
  | decrypt generated header ciphertext ad verifyMac =>
    have hlinked := (ratchetDecrypt_linked h generated header ciphertext ad verifyMac).1
    simp only [RatchetCall.outcome, RatchetCall.run, EStateM.run, bind, EStateM.bind]
    cases hrun : ratchetDecrypt P generated header ciphertext ad verifyMac s <;>
      rw [hrun] at hlinked <;> exact hlinked

theorem reachable_linked (h : Reachable P s) : Linked s := by
  induction h with
  | @alice generated _ peerSignedPreKeyPublic _ h =>
    rw [ratchetInitAlice] at h
    cases hdh : ratchetDh P generated.priv peerSignedPreKeyPublic with
    | error e =>
      rw [hdh] at h
      cases h
    | ok shared =>
      rw [hdh] at h
      cases h
      refine ⟨?_, fun _ => rfl⟩
      intro hsome
      cases hsome
  | bob sharedSecret signedPreKeyPrivate signedPreKeyPublic =>
    refine ⟨?_, fun _ => rfl⟩
    intro hsome
    cases hsome
  | call _ call ih => exact outcome_linked ih call

/-- In every reachable state, an assertion fails on exactly one kind of header. -/
theorem ratchet_asserts_iff_stuck (h : Reachable P s) (generated : KeyPair P)
    (header : MessageHeader) (ciphertext ad : Bytes) {verify : MacVerifier}
    (hverify : ∀ macKey, verify macKey ≠ .error .assertionError) :
    outcome (ratchetDecrypt P generated header ciphertext ad (some verify) s) ≠
      .error .assertionError ↔ ¬ (s.ckr = none ∧ s.dhr = some header.dh) := by
  refine not_congr ((ratchetDecrypt_linked (reachable_linked h) generated header ciphertext ad
    (some verify)).2 ?_)
  rintro ⟨_, ⟨⟩, macKey, hasserts⟩
  exact hverify macKey hasserts

section Demo

def demoInitiated : RatchetState :=
  (ratchetInitAlice demoPrimitives (demoKey 3) [7] [9]).toOption.getD (ratchetInitBob [] [] [])

theorem demoInitiated_reachable : Reachable demoPrimitives demoInitiated :=
  @Reachable.alice _ (demoKey 3) [7] [9] _ rfl

theorem ratchet_asserts_iff_stuck_fresh :
    outcome (ratchetDecrypt demoPrimitives (demoKey 4) ⟨[8], 0, 0⟩ [] [] (some (expectMac []))
      demoInitiated) ≠ .error .assertionError := by
  refine (ratchet_asserts_iff_stuck demoInitiated_reachable (demoKey 4) ⟨[8], 0, 0⟩ [] [] ?_).mpr ?_
  · intro macKey h
    rw [expectMac] at h
    split at h
    · cases h
    · cases h
  · decide +kernel

/-- A peer that answers an initiator under its own signed prekey. -/
theorem peer_fails_assertion : ¬ ∀ (s : RatchetState) (header : MessageHeader) (ciphertext ad : Bytes)
    (macKey : Bytes), Reachable demoPrimitives s →
    outcome (ratchetDecrypt demoPrimitives (demoKey 4) header ciphertext ad
      (some (expectMac macKey)) s) ≠ .error .assertionError := by
  intro h
  exact h demoInitiated ⟨[9], 0, 0⟩ [] [] [] demoInitiated_reachable (by decide +kernel)

end Demo

end PyWhats
