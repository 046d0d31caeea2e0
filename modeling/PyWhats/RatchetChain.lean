import Mathlib.Logic.Function.Iterate
import PyWhats.Ratchet

/-! Positions of a symmetric chain, and what each ratchet operation does to a
state whose chains are given by a seed and a position. -/

namespace PyWhats

def nextChainKey (P : Primitives) (ck : Bytes) : Bytes := (kdfCk P ck).2

def chainAt (P : Primitives) (seed : Bytes) (n : Nat) : Bytes := (nextChainKey P)^[n] seed

def messageKey (P : Primitives) (seed : Bytes) (n : Nat) : Bytes := (kdfCk P (chainAt P seed n)).1

variable {P : Primitives}

theorem chainAt_succ (seed : Bytes) (n : Nat) :
    chainAt P seed (n + 1) = nextChainKey P (chainAt P seed n) :=
  Function.iterate_succ_apply' _ _ _

theorem chainAt_add (seed : Bytes) (m n : Nat) :
    chainAt P (chainAt P seed m) n = chainAt P seed (m + n) := by
  rw [chainAt, chainAt, ← Function.iterate_add_apply, Nat.add_comm]
  rfl

theorem messageKey_chainAt (seed : Bytes) (m n : Nat) :
    messageKey P (chainAt P seed m) n = messageKey P seed (m + n) := by
  rw [messageKey, chainAt_add, messageKey]

theorem decryptAesCbc_encrypt (hP : P.Lawful) (mk plaintext : Bytes) :
    decryptAesCbc P mk (encryptAesCbc P mk plaintext).1 = .ok plaintext := by
  have hk : (deriveMessageKeys P mk).cipherKey.length = 32 := by
    simp [deriveMessageKeys, hP.hkdf_length]
  have hiv : (deriveMessageKeys P mk).iv.length = 16 := by
    simp [deriveMessageKeys, hP.hkdf_length]
  simp only [decryptAesCbc, encryptAesCbc,
    hP.cbc_decrypt_encrypt _ _ _ hk hiv (pkcs7Pad_length_mod plaintext), pkcs7Unpad_pad]

def verdict {σ : Type} (v : Option MacVerifier) (macKey plaintext : Bytes) (s : σ) :
    EStateM.Result PyError σ Bytes :=
  match v with
  | none => .ok plaintext s
  | some verify =>
    match verify macKey with
    | .ok _ => .ok plaintext s
    | .error e => .error e s

theorem openMessage_encrypt (hP : P.Lawful) (mk plaintext : Bytes) (v : Option MacVerifier)
    (s : RatchetState) :
    openMessage P mk (encryptAesCbc P mk plaintext).1 v s =
      verdict v (encryptAesCbc P mk plaintext).2 plaintext s := by
  have hd := decryptAesCbc_encrypt hP mk plaintext
  cases v with
  | none => simp only [openMessage, hd]; rfl
  | some verify =>
    have hm : (encryptAesCbc P mk plaintext).2 = (deriveMessageKeys P mk).macKey := rfl
    cases hv : verify (deriveMessageKeys P mk).macKey <;>
      simp only [openMessage, hv, hd, verdict, hm] <;> rfl

theorem ratchetEncrypt_eq {st : RatchetState} {ck : Bytes} (hck : st.cks = some ck)
    (plaintext ad : Bytes) :
    ratchetEncrypt P plaintext ad st =
      .ok (⟨st.dhsPub, st.pn, st.ns⟩, encryptAesCbc P (kdfCk P ck).1 plaintext)
        { st with cks := some (nextChainKey P ck), ns := st.ns + 1 } := by
  cases st
  subst hck
  rfl

theorem ratchetEncrypt_none {st : RatchetState} (hck : st.cks = none) (plaintext ad : Bytes) :
    ratchetEncrypt P plaintext ad st =
      .error (.signalCryptoError "ratchet sending chain not initialised") st := by
  cases st
  subst hck
  rfl

/-- While the cache stays within its bound, skipping `turns` keys from chain
key `ck` caches exactly those keys and moves the chain past them. -/
theorem skipLoop_spec (turns : Nat) {st : RatchetState} {ck dhr : Bytes}
    (hck : st.ckr = some ck) (hd : st.dhr = some dhr)
    (hsize : st.mkskipped.size + turns ≤ maxSkippedTotal) :
    ∃ sk, skipLoop P turns ck st =
        .ok () { st with ckr := some (chainAt P ck turns), nr := st.nr + turns, mkskipped := sk } ∧
      sk.size ≤ st.mkskipped.size + turns ∧
      ∀ k : Bytes × Nat, sk.get? k =
        if k.1 = dhr ∧ st.nr ≤ k.2 ∧ k.2 < st.nr + turns
        then some (messageKey P ck (k.2 - st.nr)) else st.mkskipped.get? k := by
  induction turns generalizing st ck with
  | zero =>
    refine ⟨st.mkskipped, ?_, by simp, ?_⟩
    · cases st
      subst hck
      rfl
    · intro k
      rw [if_neg (by omega)]
  | succ turns ih =>
    have hle := st.mkskipped.size_set_le (dhr, st.nr) (kdfCk P ck).1
    have hc : cacheSkipped st.mkskipped (dhr, st.nr) (kdfCk P ck).1 =
        st.mkskipped.set (dhr, st.nr) (kdfCk P ck).1 := by
      rw [cacheSkipped, if_neg (by omega)]
    let st' : RatchetState := { st with
      ckr := some (nextChainKey P ck)
      mkskipped := st.mkskipped.set (dhr, st.nr) (kdfCk P ck).1, nr := st.nr + 1 }
    have hck' : st'.ckr = some (nextChainKey P ck) := rfl
    obtain ⟨sk, hrun, hsz, hget⟩ := ih hck' hd (by simp only [st']; omega)
    have hstep : skipLoop P (turns + 1) ck st = skipLoop P turns (nextChainKey P ck) st' := by
      cases st
      simp only at hd hc
      subst hd
      simp only [st', ← hc]
      rfl
    refine ⟨sk, ?_, by simp only [st'] at hsz; omega, ?_⟩
    · rw [hstep, hrun]
      have hchain : chainAt P (nextChainKey P ck) turns = chainAt P ck (turns + 1) := by
        rw [Nat.add_comm, ← chainAt_add]
        rfl
      simp only [st', hchain, Nat.add_assoc, Nat.add_comm 1 turns]
    · intro k
      rw [hget k]
      by_cases hk : k.1 = dhr ∧ st.nr ≤ k.2 ∧ k.2 < st.nr + (turns + 1)
      · rw [if_pos hk]
        by_cases hnr : k.2 = st.nr
        · have he : k = (dhr, st.nr) := Prod.ext hk.1 hnr
          rw [if_neg (by simp only [st']; omega)]
          simp only [st', he, OrderedMap.get?_set_self, Nat.sub_self]
          rfl
        · rw [if_pos (by simp only [st']; exact ⟨hk.1, by omega, by omega⟩)]
          obtain ⟨i, hi⟩ : ∃ i, k.2 - st.nr = i + 1 := ⟨k.2 - st.nr - 1, by omega⟩
          have hi' : k.2 - st'.nr = i := by simp only [st']; omega
          rw [hi, hi', Nat.add_comm, ← messageKey_chainAt ck 1 i]
          rfl
      · have hk' : ¬ (k.1 = dhr ∧ st'.nr ≤ k.2 ∧ k.2 < st'.nr + turns) := by
          rintro ⟨h1, h2, h3⟩
          simp only [st'] at h2 h3
          exact hk ⟨h1, by omega, by omega⟩
        rw [if_neg hk, if_neg hk']
        apply OrderedMap.get?_set_ne
        rintro rfl
        exact hk ⟨rfl, Nat.le_refl _, by omega⟩

theorem skipMessageKeys_none {st : RatchetState} (upTo : Nat) (h : st.ckr = none) :
    skipMessageKeys P upTo st = .ok () st := by
  cases st
  subst h
  rfl

theorem skipMessageKeys_some {st : RatchetState} {ck : Bytes} {upTo : Nat}
    (hck : st.ckr = some ck) (hmax : upTo ≤ st.nr + st.maxSkip) :
    skipMessageKeys P upTo st = skipLoop P (upTo - st.nr) ck st := by
  cases st
  subst hck
  have hn : ¬ _ + _ < upTo := Nat.not_lt.mpr hmax
  show (if _ + _ < upTo then _ else _ : RatchetM PUnit) _ = _
  rw [if_neg hn]

theorem skipMessageKeys_limit {st : RatchetState} {ck : Bytes} {upTo : Nat}
    (hck : st.ckr = some ck) (hmax : st.nr + st.maxSkip < upTo) :
    skipMessageKeys P upTo st = .error (.signalCryptoError "too many skipped messages") st := by
  cases st
  subst hck
  show (if _ + _ < upTo then _ else _ : RatchetM PUnit) _ = _
  rw [if_pos hmax]
  rfl

/-- The state after a DH ratchet step in which `sh` is agreed with the old key
pair and `sh'` with the generated one. -/
def dhRatcheted (P : Primitives) (generated : KeyPair P) (dh sh sh' : Bytes) (st : RatchetState) :
    RatchetState :=
  { st with
    pn := st.ns, ns := 0, nr := 0, dhr := some dh
    dhsPriv := generated.priv, dhsPub := generated.pub
    ckr := some (kdfRk P st.rk sh).2
    rk := (kdfRk P (kdfRk P st.rk sh).1 sh').1
    cks := some (kdfRk P (kdfRk P st.rk sh).1 sh').2 }

theorem dhRatchet_eq {st : RatchetState} {generated : KeyPair P} {header : MessageHeader}
    {sh sh' : Bytes} (h : P.x25519Exchange st.dhsPriv header.dh = some sh)
    (h' : P.x25519Exchange generated.priv header.dh = some sh') :
    dhRatchet P generated header st = .ok () (dhRatcheted P generated header.dh sh sh' st) := by
  have e : ratchetDh P st.dhsPriv header.dh = .ok sh := by simp only [ratchetDh, h]
  have e' : ratchetDh P generated.priv header.dh = .ok sh' := by simp only [ratchetDh, h']
  show (liftExcept (ratchetDh P st.dhsPriv header.dh) >>= fun shared => _ : RatchetM Unit) _ = _
  rw [e]
  show (liftExcept (ratchetDh P generated.priv header.dh) >>= fun shared' => _ : RatchetM Unit) _ = _
  rw [e']
  rfl

section Decrypt

variable {st : RatchetState} {header : MessageHeader} {ct ad : Bytes} {v : Option MacVerifier}
  {generated : KeyPair P}

theorem ratchetDecrypt_cached {mk : Bytes}
    (hk : st.mkskipped.get? (header.dh, header.n) = some mk) :
    ratchetDecrypt P generated header ct ad v st =
      openMessage P mk ct v { st with mkskipped := st.mkskipped.erase (header.dh, header.n) } := by
  have ht : trySkippedMessageKeys P header ct ad v st =
      (openMessage P mk ct v >>= fun p => pure (some p) : RatchetM (Option Bytes))
        { st with mkskipped := st.mkskipped.erase (header.dh, header.n) } := by
    have hget : (get : RatchetM RatchetState) st = .ok st st := rfl
    simp only [trySkippedMessageKeys, bind, EStateM.bind, hget, hk]
    rfl
  show (trySkippedMessageKeys P header ct ad v >>= _ : RatchetM Bytes) st = _
  simp only [bind, EStateM.bind, ht]
  cases openMessage P mk ct v { st with mkskipped := st.mkskipped.erase (header.dh, header.n) } <;>
    rfl

theorem trySkippedMessageKeys_none (hk : st.mkskipped.get? (header.dh, header.n) = none) :
    trySkippedMessageKeys P header ct ad v st = .ok none st := by
  have hget : (get : RatchetM RatchetState) st = .ok st st := rfl
  simp only [trySkippedMessageKeys, bind, EStateM.bind, hget, hk]
  rfl

/-- The end of `ratchet_decrypt`: skip up to the message and use its key. -/
def receiveAt (P : Primitives) (n : Nat) (ct : Bytes) (v : Option MacVerifier) : RatchetM Bytes := do
  skipMessageKeys P n
  let state ← get
  match state.ckr with
  | none => throw .assertionError
  | some ckr =>
    set { state with ckr := some (nextChainKey P ckr), nr := state.nr + 1 }
    openMessage P (kdfCk P ckr).1 ct v

theorem ratchetDecrypt_current (hk : st.mkskipped.get? (header.dh, header.n) = none)
    (hd : st.dhr = some header.dh) :
    ratchetDecrypt P generated header ct ad v st = receiveAt P header.n ct v st := by
  show (trySkippedMessageKeys P header ct ad v >>= _ : RatchetM Bytes) st = _
  simp only [bind, EStateM.bind, trySkippedMessageKeys_none hk]
  show (if st.dhr ≠ some header.dh then _ else _ : RatchetM Bytes) st = _
  rw [if_neg (not_not.mpr hd)]
  rfl

theorem ratchetDecrypt_newChain {st' : RatchetState} {sh sh' : Bytes}
    (hk : st.mkskipped.get? (header.dh, header.n) = none)
    (hd : st.dhr ≠ some header.dh) (hskip : skipMessageKeys P header.pn st = .ok () st')
    (h : P.x25519Exchange st'.dhsPriv header.dh = some sh)
    (h' : P.x25519Exchange generated.priv header.dh = some sh') :
    ratchetDecrypt P generated header ct ad v st =
      receiveAt P header.n ct v (dhRatcheted P generated header.dh sh sh' st') := by
  have hr := dhRatchet_eq h h'
  show (trySkippedMessageKeys P header ct ad v >>= _ : RatchetM Bytes) st = _
  simp only [bind, EStateM.bind, trySkippedMessageKeys_none hk]
  show (if st.dhr ≠ some header.dh then _ else _ : RatchetM Bytes) st = _
  rw [if_pos hd]
  cases hc : st.ckr with
  | none =>
    obtain rfl : st = st' := by
      rw [skipMessageKeys_none _ hc] at hskip
      simpa using hskip
    simp only [EStateM.bind, Option.isSome_none, Bool.false_eq_true, if_false, hr]
    rfl
  | some ck =>
    simp only [EStateM.bind, Option.isSome_some, if_true, hskip, hr]
    rfl

theorem receiveAt_spec {ck dhr : Bytes} {n : Nat} (hck : st.ckr = some ck)
    (hd : st.dhr = some dhr) (hn : st.nr ≤ n) (hmax : n ≤ st.nr + st.maxSkip)
    (hsize : st.mkskipped.size + (n - st.nr) ≤ maxSkippedTotal) :
    ∃ sk, (∀ ct v, receiveAt P n ct v st = openMessage P (messageKey P ck (n - st.nr)) ct v
        { st with ckr := some (chainAt P ck (n - st.nr + 1)), nr := n + 1, mkskipped := sk }) ∧
      ∀ k : Bytes × Nat, sk.get? k =
        if k.1 = dhr ∧ st.nr ≤ k.2 ∧ k.2 < n
        then some (messageKey P ck (k.2 - st.nr)) else st.mkskipped.get? k := by
  obtain ⟨sk, hrun, -, hget⟩ := skipLoop_spec (P := P) (n - st.nr) hck hd hsize
  have hadd : st.nr + (n - st.nr) = n := by omega
  rw [hadd] at hrun
  simp only [hadd] at hget
  refine ⟨sk, fun ct v => ?_, hget⟩
  show (skipMessageKeys P n >>= _ : RatchetM Bytes) st = _
  simp only [bind, EStateM.bind, skipMessageKeys_some hck hmax, hrun]
  rw [chainAt_succ]
  rfl

theorem receiveAt_next {ck : Bytes} (hck : st.ckr = some ck) (ct : Bytes) (v : Option MacVerifier) :
    receiveAt P st.nr ct v st = openMessage P (kdfCk P ck).1 ct v
      { st with ckr := some (nextChainKey P ck), nr := st.nr + 1 } := by
  have hskip : skipMessageKeys P st.nr st = .ok () st := by
    rw [skipMessageKeys_some hck (Nat.le_add_right _ _), Nat.sub_self]
    rfl
  show (skipMessageKeys P st.nr >>= _ : RatchetM Bytes) st = _
  simp only [bind, EStateM.bind, hskip]
  show (match st.ckr with
    | none => _ | some ckr => _ : RatchetM Bytes) st = _
  rw [hck]
  rfl

theorem openMessage_refused {mk : Bytes} {verify : MacVerifier} {e : PyError}
    (h : verify (deriveMessageKeys P mk).macKey = .error e) :
    openMessage P mk ct (some verify) st = .error e st := by
  simp only [openMessage, h]
  rfl

end Decrypt

section Sending

theorem estate_bind_ok {σ α β : Type} {m : EStateM PyError σ α} {f : α → EStateM PyError σ β}
    {s s' : σ} {b : β} (h : (m >>= f) s = .ok b s') :
    ∃ a s₁, m s = .ok a s₁ ∧ f a s₁ = .ok b s' := by
  simp only [bind, EStateM.bind] at h
  split at h
  · rename_i a s₁ hm
    exact ⟨a, s₁, hm, h⟩
  · cases h

structure SameSending (st st' : RatchetState) : Prop where
  cks : st'.cks = st.cks
  dhsPub : st'.dhsPub = st.dhsPub
  ns : st'.ns = st.ns

theorem SameSending.trans {st st' st'' : RatchetState} (h : SameSending st st')
    (h' : SameSending st' st'') : SameSending st st'' :=
  ⟨h'.cks.trans h.cks, h'.dhsPub.trans h.dhsPub, h'.ns.trans h.ns⟩

theorem skipLoop_sending {turns : Nat} {ck : Bytes} {st st' : RatchetState}
    (h : skipLoop P turns ck st = .ok () st') : SameSending st st' := by
  induction turns generalizing ck st with
  | zero =>
    cases h
    exact ⟨rfl, rfl, rfl⟩
  | succ turns ih =>
    cases hd : st.dhr with
    | none =>
      have : skipLoop P (turns + 1) ck st =
          .error .assertionError { st with ckr := some (kdfCk P ck).2 } := by
        cases st
        subst hd
        rfl
      rw [this] at h
      cases h
    | some dhr =>
      have hstep : skipLoop P (turns + 1) ck st = skipLoop P turns (kdfCk P ck).2 { st with
          ckr := some (kdfCk P ck).2
          mkskipped := cacheSkipped st.mkskipped (dhr, st.nr) (kdfCk P ck).1
          nr := st.nr + 1 } := by
        cases st
        subst hd
        rfl
      rw [hstep] at h
      refine SameSending.trans ?_ (ih h)
      exact ⟨rfl, rfl, rfl⟩

theorem skipMessageKeys_sending {upTo : Nat} {st st' : RatchetState}
    (h : skipMessageKeys P upTo st = .ok () st') : SameSending st st' := by
  cases hck : st.ckr with
  | none =>
    rw [skipMessageKeys_none upTo hck] at h
    cases h
    exact ⟨rfl, rfl, rfl⟩
  | some ck =>
    by_cases hmax : upTo ≤ st.nr + st.maxSkip
    · rw [skipMessageKeys_some hck hmax] at h
      exact skipLoop_sending h
    · rw [skipMessageKeys_limit hck (Nat.not_le.mp hmax)] at h
      cases h

theorem openMessage_state {mk ct plaintext : Bytes} {v : Option MacVerifier} {st st' : RatchetState}
    (h : openMessage P mk ct v st = .ok plaintext st') : st' = st := by
  have hlift : ∀ {α : Type} {x : Except PyError α} {s s' : RatchetState} {a : α},
      liftExcept x s = .ok a s' → s' = s := by
    intro α x s s' a hx
    cases x <;> cases hx
    rfl
  cases v with
  | none => exact hlift h
  | some verify =>
    obtain ⟨_, _, hverify, hdec⟩ := estate_bind_ok h
    exact (hlift hdec).trans (hlift hverify)

theorem openMessage_verified {mk ct plaintext : Bytes} {verify : MacVerifier} {st st' : RatchetState}
    (h : openMessage P mk ct (some verify) st = .ok plaintext st') :
    verify (deriveMessageKeys P mk).macKey = .ok () := by
  cases hverify : verify (deriveMessageKeys P mk).macKey with
  | ok u => rfl
  | error e =>
    rw [openMessage_refused hverify] at h
    cases h

theorem receiveAt_inv {n : Nat} {ct plaintext : Bytes} {v : Option MacVerifier}
    {st st' : RatchetState} (h : receiveAt P n ct v st = .ok plaintext st') :
    ∃ st₁ ck, skipMessageKeys P n st = .ok () st₁ ∧ st₁.ckr = some ck ∧
      openMessage P (kdfCk P ck).1 ct v
        { st₁ with ckr := some (nextChainKey P ck), nr := st₁.nr + 1 } = .ok plaintext st' := by
  obtain ⟨_, st₁, hskip, h⟩ := estate_bind_ok h
  change (match st₁.ckr with
    | none => throw PyError.assertionError
    | some ckr => _ : RatchetM Bytes) st₁ = _ at h
  cases hck : st₁.ckr with
  | none =>
    rw [hck] at h
    cases h
  | some ck =>
    rw [hck] at h
    exact ⟨st₁, ck, hskip, hck, h⟩

theorem receiveAt_sending {n : Nat} {ct plaintext : Bytes} {v : Option MacVerifier}
    {st st' : RatchetState} (h : receiveAt P n ct v st = .ok plaintext st') : SameSending st st' := by
  obtain ⟨st₁, ck, hskip, _, hopen⟩ := receiveAt_inv h
  refine (skipMessageKeys_sending hskip).trans ?_
  rw [openMessage_state hopen]
  exact ⟨rfl, rfl, rfl⟩

theorem dhRatchet_inv {generated : KeyPair P} {header : MessageHeader} {st st' : RatchetState}
    (h : dhRatchet P generated header st = .ok () st') :
    ∃ sh sh', P.x25519Exchange st.dhsPriv header.dh = some sh ∧
      P.x25519Exchange generated.priv header.dh = some sh' ∧
      st' = dhRatcheted P generated header.dh sh sh' st := by
  cases hsh : P.x25519Exchange st.dhsPriv header.dh with
  | none =>
    change (liftExcept (ratchetDh P st.dhsPriv header.dh) >>= _ : RatchetM Unit) _ = _ at h
    rw [ratchetDh, hsh] at h
    cases h
  | some sh =>
    cases hsh' : P.x25519Exchange generated.priv header.dh with
    | none =>
      change (liftExcept (ratchetDh P st.dhsPriv header.dh) >>= _ : RatchetM Unit) _ = _ at h
      rw [ratchetDh, hsh] at h
      change (liftExcept (ratchetDh P generated.priv header.dh) >>= _ : RatchetM Unit) _ = _ at h
      rw [ratchetDh, hsh'] at h
      cases h
    | some sh' =>
      rw [dhRatchet_eq hsh hsh'] at h
      cases h
      exact ⟨sh, sh', rfl, rfl, rfl⟩

theorem ratchetDecrypt_turned {generated : KeyPair P} {header : MessageHeader}
    {ct ad plaintext : Bytes} {v : Option MacVerifier} {st st' : RatchetState}
    (hk : st.mkskipped.get? (header.dh, header.n) = none) (hd : st.dhr ≠ some header.dh)
    (h : ratchetDecrypt P generated header ct ad v st = .ok plaintext st') :
    ∃ st₁ sh sh', skipMessageKeys P header.pn st = .ok () st₁ ∧
      P.x25519Exchange st₁.dhsPriv header.dh = some sh ∧
      P.x25519Exchange generated.priv header.dh = some sh' ∧
      receiveAt P header.n ct v (dhRatcheted P generated header.dh sh sh' st₁) =
        .ok plaintext st' := by
  change (trySkippedMessageKeys P header ct ad v >>= _ : RatchetM Bytes) st = _ at h
  simp only [bind, EStateM.bind, trySkippedMessageKeys_none hk] at h
  change (if st.dhr ≠ some header.dh then _ else _ : RatchetM Bytes) st = _ at h
  rw [if_pos hd] at h
  have hrest : ∀ s, skipMessageKeys P header.pn st = .ok () s →
      (dhRatchet P generated header >>= fun _ => receiveAt P header.n ct v) s = .ok plaintext st' →
      ∃ st₁ sh sh', skipMessageKeys P header.pn st = .ok () st₁ ∧
        P.x25519Exchange st₁.dhsPriv header.dh = some sh ∧
        P.x25519Exchange generated.priv header.dh = some sh' ∧
        receiveAt P header.n ct v (dhRatcheted P generated header.dh sh sh' st₁) =
          .ok plaintext st' := by
    intro s hskip hs
    obtain ⟨_, s₁, hr, hrecv⟩ := estate_bind_ok hs
    obtain ⟨sh, sh', hsh, hsh', rfl⟩ := dhRatchet_inv hr
    exact ⟨s, sh, sh', hskip, hsh, hsh', hrecv⟩
  cases hc : st.ckr with
  | none =>
    rw [if_neg (by simp [hc])] at h
    exact hrest st (skipMessageKeys_none _ hc) h
  | some ck =>
    rw [if_pos (by simp [hc])] at h
    obtain ⟨_, s₁, hskip, hs₁⟩ := estate_bind_ok h
    exact hrest s₁ hskip hs₁

/-- Decrypting leaves the sending chain alone, or starts a new one under the
generated key. -/
theorem ratchetDecrypt_sending {generated : KeyPair P} {header : MessageHeader}
    {ct ad plaintext : Bytes} {v : Option MacVerifier} {st st' : RatchetState}
    (h : ratchetDecrypt P generated header ct ad v st = .ok plaintext st') :
    SameSending st st' ∨ st'.dhsPub = generated.pub ∧ st'.ns = 0 := by
  cases hk : st.mkskipped.get? (header.dh, header.n) with
  | some mk =>
    rw [ratchetDecrypt_cached hk] at h
    rw [openMessage_state h]
    exact .inl ⟨rfl, rfl, rfl⟩
  | none =>
    by_cases hd : st.dhr = some header.dh
    · rw [ratchetDecrypt_current hk hd] at h
      exact .inl (receiveAt_sending h)
    · obtain ⟨st₁, sh, sh', _, _, _, hrecv⟩ := ratchetDecrypt_turned hk hd h
      have hsame := receiveAt_sending hrecv
      exact .inr ⟨hsame.dhsPub, hsame.ns⟩

end Sending

end PyWhats
