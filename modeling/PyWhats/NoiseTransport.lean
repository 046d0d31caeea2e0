import Mathlib.Data.List.Nodup
import Mathlib.Logic.Relation
import PyWhats.NoiseHandshake

/-! The transport after the handshake. Each side seals its messages under a lock and
renews the key every `2 ^ 31` of them; the other side decides by its own counter when
to do the same. -/

namespace PyWhats.Noise

/-- `_REKEY_INTERVAL`. -/
def rekeyInterval : Nat := 2147483648

section Calls

variable (A : Aead)

/-- What `send` and `recv` do first when they hold their lock. -/
def renew (cs : CipherState) : Except NoiseError CipherState :=
  if cs.n ≥ rekeyInterval then do return (← cs.rekey A).setNonce 0 else .ok cs

def sealNext (cs : CipherState) (plaintext : Bytes) : Except NoiseError (Bytes × CipherState) := do
  let cs ← renew A cs
  cs.encryptWithAd A [] plaintext

/-- The key and the nonce of an encryption with the counter `n`. -/
def pairAt (cs : CipherState) (n : Nat) : List (Bytes × Bytes) :=
  match cs.k, buildNonce cs.cipher n with
  | some k, .ok nonce => [(k, nonce)]
  | _, _ => []

/-- The derivation that `renew` makes, if it makes one. -/
def renewalPair (cs : CipherState) : List (Bytes × Bytes) :=
  if cs.n ≥ rekeyInterval then pairAt cs maxNonce else []

end Calls

/-- One direction of the connection: the sending half of one transport, the frames on
their way and the receiving half of the other. Calls queue on the locks in their order;
`calls`, `sealed`, `received`, `refused` and the lists of key and nonce pairs record what
happened. -/
structure Link where
  sendState : CipherState
  recvState : CipherState
  sendQueue : List Bytes := []
  sending : Option Bytes := none
  wire : List Bytes := []
  recvQueue : Nat := 0
  receiving : Bool := false
  calls : List Bytes := []
  sealed : List Bytes := []
  counters : List Nat := []
  received : List (Except NoiseError Bytes) := []
  refused : List NoiseError := []
  messagePairs : List (Bytes × Bytes) := []
  senderRenewals : List (Bytes × Bytes) := []
  receiverRenewals : List (Bytes × Bytes) := []

inductive LinkStep (A : Aead) : Link → Link → Prop
  | call {l : Link} (plaintext : Bytes) :
      LinkStep A l { l with
        sendQueue := l.sendQueue ++ [plaintext], calls := l.calls ++ [plaintext] }
  | sealMessage {l : Link} {plaintext ct : Bytes} {rest : List Bytes} {cs cs' : CipherState}
      (hfree : l.sending = none) (hnext : l.sendQueue = plaintext :: rest)
      (hrenew : renew A l.sendState = .ok cs)
      (hseal : cs.encryptWithAd A [] plaintext = .ok (ct, cs')) :
      LinkStep A l { l with
        sendState := cs', sendQueue := rest, sending := some ct, sealed := l.sealed ++ [plaintext]
        counters := l.counters ++ [cs.n]
        messagePairs := l.messagePairs ++ pairAt cs cs.n
        senderRenewals := l.senderRenewals ++ renewalPair l.sendState }
  | sealMessageFails {l : Link} {plaintext : Bytes} {rest : List Bytes} {e : NoiseError}
      (hfree : l.sending = none) (hnext : l.sendQueue = plaintext :: rest)
      (hseal : sealNext A l.sendState plaintext = .error e) :
      LinkStep A l { l with
        sendState := (renew A l.sendState).toOption.getD l.sendState
        sendQueue := rest, refused := l.refused ++ [e] }
  | sent {l : Link} {ct : Bytes} (hsending : l.sending = some ct) :
      LinkStep A l { l with sending := none, wire := l.wire ++ [ct] }
  | recvCall {l : Link} : LinkStep A l { l with recvQueue := l.recvQueue + 1 }
  | awaitFrame {l : Link} {waiting : Nat} {cs : CipherState} (hfree : l.receiving = false)
      (hnext : l.recvQueue = waiting + 1) (hrenew : renew A l.recvState = .ok cs) :
      LinkStep A l { l with
        recvState := cs, recvQueue := waiting, receiving := true
        receiverRenewals := l.receiverRenewals ++ renewalPair l.recvState }
  | awaitFrameFails {l : Link} {waiting : Nat} {e : NoiseError} (hfree : l.receiving = false)
      (hnext : l.recvQueue = waiting + 1) (hrenew : renew A l.recvState = .error e) :
      LinkStep A l { l with recvQueue := waiting, received := l.received ++ [.error e] }
  | openFrame {l : Link} {ct plaintext : Bytes} {rest : List Bytes} {cs : CipherState}
      (hwaits : l.receiving = true) (hframe : l.wire = ct :: rest)
      (hopen : l.recvState.decryptWithAd A [] ct = .ok (plaintext, cs)) :
      LinkStep A l { l with
        recvState := cs, wire := rest, receiving := false
        received := l.received ++ [.ok plaintext] }
  | openFrameFails {l : Link} {ct : Bytes} {rest : List Bytes} {e : NoiseError}
      (hwaits : l.receiving = true) (hframe : l.wire = ct :: rest)
      (hopen : l.recvState.decryptWithAd A [] ct = .error e) :
      LinkStep A l { l with
        wire := rest, receiving := false, received := l.received ++ [.error e] }

/-- The two directions, each named after the side that sends. -/
abbrev Connection := Role → Link

def Connection.start (client server : NoiseTransport) : Connection
  | .initiator => { sendState := client.send, recvState := server.recv }
  | .responder => { sendState := server.send, recvState := client.recv }

inductive ConnectionStep (A : Aead) : Connection → Connection → Prop
  | link {c : Connection} {l : Link} (side : Role) (h : LinkStep A (c side) l) :
      ConnectionStep A c (Function.update c side l)

section Chain

variable (A : Aead) (cipher : Cipher) (k : Bytes)

def nonceOf (n : Nat) : Bytes := ((buildNonce cipher n).toOption).getD []

/-- The key after `g` renewals. -/
def keyAt : Nat → Bytes
  | 0 => k
  | g + 1 => (A.encrypt cipher (keyAt g) (nonceOf cipher maxNonce) (List.replicate 32 0) []).take 32

/-- The cipher state after `g` renewals and `n` messages with the newest key. -/
def stateAt (g n : Nat) : CipherState := ⟨cipher, some (keyAt A cipher k g), n⟩

/-- The key and the nonce of the message with number `i`. -/
def messagePair (i : Nat) : Bytes × Bytes :=
  (keyAt A cipher k (i / rekeyInterval), nonceOf cipher (i % rekeyInterval))

def renewalPairAt (g : Nat) : Bytes × Bytes := (keyAt A cipher k g, nonceOf cipher maxNonce)

def frameAt (i : Nat) (plaintext : Bytes) : Bytes :=
  A.encrypt cipher (messagePair A cipher k i).1 (messagePair A cipher k i).2 plaintext []

variable {A cipher k}

theorem buildNonce_eq {n : Nat} (hn : n ≤ maxNonce) :
    buildNonce cipher n = .ok (nonceOf cipher n) := by
  obtain ⟨nonce, hnonce, -⟩ := buildNonce_ok cipher hn
  rw [nonceOf, hnonce]
  rfl

theorem nonceOf_length {n : Nat} (hn : n ≤ maxNonce) : (nonceOf cipher n).length = 12 := by
  obtain ⟨nonce, hnonce, hlength⟩ := buildNonce_ok cipher hn
  rw [nonceOf, hnonce]
  exact hlength

/-- Both encodings of the counter keep different counters apart. -/
theorem nonceOf_inj {n m : Nat} (hn : n ≤ maxNonce) (hm : m ≤ maxNonce)
    (h : nonceOf cipher n = nonceOf cipher m) : n = m := by
  have hlow : ∀ {n}, n ≤ maxNonce → ¬ n > maxNonce ∧ n < 256 ^ 8 := by
    intro n hn
    rw [maxNonce] at hn ⊢
    omega
  obtain ⟨hn, hn'⟩ := hlow hn
  obtain ⟨hm, hm'⟩ := hlow hm
  cases cipher with
  | chaChaPoly =>
    simp only [nonceOf, buildNonce, buildNonceChachapoly, if_neg hn, if_neg hm, Except.toOption,
      Option.getD_some] at h
    exact Binary.toBytesBig_inj hn' hm' (List.reverse_injective (List.append_cancel_left h))
  | aesGcm =>
    simp only [nonceOf, buildNonce, buildNonceAesgcm, if_neg hn, if_neg hm, Except.toOption,
      Option.getD_some] at h
    exact Binary.toBytesBig_inj hn' hm' (List.append_cancel_left h)

theorem keyAt_length (hA : A.Lawful) (hk : k.length = 32) (g : Nat) :
    (keyAt A cipher k g).length = 32 := by
  cases g with
  | zero => exact hk
  | succ g =>
    rw [keyAt, List.length_take, hA.encrypt_length, List.length_replicate]
    rfl

theorem pairAt_stateAt {g n m : Nat} (hm : m ≤ maxNonce) :
    pairAt (stateAt A cipher k g n) m = [(keyAt A cipher k g, nonceOf cipher m)] := by
  simp only [pairAt, stateAt, buildNonce_eq hm]

theorem renew_stateAt {g n : Nat} :
    renew A (stateAt A cipher k g n) =
      .ok (if n ≥ rekeyInterval then stateAt A cipher k (g + 1) 0 else stateAt A cipher k g n) := by
  by_cases hn : n ≥ rekeyInterval
  · have hrekey : (stateAt A cipher k g n).rekey A = .ok (stateAt A cipher k (g + 1) n) := by
      simp only [CipherState.rekey, stateAt, aeadEncrypt, buildNonce_eq (Nat.le_refl maxNonce), bind,
        Except.bind, pure, Except.pure, keyAt]
    rw [renew, if_pos hn, if_pos (show (stateAt A cipher k g n).n ≥ rekeyInterval from hn), hrekey]
    rfl
  · rw [renew, if_neg hn, if_neg (show ¬ (stateAt A cipher k g n).n ≥ rekeyInterval from hn)]

theorem renewalPair_stateAt {g n : Nat} :
    renewalPair (stateAt A cipher k g n) =
      if n ≥ rekeyInterval then [renewalPairAt A cipher k g] else [] := by
  have hpair : pairAt (stateAt A cipher k g n) maxNonce = [renewalPairAt A cipher k g] :=
    pairAt_stateAt (Nat.le_refl maxNonce)
  rw [renewalPair, hpair]
  rfl

theorem encryptWithAd_stateAt {g n : Nat} (hn : n ≤ maxNonce) (plaintext : Bytes) :
    (stateAt A cipher k g n).encryptWithAd A [] plaintext =
      .ok (A.encrypt cipher (keyAt A cipher k g) (nonceOf cipher n) plaintext [],
        stateAt A cipher k g (n + 1)) := by
  simp only [CipherState.encryptWithAd, stateAt, aeadEncrypt, buildNonce_eq hn, bind, Except.bind,
    pure, Except.pure]

theorem decryptWithAd_stateAt (hA : A.Lawful) (hk : k.length = 32) {g n : Nat} (hn : n ≤ maxNonce)
    (plaintext : Bytes) :
    (stateAt A cipher k g n).decryptWithAd A []
        (A.encrypt cipher (keyAt A cipher k g) (nonceOf cipher n) plaintext []) =
      .ok (plaintext, stateAt A cipher k g (n + 1)) := by
  have hopen := hA.decrypt_encrypt cipher (keyAt A cipher k g) (nonceOf cipher n) plaintext []
    (keyAt_length hA hk g) (nonceOf_length hn)
  simp only [CipherState.decryptWithAd, stateAt, aeadDecrypt, buildNonce_eq hn, bind, Except.bind,
    pure, Except.pure, hopen]

end Chain

section Run

variable (A : Aead) (cipher : Cipher) (k : Bytes)

/-- A state after `count` messages, with the renewals that were made for them. -/
structure ReachedAt (cs : CipherState) (count : Nat) (renewals : List (Bytes × Bytes)) (g n : Nat) :
    Prop where
  state : cs = stateAt A cipher k g n
  count_eq : g * rekeyInterval + n = count
  low : n ≤ rekeyInterval
  renewals_eq : renewals = (List.range g).map (renewalPairAt A cipher k)

/-- The frames on their way are those of the messages sealed and not yet opened, and both
cipher states are where the numbers of these messages put them. -/
structure LinkInv (l : Link) : Prop where
  calls : l.calls = l.sealed ++ l.sendQueue
  sender : ∃ g n, ReachedAt A cipher k l.sendState l.sealed.length l.senderRenewals g n
  receiver : ∃ g n, ReachedAt A cipher k l.recvState l.received.length l.receiverRenewals g n ∧
    (l.receiving = true → n < rekeyInterval)
  messagePairs : l.messagePairs = (List.range l.sealed.length).map (messagePair A cipher k)
  frames : (l.sealed.mapIdx (frameAt A cipher k)).drop l.received.length =
    l.wire ++ l.sending.toList
  received : l.received = (l.sealed.take l.received.length).map .ok
  refused : l.refused = []
  counters : ∀ n ∈ l.counters, n < rekeyInterval

variable {A cipher k}

/-- Renewing a state that is due starts the next key. -/
theorem ReachedAt.renewed {cs cs' : CipherState} {count : Nat} {renewals : List (Bytes × Bytes)}
    {g n : Nat} (h : ReachedAt A cipher k cs count renewals g n) (hrenew : renew A cs = .ok cs') :
    ∃ g' n', ReachedAt A cipher k cs' count (renewals ++ renewalPair cs) g' n' ∧
      n' < rekeyInterval := by
  obtain ⟨rfl, hcount, hlow, hrenewals⟩ := h
  rw [renew_stateAt] at hrenew
  rw [renewalPair_stateAt]
  cases hrenew
  by_cases hdue : n ≥ rekeyInterval
  · rw [if_pos hdue, if_pos hdue]
    refine ⟨g + 1, 0, ⟨rfl, ?_, Nat.zero_le _, ?_⟩, by decide⟩
    · rw [Nat.succ_mul]
      omega
    · rw [hrenewals, List.range_succ, List.map_append, List.map_singleton]
  · rw [if_neg hdue, if_neg hdue]
    exact ⟨g, n, ⟨rfl, hcount, hlow, by rw [hrenewals, List.append_nil]⟩, by omega⟩

theorem ReachedAt.renew_ok {cs : CipherState} {count : Nat} {renewals : List (Bytes × Bytes)}
    {g n : Nat} (h : ReachedAt A cipher k cs count renewals g n) : ∃ cs', renew A cs = .ok cs' := by
  rw [h.state, renew_stateAt]
  exact ⟨_, rfl⟩

/-- The next message has the number of the messages before it. -/
theorem ReachedAt.position {cs : CipherState} {count : Nat} {renewals : List (Bytes × Bytes)}
    {g n : Nat} (h : ReachedAt A cipher k cs count renewals g n) (hn : n < rekeyInterval) :
    messagePair A cipher k count = (keyAt A cipher k g, nonceOf cipher n) := by
  have hdiv : count / rekeyInterval = g := by
    rw [← h.count_eq, Nat.mul_comm, Nat.mul_add_div (by decide), Nat.div_eq_of_lt hn, Nat.add_zero]
  have hmod : count % rekeyInterval = n := by
    rw [← h.count_eq, Nat.mul_comm, Nat.mul_add_mod, Nat.mod_eq_of_lt hn]
  rw [messagePair, hdiv, hmod]

theorem ReachedAt.next {cs : CipherState} {count : Nat} {renewals : List (Bytes × Bytes)}
    {g n : Nat} (h : ReachedAt A cipher k cs count renewals g n) (hn : n < rekeyInterval) :
    ReachedAt A cipher k (stateAt A cipher k g (n + 1)) (count + 1) renewals g (n + 1) :=
  ⟨rfl, by rw [← h.count_eq, Nat.add_assoc], hn, h.renewals_eq⟩

theorem low_nonce {n : Nat} (hn : n < rekeyInterval) : n ≤ maxNonce := by
  rw [rekeyInterval] at hn
  rw [maxNonce]
  omega

namespace LinkInv

variable {l l' : Link}

theorem seal_ok (h : LinkInv A cipher k l) (plaintext : Bytes) :
    ∃ ct cs, sealNext A l.sendState plaintext = .ok (ct, cs) := by
  obtain ⟨g, n, hsender⟩ := h.sender
  obtain ⟨cs, hcs⟩ := hsender.renew_ok
  obtain ⟨g', n', hrenewed, hn⟩ := hsender.renewed hcs
  rw [sealNext, hcs, hrenewed.state]
  exact ⟨_, _, encryptWithAd_stateAt (low_nonce hn) plaintext⟩

theorem sealMessage (h : LinkInv A cipher k l) {plaintext ct : Bytes} {rest : List Bytes}
    {cs cs' : CipherState} (hfree : l.sending = none) (hnext : l.sendQueue = plaintext :: rest)
    (hrenew : renew A l.sendState = .ok cs)
    (hseal : cs.encryptWithAd A [] plaintext = .ok (ct, cs')) :
    LinkInv A cipher k { l with
      sendState := cs', sendQueue := rest, sending := some ct, sealed := l.sealed ++ [plaintext]
      counters := l.counters ++ [cs.n]
      messagePairs := l.messagePairs ++ pairAt cs cs.n
      senderRenewals := l.senderRenewals ++ renewalPair l.sendState } := by
  obtain ⟨g, n, hsender⟩ := h.sender
  obtain ⟨g', n', hrenewed, hn⟩ := hsender.renewed hrenew
  have hstate := hrenewed.state
  subst hstate
  rw [encryptWithAd_stateAt (low_nonce hn)] at hseal
  cases hseal
  have hpair := hrenewed.position hn
  have hreceived : l.received.length ≤ l.sealed.length := by
    have hlength := congrArg List.length h.received
    rw [List.length_map, List.length_take] at hlength
    omega
  refine ⟨?_, ⟨g', n' + 1, ?_⟩, h.receiver, ?_, ?_, ?_, h.refused, ?_⟩
  · rw [h.calls, hnext, List.append_assoc]
    rfl
  · simp only [List.length_append, List.length_singleton]
    exact hrenewed.next hn
  · simp only [List.length_append, List.length_singleton, List.range_succ, List.map_append,
      List.map_singleton, hpair, h.messagePairs]
    exact congrArg _ (pairAt_stateAt (low_nonce hn))
  · rw [List.mapIdx_concat, List.drop_append_of_le_length (by simpa using hreceived), h.frames, hfree]
    simp only [Option.toList_none, List.append_nil, Option.toList_some, frameAt, hpair]
  · simp only
    rw [List.take_append_of_le_length hreceived]
    exact h.received
  · rw [List.forall_mem_append, List.forall_mem_singleton]
    exact ⟨h.counters, hn⟩

/-- The frame that arrives is the one of the next message to be received. -/
theorem openFrame (hA : A.Lawful) (hk : k.length = 32) (h : LinkInv A cipher k l) {ct : Bytes}
    {rest : List Bytes} (hwaits : l.receiving = true) (hframe : l.wire = ct :: rest) :
    ∃ plaintext cs, l.recvState.decryptWithAd A [] ct = .ok (plaintext, cs) ∧
      LinkInv A cipher k { l with
        recvState := cs, wire := rest, receiving := false
        received := l.received ++ [.ok plaintext] } := by
  obtain ⟨g, n, hreceiver, hlow⟩ := h.receiver
  have hn := hlow hwaits
  have hframes := h.frames
  rw [hframe, List.cons_append] at hframes
  have hlt : l.received.length < l.sealed.length := by
    have hlength := congrArg List.length hframes
    simp only [List.length_drop, List.length_mapIdx, List.length_cons] at hlength
    omega
  obtain ⟨plaintext, hplaintext⟩ : ∃ p, l.sealed[l.received.length]? = some p :=
    ⟨_, List.getElem?_eq_getElem hlt⟩
  have hct : ct = frameAt A cipher k l.received.length plaintext := by
    have hhead := congrArg List.head? hframes
    rw [List.head?_drop, List.getElem?_mapIdx, hplaintext] at hhead
    exact (Option.some.inj hhead).symm
  have hrest : (l.sealed.mapIdx (frameAt A cipher k)).drop (l.received.length + 1) =
      rest ++ l.sending.toList := by
    rw [← List.tail_drop, hframes]
    rfl
  rw [frameAt, hreceiver.position hn] at hct
  refine ⟨plaintext, stateAt A cipher k g (n + 1), ?_, ?_⟩
  · rw [hct, hreceiver.state]
    exact decryptWithAd_stateAt hA hk (low_nonce hn) plaintext
  · refine ⟨h.calls, h.sender, ⟨g, n + 1, ?_, fun hno => absurd hno Bool.false_ne_true⟩,
      h.messagePairs, ?_, ?_, h.refused, h.counters⟩
    · simp only [List.length_append, List.length_singleton]
      exact hreceiver.next hn
    · simp only [List.length_append, List.length_singleton]
      exact hrest
    · simp only [List.length_append, List.length_singleton]
      rw [List.take_add_one, hplaintext, List.map_append, ← h.received]
      rfl

theorem step (hA : A.Lawful) (hk : k.length = 32) (hstep : LinkStep A l l')
    (h : LinkInv A cipher k l) : LinkInv A cipher k l' := by
  cases hstep with
  | call plaintext =>
    refine { h with calls := ?_ }
    rw [h.calls, List.append_assoc]
  | sealMessage hfree hnext hrenew hseal => exact h.sealMessage hfree hnext hrenew hseal
  | sealMessageFails hfree hnext hseal =>
    obtain ⟨ct, cs, hok⟩ := h.seal_ok _
    cases hseal.symm.trans hok
  | sent hsending =>
    refine { h with frames := ?_ }
    rw [h.frames, hsending]
    simp
  | recvCall => exact { h with }
  | awaitFrame hfree hnext hrenew =>
    obtain ⟨g, n, hreceiver, -⟩ := h.receiver
    obtain ⟨g', n', hrenewed, hn⟩ := hreceiver.renewed hrenew
    exact { h with receiver := ⟨g', n', hrenewed, fun _ => hn⟩ }
  | awaitFrameFails hfree hnext hrenew =>
    obtain ⟨g, n, hreceiver, -⟩ := h.receiver
    obtain ⟨cs, hok⟩ := hreceiver.renew_ok
    cases hrenew.symm.trans hok
  | openFrame hwaits hframe hopen =>
    obtain ⟨plaintext, cs, hok, hinv⟩ := h.openFrame hA hk hwaits hframe
    cases hopen.symm.trans hok
    exact hinv
  | openFrameFails hwaits hframe hopen =>
    obtain ⟨plaintext, cs, hok, -⟩ := h.openFrame hA hk hwaits hframe
    cases hopen.symm.trans hok

end LinkInv

/-- Where a pair of key and nonce is used: for a message, or to derive the next key. -/
inductive Use where
  | message (side : Role) (i : Nat)
  | renewal (side : Role) (g : Nat)

def Use.pair (A : Aead) (cipher : Cipher) (key : Role → Bytes) : Use → Bytes × Bytes
  | .message side i => messagePair A cipher (key side) i
  | .renewal side g => renewalPairAt A cipher (key side) g

/-- How many renewals lie before the key that is used. -/
def Use.generation : Use → Role × Nat
  | .message side i => (side, i / rekeyInterval)
  | .renewal side g => (side, g)

def Link.renewals (l : Link) : Nat := max l.senderRenewals.length l.receiverRenewals.length

/-- The keys of both directions up to the newest ones in use are all different. -/
def FreshKeys (A : Aead) (cipher : Cipher) (key : Role → Bytes) (c : Connection) : Prop :=
  ∀ u v : Role × Nat, u.2 ≤ (c u.1).renewals → v.2 ≤ (c v.1).renewals →
    keyAt A cipher (key u.1) u.2 = keyAt A cipher (key v.1) v.2 → u = v

theorem Use.key_eq {key : Role → Bytes} (u : Use) :
    (u.pair A cipher key).1 = keyAt A cipher (key u.generation.1) u.generation.2 := by
  cases u <;> rfl

/-- Under one key the counters of the messages and the one of the renewal differ. -/
theorem Use.eq_of_nonce {key : Role → Bytes} {u v : Use} (hgen : u.generation = v.generation)
    (hnonce : (u.pair A cipher key).2 = (v.pair A cipher key).2) : u = v := by
  have hmod : ∀ i, i % rekeyInterval < rekeyInterval := fun i => Nat.mod_lt i (by decide)
  have hmax : ∀ i, i % rekeyInterval ≠ maxNonce := by
    intro i hi
    have hlow := hmod i
    rw [hi] at hlow
    exact absurd hlow (by decide)
  cases u with
  | message side i =>
    cases v with
    | message side' j =>
      obtain ⟨rfl, hdiv⟩ := Prod.mk.inj hgen
      have hsame := nonceOf_inj (low_nonce (hmod i)) (low_nonce (hmod j)) hnonce
      rw [← Nat.div_add_mod i rekeyInterval, ← Nat.div_add_mod j rekeyInterval, hsame, hdiv]
    | renewal side' g =>
      exact absurd (nonceOf_inj (low_nonce (hmod i)) (Nat.le_refl _) hnonce) (hmax i)
  | renewal side g =>
    cases v with
    | message side' j =>
      exact absurd (nonceOf_inj (Nat.le_refl _) (low_nonce (hmod j)) hnonce).symm (hmax j)
    | renewal side' g' =>
      obtain ⟨rfl, rfl⟩ := Prod.mk.inj hgen
      rfl

/-- What one end of the connection and the messages of the other end use, in the order
messages of both directions, renewals of the own sending key, renewals of the own
receiving key. -/
def Connection.pairs (c : Connection) (side : Role) : List (Bytes × Bytes) :=
  (c .initiator).messagePairs ++ (c .responder).messagePairs ++ (c side).senderRenewals ++
    (c side.other).receiverRenewals

def Connection.uses (c : Connection) (side : Role) : List Use :=
  (List.range (c .initiator).sealed.length).map (.message .initiator) ++
    (List.range (c .responder).sealed.length).map (.message .responder) ++
    (List.range (c side).senderRenewals.length).map (.renewal side) ++
    (List.range (c side.other).receiverRenewals.length).map (.renewal side.other)

theorem disjoint_uses {f g : Nat → Use} (h : ∀ i j, f i ≠ g j) (m n : Nat) :
    List.Disjoint ((List.range m).map f) ((List.range n).map g) := by
  intro u hu hv
  obtain ⟨i, -, hi⟩ := List.mem_map.mp hu
  obtain ⟨j, -, hj⟩ := List.mem_map.mp hv
  exact h i j (hi.trans hj.symm)

theorem Connection.uses_nodup (c : Connection) (side : Role) : (c.uses side).Nodup := by
  have hmessages : ∀ (side : Role) (n : Nat), ((List.range n).map (Use.message side)).Nodup :=
    fun side n => List.nodup_range.map fun i j hij => (Use.message.inj hij).2
  have hrenewals : ∀ (side : Role) (n : Nat), ((List.range n).map (Use.renewal side)).Nodup :=
    fun side n => List.nodup_range.map fun i j hij => (Use.renewal.inj hij).2
  have hsides : ∀ i j, Use.message .initiator i ≠ Use.message .responder j :=
    fun i j hij => absurd (Use.message.inj hij).1 (by decide)
  have hkinds : ∀ (side side' : Role) (i j : Nat), Use.message side i ≠ Use.renewal side' j :=
    fun side side' i j hij => by cases hij
  have hother : ∀ i j, Use.renewal side i ≠ Use.renewal side.other j := by
    intro i j hij
    have hsame := (Use.renewal.inj hij).1
    cases side <;> exact absurd hsame (by decide)
  have hboth := (hmessages .initiator (c .initiator).sealed.length).append
    (hmessages .responder (c .responder).sealed.length) (disjoint_uses hsides _ _)
  have hsender := hboth.append (hrenewals side (c side).senderRenewals.length) (by
    rw [List.disjoint_append_left]
    exact ⟨disjoint_uses (hkinds _ _) _ _, disjoint_uses (hkinds _ _) _ _⟩)
  refine hsender.append (hrenewals side.other (c side.other).receiverRenewals.length) ?_
  rw [List.disjoint_append_left, List.disjoint_append_left]
  exact ⟨⟨disjoint_uses (hkinds _ _) _ _, disjoint_uses (hkinds _ _) _ _⟩,
    disjoint_uses hother _ _⟩

theorem LinkInv.senderRenewals_eq {l : Link} (h : LinkInv A cipher k l) :
    l.senderRenewals = (List.range l.senderRenewals.length).map (renewalPairAt A cipher k) ∧
      l.sealed.length ≤ (l.senderRenewals.length + 1) * rekeyInterval := by
  obtain ⟨g, n, -, hcount, hlow, hrenewals⟩ := h.sender
  have hlength : l.senderRenewals.length = g := by rw [hrenewals, List.length_map, List.length_range]
  rw [hlength, Nat.succ_mul]
  exact ⟨hrenewals, by omega⟩

theorem LinkInv.receiverRenewals_eq {l : Link} (h : LinkInv A cipher k l) :
    l.receiverRenewals = (List.range l.receiverRenewals.length).map (renewalPairAt A cipher k) := by
  obtain ⟨g, n, ⟨-, -, -, hrenewals⟩, -⟩ := h.receiver
  have hlength : l.receiverRenewals.length = g := by
    rw [hrenewals, List.length_map, List.length_range]
  rw [hlength]
  exact hrenewals

section Connection

variable {key : Role → Bytes} {c : Connection}

theorem Connection.pairs_eq (h : ∀ side, LinkInv A cipher (key side) (c side)) (side : Role) :
    c.pairs side = (c.uses side).map (Use.pair A cipher key) := by
  simp only [Connection.pairs, Connection.uses, List.map_append, List.map_map]
  rw [(h .initiator).messagePairs, (h .responder).messagePairs]
  nth_rewrite 1 [(h side).senderRenewals_eq.1]
  nth_rewrite 1 [(h side.other).receiverRenewals_eq]
  rfl

theorem Connection.uses_generation (h : ∀ side, LinkInv A cipher (key side) (c side)) {side : Role}
    {u : Use} (hu : u ∈ c.uses side) : u.generation.2 ≤ (c u.generation.1).renewals := by
  have hmessage : ∀ side i, i < (c side).sealed.length →
      i / rekeyInterval ≤ (c side).renewals := by
    intro side i hi
    have hbound := Nat.lt_of_lt_of_le hi (h side).senderRenewals_eq.2
    have hdiv := Nat.div_lt_of_lt_mul (Nat.mul_comm _ _ ▸ hbound)
    exact Nat.le_trans (Nat.le_of_lt_succ hdiv) (Nat.le_max_left _ _)
  simp only [Connection.uses, List.mem_append, List.mem_map, List.mem_range] at hu
  rcases hu with ((⟨i, hi, rfl⟩ | ⟨i, hi, rfl⟩) | ⟨g, hg, rfl⟩) | ⟨g, hg, rfl⟩
  · exact hmessage _ i hi
  · exact hmessage _ i hi
  · exact Nat.le_trans (Nat.le_of_lt hg) (Nat.le_max_left _ _)
  · exact Nat.le_trans (Nat.le_of_lt hg) (Nat.le_max_right _ _)

theorem Connection.pairs_nodup (h : ∀ side, LinkInv A cipher (key side) (c side))
    (hfresh : FreshKeys A cipher key c) (side : Role) : (c.pairs side).Nodup := by
  rw [Connection.pairs_eq h]
  refine (c.uses_nodup side).map_on fun u hu v hv hpair => ?_
  have hkeys := congrArg Prod.fst hpair
  rw [u.key_eq, v.key_eq] at hkeys
  have hgen := hfresh _ _ (Connection.uses_generation h hu) (Connection.uses_generation h hv) hkeys
  exact Use.eq_of_nonce hgen (congrArg Prod.snd hpair)

/-- Two transports fresh from a handshake, each sending with the key the other receives with. -/
structure Crosswise (cipher : Cipher) (key : Role → Bytes) (client server : NoiseTransport) :
    Prop where
  length : ∀ side, (key side).length = 32
  toServer : client.send = ⟨cipher, some (key .initiator), 0⟩ ∧ server.recv = client.send
  toClient : server.send = ⟨cipher, some (key .responder), 0⟩ ∧ client.recv = server.send

theorem linkInv_start {l : Link} {cs : CipherState} (hcs : cs = ⟨cipher, some k, 0⟩)
    (hl : l = { sendState := cs, recvState := cs }) : LinkInv A cipher k l := by
  subst hl hcs
  have hstart : ReachedAt A cipher k ⟨cipher, some k, 0⟩ 0 [] 0 0 := ⟨rfl, rfl, Nat.zero_le _, rfl⟩
  exact ⟨rfl, ⟨0, 0, hstart⟩, ⟨0, 0, hstart, fun _ => by decide⟩, rfl, rfl, rfl, rfl,
    fun n hn => absurd hn List.not_mem_nil⟩

theorem linkInv_run (hA : A.Lawful) {client server : NoiseTransport}
    (hkeyed : Crosswise cipher key client server)
    (hrun : Relation.ReflTransGen (ConnectionStep A) (.start client server) c) :
    ∀ side, LinkInv A cipher (key side) (c side) := by
  induction hrun with
  | refl =>
    intro side
    cases side with
    | initiator =>
      refine linkInv_start hkeyed.toServer.1 ?_
      rw [Connection.start, hkeyed.toServer.2]
    | responder =>
      refine linkInv_start hkeyed.toClient.1 ?_
      rw [Connection.start, hkeyed.toClient.2]
  | tail _ hstep ih =>
    cases hstep with
    | link side' h =>
      intro side
      by_cases hside : side = side'
      · subst hside
        rw [Function.update_self]
        exact (ih side).step hA (hkeyed.length side) h
      · rw [Function.update_of_ne hside]
        exact ih side

/-- In every run the messages arrive as they were sent, their counters stay below the
renewal interval, and neither end uses a key with a nonce twice. -/
theorem transport_in_step (hA : A.Lawful) {client server : NoiseTransport}
    (hkeyed : Crosswise cipher key client server)
    (hrun : Relation.ReflTransGen (ConnectionStep A) (.start client server) c)
    (hfresh : FreshKeys A cipher key c) :
    ∀ side, (c side).received <+: (c side).calls.map .ok ∧ (c side).refused = [] ∧
      (∀ n ∈ (c side).counters, n < rekeyInterval ∧ n ≠ maxNonce) ∧ (c.pairs side).Nodup := by
  have hinv := linkInv_run hA hkeyed hrun
  intro side
  refine ⟨?_, (hinv side).refused, fun n hn => ?_, Connection.pairs_nodup hinv hfresh side⟩
  · rw [(hinv side).calls, (hinv side).received]
    exact ((List.take_prefix _ _).trans (List.prefix_append _ _)).map _
  · have hlow := (hinv side).counters n hn
    refine ⟨hlow, ?_⟩
    rintro rfl
    exact absurd hlow (by decide)

end Connection

section Progress

/-- Nothing is queued, on its way or awaited. -/
structure Link.Quiet (l : Link) : Prop where
  sendQueue : l.sendQueue = []
  sending : l.sending = none
  wire : l.wire = []
  recvQueue : l.recvQueue = 0
  receiving : l.receiving = false

variable {l : Link}

theorem LinkInv.can_seal (h : LinkInv A cipher k l) {plaintext : Bytes} {rest : List Bytes}
    (hfree : l.sending = none) (hnext : l.sendQueue = plaintext :: rest) :
    ∃ ct l', LinkStep A l l' ∧ l'.sendQueue = rest ∧ l'.sending = some ct ∧ l'.wire = l.wire ∧
      l'.recvQueue = l.recvQueue ∧ l'.receiving = l.receiving ∧ l'.calls = l.calls := by
  obtain ⟨g, n, hsender⟩ := h.sender
  obtain ⟨cs, hrenew⟩ := hsender.renew_ok
  obtain ⟨g', n', hrenewed, hn⟩ := hsender.renewed hrenew
  have hstate := hrenewed.state
  subst hstate
  exact ⟨_, _, .sealMessage hfree hnext hrenew (encryptWithAd_stateAt (low_nonce hn) plaintext), rfl,
    rfl, rfl, rfl, rfl, rfl⟩

theorem LinkInv.can_await (h : LinkInv A cipher k l) {waiting : Nat} (hfree : l.receiving = false)
    (hnext : l.recvQueue = waiting + 1) :
    ∃ l', LinkStep A l l' ∧ l'.sendQueue = l.sendQueue ∧ l'.sending = l.sending ∧
      l'.wire = l.wire ∧ l'.recvQueue = waiting ∧ l'.receiving = true ∧ l'.calls = l.calls := by
  obtain ⟨g, n, hreceiver, -⟩ := h.receiver
  obtain ⟨cs, hrenew⟩ := hreceiver.renew_ok
  exact ⟨_, .awaitFrame hfree hnext hrenew, rfl, rfl, rfl, rfl, rfl, rfl⟩

theorem LinkInv.can_open (hA : A.Lawful) (hk : k.length = 32) (h : LinkInv A cipher k l)
    {ct : Bytes} {rest : List Bytes} (hwaits : l.receiving = true) (hframe : l.wire = ct :: rest) :
    ∃ l', LinkStep A l l' ∧ l'.sendQueue = l.sendQueue ∧ l'.sending = l.sending ∧ l'.wire = rest ∧
      l'.recvQueue = l.recvQueue ∧ l'.receiving = false ∧ l'.calls = l.calls := by
  obtain ⟨plaintext, cs, hopen, -⟩ := h.openFrame hA hk hwaits hframe
  exact ⟨_, .openFrame hwaits hframe hopen, rfl, rfl, rfl, rfl, rfl, rfl⟩

/-- One more message can always be sent and received. -/
theorem exchange (hA : A.Lawful) (hk : k.length = 32) (h : LinkInv A cipher k l) (hquiet : l.Quiet)
    (plaintext : Bytes) :
    ∃ l', Relation.ReflTransGen (LinkStep A) l l' ∧ LinkInv A cipher k l' ∧ l'.Quiet ∧
      l'.calls = l.calls ++ [plaintext] := by
  obtain ⟨hsendQueue, hsending, hwire, hrecvQueue, hreceiving⟩ := hquiet
  have hcall : LinkStep A l { l with
    sendQueue := l.sendQueue ++ [plaintext], calls := l.calls ++ [plaintext] } := .call plaintext
  obtain ⟨ct, l₂, hseal, hsendQueue₂, hsending₂, hwire₂, hrecvQueue₂, hreceiving₂, hcalls₂⟩ :=
    (h.step hA hk hcall).can_seal hsending (show l.sendQueue ++ [plaintext] = plaintext :: [] by
      rw [hsendQueue]; rfl)
  have hinv₂ := (h.step hA hk hcall).step hA hk hseal
  have hsent := LinkStep.sent (A := A) hsending₂
  have hinv₃ := hinv₂.step hA hk hsent
  have hinv₄ := hinv₃.step hA hk .recvCall
  obtain ⟨l₅, hawait, hsendQueue₅, hsending₅, hwire₅, hrecvQueue₅, hreceiving₅, hcalls₅⟩ :=
    hinv₄.can_await (hreceiving₂.trans hreceiving) rfl
  have hinv₅ := hinv₄.step hA hk hawait
  have hframe : l₅.wire = ct :: [] := by
    rw [hwire₅]
    simp only [hwire₂, hwire]
    rfl
  obtain ⟨l₆, hopen, hsendQueue₆, hsending₆, hwire₆, hrecvQueue₆, hreceiving₆, hcalls₆⟩ :=
    hinv₅.can_open hA hk hreceiving₅ hframe
  refine ⟨l₆, ?_, hinv₅.step hA hk hopen, ⟨?_, ?_, hwire₆, ?_, hreceiving₆⟩, ?_⟩
  · exact (((((Relation.ReflTransGen.single hcall).tail hseal).tail hsent).tail .recvCall).tail
      hawait).tail hopen
  · rw [hsendQueue₆, hsendQueue₅]
    exact hsendQueue₂
  · rw [hsending₆, hsending₅]
  · rw [hrecvQueue₆, hrecvQueue₅]
    exact hrecvQueue₂.trans hrecvQueue
  · rw [hcalls₆, hcalls₅]
    exact hcalls₂

theorem exchanges (hA : A.Lawful) (hk : k.length = 32) (h : LinkInv A cipher k l) (hquiet : l.Quiet)
    (plaintext : Bytes) (count : Nat) :
    ∃ l', Relation.ReflTransGen (LinkStep A) l l' ∧ LinkInv A cipher k l' ∧ l'.Quiet ∧
      l'.calls = l.calls ++ List.replicate count plaintext := by
  induction count with
  | zero => exact ⟨l, .refl, h, hquiet, (List.append_nil _).symm⟩
  | succ count ih =>
    obtain ⟨l₁, hrun₁, hinv₁, hquiet₁, hcalls₁⟩ := ih
    obtain ⟨l₂, hrun₂, hinv₂, hquiet₂, hcalls₂⟩ := exchange hA hk hinv₁ hquiet₁ plaintext
    refine ⟨l₂, hrun₁.trans hrun₂, hinv₂, hquiet₂, ?_⟩
    rw [hcalls₂, hcalls₁, List.append_assoc, ← List.replicate_succ']

theorem LinkInv.all_received (h : LinkInv A cipher k l) (hquiet : l.Quiet) :
    l.received = l.calls.map .ok := by
  have hsealed : l.calls = l.sealed := by rw [h.calls, hquiet.sendQueue, List.append_nil]
  have hframes := h.frames
  rw [hquiet.wire, hquiet.sending, Option.toList_none, List.append_nil, List.drop_eq_nil_iff,
    List.length_mapIdx] at hframes
  rw [hsealed, h.received, List.take_of_length_le hframes]

/-- No more renewals than whole intervals that were filled. -/
theorem LinkInv.renewals_le (h : LinkInv A cipher k l) {g : Nat}
    (hcount : l.calls.length < (g + 1) * rekeyInterval) : l.renewals ≤ g := by
  have hbound : ∀ {cs count renewals g' n}, ReachedAt A cipher k cs count renewals g' n →
      count ≤ l.calls.length → renewals.length ≤ g := by
    rintro cs count renewals g' n ⟨-, hcount', -, hrenewals⟩ hle
    rw [hrenewals, List.length_map, List.length_range]
    by_contra hlt
    have hmul := Nat.mul_le_mul_right rekeyInterval (Nat.lt_of_not_le hlt)
    rw [Nat.succ_eq_add_one] at hmul
    omega
  have hsealed : l.sealed.length ≤ l.calls.length := by
    rw [h.calls, List.length_append]
    exact Nat.le_add_right _ _
  have hreceived : l.received.length ≤ l.calls.length := by
    have hlength := congrArg List.length h.received
    rw [List.length_map, List.length_take] at hlength
    omega
  obtain ⟨g₁, n₁, hsender⟩ := h.sender
  obtain ⟨g₂, n₂, hreceiver, -⟩ := h.receiver
  exact Nat.max_le.mpr ⟨hbound hsender hsealed, hbound hreceiver hreceived⟩

theorem Connection.run_link {c : Connection} {side : Role} {l : Link}
    (h : Relation.ReflTransGen (LinkStep A) (c side) l) :
    Relation.ReflTransGen (ConnectionStep A) c (Function.update c side l) := by
  induction h with
  | refl =>
    rw [Function.update_eq_self]
  | @tail l₁ l₂ _ hstep ih =>
    have hlink := ConnectionStep.link (A := A) (c := Function.update c side l₁) side
      (l := l₂) (by rwa [Function.update_self])
    rw [Function.update_idem] at hlink
    exact ih.tail hlink

end Progress

section Demo

/-- A cipher whose derived key is one more than the key it is derived from. -/
def shiftAead : Aead where
  sha256 data := demoDigest 32 data
  encrypt _ key _ plaintext _ :=
    plaintext.map (· + (key.headD 0 + 1)) ++ List.replicate 16 0
  decrypt _ key _ ciphertext _ :=
    some ((ciphertext.take (ciphertext.length - 16)).map (· - (key.headD 0 + 1)))

theorem shiftAead_lawful : shiftAead.Lawful where
  decrypt_encrypt := by
    intro cipher key nonce plaintext ad _ _
    simp [shiftAead, Function.comp_def]
  encrypt_length := by simp [shiftAead]

def demoTransportKey : Role → Bytes
  | .initiator => List.replicate 32 0
  | .responder => List.replicate 32 100

def demoClient : NoiseTransport :=
  ⟨⟨.aesGcm, some (demoTransportKey .initiator), 0⟩,
    ⟨.aesGcm, some (demoTransportKey .responder), 0⟩, []⟩

def demoServer : NoiseTransport := ⟨demoClient.recv, demoClient.send, []⟩

/-- One message more than a key seals. -/
theorem transport_in_step_renewed :
    ∃ c, Relation.ReflTransGen (ConnectionStep shiftAead) (.start demoClient demoServer) c ∧
      (c .initiator).calls.length = rekeyInterval + 1 ∧
      (c .initiator).received = (c .initiator).calls.map .ok ∧
      (c.pairs .initiator).Nodup ∧ (c.pairs .responder).Nodup := by
  have hkeyed : Crosswise .aesGcm demoTransportKey demoClient demoServer :=
    ⟨fun side => by cases side <;> rfl, ⟨rfl, rfl⟩, ⟨rfl, rfl⟩⟩
  have hstart := linkInv_run shiftAead_lawful hkeyed .refl
  obtain ⟨l, hrun, hinv, hquiet, hcalls⟩ := exchanges shiftAead_lawful (hkeyed.length .initiator)
    (hstart .initiator) ⟨rfl, rfl, rfl, rfl, rfl⟩ [7] (rekeyInterval + 1)
  have hcrun := Connection.run_link hrun
  have hlength : l.calls.length = rekeyInterval + 1 := by
    rw [hcalls, List.length_append, List.length_replicate]
    exact Nat.zero_add _
  have hfresh : FreshKeys shiftAead .aesGcm demoTransportKey
      (Function.update (Connection.start demoClient demoServer) .initiator l) := by
    have hfirst : l.renewals ≤ 1 := hinv.renewals_le (by rw [hlength]; decide)
    rintro ⟨side, g⟩ ⟨side', g'⟩ hg hg' hkey
    cases side <;> cases side' <;> simp only [Function.update_self, ne_eq, reduceCtorEq,
      not_false_eq_true, Function.update_of_ne] at hg hg'
    · have hcases : (g = 0 ∨ g = 1) ∧ (g' = 0 ∨ g' = 1) := by omega
      rcases hcases with ⟨rfl | rfl, rfl | rfl⟩ <;> revert hkey <;> decide
    · have hcases : (g = 0 ∨ g = 1) ∧ g' = 0 := ⟨by omega, Nat.le_zero.mp hg'⟩
      rcases hcases with ⟨rfl | rfl, rfl⟩ <;> revert hkey <;> decide
    · have hcases : g = 0 ∧ (g' = 0 ∨ g' = 1) := ⟨Nat.le_zero.mp hg, by omega⟩
      rcases hcases with ⟨rfl, rfl | rfl⟩ <;> revert hkey <;> decide
    · have hcases : g = 0 ∧ g' = 0 := ⟨Nat.le_zero.mp hg, Nat.le_zero.mp hg'⟩
      rw [hcases.1, hcases.2]
  have hsafe := transport_in_step shiftAead_lawful hkeyed hcrun hfresh
  refine ⟨_, hcrun, ?_, ?_, (hsafe .initiator).2.2.2, (hsafe .responder).2.2.2⟩
  · rw [Function.update_self]
    exact hlength
  · rw [Function.update_self]
    exact hinv.all_received hquiet

end Demo

end Run

end PyWhats.Noise
