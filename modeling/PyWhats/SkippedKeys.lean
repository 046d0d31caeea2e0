import PyWhats.Lib.EventLog
import PyWhats.Lib.FifoCache
import PyWhats.RatchetNet

/-! The cache of skipped message keys under headers that nobody has checked yet. The
decryption is run again with a log of what it derives, caches and evicts. -/

namespace PyWhats

variable {P : Primitives}

abbrev SkippedKey := Bytes × Nat

inductive SkipEvent where
  | derived (chain : Option Bytes)
  | cache (e : FifoCache.Event SkippedKey)
  deriving DecidableEq

abbrev LoggedM := Logged SkipEvent RatchetState PyError

def storeEvents (mkskipped : OrderedMap SkippedKey Bytes) (key : SkippedKey) (mk : Bytes) :
    List SkipEvent :=
  let stored := mkskipped.set key mk
  .cache (if mkskipped.contains key then .replace key else .insert key) ::
    (if stored.size > maxSkippedTotal then
      (stored.entries.head?.map fun oldest => .cache (.evict oldest.1)).toList
    else [])

/-- `skipLoop` with its log. -/
def loggedSkipLoop (P : Primitives) : Nat → Bytes → LoggedM Unit
  | 0, _ => pure ()
  | turns + 1, ckr => do
    let (mk, ckr') := kdfCk P ckr
    let before ← Logged.lift get
    Logged.emit [.derived before.dhr]
    Logged.lift (modify fun s => { s with ckr := some ckr' })
    let state ← Logged.lift get
    match state.dhr with
    | none => Logged.lift (throw .assertionError)
    | some dhr =>
      Logged.emit (storeEvents state.mkskipped (dhr, state.nr) mk)
      Logged.lift (set { state with
        mkskipped := cacheSkipped state.mkskipped (dhr, state.nr) mk, nr := state.nr + 1 })
      loggedSkipLoop P turns ckr'

def loggedSkip (P : Primitives) (upTo : Nat) : LoggedM Unit := do
  let state ← Logged.lift get
  match state.ckr with
  | none => return
  | some ckr =>
    if state.nr + state.maxSkip < upTo then
      Logged.lift (throw (.signalCryptoError "too many skipped messages"))
    loggedSkipLoop P (upTo - state.nr) ckr

def loggedTrySkipped (P : Primitives) (header : MessageHeader) (ciphertext : Bytes)
    (verifyMac : Option MacVerifier) : LoggedM (Option Bytes) := do
  let state ← Logged.lift get
  match state.mkskipped.get? (header.dh, header.n) with
  | none => return none
  | some mk =>
    Logged.emit [.cache (.remove (header.dh, header.n))]
    Logged.lift (set { state with mkskipped := state.mkskipped.erase (header.dh, header.n) })
    let plaintext ← Logged.lift (openMessage P mk ciphertext verifyMac)
    return some plaintext

/-- What `ratchet_decrypt` does with the chain it has come to. -/
def useChain (P : Primitives) (ciphertext : Bytes) (verifyMac : Option MacVerifier) :
    RatchetM Bytes := do
  let state ← get
  match state.ckr with
  | none => throw .assertionError
  | some ckr =>
    let (mk, ckr') := kdfCk P ckr
    set { state with ckr := some ckr', nr := state.nr + 1 }
    openMessage P mk ciphertext verifyMac

def loggedReceiveAt (P : Primitives) (n : Nat) (ciphertext : Bytes)
    (verifyMac : Option MacVerifier) : LoggedM Bytes := do
  loggedSkip P n
  Logged.lift (useChain P ciphertext verifyMac)

/-- The rest of the current chain, then the DH step. -/
def loggedTurn (P : Primitives) (generated : KeyPair P) (header : MessageHeader) :
    LoggedM Unit := do
  loggedSkip P header.pn
  Logged.lift (dhRatchet P generated header)

def loggedDecrypt (P : Primitives) (generated : KeyPair P) (header : MessageHeader)
    (ciphertext : Bytes) (verifyMac : Option MacVerifier) : LoggedM Bytes := do
  match ← loggedTrySkipped P header ciphertext verifyMac with
  | some plain => return plain
  | none =>
    let state ← Logged.lift get
    if state.dhr = some header.dh then
      loggedReceiveAt P header.n ciphertext verifyMac
    else
      loggedTurn P generated header
      loggedReceiveAt P header.n ciphertext verifyMac

theorem loggedSkipLoop_erase (turns : Nat) (ckr : Bytes) :
    (loggedSkipLoop P turns ckr).erase = skipLoop P turns ckr := by
  induction turns generalizing ckr with
  | zero => rfl
  | succ turns ih =>
    funext s
    cases s with
    | mk dhsPriv dhsPub dhr rk cks ckr₀ ns nr pn mkskipped maxSkip =>
    cases dhr with
    | none => rfl
    | some dhr => exact congrFun (ih (kdfCk P ckr).2) _

theorem loggedSkip_erase (upTo : Nat) : (loggedSkip P upTo).erase = skipMessageKeys P upTo := by
  simp only [loggedSkip, skipMessageKeys, Logged.erase_bind, Logged.erase_lift]
  refine bind_congr fun state => ?_
  cases state.ckr with
  | none => rfl
  | some ckr =>
    by_cases hmax : state.nr + state.maxSkip < upTo
    · simp only [if_pos hmax, Logged.erase_bind, Logged.erase_lift, loggedSkipLoop_erase]
    · simp only [if_neg hmax, loggedSkipLoop_erase]

theorem loggedTrySkipped_erase (header : MessageHeader) (ciphertext ad : Bytes)
    (verifyMac : Option MacVerifier) : (loggedTrySkipped P header ciphertext verifyMac).erase =
      trySkippedMessageKeys P header ciphertext ad verifyMac := by
  simp only [loggedTrySkipped, trySkippedMessageKeys, Logged.erase_bind, Logged.erase_lift]
  refine bind_congr fun state => ?_
  cases state.mkskipped.get? (header.dh, header.n) with
  | none => rfl
  | some mk =>
    simp only [Logged.erase_bind, Logged.erase_lift, Logged.erase_emit, Logged.erase_pure,
      pure_bind]

theorem loggedReceiveAt_erase (n : Nat) (ciphertext : Bytes) (verifyMac : Option MacVerifier) :
    (loggedReceiveAt P n ciphertext verifyMac).erase = receiveAt P n ciphertext verifyMac := by
  simp only [loggedReceiveAt, Logged.erase_bind, Logged.erase_lift, loggedSkip_erase]
  rfl

theorem loggedDecrypt_erase (generated : KeyPair P) (header : MessageHeader)
    (ciphertext ad : Bytes) (verifyMac : Option MacVerifier) :
    (loggedDecrypt P generated header ciphertext verifyMac).erase =
      ratchetDecrypt P generated header ciphertext ad verifyMac := by
  simp only [loggedDecrypt, ratchetDecrypt, Logged.erase_bind,
    loggedTrySkipped_erase header ciphertext ad]
  refine bind_congr fun plain => ?_
  cases plain with
  | some plain => rfl
  | none =>
    funext s
    simp only [Logged.erase_bind, Logged.erase_lift]
    by_cases hd : s.dhr = some header.dh
    · change Logged.erase (if s.dhr = some header.dh then _ else _ : LoggedM Bytes) s =
        (if s.dhr ≠ some header.dh then _ else _ : RatchetM Bytes) s
      rw [if_pos hd, if_neg (not_not.mpr hd), loggedReceiveAt_erase]
      rfl
    · change Logged.erase (if s.dhr = some header.dh then _ else _ : LoggedM Bytes) s =
        (if s.dhr ≠ some header.dh then _ else _ : RatchetM Bytes) s
      rw [if_neg hd, if_pos hd]
      simp only [loggedTurn, Logged.erase_bind, Logged.erase_lift, loggedSkip_erase,
        loggedReceiveAt_erase]
      cases hc : s.ckr with
      | none =>
        simp only [Option.isSome_none, Bool.false_eq_true, if_false, bind, EStateM.bind,
          skipMessageKeys_none header.pn hc]
        rfl
      | some ckr =>
        simp only [Option.isSome_some, if_true, bind_assoc]
        rfl

section Cache

open FifoCache (keys)

def cacheLog (log : List SkipEvent) : List (FifoCache.Event SkippedKey) :=
  log.filterMap fun
    | .derived _ => none
    | .cache e => some e

theorem cacheLog_append (log log' : List SkipEvent) :
    cacheLog (log ++ log') = cacheLog log ++ cacheLog log' := List.filterMap_append

theorem storeEvents_run {m : OrderedMap SkippedKey Bytes} (hsize : m.size ≤ maxSkippedTotal)
    (key : SkippedKey) (mk : Bytes) :
    FifoCache.run (keys m) (cacheLog (storeEvents m key mk)) = some (keys (cacheSkipped m key mk)) ∧
      (cacheSkipped m key mk).size ≤ maxSkippedTotal := by
  have hset := FifoCache.run_set m key mk
  have hle := m.size_set_le key mk
  rw [storeEvents, cacheSkipped]
  generalize m.set key mk = stored at hset hle ⊢
  by_cases hfull : stored.size > maxSkippedTotal
  · simp only [if_pos hfull]
    cases hentries : stored.entries with
    | nil => simp [OrderedMap.size, hentries] at hfull
    | cons oldest rest =>
      have hdrop := FifoCache.run_dropOldest (m := stored) (e := oldest) (by rw [hentries]; rfl)
      refine ⟨FifoCache.run_append hset hdrop, ?_⟩
      have hrest : stored.dropOldest.size = stored.size - 1 := List.length_tail
      omega
  · simp only [if_neg hfull]
    exact ⟨hset, Nat.not_lt.mp hfull⟩

/-- The log tells how the cache of `s` became that of `t`, within its bound. -/
structure Tracks (s : RatchetState) (log : List SkipEvent) (t : RatchetState) : Prop where
  cache : FifoCache.run (keys s.mkskipped) (cacheLog log) = some (keys t.mkskipped)
  size : t.mkskipped.size ≤ maxSkippedTotal
  maxSkip : t.maxSkip = s.maxSkip

theorem Tracks.trans {s t u : RatchetState} {log log' : List SkipEvent} (h : Tracks s log t)
    (h' : Tracks t log' u) : Tracks s (log ++ log') u where
  cache := by
    rw [cacheLog_append]
    exact FifoCache.run_append h.cache h'.cache
  size := h'.size
  maxSkip := h'.maxSkip.trans h.maxSkip

theorem Tracks.of_same {s t : RatchetState} (hsize : s.mkskipped.size ≤ maxSkippedTotal)
    (hcache : t.mkskipped = s.mkskipped) (hmax : t.maxSkip = s.maxSkip) : Tracks s [] t where
  cache := by rw [hcache]; rfl
  size := hcache ▸ hsize
  maxSkip := hmax

/-- How many keys of the chain of the peer key `chain` were derived to be skipped. -/
def derivations (log : List SkipEvent) (chain : Option Bytes) : Nat := log.count (.derived chain)

theorem derivations_append (log log' : List SkipEvent) (chain : Option Bytes) :
    derivations (log ++ log') chain = derivations log chain + derivations log' chain :=
  List.count_append

theorem derivations_storeEvents (m : OrderedMap SkippedKey Bytes) (key : SkippedKey) (mk : Bytes)
    (chain : Option Bytes) : derivations (storeEvents m key mk) chain = 0 := by
  refine List.count_eq_zero.mpr fun hmem => ?_
  rw [storeEvents, List.mem_cons] at hmem
  rcases hmem with h | hmem
  · cases h
  · split at hmem
    · simp at hmem
    · simp at hmem

theorem derivations_derived (chain chain' : Option Bytes) :
    derivations [.derived chain] chain' = if chain' = chain then 1 else 0 := by
  by_cases h : chain' = chain
  · simp [derivations, h]
  · have hne : ¬ chain = chain' := fun h' => h h'.symm
    simp [derivations, h, hne]

/-- One turn of the loop leaves the state `s'` to the next. -/
def skipTurn (P : Primitives) (ckr dhr : Bytes) (s : RatchetState) : RatchetState :=
  { s with
    ckr := some (kdfCk P ckr).2
    mkskipped := cacheSkipped s.mkskipped (dhr, s.nr) (kdfCk P ckr).1
    nr := s.nr + 1 }

theorem loggedSkipLoop_none (turns : Nat) (ckr : Bytes) {s : RatchetState} (hd : s.dhr = none) :
    loggedSkipLoop P (turns + 1) ckr s =
      ([.derived none], .error .assertionError { s with ckr := some (kdfCk P ckr).2 }) := by
  cases s
  subst hd
  rfl

theorem loggedSkipLoop_some (turns : Nat) (ckr : Bytes) {s : RatchetState} {dhr : Bytes}
    (hd : s.dhr = some dhr) : loggedSkipLoop P (turns + 1) ckr s =
      ([.derived (some dhr)] ++ (storeEvents s.mkskipped (dhr, s.nr) (kdfCk P ckr).1 ++
        (loggedSkipLoop P turns (kdfCk P ckr).2 (skipTurn P ckr dhr s)).1),
        (loggedSkipLoop P turns (kdfCk P ckr).2 (skipTurn P ckr dhr s)).2) := by
  cases s
  subst hd
  rfl

theorem loggedSkipLoop_ends (turns : Nat) (ckr : Bytes) {s : RatchetState}
    (hsize : s.mkskipped.size ≤ maxSkippedTotal) :
    (loggedSkipLoop P turns ckr).Ends s fun log r => Tracks s log (finalState r) ∧
      (finalState r).dhr = s.dhr ∧
      ∀ chain, derivations log chain ≤ if chain = s.dhr then turns else 0 := by
  induction turns generalizing ckr s with
  | zero => exact ⟨.of_same hsize rfl rfl, rfl, fun chain => Nat.zero_le _⟩
  | succ turns ih =>
    cases hd : s.dhr with
    | none =>
      rw [Logged.Ends, loggedSkipLoop_none turns ckr hd]
      refine ⟨⟨rfl, hsize, rfl⟩, hd, fun chain => ?_⟩
      rw [derivations_derived]
      split <;> omega
    | some dhr =>
      rw [Logged.Ends, loggedSkipLoop_some turns ckr hd]
      obtain ⟨hcache, hstored⟩ := storeEvents_run hsize (dhr, s.nr) (kdfCk P ckr).1
      have hturn : Tracks s (storeEvents s.mkskipped (dhr, s.nr) (kdfCk P ckr).1)
          (skipTurn P ckr dhr s) := ⟨hcache, hstored, rfl⟩
      have hlogged : Tracks s [.derived (some dhr)] s := ⟨rfl, hsize, rfl⟩
      obtain ⟨htracks, hdhr, hcount⟩ := ih (kdfCk P ckr).2 hturn.size
      refine ⟨hlogged.trans (hturn.trans htracks), hdhr.trans hd, fun chain => ?_⟩
      have hrest := hcount chain
      have hsame : (skipTurn P ckr dhr s).dhr = some dhr := hd
      rw [hsame] at hrest
      rw [derivations_append, derivations_append, derivations_derived, derivations_storeEvents]
      split
      · rename_i h
        rw [if_pos h] at hrest
        omega
      · rename_i h
        rw [if_neg h] at hrest
        omega

theorem loggedSkip_none (upTo : Nat) {s : RatchetState} (hc : s.ckr = none) :
    loggedSkip P upTo s = ([], .ok () s) := by
  cases s
  subst hc
  rfl

theorem loggedSkip_some (upTo : Nat) {s : RatchetState} {ckr : Bytes} (hc : s.ckr = some ckr) :
    loggedSkip P upTo s = if s.nr + s.maxSkip < upTo then
      ([], .error (.signalCryptoError "too many skipped messages") s)
    else loggedSkipLoop P (upTo - s.nr) ckr s := by
  cases s with
  | mk dhsPriv dhsPub dhr rk cks ckr₀ ns nr pn mkskipped maxSkip =>
  cases hc
  change (if nr + maxSkip < upTo then _ else _ : LoggedM Unit) _ = _
  split <;> rfl

theorem loggedSkip_ends (upTo : Nat) {s : RatchetState}
    (hsize : s.mkskipped.size ≤ maxSkippedTotal) :
    (loggedSkip P upTo).Ends s fun log r => Tracks s log (finalState r) ∧
      (finalState r).dhr = s.dhr ∧
      (∀ chain, derivations log chain ≤ if chain = s.dhr then s.maxSkip else 0) ∧
      (s.nr + s.maxSkip < upTo → log = [] ∧ (s.ckr = none ∧ r = .ok () s ∨ ∃ e, r = .error e s)) := by
  cases hc : s.ckr with
  | none =>
    rw [Logged.Ends, loggedSkip_none upTo hc]
    exact ⟨.of_same hsize rfl rfl, rfl, fun _ => Nat.zero_le _, fun _ => ⟨rfl, .inl ⟨rfl, rfl⟩⟩⟩
  | some ckr =>
    rw [Logged.Ends, loggedSkip_some upTo hc]
    by_cases hlimit : s.nr + s.maxSkip < upTo
    · rw [if_pos hlimit]
      exact ⟨.of_same hsize rfl rfl, rfl, fun _ => Nat.zero_le _, fun _ => ⟨rfl, .inr ⟨_, rfl⟩⟩⟩
    · rw [if_neg hlimit]
      obtain ⟨htracks, hdhr, hcount⟩ := loggedSkipLoop_ends (upTo - s.nr) ckr hsize (P := P)
      refine ⟨htracks, hdhr, fun chain => ?_, fun h => absurd h hlimit⟩
      have hturns := hcount chain
      by_cases hchain : chain = s.dhr
      · rw [if_pos hchain] at hturns ⊢
        omega
      · rw [if_neg hchain] at hturns ⊢
        exact hturns

theorem openMessage_final (mk ciphertext : Bytes) (v : Option MacVerifier) (s : RatchetState) :
    finalState (openMessage P mk ciphertext v s) = s := by
  cases v with
  | none =>
    cases hd : decryptAesCbc P mk ciphertext <;> simp only [openMessage, hd] <;> rfl
  | some verify =>
    cases hv : verify (deriveMessageKeys P mk).macKey <;>
      cases hd : decryptAesCbc P mk ciphertext <;> simp only [openMessage, hv, hd] <;> rfl

theorem useChain_none {s : RatchetState} (hc : s.ckr = none) (ciphertext : Bytes)
    (v : Option MacVerifier) : useChain P ciphertext v s = .error .assertionError s := by
  cases s
  subst hc
  rfl

theorem useChain_some {s : RatchetState} {ckr : Bytes} (hc : s.ckr = some ckr) (ciphertext : Bytes)
    (v : Option MacVerifier) : useChain P ciphertext v s = openMessage P (kdfCk P ckr).1 ciphertext v
      { s with ckr := some (kdfCk P ckr).2, nr := s.nr + 1 } := by
  cases s
  cases hc
  rfl

theorem useChain_final (ciphertext : Bytes) (v : Option MacVerifier) (s : RatchetState) :
    (finalState (useChain P ciphertext v s)).mkskipped = s.mkskipped ∧
      (finalState (useChain P ciphertext v s)).maxSkip = s.maxSkip := by
  cases hc : s.ckr with
  | none =>
    rw [useChain_none hc]
    exact ⟨rfl, rfl⟩
  | some ckr =>
    rw [useChain_some hc, openMessage_final]
    exact ⟨rfl, rfl⟩

theorem dhRatchet_unagreed {generated : KeyPair P} {header : MessageHeader} {s : RatchetState}
    (h : P.x25519Exchange s.dhsPriv header.dh = none) :
    dhRatchet P generated header s = .error (.valueError "Error computing shared key.")
      { s with pn := s.ns, ns := 0, nr := 0, dhr := some header.dh } := by
  change (liftExcept (ratchetDh P s.dhsPriv header.dh) >>= fun shared => _ : RatchetM Unit) _ = _
  rw [ratchetDh, h]
  rfl

theorem dhRatchet_halfway {generated : KeyPair P} {header : MessageHeader} {s : RatchetState}
    {sh : Bytes} (h : P.x25519Exchange s.dhsPriv header.dh = some sh)
    (h' : P.x25519Exchange generated.priv header.dh = none) :
    dhRatchet P generated header s = .error (.valueError "Error computing shared key.")
      { s with
        pn := s.ns, ns := 0, nr := 0, dhr := some header.dh, rk := (kdfRk P s.rk sh).1
        ckr := some (kdfRk P s.rk sh).2, dhsPriv := generated.priv, dhsPub := generated.pub } := by
  change (liftExcept (ratchetDh P s.dhsPriv header.dh) >>= fun shared => _ : RatchetM Unit) _ = _
  rw [ratchetDh, h]
  change (liftExcept (ratchetDh P generated.priv header.dh) >>= fun shared => _ : RatchetM Unit) _ = _
  rw [ratchetDh, h']
  rfl

/-- What a DH step leaves, also when it raises. -/
structure Turned (header : MessageHeader) (s : RatchetState)
    (r : EStateM.Result PyError RatchetState Unit) : Prop where
  mkskipped : (finalState r).mkskipped = s.mkskipped
  maxSkip : (finalState r).maxSkip = s.maxSkip
  dhr : (finalState r).dhr = some header.dh
  nr : (finalState r).nr = 0
  ckr : (finalState r).ckr.isSome = true ∨ (finalState r).ckr = s.ckr ∧ ∃ e t, r = .error e t

theorem dhRatchet_turned (generated : KeyPair P) (header : MessageHeader) (s : RatchetState) :
    Turned header s (dhRatchet P generated header s) := by
  cases h : P.x25519Exchange s.dhsPriv header.dh with
  | none =>
    rw [dhRatchet_unagreed h]
    exact ⟨rfl, rfl, rfl, rfl, .inr ⟨rfl, _, _, rfl⟩⟩
  | some sh =>
    cases h' : P.x25519Exchange generated.priv header.dh with
    | none =>
      rw [dhRatchet_halfway h h']
      exact ⟨rfl, rfl, rfl, rfl, .inl rfl⟩
    | some sh' =>
      rw [dhRatchet_eq h h']
      exact ⟨rfl, rfl, rfl, rfl, .inl rfl⟩

end Cache

section Bounds

variable {generated : KeyPair P} {header : MessageHeader} {s : RatchetState}

/-- The header asks for more keys of the chain of the peer key `chain` than may be skipped. -/
def AsksTooMany (s : RatchetState) (header : MessageHeader) (chain : Option Bytes) : Prop :=
  s.mkskipped.get? (header.dh, header.n) = none ∧
    (chain = s.dhr ∧ s.dhr ≠ some header.dh ∧ s.ckr.isSome = true ∧
        s.nr + s.maxSkip < header.pn ∨
      chain = some header.dh ∧ (if s.dhr = some header.dh then s.nr else 0) + s.maxSkip < header.n)

theorem loggedReceiveAt_ends (n : Nat) (ciphertext : Bytes) (v : Option MacVerifier)
    (hsize : s.mkskipped.size ≤ maxSkippedTotal) :
    (loggedReceiveAt P n ciphertext v).Ends s fun log r => Tracks s log (finalState r) ∧
      (∀ chain, derivations log chain ≤ if chain = s.dhr then s.maxSkip else 0) ∧
      (s.nr + s.maxSkip < n → log = [] ∧ (outcome r).isOk = false) := by
  refine Logged.Ends.bind (loggedSkip_ends n hsize) (fun log _ t h => ?_) fun log e t h => ?_
  · obtain ⟨htracks, _, hcount, hlimit⟩ := h
    obtain ⟨hcache, hmax⟩ := useChain_final (P := P) ciphertext v t
    rw [Logged.Ends, Logged.lift, List.append_nil]
    refine ⟨?_, hcount, fun hlt => ?_⟩
    · simpa using htracks.trans (.of_same htracks.size hcache hmax)
    · obtain ⟨hlog, ⟨hc, hsame⟩ | ⟨e, herror⟩⟩ := hlimit hlt
      · cases hsame
        rw [useChain_none hc]
        exact ⟨hlog, rfl⟩
      · cases herror
  · obtain ⟨htracks, _, hcount, hlimit⟩ := h
    exact ⟨htracks, hcount, fun hlt => ⟨(hlimit hlt).1, rfl⟩⟩

theorem loggedTurn_ends (generated : KeyPair P) (header : MessageHeader)
    (hsize : s.mkskipped.size ≤ maxSkippedTotal) :
    (loggedTurn P generated header).Ends s fun log r => Tracks s log (finalState r) ∧
      (∀ chain, derivations log chain ≤ if chain = s.dhr then s.maxSkip else 0) ∧
      (s.ckr.isSome = true → s.nr + s.maxSkip < header.pn → log = [] ∧ (outcome r).isOk = false) ∧
      ((outcome r).isOk = true → (finalState r).dhr = some header.dh ∧ (finalState r).nr = 0) := by
  refine Logged.Ends.bind (loggedSkip_ends header.pn hsize) (fun log _ t h => ?_) fun log e t h => ?_
  · obtain ⟨htracks, _, hcount, hlimit⟩ := h
    have hturned := dhRatchet_turned generated header t
    rw [Logged.Ends, Logged.lift, List.append_nil]
    refine ⟨?_, hcount, fun hc hlt => ?_, fun _ => ⟨hturned.dhr, hturned.nr⟩⟩
    · simpa using htracks.trans (.of_same htracks.size hturned.mkskipped hturned.maxSkip)
    · obtain ⟨hlog, ⟨hnone, hsame⟩ | ⟨e, herror⟩⟩ := hlimit hlt
      · rw [hnone] at hc
        cases hc
      · cases herror
  · obtain ⟨htracks, _, hcount, hlimit⟩ := h
    exact ⟨htracks, hcount, fun _ hlt => ⟨(hlimit hlt).1, rfl⟩, fun h => by cases h⟩

/-- What the log of a decryption says. -/
structure SkipBounds (s : RatchetState) (header : MessageHeader) (log : List SkipEvent)
    (r : EStateM.Result PyError RatchetState Bytes) : Prop where
  tracks : Tracks s log (finalState r)
  limit : ∀ chain, derivations log chain ≤ s.maxSkip
  chains : ∀ chain, chain ≠ s.dhr → chain ≠ some header.dh → derivations log chain = 0
  refused : ∀ chain, AsksTooMany s header chain →
    derivations log chain = 0 ∧ (outcome r).isOk = false

theorem loggedTrySkipped_none {ciphertext : Bytes} {v : Option MacVerifier}
    (hk : s.mkskipped.get? (header.dh, header.n) = none) :
    loggedTrySkipped P header ciphertext v s = ([], .ok none s) := by
  change (match s.mkskipped.get? (header.dh, header.n) with
    | none => _
    | some mk => _ : LoggedM (Option Bytes)) s = _
  rw [hk]
  rfl

theorem loggedTrySkipped_some {mk ciphertext : Bytes} {v : Option MacVerifier}
    (hk : s.mkskipped.get? (header.dh, header.n) = some mk) :
    (loggedTrySkipped P header ciphertext v).Ends s fun log r =>
      log = [.cache (.remove (header.dh, header.n))] ∧
      finalState r = { s with mkskipped := s.mkskipped.erase (header.dh, header.n) } ∧
      outcome r ≠ .ok none ∧ ∀ e, outcome r = .error e →
        outcome (openMessage P mk ciphertext v
          { s with mkskipped := s.mkskipped.erase (header.dh, header.n) }) = .error e := by
  have hemit : (Logged.emit [.cache (.remove (header.dh, header.n))] : LoggedM Unit).Ends s
      fun log r => log = [.cache (.remove (header.dh, header.n))] ∧ r = .ok () s := ⟨rfl, rfl⟩
  have hset : (Logged.lift (set { s with
      mkskipped := s.mkskipped.erase (header.dh, header.n) }) : LoggedM PUnit).Ends s fun log r =>
      log = [] ∧ r = .ok () { s with mkskipped := s.mkskipped.erase (header.dh, header.n) } :=
    ⟨rfl, rfl⟩
  have hopen : (Logged.lift (openMessage P mk ciphertext v) : LoggedM Bytes).Ends
      { s with mkskipped := s.mkskipped.erase (header.dh, header.n) } fun log r => log = [] ∧
      finalState r = { s with mkskipped := s.mkskipped.erase (header.dh, header.n) } ∧
      outcome (openMessage P mk ciphertext v
        { s with mkskipped := s.mkskipped.erase (header.dh, header.n) }) = outcome r :=
    ⟨rfl, openMessage_final mk ciphertext v _, rfl⟩
  refine Logged.Ends.get_bind ?_
  simp only [hk]
  refine hemit.bind (fun log _ t h => ?_) fun _ _ _ h => by cases h.2
  obtain ⟨rfl, h⟩ := h
  cases h
  refine hset.bind (fun log _ t h => ?_) fun _ _ _ h => by cases h.2
  obtain ⟨rfl, h⟩ := h
  cases h
  refine hopen.bind (fun log plaintext t h => ?_) fun log e t h => ?_
  · obtain ⟨rfl, h, _⟩ := h
    refine ⟨rfl, h, ?_, ?_⟩
    · intro hnone
      cases hnone
    · intro e he
      cases he
  · obtain ⟨rfl, h, hsame⟩ := h
    refine ⟨rfl, h, ?_, ?_⟩
    · intro hnone
      cases hnone
    · intro e' he
      cases he
      exact hsame

theorem derivations_le {log : List SkipEvent} {chain old : Option Bytes} {n : Nat}
    (h : derivations log chain ≤ if chain = old then n else 0) :
    derivations log chain ≤ n ∧ (chain ≠ old → derivations log chain = 0) := by
  by_cases hchain : chain = old
  · rw [if_pos hchain] at h
    exact ⟨h, fun hne => absurd hchain hne⟩
  · rw [if_neg hchain] at h
    exact ⟨by omega, fun _ => by omega⟩

/-- The chain of `header.dh` is the current one. -/
theorem loggedReceiveAt_bounds (ciphertext : Bytes) (v : Option MacVerifier)
    (hsize : s.mkskipped.size ≤ maxSkippedTotal) (hd : s.dhr = some header.dh) :
    (loggedReceiveAt P header.n ciphertext v).Ends s (SkipBounds s header) := by
  refine (loggedReceiveAt_ends header.n ciphertext v hsize).mono fun log r h => ?_
  obtain ⟨htracks, hcount, hlimit⟩ := h
  refine ⟨htracks, fun chain => (derivations_le (hcount chain)).1,
    fun chain hne _ => (derivations_le (hcount chain)).2 hne, fun chain hasks => ?_⟩
  obtain ⟨_, ⟨_, hnot, _⟩ | ⟨_, hlt⟩⟩ := hasks
  · exact absurd hd hnot
  · rw [if_pos hd] at hlt
    obtain ⟨rfl, herr⟩ := hlimit hlt
    exact ⟨rfl, herr⟩

/-- The chain of `header.dh` is a new one. -/
theorem loggedTurn_bounds (generated : KeyPair P) (ciphertext : Bytes) (v : Option MacVerifier)
    (hsize : s.mkskipped.size ≤ maxSkippedTotal) (hd : s.dhr ≠ some header.dh) :
    (do loggedTurn P generated header
        loggedReceiveAt P header.n ciphertext v).Ends s (SkipBounds s header) := by
  refine (loggedTurn_ends generated header hsize).bind (fun log _ t h => ?_) fun log e t h => ?_
  · obtain ⟨htracks, hcount, hlimit, hturned⟩ := h
    obtain ⟨hdhr, hnr⟩ := hturned rfl
    refine (loggedReceiveAt_ends header.n ciphertext v htracks.size).mono fun log' r h' => ?_
    obtain ⟨htracks', hcount', hlimit'⟩ := h'
    rw [hdhr, htracks.maxSkip] at hcount'
    rw [hnr, htracks.maxSkip] at hlimit'
    refine ⟨htracks.trans htracks', fun chain => ?_, fun chain hold hnew => ?_, fun chain hasks => ?_⟩
    · rw [derivations_append]
      obtain ⟨hle, hzero⟩ := derivations_le (hcount chain)
      obtain ⟨hle', hzero'⟩ := derivations_le (hcount' chain)
      by_cases hchain : chain = s.dhr
      · have := hzero' (hchain ▸ hd)
        omega
      · have := hzero hchain
        omega
    · rw [derivations_append, (derivations_le (hcount chain)).2 hold,
        (derivations_le (hcount' chain)).2 hnew]
    · obtain ⟨_, ⟨_, _, hc, hlt⟩ | ⟨rfl, hlt⟩⟩ := hasks
      · cases (hlimit hc hlt).2
      · rw [if_neg hd] at hlt
        obtain ⟨rfl, herr⟩ := hlimit' (by omega)
        rw [List.append_nil]
        exact ⟨(derivations_le (hcount _)).2 fun h => hd h.symm, herr⟩
  · obtain ⟨htracks, hcount, hlimit, _⟩ := h
    refine ⟨htracks, fun chain => (derivations_le (hcount chain)).1,
      fun chain hold _ => (derivations_le (hcount chain)).2 hold, fun chain hasks => ?_⟩
    obtain ⟨_, ⟨_, _, hc, hlt⟩ | ⟨rfl, _⟩⟩ := hasks
    · obtain ⟨rfl, _⟩ := hlimit hc hlt
      exact ⟨rfl, rfl⟩
    · exact ⟨(derivations_le (hcount _)).2 fun h => hd h.symm, rfl⟩

theorem loggedDecrypt_ends (generated : KeyPair P) (header : MessageHeader) (ciphertext : Bytes)
    (v : Option MacVerifier) (hsize : s.mkskipped.size ≤ maxSkippedTotal) :
    (loggedDecrypt P generated header ciphertext v).Ends s (SkipBounds s header) := by
  cases hk : s.mkskipped.get? (header.dh, header.n) with
  | some mk =>
    have herased : Tracks s [.cache (.remove (header.dh, header.n))]
        { s with mkskipped := s.mkskipped.erase (header.dh, header.n) } :=
      ⟨FifoCache.run_erase (by rw [hk]; rfl),
        Nat.le_trans (List.length_filter_le _ _) hsize, rfl⟩
    have hbounds : ∀ r : EStateM.Result PyError RatchetState Bytes,
        finalState r = { s with mkskipped := s.mkskipped.erase (header.dh, header.n) } →
        SkipBounds s header [.cache (.remove (header.dh, header.n))] r := by
      intro r hr
      refine ⟨hr ▸ herased, fun _ => Nat.zero_le _, fun _ _ _ => rfl, fun _ hasks => ?_⟩
      rw [AsksTooMany, hk] at hasks
      cases hasks.1
    refine (loggedTrySkipped_some hk).bind (fun log plain t h => ?_) fun log e t h => ?_
    · obtain ⟨rfl, hfinal, hplain, _⟩ := h
      cases plain with
      | none => exact absurd rfl hplain
      | some plain => exact hbounds (.ok plain t) hfinal
    · obtain ⟨rfl, hfinal, _⟩ := h
      exact hbounds (.error e t) hfinal
  | none =>
    have htry : (loggedTrySkipped P header ciphertext v).Ends s fun log r =>
        log = [] ∧ r = .ok none s := by
      rw [Logged.Ends, loggedTrySkipped_none hk]
      exact ⟨rfl, rfl⟩
    refine htry.bind ?_ fun _ _ _ h => by cases h.2
    rintro log plain t ⟨rfl, h⟩
    cases h
    refine Logged.Ends.get_bind ?_
    by_cases hd : s.dhr = some header.dh
    · rw [if_pos hd]
      exact loggedReceiveAt_bounds ciphertext v hsize hd
    · rw [if_neg hd]
      exact loggedTurn_bounds generated ciphertext v hsize hd

/-- Whatever header a peer sends, and also when the call raises. -/
theorem skipped_keys_bounded (generated : KeyPair P) (header : MessageHeader)
    (ciphertext ad : Bytes) (verifyMac : Option MacVerifier)
    (hsize : s.mkskipped.size ≤ maxSkippedTotal) :
    ∃ log, loggedDecrypt P generated header ciphertext verifyMac s =
        (log, ratchetDecrypt P generated header ciphertext ad verifyMac s) ∧
      (finalState (ratchetDecrypt P generated header ciphertext ad verifyMac s)).mkskipped.size ≤
        maxSkippedTotal ∧
      (∀ chain, derivations log chain ≤ s.maxSkip) ∧
      (∀ chain, chain ≠ s.dhr → chain ≠ some header.dh → derivations log chain = 0) ∧
      (∀ chain, AsksTooMany s header chain → derivations log chain = 0 ∧
        (outcome (ratchetDecrypt P generated header ciphertext ad verifyMac s)).isOk = false) ∧
      FifoCache.run (FifoCache.keys s.mkskipped) (cacheLog log) = some (FifoCache.keys
        (finalState (ratchetDecrypt P generated header ciphertext ad verifyMac s)).mkskipped) ∧
      ∀ before key after, cacheLog log = before ++ .evict key :: after →
        ∃ later, FifoCache.run (FifoCache.keys s.mkskipped) before = some (key :: later) := by
  have hends := loggedDecrypt_ends generated header ciphertext verifyMac hsize
  rw [← loggedDecrypt_erase generated header ciphertext ad verifyMac]
  rw [Logged.Ends] at hends
  rw [Logged.erase]
  generalize loggedDecrypt P generated header ciphertext verifyMac s = run at hends ⊢
  obtain ⟨log, r⟩ := run
  refine ⟨log, rfl, hends.tracks.size, hends.limit, hends.chains, hends.refused,
    hends.tracks.cache, fun before key after hlog => ?_⟩
  have hcache := hends.tracks.cache
  rw [hlog] at hcache
  exact FifoCache.evicted_earliest hcache

end Bounds

section Demo

/-- Three keys of the current chain and two of the next are asked for. -/
def demoSkipping : RatchetState where
  dhsPriv := [1]
  dhsPub := [1]
  dhr := some [9]
  rk := [4]
  cks := none
  ckr := some [5]
  nr := 1

def demoSkipHeader : MessageHeader := ⟨[8], 4, 2⟩

def demoSkipped : List SkipEvent × EStateM.Result PyError RatchetState Bytes :=
  loggedDecrypt demoPrimitives (demoKey 3) demoSkipHeader [] none demoSkipping

theorem skipped_keys_bounded_two_chains :
    (∀ chain, derivations demoSkipped.1 chain ≤ 1000) ∧
      derivations demoSkipped.1 (some [9]) = 3 ∧ derivations demoSkipped.1 (some [8]) = 2 := by
  obtain ⟨log, hrun, _, hlimit, _⟩ := skipped_keys_bounded (P := demoPrimitives) (s := demoSkipping)
    (demoKey 3) demoSkipHeader [] [] none (by decide)
  have hlog : demoSkipped.1 = log := congrArg Prod.fst hrun
  rw [← hlog] at hlimit
  exact ⟨hlimit, by decide +kernel, by decide +kernel⟩

end Demo

end PyWhats
