import PyWhats.Framing
import PyWhats.NoiseTransport

/-! `NoiseTransport.send` over the framed socket, where a call can fail. The nonce is spent
once the message is sealed: a call that fails after that leaves the peer behind. -/

namespace PyWhats.Noise

/-- One call of `send` and what befalls it: cancelled while it waits for the lock, refused by
the cipher for its length, or whatever the websocket does. -/
structure Attempt where
  plaintext : Bytes
  cancelled : Bool := false
  overflows : Bool := false
  ws : Socket.WsSend := .taken
  deriving DecidableEq

inductive SendFailure where
  | cancelled
  | overflowError
  | cipher (e : NoiseError)
  | channel (e : Socket.SendError)
  deriving DecidableEq

/-- The sending half of a `NoiseTransport` with its channel. -/
structure Outgoing where
  state : CipherState
  channel : Socket.SendHalf

section Calls

variable (A : Aead)

def send (t : Outgoing) (a : Attempt) : Except SendFailure Unit × Outgoing :=
  if a.cancelled then (.error .cancelled, t)
  else
    match renew A t.state with
    | .error e => (.error (.cipher e), t)
    | .ok cs =>
      if a.overflows then (.error .overflowError, { t with state := cs })
      else
        match cs.encryptWithAd A [] a.plaintext with
        | .error e => (.error (.cipher e), { t with state := cs })
        | .ok (ct, cs) =>
          match Socket.sendFrame t.channel a.ws ct with
          | (.error e, channel) => (.error (.channel e), ⟨cs, channel⟩)
          | (.ok (), channel) => (.ok (), ⟨cs, channel⟩)

/-- The calls in their order: the plaintexts of those that returned, and the end. -/
def sendAll : Outgoing → List Attempt → List Bytes × Outgoing
  | t, [] => ([], t)
  | t, a :: attempts =>
    match send A t a with
    | (.error _, t) => sendAll t attempts
    | (.ok (), t) => (a.plaintext :: (sendAll t attempts).1, (sendAll t attempts).2)

def recv (cs : CipherState) (frame : Bytes) : Except NoiseError (Bytes × CipherState) := do
  let cs ← renew A cs
  cs.decryptWithAd A [] frame

def recvAll : CipherState → List Bytes → Except NoiseError (List Bytes × CipherState)
  | cs, [] => .ok ([], cs)
  | cs, frame :: frames => do
    let (plaintext, cs) ← recv A cs frame
    let (plaintexts, cs) ← recvAll cs frames
    return (plaintext :: plaintexts, cs)

end Calls

/-- The socket stays connected. -/
def Attempt.Connected (a : Attempt) : Prop := a.ws = .taken ∨ a.ws = .interrupted

/-- The call seals its message and then fails. -/
def Attempt.Wasted (a : Attempt) : Prop :=
  a.cancelled = false ∧ a.overflows = false ∧
    (Socket.maxFrameLen < a.plaintext.length + tagLen ∨ a.ws = .interrupted)

/-- A ciphertext opens under the nonce that it was sealed with and no other. -/
def Aead.NonceBound (A : Aead) : Prop :=
  ∀ cipher (key key' nonce nonce' plaintext ad : Bytes), nonce.length = 12 → nonce'.length = 12 →
    nonce ≠ nonce' → A.decrypt cipher key' nonce' (A.encrypt cipher key nonce plaintext ad) ad = none

/-- A connected transport whose peer expects the message that it seals next. -/
structure InStep (A : Aead) (t : Outgoing) (peer : CipherState) : Prop where
  connected : t.channel.isConnected = true
  introSent : t.channel.introPrefix = []
  keyed : ∃ k, t.state.k = some k ∧ k.length = 32
  renewed : renew A peer = renew A t.state

/-- The peer that reads the messages of these calls gets the plaintexts of those that returned. -/
def Decrypts (A : Aead) (t : Outgoing) (peer : CipherState) (attempts : List Attempt) : Prop :=
  ∃ messages cs, (sendAll A t attempts).2.channel.wire = t.channel.wire ++ messages ∧
    recvAll A peer (messages.flatMap Socket.offered) = .ok ((sendAll A t attempts).1, cs)

section Positions

variable (A : Aead) (cipher : Cipher) (k : Bytes)

/-- The next message of the state has the number `i`. -/
def NextAt (cs : CipherState) (i : Nat) : Prop :=
  renew A cs = .ok (stateAt A cipher k (i / rekeyInterval) (i % rekeyInterval))

variable {A cipher k}

theorem mod_rekeyInterval_le (i : Nat) : i % rekeyInterval ≤ maxNonce :=
  low_nonce (Nat.mod_lt i (by decide))

theorem nextAt_stateAt (i : Nat) :
    NextAt A cipher k (stateAt A cipher k (i / rekeyInterval) (i % rekeyInterval + 1)) (i + 1) := by
  rw [NextAt, renew_stateAt]
  by_cases hdue : i % rekeyInterval + 1 ≥ rekeyInterval
  · have hdiv : (i + 1) / rekeyInterval = i / rekeyInterval + 1 := by
      rw [rekeyInterval] at hdue ⊢
      omega
    have hmod : (i + 1) % rekeyInterval = 0 := by
      rw [rekeyInterval] at hdue ⊢
      omega
    rw [if_pos hdue, hdiv, hmod]
  · have hdiv : (i + 1) / rekeyInterval = i / rekeyInterval := by
      rw [rekeyInterval] at hdue ⊢
      omega
    have hmod : (i + 1) % rekeyInterval = i % rekeyInterval + 1 := by
      rw [rekeyInterval] at hdue ⊢
      omega
    rw [if_neg hdue, hdiv, hmod]

/-- Renewing early changes nothing. -/
theorem nextAt_renewed (i : Nat) :
    NextAt A cipher k (stateAt A cipher k (i / rekeyInterval) (i % rekeyInterval)) i := by
  have hlow : ¬ i % rekeyInterval ≥ rekeyInterval := Nat.not_le.mpr (Nat.mod_lt i (by decide))
  rw [NextAt, renew_stateAt, if_neg hlow]

theorem keyed_nextAt {cs : CipherState} (hkey : cs.k = some k) :
    ∃ i, NextAt A cs.cipher k cs i := by
  obtain ⟨cipher, key, n⟩ := cs
  cases hkey
  have hstate : (⟨cipher, some k, n⟩ : CipherState) = stateAt A cipher k 0 n := rfl
  by_cases hdue : n ≥ rekeyInterval
  · refine ⟨rekeyInterval, ?_⟩
    rw [NextAt, hstate, renew_stateAt, if_pos hdue]
    rfl
  · refine ⟨n, ?_⟩
    have hlow : n < rekeyInterval := Nat.not_le.mp hdue
    rw [NextAt, hstate, renew_stateAt, if_neg hdue, Nat.div_eq_of_lt hlow, Nat.mod_eq_of_lt hlow]
    rfl

theorem recv_frameAt (hA : A.Lawful) (hk : k.length = 32) {cs : CipherState} {i : Nat}
    (h : NextAt A cipher k cs i) (plaintext : Bytes) :
    ∃ cs', recv A cs (frameAt A cipher k i plaintext) = .ok (plaintext, cs') ∧
      NextAt A cipher k cs' (i + 1) := by
  have hopened : recv A cs (frameAt A cipher k i plaintext) = .ok (plaintext,
      stateAt A cipher k (i / rekeyInterval) (i % rekeyInterval + 1)) := by
    rw [recv, h]
    exact decryptWithAd_stateAt hA hk (mod_rekeyInterval_le i) plaintext
  exact ⟨_, hopened, nextAt_stateAt i⟩

theorem recv_other (hbound : A.NonceBound) {cs : CipherState} {i j : Nat}
    (h : NextAt A cipher k cs j) (hne : i % rekeyInterval ≠ j % rekeyInterval) (plaintext : Bytes) :
    recv A cs (frameAt A cipher k i plaintext) =
      .error (.handshakeError "AEAD authentication failed") := by
  have hi := mod_rekeyInterval_le i
  have hj := mod_rekeyInterval_le j
  have hnonce : nonceOf cipher (i % rekeyInterval) ≠ nonceOf cipher (j % rekeyInterval) :=
    fun heq => hne (nonceOf_inj hi hj heq)
  have hclosed := hbound cipher (keyAt A cipher k (i / rekeyInterval))
    (keyAt A cipher k (j / rekeyInterval)) _ _ plaintext [] (nonceOf_length hi)
    (nonceOf_length hj) hnonce
  rw [recv, h]
  simp only [bind, Except.bind, CipherState.decryptWithAd, stateAt, aeadDecrypt, buildNonce_eq hj,
    pure, Except.pure, frameAt, messagePair, hclosed]

end Positions

section Run

variable {A : Aead} {cipher : Cipher} {k : Bytes} {t t' : Outgoing} {i : Nat}

/-- The sender of an open connection whose next message has the number `i`. -/
structure Sends (A : Aead) (cipher : Cipher) (k : Bytes) (t : Outgoing) (i : Nat) : Prop where
  connected : t.channel.isConnected = true
  introSent : t.channel.introPrefix = []
  next : NextAt A cipher k t.state i

theorem frameAt_length (hA : A.Lawful) (plaintext : Bytes) :
    (frameAt A cipher k i plaintext).length = plaintext.length + tagLen :=
  hA.encrypt_length cipher _ _ plaintext []

theorem Sends.unsealed (h : Sends A cipher k t i) {a : Attempt}
    (hearly : a.cancelled = true ∨ a.overflows = true) :
    ∃ e t', send A t a = (.error e, t') ∧ Sends A cipher k t' i ∧
      t'.channel.wire = t.channel.wire := by
  by_cases hcancelled : a.cancelled = true
  · have hsend : send A t a = (.error .cancelled, t) := by rw [Noise.send, if_pos hcancelled]
    exact ⟨_, _, hsend, h, rfl⟩
  · have hoverflows := hearly.resolve_left hcancelled
    have hsend : send A t a = (.error .overflowError, { t with
        state := stateAt A cipher k (i / rekeyInterval) (i % rekeyInterval) }) := by
      rw [Noise.send, if_neg hcancelled, h.next]
      simp only [if_pos hoverflows]
    exact ⟨_, _, hsend, ⟨h.connected, h.introSent, nextAt_renewed i⟩, rfl⟩

theorem Sends.sealed (h : Sends A cipher k t i) {a : Attempt} (hcancelled : a.cancelled = false)
    (hoverflows : a.overflows = false) :
    send A t a = (
      (Socket.sendFrame t.channel a.ws (frameAt A cipher k i a.plaintext)).1.mapError .channel,
      ⟨stateAt A cipher k (i / rekeyInterval) (i % rekeyInterval + 1),
        (Socket.sendFrame t.channel a.ws (frameAt A cipher k i a.plaintext)).2⟩) := by
  have hseal : (stateAt A cipher k (i / rekeyInterval) (i % rekeyInterval)).encryptWithAd A []
      a.plaintext = .ok (frameAt A cipher k i a.plaintext,
        stateAt A cipher k (i / rekeyInterval) (i % rekeyInterval + 1)) :=
    encryptWithAd_stateAt (mod_rekeyInterval_le i) a.plaintext
  rw [Noise.send, hcancelled, h.next]
  simp only [Bool.false_eq_true, if_false, hoverflows, hseal]
  rcases Socket.sendFrame t.channel a.ws (frameAt A cipher k i a.plaintext) with ⟨_ | _, channel⟩ <;>
    rfl

theorem sendFrame_tooLarge {s : Socket.SendHalf} {payload : Bytes}
    (hconn : s.isConnected = true) (ws : Socket.WsSend) (hlong : Socket.maxFrameLen < payload.length) :
    ∃ e, Socket.sendFrame s ws payload = (.error (.valueError e), s) := by
  rw [Socket.sendFrame, hconn, if_neg (by decide), if_pos hlong]
  exact ⟨_, rfl⟩

theorem sendFrame_interrupted {s : Socket.SendHalf} {payload : Bytes}
    (hconn : s.isConnected = true) (hintro : s.introPrefix = [])
    (hfits : ¬ Socket.maxFrameLen < payload.length) :
    Socket.sendFrame s .interrupted payload = (.error .interrupted, s) := by
  rw [Socket.sendFrame, hconn, if_neg (by decide), if_neg hfits]
  simp only [← hintro]

/-- A call that is wasted has used up its number. -/
theorem Sends.wasted (hA : A.Lawful) (h : Sends A cipher k t i) {a : Attempt} (hw : a.Wasted) :
    ∃ e t', send A t a = (.error e, t') ∧ Sends A cipher k t' (i + 1) ∧
      t'.channel = t.channel := by
  obtain ⟨hcancelled, hoverflows, hlost⟩ := hw
  rw [h.sealed hcancelled hoverflows]
  have hlength : (frameAt A cipher k i a.plaintext).length = a.plaintext.length + tagLen :=
    frameAt_length hA a.plaintext
  by_cases hlong : Socket.maxFrameLen < (frameAt A cipher k i a.plaintext).length
  · obtain ⟨e, hsent⟩ := sendFrame_tooLarge h.connected a.ws hlong
    rw [hsent]
    exact ⟨_, _, rfl, ⟨h.connected, h.introSent, nextAt_stateAt i⟩, rfl⟩
  · have hws : a.ws = .interrupted := by
      rcases hlost with hlost | hws
      · rw [hlength] at hlong
        exact absurd hlost hlong
      · exact hws
    rw [hws, sendFrame_interrupted h.connected h.introSent hlong]
    exact ⟨_, _, rfl, ⟨h.connected, h.introSent, nextAt_stateAt i⟩, rfl⟩

theorem Sends.sent (hA : A.Lawful) (h : Sends A cipher k t i) {a : Attempt}
    (hcancelled : a.cancelled = false) (hoverflows : a.overflows = false) (hws : a.ws = .taken)
    (hfits : a.plaintext.length + tagLen ≤ Socket.maxFrameLen) :
    ∃ t', send A t a = (.ok (), t') ∧ Sends A cipher k t' (i + 1) ∧
      t'.channel.wire = t.channel.wire ++ [Socket.frame (frameAt A cipher k i a.plaintext)] := by
  have hlength : (frameAt A cipher k i a.plaintext).length = a.plaintext.length + tagLen :=
    frameAt_length hA a.plaintext
  have hshort : (frameAt A cipher k i a.plaintext).length < 0x1000000 := by
    rw [hlength]
    rw [Socket.maxFrameLen] at hfits
    omega
  rw [h.sealed hcancelled hoverflows, hws, Socket.sendFrame_taken h.connected hshort, h.introSent]
  exact ⟨_, rfl, ⟨h.connected, rfl, nextAt_stateAt i⟩, rfl⟩

theorem Attempt.Connected.cases {a : Attempt} (h : a.Connected) :
    (a.cancelled = true ∨ a.overflows = true) ∨ a.Wasted ∨
      (a.cancelled = false ∧ a.overflows = false ∧ a.ws = .taken ∧
        a.plaintext.length + tagLen ≤ Socket.maxFrameLen) := by
  by_cases hearly : a.cancelled = true ∨ a.overflows = true
  · exact .inl hearly
  · simp only [not_or, Bool.not_eq_true] at hearly
    obtain ⟨hcancelled, hoverflows⟩ := hearly
    by_cases hw : a.Wasted
    · exact .inr (.inl hw)
    · simp only [Attempt.Wasted, hcancelled, hoverflows, true_and, not_or, Nat.not_lt] at hw
      exact .inr (.inr ⟨hcancelled, hoverflows, h.resolve_right hw.2, hw.1⟩)

theorem send_wire (t : Outgoing) (a : Attempt) :
    t.channel.wire <+: (send A t a).2.channel.wire := by
  have hframe : ∀ ct, t.channel.wire <+: (Socket.sendFrame t.channel a.ws ct).2.wire := by
    intro ct
    rw [Socket.sendFrame]
    split
    · exact List.prefix_rfl
    · split
      · exact List.prefix_rfl
      · cases a.ws with
        | taken => exact List.prefix_append _ _
        | gone => exact List.prefix_rfl
        | closed exc => exact List.prefix_rfl
        | interrupted => exact List.prefix_rfl
  rw [Noise.send]
  split
  · exact List.prefix_rfl
  · split
    · exact List.prefix_rfl
    · split
      · exact List.prefix_rfl
      · split
        · exact List.prefix_rfl
        · rename_i ct cs' _
          have hct := hframe ct
          split <;> rename_i hsent <;> rw [hsent] at hct <;> exact hct

theorem sendAll_error {a : Attempt} {e : SendFailure} (h : send A t a = (.error e, t'))
    (attempts : List Attempt) : sendAll A t (a :: attempts) = sendAll A t' attempts := by
  rw [sendAll, h]

theorem sendAll_ok {a : Attempt} (h : send A t a = (.ok (), t')) (attempts : List Attempt) :
    sendAll A t (a :: attempts) =
      (a.plaintext :: (sendAll A t' attempts).1, (sendAll A t' attempts).2) := by
  rw [sendAll, h]

theorem sendAll_wire (t : Outgoing) (attempts : List Attempt) :
    t.channel.wire <+: (sendAll A t attempts).2.channel.wire := by
  induction attempts generalizing t with
  | nil => exact List.prefix_rfl
  | cons a attempts ih =>
    have hfirst := send_wire (A := A) t a
    rcases hsend : send A t a with ⟨_ | _, t'⟩
    · rw [sendAll_error hsend]
      rw [hsend] at hfirst
      exact hfirst.trans (ih t')
    · rw [sendAll_ok hsend]
      rw [hsend] at hfirst
      exact hfirst.trans (ih t')

theorem recvAll_cons {peer last : CipherState} {ct p : Bytes} {frames ps : List Bytes} :
    recvAll A peer (ct :: frames) = .ok (p :: ps, last) ↔
      ∃ cs, recv A peer ct = .ok (p, cs) ∧ recvAll A cs frames = .ok (ps, last) := by
  rw [recvAll]
  rcases hfirst : recv A peer ct with e | ⟨plaintext, cs⟩
  · simp [bind, Except.bind]
  · rcases hrest : recvAll A cs frames with e | ⟨plaintexts, cs'⟩
    · simp only [bind, Except.bind, hrest]
      constructor
      · intro h
        cases h
      · rintro ⟨cs₁, h₁, h₂⟩
        cases h₁
        rw [hrest] at h₂
        cases h₂
    · simp only [bind, Except.bind, hrest, pure, Except.pure]
      constructor
      · intro h
        cases h
        exact ⟨cs, rfl, hrest⟩
      · rintro ⟨cs₁, h₁, h₂⟩
        cases h₁
        rw [hrest] at h₂
        cases h₂
        rfl

theorem decrypts_error {a : Attempt} {e : SendFailure} (h : send A t a = (.error e, t'))
    (hwire : t'.channel.wire = t.channel.wire) (peer : CipherState) (attempts : List Attempt) :
    Decrypts A t peer (a :: attempts) ↔ Decrypts A t' peer attempts := by
  rw [Decrypts, Decrypts, sendAll_error h, hwire]

theorem decrypts_ok {a : Attempt} {ct : Bytes} (h : send A t a = (.ok (), t'))
    (hct : ct.length < 0x1000000)
    (hwire : t'.channel.wire = t.channel.wire ++ [Socket.frame ct]) (peer : CipherState)
    (attempts : List Attempt) :
    Decrypts A t peer (a :: attempts) ↔
      ∃ cs, recv A peer ct = .ok (a.plaintext, cs) ∧ Decrypts A t' cs attempts := by
  have hoffered : Socket.offered (Socket.frame ct) = [ct] := by
    have hclass : Socket.classify ([ct].flatMap Socket.frame) = .frames [ct] :=
      Socket.classify_framed (List.cons_ne_nil _ _) (List.forall_mem_singleton.mpr hct)
    rw [List.flatMap_cons, List.flatMap_nil, List.append_nil] at hclass
    rw [Socket.offered, hclass]
  constructor
  · rintro ⟨messages, cs, hmessages, hall⟩
    rw [sendAll_ok h] at hmessages hall
    obtain ⟨later, hlater⟩ := sendAll_wire (A := A) t' attempts
    rw [← hlater, hwire, List.append_assoc, List.append_cancel_left_eq] at hmessages
    rw [← hmessages, List.singleton_append, List.flatMap_cons, hoffered] at hall
    obtain ⟨cs₁, hfirst, hrest⟩ := recvAll_cons.mp hall
    exact ⟨cs₁, hfirst, later, cs, hlater.symm, hrest⟩
  · rintro ⟨cs, hrecv, later, last, hlater, hall⟩
    refine ⟨Socket.frame ct :: later, last, ?_, ?_⟩
    · rw [sendAll_ok h, hlater, hwire, List.append_assoc, List.singleton_append]
    · rw [sendAll_ok h, List.flatMap_cons, hoffered]
      exact recvAll_cons.mpr ⟨cs, hrecv, hall⟩

theorem fits_frame (hA : A.Lawful) {plaintext : Bytes}
    (hfits : plaintext.length + tagLen ≤ Socket.maxFrameLen) :
    (frameAt A cipher k i plaintext).length < 0x1000000 := by
  have hlength : (frameAt A cipher k i plaintext).length = plaintext.length + tagLen :=
    frameAt_length hA plaintext
  rw [Socket.maxFrameLen] at hfits
  rw [hlength]
  omega

theorem Sends.decrypts (hA : A.Lawful) (hk : k.length = 32) {peer : CipherState}
    {attempts : List Attempt} (h : Sends A cipher k t i) (hpeer : NextAt A cipher k peer i)
    (hconn : ∀ a ∈ attempts, a.Connected) (hkept : ∀ a ∈ attempts, ¬ a.Wasted) :
    Decrypts A t peer attempts := by
  induction attempts generalizing t peer i with
  | nil => exact ⟨[], peer, (List.append_nil _).symm, rfl⟩
  | cons a attempts ih =>
    have hconn' : ∀ b ∈ attempts, b.Connected := fun b hb => hconn b (List.mem_cons_of_mem _ hb)
    have hkept' : ∀ b ∈ attempts, ¬ b.Wasted := fun b hb => hkept b (List.mem_cons_of_mem _ hb)
    rcases (hconn a List.mem_cons_self).cases with hearly | hwasted | ⟨hcancelled, hoverflows, hws, hfits⟩
    · obtain ⟨e, t', hsend, hsends, hwire⟩ := h.unsealed hearly
      rw [decrypts_error hsend hwire]
      exact ih hsends hpeer hconn' hkept'
    · exact absurd hwasted (hkept a List.mem_cons_self)
    · obtain ⟨t', hsend, hsends, hwire⟩ := h.sent hA hcancelled hoverflows hws hfits
      obtain ⟨cs, hrecv, hnext⟩ := recv_frameAt hA hk hpeer a.plaintext
      rw [decrypts_ok hsend (fits_frame hA hfits) hwire]
      exact ⟨cs, hrecv, ih hsends hnext hconn' hkept'⟩

/-- What the peer opens has the number that it expects. -/
theorem recv_ok_number (hbound : A.NonceBound) {cs : CipherState} {j : Nat}
    (h : NextAt A cipher k cs j) {plaintext : Bytes} {r : Bytes × CipherState}
    (hrecv : recv A cs (frameAt A cipher k i plaintext) = .ok r) (hle : j ≤ i)
    (hnear : i - j < rekeyInterval) : i = j := by
  have hmod : i % rekeyInterval = j % rekeyInterval := by
    by_contra hne
    rw [recv_other hbound h hne] at hrecv
    cases hrecv
  rw [rekeyInterval] at hmod hnear
  omega

theorem Sends.kept (hA : A.Lawful) (hbound : A.NonceBound) (hk : k.length = 32)
    {peer : CipherState} {attempts : List Attempt} {j : Nat} {plaintext : Bytes}
    (h : Sends A cipher k t i) (hpeer : NextAt A cipher k peer j) (hle : j ≤ i)
    (hnear : i - j + attempts.length < rekeyInterval) (hconn : ∀ a ∈ attempts, a.Connected)
    (hfits : plaintext.length + tagLen ≤ Socket.maxFrameLen)
    (hdecrypts : Decrypts A t peer (attempts ++ [{ plaintext := plaintext }])) :
    i = j ∧ ∀ a ∈ attempts, ¬ a.Wasted := by
  induction attempts generalizing t peer i j with
  | nil =>
    obtain ⟨t', hsend, hsends, hwire⟩ := h.sent hA (a := { plaintext := plaintext }) rfl rfl rfl hfits
    rw [List.nil_append, decrypts_ok hsend (fits_frame hA hfits) hwire] at hdecrypts
    obtain ⟨cs, hrecv, _⟩ := hdecrypts
    exact ⟨recv_ok_number hbound hpeer hrecv hle hnear, fun a ha => absurd ha List.not_mem_nil⟩
  | cons a attempts ih =>
    rw [List.length_cons] at hnear
    rw [List.cons_append] at hdecrypts
    have hconn' : ∀ b ∈ attempts, b.Connected := fun b hb => hconn b (List.mem_cons_of_mem _ hb)
    rcases (hconn a List.mem_cons_self).cases with hearly | hwasted | ⟨hcancelled, hoverflows, hws, hroom⟩
    · obtain ⟨e, t', hsend, hsends, hwire⟩ := h.unsealed hearly
      rw [decrypts_error hsend hwire] at hdecrypts
      obtain ⟨hsame, hkept⟩ := ih hsends hpeer hle (by omega) hconn' hdecrypts
      have hfirst : ¬ a.Wasted := by
        rintro ⟨hcancelled, hoverflows, _⟩
        simp [hcancelled, hoverflows] at hearly
      exact ⟨hsame, List.forall_mem_cons.mpr ⟨hfirst, hkept⟩⟩
    · obtain ⟨e, t', hsend, hsends, hchannel⟩ := h.wasted hA hwasted
      rw [decrypts_error hsend (congrArg Socket.SendHalf.wire hchannel)] at hdecrypts
      obtain ⟨hsame, _⟩ := ih hsends hpeer (by omega) (by omega) hconn' hdecrypts
      omega
    · obtain ⟨t', hsend, hsends, hwire⟩ := h.sent hA hcancelled hoverflows hws hroom
      rw [decrypts_ok hsend (fits_frame hA hroom) hwire] at hdecrypts
      obtain ⟨cs, hrecv, hrest⟩ := hdecrypts
      have hsame : i = j := recv_ok_number hbound hpeer hrecv hle (by omega)
      subst hsame
      obtain ⟨cs', hrecv', hnext⟩ := recv_frameAt hA hk hpeer a.plaintext
      rw [hrecv'] at hrecv
      cases hrecv
      obtain ⟨_, hkept⟩ := ih hsends hnext (Nat.le_refl _) (by omega) hconn' hrest
      have hfirst : ¬ a.Wasted := by
        rintro ⟨_, _, hlost | hlost⟩
        · omega
        · rw [hws] at hlost
          cases hlost
      exact ⟨rfl, List.forall_mem_cons.mpr ⟨hfirst, hkept⟩⟩

theorem InStep.sends {peer : CipherState} (h : InStep A t peer) :
    ∃ cipher k i, k.length = 32 ∧ Sends A cipher k t i ∧ NextAt A cipher k peer i := by
  obtain ⟨k, hkey, hlength⟩ := h.keyed
  obtain ⟨i, hnext⟩ := keyed_nextAt (A := A) hkey
  exact ⟨t.state.cipher, k, i, hlength, ⟨h.connected, h.introSent, hnext⟩, h.renewed.trans hnext⟩

end Run

theorem failed_sends_keep_step_iff {A : Aead} {t : Outgoing} {peer : CipherState} (hA : A.Lawful)
    (hbound : A.NonceBound) (h : InStep A t peer) (attempts : List Attempt)
    (hconn : ∀ a ∈ attempts, a.Connected) :
    ((∀ a ∈ attempts, ¬ a.Wasted) → Decrypts A t peer attempts) ∧
    ∀ plaintext : Bytes, plaintext.length + tagLen ≤ Socket.maxFrameLen →
      attempts.length < rekeyInterval →
      (Decrypts A t peer (attempts ++ [{ plaintext := plaintext }]) ↔
        ∀ a ∈ attempts, ¬ a.Wasted) := by
  obtain ⟨cipher, k, i, hk, hsends, hpeer⟩ := h.sends
  refine ⟨fun hkept => hsends.decrypts hA hk hpeer hconn hkept, ?_⟩
  intro plaintext hfits hfew
  constructor
  · intro hdecrypts
    exact (hsends.kept hA hbound hk hpeer (Nat.le_refl _) (by omega) hconn hfits hdecrypts).2
  · intro hkept
    have hlast : Attempt.Connected { plaintext := plaintext } := .inl rfl
    have hlastKept : ¬ Attempt.Wasted { plaintext := plaintext } := by
      rintro ⟨_, _, hlost | hlost⟩
      · exact absurd hlost (Nat.not_lt.mpr hfits)
      · cases hlost
    apply hsends.decrypts hA hk hpeer
    · exact List.forall_mem_append.mpr ⟨hconn, List.forall_mem_singleton.mpr hlast⟩
    · exact List.forall_mem_append.mpr ⟨hkept, List.forall_mem_singleton.mpr hlastKept⟩

section Demo

def demoTag (nonce : Bytes) : Bytes := (nonce ++ List.replicate 16 0).take 16

/-- A cipher that hides nothing and whose tag is the nonce. -/
def taggedAead : Aead where
  sha256 data := demoDigest 32 data
  encrypt _ _ nonce plaintext _ := plaintext ++ demoTag nonce
  decrypt _ _ nonce ciphertext _ :=
    if ciphertext.drop (ciphertext.length - 16) = demoTag nonce then
      some (ciphertext.take (ciphertext.length - 16))
    else none

theorem demoTag_length (nonce : Bytes) : (demoTag nonce).length = 16 := by
  rw [demoTag, List.length_take, List.length_append, List.length_replicate]
  omega

theorem taggedAead_cut (nonce plaintext : Bytes) :
    (plaintext ++ demoTag nonce).length - 16 = plaintext.length := by
  rw [List.length_append, demoTag_length, Nat.add_sub_cancel]

theorem taggedAead_lawful : taggedAead.Lawful where
  decrypt_encrypt cipher key nonce plaintext ad hkey hnonce := by
    simp only [taggedAead, taggedAead_cut, List.drop_left, List.take_left, if_true]
  encrypt_length cipher key nonce plaintext ad := by
    simp only [taggedAead, List.length_append, demoTag_length]

theorem taggedAead_nonceBound : taggedAead.NonceBound := by
  intro cipher key key' nonce nonce' plaintext ad hnonce hnonce' hne
  have htag : demoTag nonce ≠ demoTag nonce' := by
    intro htag
    have htake := congrArg (List.take 12) htag
    simp only [demoTag, List.take_take] at htake
    rw [List.take_append_of_le_length (by omega), List.take_append_of_le_length (by omega),
      List.take_of_length_le (by omega), List.take_of_length_le (by omega)] at htake
    exact hne htake
  simp only [taggedAead, taggedAead_cut, List.drop_left, if_neg htag]

def demoPeerState : CipherState := ⟨.aesGcm, some (List.replicate 32 0), 0⟩

def demoOutgoing : Outgoing := { state := demoPeerState, channel := {} }

/-- One byte more than the largest message that fits a frame. -/
def demoOversized : Attempt := { plaintext := List.replicate 16777200 0 }

theorem demoOutgoing_inStep : InStep taggedAead demoOutgoing demoPeerState :=
  ⟨rfl, rfl, ⟨_, rfl, List.length_replicate⟩, rfl⟩

theorem demoOversized_wasted : demoOversized.Wasted := by
  have hlength : demoOversized.plaintext.length = 16777200 := List.length_replicate
  refine ⟨rfl, rfl, Or.inl ?_⟩
  rw [hlength]
  decide

theorem failed_sends_keep_step_demo :
    Decrypts taggedAead demoOutgoing demoPeerState
        [{ plaintext := [1], cancelled := true }, { plaintext := [2] }] ∧
      ¬ Decrypts taggedAead demoOutgoing demoPeerState [demoOversized, { plaintext := [2] }] := by
  have hharmless := (failed_sends_keep_step_iff taggedAead_lawful taggedAead_nonceBound
    demoOutgoing_inStep [{ plaintext := [1], cancelled := true }, { plaintext := [2] }]
    (by simp [Attempt.Connected])).1
  have hoversized := (failed_sends_keep_step_iff taggedAead_lawful taggedAead_nonceBound
    demoOutgoing_inStep [demoOversized] (List.forall_mem_singleton.mpr (.inl rfl))).2 [2]
    (by decide) (by decide)
  refine ⟨hharmless ?_, ?_⟩
  · simp [Attempt.Wasted, Socket.maxFrameLen, tagLen]
  · intro hdecrypts
    exact hoversized.mp hdecrypts demoOversized List.mem_cons_self demoOversized_wasted

/-- The message after one that did not fit a frame does not open. -/
theorem oversized_send_desynchronises :
    ∃ e t₁ t₂ ct, InStep taggedAead demoOutgoing demoPeerState ∧
      send taggedAead demoOutgoing demoOversized = (.error e, t₁) ∧
      t₁.channel = demoOutgoing.channel ∧ t₁.channel.isConnected = true ∧
      send taggedAead t₁ { plaintext := [7] } = (.ok (), t₂) ∧
      t₂.channel.wire = [Socket.frame ct] ∧
      recv taggedAead demoPeerState ct =
        .error (.handshakeError "AEAD authentication failed") := by
  have hnext : NextAt taggedAead .aesGcm (List.replicate 32 0) demoPeerState 0 := rfl
  have hsends : Sends taggedAead .aesGcm (List.replicate 32 0) demoOutgoing 0 := ⟨rfl, rfl, hnext⟩
  obtain ⟨e, t₁, hfailed, hsends₁, hchannel⟩ := hsends.wasted taggedAead_lawful demoOversized_wasted
  obtain ⟨t₂, hsent, _, hwire⟩ := hsends₁.sent taggedAead_lawful (a := { plaintext := [7] }) rfl rfl
    rfl (by decide)
  rw [hchannel] at hwire
  exact ⟨e, t₁, t₂, _, demoOutgoing_inStep, hfailed, hchannel, hsends₁.connected, hsent, hwire,
    recv_other taggedAead_nonceBound hnext (by decide) [7]⟩

end Demo

end PyWhats.Noise
