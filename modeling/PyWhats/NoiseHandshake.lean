import PyWhats.Lib.Duplex
import PyWhats.Noise

/-! The XX handshake run over a framed socket against the responder of the test
server. Token by token the two symmetric states stay equal, so the transports end
with the same keys. -/

namespace PyWhats.Noise

structure Hello where
  ephemeral : Bytes := []
  static : Bytes := []
  payload : Bytes := []

structure Finish where
  static : Bytes := []
  payload : Bytes := []

/-- The `HandshakeMessage` protobuf; a part that is not set reads as empty. -/
structure HandshakeMessage where
  clientHello : Hello := {}
  serverHello : Hello := {}
  clientFinish : Finish := {}

structure HandshakeProto where
  serialize : HandshakeMessage → Bytes
  parse : Bytes → Option HandshakeMessage

structure NoiseTransport where
  send : CipherState
  recv : CipherState
  handshakeHash : Bytes

inductive Protocol where
  | chaChaPoly
  | aesGcm
  deriving DecidableEq

def Protocol.name : Protocol → Bytes
  | .chaChaPoly => "Noise_XX_25519_ChaChaPoly_SHA256".toUTF8.data.toList
  | .aesGcm => "Noise_XX_25519_AESGCM_SHA256".toUTF8.data.toList

def Protocol.cipher : Protocol → Cipher
  | .chaChaPoly => .chaChaPoly
  | .aesGcm => .aesGcm

abbrev ChannelM := Duplex.Task Bytes NoiseError

section Perform

variable {P : Primitives} (A : Aead) (pb : HandshakeProto)

/-- `except HandshakeError: raise` and, for anything else, a bare `HandshakeError`. -/
def hideCause : NoiseError → NoiseError
  | .handshakeError message => .handshakeError message
  | _ => .handshakeError "handshake failed"

/-- `NoiseHandshake.perform`, with the handshake state it leaves behind. -/
def perform (st : HandshakeState P) (ephemeral : KeyPair P) (clientPayload : Bytes) :
    ChannelM (NoiseTransport × HandshakeState P) := do
  let (split, st) ← Co.tryCatch (do
    let (leg1, split, st) ← Co.lift (st.writeMessage A ephemeral [])
    if split.isSome then
      Co.raise (.handshakeError "unexpected handshake completion on leg 1")
    Duplex.send (pb.serialize { clientHello := { ephemeral := leg1.take dhLen } })
    let respBytes ← Duplex.recv
    let resp ← Co.lift ((pb.parse respBytes).elim
      (.error (.handshakeError "invalid handshake response framing")) .ok)
    let serverHello := resp.serverHello
    if serverHello.ephemeral.isEmpty then
      Co.raise (.handshakeError "server_hello missing ephemeral")
    let leg2 := serverHello.ephemeral ++ serverHello.static ++ serverHello.payload
    let (_, split, st) ← Co.lift (st.readMessage A leg2)
    if split.isSome then
      Co.raise (.handshakeError "unexpected handshake completion on leg 2")
    let (leg3, split, st) ← Co.lift (st.writeMessage A ephemeral clientPayload)
    match split with
    | none => Co.raise (.handshakeError "handshake did not complete on leg 3")
    | some split =>
      let staticLen := dhLen + tagLen
      Duplex.send (pb.serialize
        { clientFinish := { static := leg3.take staticLen, payload := leg3.drop staticLen } })
      return (split, st)) fun e => Co.raise (hideCause e)
  let (c1, c2) := split
  return (⟨c1, c2, st.handshakeHash⟩, st)

/-- `ServerHandshake.perform` of the test server. -/
def serverPerform (st : HandshakeState P) (ephemeral : KeyPair P) (serverPayload : Bytes) :
    ChannelM (NoiseTransport × HandshakeState P × Bytes) := do
  let leg1 ← Duplex.recv
  let hm1 ← Co.lift ((pb.parse leg1).elim (.error (.channelError "DecodeError")) .ok)
  let (_, split, st) ← Co.lift (st.readMessage A hm1.clientHello.ephemeral)
  if split.isSome then Co.raise .assertionError
  let (leg2, split, st) ← Co.lift (st.writeMessage A ephemeral serverPayload)
  if split.isSome then Co.raise .assertionError
  Duplex.send (pb.serialize { serverHello := {
    ephemeral := leg2.take dhLen
    static := (leg2.drop dhLen).take (dhLen + tagLen)
    payload := leg2.drop (dhLen + (dhLen + tagLen)) } })
  let leg3 ← Duplex.recv
  let hm3 ← Co.lift ((pb.parse leg3).elim (.error (.channelError "DecodeError")) .ok)
  let finish := hm3.clientFinish
  let (clientPayload, split, st) ← Co.lift (st.readMessage A (finish.static ++ finish.payload))
  match split with
  | none => Co.raise .assertionError
  | some (c1, c2) => return (⟨c2, c1, st.handshakeHash⟩, st, clientPayload)

end Perform

section Lockstep

variable {P : Primitives} {A : Aead}

theorem dh_agree (hP : P.Lawful) (a b : KeyPair P) : dh (P := P) a.priv b.pub = .ok (a.agree b) := by
  have hpub := hP.public_length b
  simp [dh, dhLen, a.priv_length, hpub, hP.exchange_eq a b]

theorem buildNonce_ok (cipher : Cipher) {n : Nat} (hn : n ≤ maxNonce) :
    ∃ nonce, buildNonce cipher n = .ok nonce ∧ nonce.length = 12 := by
  have hlength := Binary.toBytesBig_length 8 n
  have hlow : ¬ n > maxNonce := by omega
  cases cipher with
  | chaChaPoly =>
    refine ⟨_, by rw [buildNonce, buildNonceChachapoly, if_neg hlow], ?_⟩
    simp [hlength]
  | aesGcm =>
    refine ⟨_, by rw [buildNonce, buildNonceAesgcm, if_neg hlow], ?_⟩
    simp [hlength]

/-- A key, if there is one, has the right length, and at most `b` messages used it. -/
structure CipherState.Sound (b : Nat) (cs : CipherState) : Prop where
  key : ∀ k ∈ cs.k, k.length = 32
  nonce : cs.n ≤ b

theorem decryptWithAd_encryptWithAd (hA : A.Lawful) {b : Nat} {cs : CipherState} (hcs : cs.Sound b)
    (hb : b ≤ maxNonce) (ad plaintext : Bytes) :
    ∃ ct cs', cs.encryptWithAd A ad plaintext = .ok (ct, cs') ∧
      cs.decryptWithAd A ad ct = .ok (plaintext, cs') ∧ cs'.k = cs.k ∧ cs'.Sound (b + 1) ∧
      ct.length = plaintext.length + if cs.hasKey then tagLen else 0 := by
  have hsound : ({ cs with n := cs.n + 1 } : CipherState).Sound (b + 1) :=
    ⟨hcs.key, Nat.succ_le_succ hcs.nonce⟩
  cases hk : cs.k with
  | none =>
    refine ⟨plaintext, cs, ?_, ?_, hk, ⟨hcs.key, Nat.le_succ_of_le hcs.nonce⟩, ?_⟩
    · rw [CipherState.encryptWithAd, hk]
    · rw [CipherState.decryptWithAd, hk]
    · simp [CipherState.hasKey, hk]
  | some k =>
    obtain ⟨nonce, hnonce, hlength⟩ := buildNonce_ok cs.cipher (Nat.le_trans hcs.nonce hb)
    refine ⟨A.encrypt cs.cipher k nonce plaintext ad, { cs with n := cs.n + 1 }, ?_, ?_, hk,
      hsound, ?_⟩
    · simp only [CipherState.encryptWithAd, hk, aeadEncrypt, hnonce]
      rfl
    · have hopen := hA.decrypt_encrypt cs.cipher k nonce plaintext ad (hcs.key k hk) hlength
      simp only [CipherState.decryptWithAd, hk, aeadDecrypt, hnonce, bind, Except.bind, pure,
        Except.pure, hopen]
    · simp [CipherState.hasKey, hk, hA.encrypt_length, tagLen]

namespace SymmetricState

def Sound (b : Nat) (ss : SymmetricState) : Prop := ss.cs.Sound b

theorem Sound.later {b b' : Nat} {ss : SymmetricState} (h : ss.Sound b) (hb : b ≤ b') :
    ss.Sound b' := ⟨h.key, Nat.le_trans h.nonce hb⟩

theorem mixKey_ok (hP : P.Lawful) (ss : SymmetricState) (secret : Bytes) :
    ∃ ss', ss.mixKey P secret = .ok ss' ∧ ss'.Sound 0 ∧ ss'.cs.hasKey = true := by
  have hlength : (hkdf P ss.ck secret).2.length = 32 := hP.hmac_length _ _
  refine ⟨{ ss with
    ck := (hkdf P ss.ck secret).1
    cs := { ss.cs with k := some (hkdf P ss.ck secret).2, n := 0 } }, ?_, ⟨?_, Nat.le_refl 0⟩, rfl⟩
  · simp [mixKey, CipherState.initializeKey, hlength, bind, Except.bind, pure, Except.pure]
  · rintro k ⟨⟩
    exact hlength

theorem decryptAndHash_encryptAndHash (hA : A.Lawful) {b : Nat} {ss : SymmetricState}
    (hss : ss.Sound b) (hb : b ≤ maxNonce) (plaintext : Bytes) :
    ∃ ct ss', ss.encryptAndHash A plaintext = .ok (ct, ss') ∧
      ss.decryptAndHash A ct = .ok (plaintext, ss') ∧ ss'.Sound (b + 1) ∧
      ss'.cs.hasKey = ss.cs.hasKey ∧
      ct.length = plaintext.length + if ss.cs.hasKey then tagLen else 0 := by
  obtain ⟨ct, cs, hencrypt, hdecrypt, hkey, hsound, hlength⟩ :=
    decryptWithAd_encryptWithAd hA hss hb ss.h plaintext
  refine ⟨ct, { ss with cs := cs }.mixHash A ct, ?_, ?_, ⟨hsound.key, hsound.nonce⟩, ?_, hlength⟩
  · simp only [encryptAndHash, hencrypt, bind, Except.bind, pure, Except.pure]
  · simp only [decryptAndHash, hdecrypt, bind, Except.bind, pure, Except.pure]
  · change cs.k.isSome = ss.cs.k.isSome
    rw [hkey]

theorem split_ok (hP : P.Lawful) (ss : SymmetricState) :
    ss.split P = .ok (⟨ss.cs.cipher, some (hkdf P ss.ck []).1, 0⟩,
      ⟨ss.cs.cipher, some (hkdf P ss.ck []).2, 0⟩) := by
  have h1 : (hkdf P ss.ck []).1.length = 32 := hP.hmac_length _ _
  have h2 : (hkdf P ss.ck []).2.length = 32 := hP.hmac_length _ _
  simp [split, CipherState.initializeKey, h1, h2, bind, Except.bind, pure, Except.pure]

end SymmetricState

/-- The writer `w` and the reader `r` have the same symmetric state, and what they know
of each other is right. -/
structure Mirror (b : Nat) (w r : HandshakeState P) : Prop where
  roles : r.role = w.role.other
  ss : r.ss = w.ss
  sound : w.ss.Sound b
  messages : r.messages = w.messages
  re : r.re = w.e.map KeyPair.pub
  re' : w.re = r.e.map KeyPair.pub
  rs : ∀ pub ∈ r.rs, pub = w.s.pub
  rs' : ∀ pub ∈ w.rs, pub = r.s.pub

namespace Mirror

variable {b : Nat} {w r : HandshakeState P}

theorem other_other (role : Role) : role.other.other = role := by
  cases role <;> rfl

theorem symm (h : Mirror b w r) : Mirror b r w where
  roles := by rw [h.roles, other_other]
  ss := h.ss.symm
  sound := h.ss ▸ h.sound
  messages := h.messages.symm
  re := h.re'
  re' := h.re
  rs := h.rs'
  rs' := h.rs

theorem later {b' : Nat} (h : Mirror b w r) (hb : b ≤ b') : Mirror b' w r :=
  { h with sound := h.sound.later hb }

theorem mix {b' : Nat} {ss : SymmetricState} (h : Mirror b w r) (hss : ss.Sound b') :
    Mirror b' { w with ss := ss } { r with ss := ss } :=
  { h with ss := rfl, sound := hss }

end Mirror

/-- What has to be known before the initiator `i` and the responder `r` mix a token. -/
def Token.Ready (i r : HandshakeState P) : Token → Prop
  | .e | .s => True
  | .ee => i.e.isSome = true ∧ r.e.isSome = true
  | .es => i.e.isSome = true ∧ i.rs.isSome = true
  | .se => r.e.isSome = true ∧ r.rs.isSome = true

/-- The agreement that a token mixes. -/
def HandshakeState.secret (st : HandshakeState P) : Token → Except NoiseError Bytes
  | .ee => st.dhEe
  | .es => st.dhEs
  | .se => st.dhSe
  | .e | .s => .error .assertionError

theorem secret_agrees (hP : P.Lawful) {b : Nat} {i r : HandshakeState P} (h : Mirror b i r)
    (hi : i.role = .initiator) {token : Token} (hdh : token ≠ .e ∧ token ≠ .s)
    (hready : token.Ready i r) :
    ∃ secret, i.secret token = .ok secret ∧ r.secret token = .ok secret := by
  have hr : r.role = .responder := by
    rw [h.roles, hi]
    rfl
  cases token with
  | e => exact absurd rfl hdh.1
  | s => exact absurd rfl hdh.2
  | ee =>
    obtain ⟨a, ha⟩ := Option.isSome_iff_exists.mp hready.1
    obtain ⟨c, hc⟩ := Option.isSome_iff_exists.mp hready.2
    refine ⟨a.agree c, ?_, ?_⟩
    · simp [HandshakeState.secret, HandshakeState.dhEe, HandshakeState.dhEphemeral, h.re', ha, hc,
        dh_agree hP]
    · simp [HandshakeState.secret, HandshakeState.dhEe, HandshakeState.dhEphemeral, h.re, ha, hc,
        dh_agree hP, hP.agree_comm a c]
  | es =>
    obtain ⟨a, ha⟩ := Option.isSome_iff_exists.mp hready.1
    obtain ⟨pub, hpub⟩ := Option.isSome_iff_exists.mp hready.2
    have hstatic := h.rs' pub hpub
    refine ⟨a.agree r.s, ?_, ?_⟩
    · simp [HandshakeState.secret, HandshakeState.dhEs, HandshakeState.dhEphemeral, hi, ha, hpub,
        hstatic, dh_agree hP]
    · simp [HandshakeState.secret, HandshakeState.dhEs, HandshakeState.dhStatic, hr, h.re, ha,
        dh_agree hP, hP.agree_comm a r.s]
  | se =>
    obtain ⟨c, hc⟩ := Option.isSome_iff_exists.mp hready.1
    obtain ⟨pub, hpub⟩ := Option.isSome_iff_exists.mp hready.2
    have hstatic := h.rs pub hpub
    refine ⟨i.s.agree c, ?_, ?_⟩
    · simp [HandshakeState.secret, HandshakeState.dhSe, HandshakeState.dhStatic, hi, h.re', hc,
        dh_agree hP]
    · simp [HandshakeState.secret, HandshakeState.dhSe, HandshakeState.dhEphemeral, hr, hc, hpub,
        hstatic, dh_agree hP, hP.agree_comm i.s c]

/-- The same for a writer and a reader, whichever of them is the initiator. -/
theorem secret_mirrors (hP : P.Lawful) {b : Nat} {w r : HandshakeState P} (h : Mirror b w r)
    {token : Token} (hdh : token ≠ .e ∧ token ≠ .s)
    (hready : w.role = .initiator ∧ token.Ready w r ∨ r.role = .initiator ∧ token.Ready r w) :
    ∃ secret, w.secret token = .ok secret ∧ r.secret token = .ok secret := by
  rcases hready with ⟨hw, hready⟩ | ⟨hr, hready⟩
  · exact secret_agrees hP h hw hdh hready
  · obtain ⟨secret, hr, hw⟩ := secret_agrees hP h.symm hr hdh hready
    exact ⟨secret, hw, hr⟩

/-- What the writer of a token remembers. -/
def HandshakeState.wrote (w : HandshakeState P) (ephemeral : KeyPair P) :
    Token → HandshakeState P
  | .e => { w with e := some ephemeral }
  | _ => w

/-- What the reader of a token learns. -/
def HandshakeState.heard (r : HandshakeState P) (ephemeral : KeyPair P) (static : Bytes) :
    Token → HandshakeState P
  | .e => { r with re := some ephemeral.pub }
  | .s => { r with rs := some static }
  | _ => r

theorem Mirror.token {b b' : Nat} {w r : HandshakeState P} {ss : SymmetricState}
    (h : Mirror b w r) (hss : ss.Sound b') (ephemeral : KeyPair P) (token : Token) :
    Mirror b' { w.wrote ephemeral token with ss := ss }
      { r.heard ephemeral w.s.pub token with ss := ss } := by
  cases token with
  | e => exact { h with ss := rfl, sound := hss, re := rfl }
  | s =>
    refine { h with ss := rfl, sound := hss, rs := ?_ }
    rintro pub ⟨⟩
    rfl
  | ee => exact h.mix hss
  | es => exact h.mix hss
  | se => exact h.mix hss

theorem dh_lockstep (hP : P.Lawful) {b : Nat} {w r : HandshakeState P} (h : Mirror b w r)
    {token : Token} (hdh : token ≠ .e ∧ token ≠ .s)
    (hready : w.role = .initiator ∧ token.Ready w r ∨ r.role = .initiator ∧ token.Ready r w) :
    ∃ ss, ss.Sound 0 ∧ w.mixKey (w.secret token) = .ok { w with ss := ss } ∧
      r.mixKey (r.secret token) = .ok { r with ss := ss } := by
  obtain ⟨secret, hw, hr⟩ := secret_mirrors hP h hdh hready
  obtain ⟨ss, hmix, hsound, _⟩ := SymmetricState.mixKey_ok hP w.ss secret
  refine ⟨ss, hsound, ?_, ?_⟩
  · simp only [HandshakeState.mixKey, hw, hmix, bind, Except.bind, pure, Except.pure]
  · simp only [HandshakeState.mixKey, hr, h.ss, hmix, bind, Except.bind, pure, Except.pure]

/-- What the writer appends for a token the reader takes off again, and both mix the same. -/
theorem token_lockstep (hP : P.Lawful) (hA : A.Lawful) {b : Nat} {w r : HandshakeState P}
    (h : Mirror b w r) (hb : b ≤ maxNonce) (ephemeral : KeyPair P) (token : Token)
    (hready : w.role = .initiator ∧ token.Ready w r ∨ r.role = .initiator ∧ token.Ready r w) :
    ∃ out ss, ss.Sound (b + 1) ∧
      w.writeToken A ephemeral token = .ok (out, { w.wrote ephemeral token with ss := ss }) ∧
      ∀ rest, r.readToken A (out ++ rest) token =
        .ok (rest, { r.heard ephemeral w.s.pub token with ss := ss }) := by
  cases token with
  | e =>
    have hlength := hP.public_length ephemeral
    refine ⟨ephemeral.pub, w.ss.mixHash A ephemeral.pub, h.sound.later (Nat.le_succ b), rfl,
      fun rest => ?_⟩
    have htake : (ephemeral.pub ++ rest).take dhLen = ephemeral.pub := List.take_left' hlength
    have hdrop : (ephemeral.pub ++ rest).drop dhLen = rest := List.drop_left' hlength
    have hlong : ¬ (ephemeral.pub ++ rest).length < dhLen := by
      rw [List.length_append, hlength, dhLen]
      omega
    rw [HandshakeState.readToken, if_neg hlong, htake, hdrop, h.ss]
    rfl
  | s =>
    obtain ⟨ct, ss, hencrypt, hdecrypt, hsound, -, hlength⟩ :=
      SymmetricState.decryptAndHash_encryptAndHash hA h.sound hb w.s.pub
    rw [hP.public_length] at hlength
    refine ⟨ct, ss, hsound, ?_, fun rest => ?_⟩
    · simp only [HandshakeState.writeToken, hencrypt, bind, Except.bind, pure, Except.pure]
      rfl
    · have htake : (ct ++ rest).take (dhLen + if w.ss.cs.hasKey then tagLen else 0) = ct :=
        List.take_left' hlength
      have hdrop : (ct ++ rest).drop (dhLen + if w.ss.cs.hasKey then tagLen else 0) = rest :=
        List.drop_left' hlength
      have hlong : ¬ (ct ++ rest).length < dhLen + if w.ss.cs.hasKey then tagLen else 0 := by
        rw [List.length_append, hlength, dhLen]
        omega
      have hstatic : ¬ w.s.pub.length ≠ dhLen := not_not.mpr (hP.public_length w.s)
      simp only [HandshakeState.readToken, h.ss, if_neg hlong, htake, hdrop, hdecrypt, bind,
        Except.bind, pure, Except.pure, if_neg hstatic]
      rfl
  | ee =>
    obtain ⟨ss, hss, hw, hr⟩ := dh_lockstep hP h (by decide) hready
    refine ⟨[], ss, hss.later (Nat.zero_le _), ?_, fun rest => ?_⟩
    · exact congrArg (fun x => x >>= fun st => .ok ([], st)) hw
    · exact congrArg (fun x => x >>= fun st => .ok (rest, st)) hr
  | es =>
    obtain ⟨ss, hss, hw, hr⟩ := dh_lockstep hP h (by decide) hready
    refine ⟨[], ss, hss.later (Nat.zero_le _), ?_, fun rest => ?_⟩
    · exact congrArg (fun x => x >>= fun st => .ok ([], st)) hw
    · exact congrArg (fun x => x >>= fun st => .ok (rest, st)) hr
  | se =>
    obtain ⟨ss, hss, hw, hr⟩ := dh_lockstep hP h (by decide) hready
    refine ⟨[], ss, hss.later (Nat.zero_le _), ?_, fun rest => ?_⟩
    · exact congrArg (fun x => x >>= fun st => .ok ([], st)) hw
    · exact congrArg (fun x => x >>= fun st => .ok (rest, st)) hr

/-- The tokens take the writer from `w` to `w'` and the reader of `out` from `r` to `r'`. -/
structure Lockstep (A : Aead) (ephemeral : KeyPair P) (tokens : List Token)
    (w r w' r' : HandshakeState P) (out : Bytes) : Prop where
  write : w.writeTokens A ephemeral tokens = .ok (out, w')
  read : ∀ rest, r.readTokens A (out ++ rest) tokens = .ok (rest, r')

theorem Lockstep.nil {ephemeral : KeyPair P} {w r : HandshakeState P} :
    Lockstep A ephemeral [] w r w r [] := ⟨rfl, fun _ => rfl⟩

theorem Lockstep.cons {ephemeral : KeyPair P} {token : Token} {tokens : List Token}
    {w r w₁ r₁ w' r' : HandshakeState P} {out rest : Bytes}
    (hwrite : w.writeToken A ephemeral token = .ok (out, w₁))
    (hread : ∀ rest, r.readToken A (out ++ rest) token = .ok (rest, r₁))
    (h : Lockstep A ephemeral tokens w₁ r₁ w' r' rest) :
    Lockstep A ephemeral (token :: tokens) w r w' r' (out ++ rest) := by
  refine ⟨?_, fun more => ?_⟩
  · simp only [HandshakeState.writeTokens, hwrite, h.write, bind, Except.bind, pure, Except.pure]
  · rw [List.append_assoc, HandshakeState.readTokens, hread]
    exact h.read more

theorem finish_ok (hP : P.Lawful) (st : HandshakeState P) :
    st.finish = .ok (if st.messages.isEmpty then
      some (⟨st.ss.cs.cipher, some (hkdf P st.ss.ck []).1, 0⟩,
        ⟨st.ss.cs.cipher, some (hkdf P st.ss.ck []).2, 0⟩) else none) := by
  rw [HandshakeState.finish]
  split
  · rw [SymmetricState.split_ok hP]
    rfl
  · rfl

/-- A message that is written is read: the payload comes back, both sides go on with the
same symmetric state and both split, or neither does. -/
theorem message_lockstep (hP : P.Lawful) (hA : A.Lawful) {b : Nat} {ephemeral : KeyPair P}
    {tokens : List Token} {messages : List (List Token)} {w r w' r' : HandshakeState P}
    {out : Bytes} (hmessages : w.messages = tokens :: messages)
    (hsame : r.messages = w.messages)
    (h : Lockstep A ephemeral tokens { w with messages := messages }
      { r with messages := messages } w' r' out)
    (hmirror : Mirror b w' r') (hb : b ≤ maxNonce) (payload : Bytes) :
    ∃ ct ss split, ss.Sound (b + 1) ∧ (payload = [] → w'.ss.cs.hasKey = false → ct = []) ∧
      split = (if w'.messages.isEmpty then
        some (⟨ss.cs.cipher, some (hkdf P ss.ck []).1, 0⟩,
          ⟨ss.cs.cipher, some (hkdf P ss.ck []).2, 0⟩) else none) ∧
      w.writeMessage A ephemeral payload = .ok (out ++ ct, split, { w' with ss := ss }) ∧
      r.readMessage A (out ++ ct) = .ok (payload, split, { r' with ss := ss }) := by
  rw [hmessages] at hsame
  by_cases hskip : payload = [] ∧ w'.ss.cs.hasKey = false
  · obtain ⟨rfl, hkey⟩ := hskip
    have hnone : ¬ (([] : Bytes) ≠ [] ∨ w'.ss.cs.hasKey = true) := by simp [hkey]
    refine ⟨[], w'.ss, _, hmirror.sound.later (Nat.le_succ b), fun _ _ => rfl, rfl, ?_, ?_⟩
    · simp only [HandshakeState.writeMessage, hmessages, h.write, bind, Except.bind, pure,
        Except.pure, if_neg hnone, finish_ok hP, List.append_nil]
    · have hnone' : ¬ (([] : Bytes) ≠ [] ∨ r'.ss.cs.hasKey = true) := by rwa [hmirror.ss]
      have hfinish : r'.finish = w'.finish := by
        rw [finish_ok hP, finish_ok hP, hmirror.ss, hmirror.messages]
      have hstate : ({ r' with ss := w'.ss } : HandshakeState P) = r' := by rw [← hmirror.ss]
      simp only [HandshakeState.readMessage, hsame, h.read [], bind, Except.bind, pure, Except.pure,
        if_neg hnone', hfinish, finish_ok hP, hstate]
  · obtain ⟨ct, ss, hencrypt, hdecrypt, hsound, -, hlength⟩ :=
      SymmetricState.decryptAndHash_encryptAndHash hA hmirror.sound hb payload
    have hwrite : payload ≠ [] ∨ w'.ss.cs.hasKey = true := by
      by_cases hpayload : payload = []
      · exact .inr (by simpa [hpayload] using hskip)
      · exact .inl hpayload
    have hread : ct ≠ [] ∨ r'.ss.cs.hasKey = true := by
      rcases hwrite with hpayload | hkey
      · have hpos := List.length_pos_iff.mpr hpayload
        exact .inl (List.length_pos_iff.mp (by omega))
      · exact .inr (by rw [hmirror.ss, hkey])
    refine ⟨ct, ss, _, hsound, fun hempty hkey => absurd ⟨hempty, hkey⟩ hskip, rfl, ?_, ?_⟩
    · simp only [HandshakeState.writeMessage, hmessages, h.write, bind, Except.bind, pure,
        Except.pure, if_pos hwrite, hencrypt, finish_ok hP]
    · have hfinish : ({ r' with ss := ss } : HandshakeState P).finish =
          ({ w' with ss := ss } : HandshakeState P).finish := by
        rw [finish_ok hP, finish_ok hP, hmirror.messages]
      rw [← hmirror.ss] at hdecrypt
      simp only [HandshakeState.readMessage, hsame, h.read ct, bind, Except.bind, pure, Except.pure,
        if_pos hread, hdecrypt, hfinish, finish_ok hP]

theorem Mirror.pop {b : Nat} {w r : HandshakeState P} (h : Mirror b w r)
    (messages : List (List Token)) :
    Mirror b { w with messages := messages } { r with messages := messages } :=
  { h with messages := rfl }

/-- The leg `-> e` of a handshake that has no key yet. -/
theorem leg1_lockstep (hP : P.Lawful) (hA : A.Lawful) {b : Nat} {i r : HandshakeState P}
    {messages : List (List Token)} (h : Mirror b i r) (hb : b + 1 ≤ maxNonce)
    (hi : i.role = .initiator) (hkey : i.ss.cs.k = none) (hmessages : i.messages = [.e] :: messages)
    (hmore : messages.isEmpty = false) (ephemeral : KeyPair P) :
    ∃ i' r', i.writeMessage A ephemeral [] = .ok (ephemeral.pub, none, i') ∧
      r.readMessage A ephemeral.pub = .ok ([], none, r') ∧ Mirror (b + 2) i' r' ∧
      i'.role = .initiator ∧ i'.messages = messages ∧ i'.e = some ephemeral ∧ i'.s = i.s ∧
      r'.s = r.s := by
  have hstart := h.pop messages
  obtain ⟨out, ss, hss, hwrite, hread⟩ := token_lockstep hP hA hstart (Nat.le_of_succ_le hb)
    ephemeral .e (.inl ⟨hi, trivial⟩)
  have hmirror := hstart.token hss ephemeral .e
  have hnokey : ss.cs.hasKey = false := by
    cases hwrite
    simp [SymmetricState.mixHash, CipherState.hasKey, hkey]
  have hout : out = ephemeral.pub := by
    cases hwrite
    rfl
  obtain ⟨ct, ss', split, hss', hempty, hsplit, hwrote, hreads⟩ := message_lockstep hP hA hmessages
    h.messages (.cons hwrite hread .nil) hmirror hb []
  have hct : ct = [] := hempty rfl hnokey
  rw [hct, hout, List.append_nil, List.append_nil] at hwrote hreads
  have hnone : split = none := by
    rw [hsplit]
    exact if_neg (by simp [HandshakeState.wrote, hmore])
  rw [hnone] at hwrote hreads
  exact ⟨_, _, hwrote, hreads, hmirror.mix hss', hi, rfl, rfl, rfl, rfl⟩

/-- The leg `<- e, ee, s, es`. -/
theorem leg2_lockstep (hP : P.Lawful) (hA : A.Lawful) {b : Nat} {i r : HandshakeState P}
    {messages : List (List Token)} (h : Mirror b i r) (hb : b + 4 ≤ maxNonce)
    (hi : i.role = .initiator) (hmessages : i.messages = [.e, .ee, .s, .es] :: messages)
    (hmore : messages.isEmpty = false) (he : i.e.isSome = true) (ephemeral : KeyPair P)
    (payload : Bytes) :
    ∃ more i' r', r.writeMessage A ephemeral payload = .ok (ephemeral.pub ++ more, none, r') ∧
      i.readMessage A (ephemeral.pub ++ more) = .ok (payload, none, i') ∧ Mirror (b + 5) i' r' ∧
      i'.role = .initiator ∧ i'.messages = messages ∧ i'.rs = some r.s.pub ∧
      r'.e = some ephemeral ∧ i'.s = i.s ∧ r'.s = r.s := by
  have hstart := h.symm.pop messages
  obtain ⟨out₁, ss₁, hss₁, hwrite₁, hread₁⟩ := token_lockstep hP hA hstart (by omega) ephemeral .e
    (.inr ⟨hi, trivial⟩)
  have hmirror₁ := hstart.token hss₁ ephemeral .e
  obtain ⟨out₂, ss₂, hss₂, hwrite₂, hread₂⟩ := token_lockstep hP hA hmirror₁ (by omega) ephemeral .ee
    (.inr ⟨hi, he, rfl⟩)
  have hmirror₂ := hmirror₁.token hss₂ ephemeral .ee
  obtain ⟨out₃, ss₃, hss₃, hwrite₃, hread₃⟩ := token_lockstep hP hA hmirror₂ (by omega) ephemeral .s
    (.inr ⟨hi, trivial⟩)
  have hmirror₃ := hmirror₂.token hss₃ ephemeral .s
  obtain ⟨out₄, ss₄, hss₄, hwrite₄, hread₄⟩ := token_lockstep hP hA hmirror₃ (by omega) ephemeral .es
    (.inr ⟨hi, he, rfl⟩)
  have hmirror₄ := hmirror₃.token hss₄ ephemeral .es
  have hout : out₁ = ephemeral.pub := by
    cases hwrite₁
    rfl
  obtain ⟨ct, ss', split, hss', -, hsplit, hwrote, hreads⟩ := message_lockstep hP hA
    (h.messages.trans hmessages) h.messages.symm
    (.cons hwrite₁ hread₁ (.cons hwrite₂ hread₂ (.cons hwrite₃ hread₃
      (.cons hwrite₄ hread₄ .nil)))) hmirror₄ (by omega) payload
  have hnone : split = none := by
    rw [hsplit]
    exact if_neg (by simp [HandshakeState.wrote, hmore])
  rw [hnone, hout, List.append_assoc] at hwrote hreads
  exact ⟨_, _, _, hwrote, hreads, (hmirror₄.mix hss').symm, hi, rfl, rfl, rfl, rfl, rfl⟩

/-- The leg `-> s, se`, after which both sides split. -/
theorem leg3_lockstep (hP : P.Lawful) (hA : A.Lawful) {b : Nat} {i r : HandshakeState P}
    (h : Mirror b i r) (hb : b + 2 ≤ maxNonce) (hi : i.role = .initiator)
    (hmessages : i.messages = [[.s, .se]]) (he : r.e.isSome = true) (ephemeral : KeyPair P)
    (payload : Bytes) :
    ∃ leg c1 c2 i' r', i.writeMessage A ephemeral payload = .ok (leg, some (c1, c2), i') ∧
      r.readMessage A leg = .ok (payload, some (c1, c2), r') ∧ r'.ss = i'.ss ∧
      i'.rs = i.rs ∧ r'.rs = some i.s.pub ∧ c1.k.isSome = true ∧ c2.k.isSome = true ∧
      c1.n = 0 ∧ c2.n = 0 := by
  have hstart := h.pop []
  obtain ⟨out₁, ss₁, hss₁, hwrite₁, hread₁⟩ := token_lockstep hP hA hstart (by omega) ephemeral .s
    (.inl ⟨hi, trivial⟩)
  have hmirror₁ := hstart.token hss₁ ephemeral .s
  obtain ⟨out₂, ss₂, hss₂, hwrite₂, hread₂⟩ := token_lockstep hP hA hmirror₁ (by omega) ephemeral .se
    (.inl ⟨hi, he, rfl⟩)
  have hmirror₂ := hmirror₁.token hss₂ ephemeral .se
  obtain ⟨ct, ss', split, hss', -, hsplit, hwrote, hreads⟩ := message_lockstep hP hA
    hmessages h.messages (.cons hwrite₁ hread₁ (.cons hwrite₂ hread₂ .nil)) hmirror₂ hb payload
  have hsome := hsplit.trans (if_pos rfl)
  rw [hsome] at hwrote hreads
  exact ⟨_, _, _, _, _, hwrote, hreads, rfl, rfl, rfl, rfl, rfl, rfl, rfl⟩

end Lockstep

section Agreement

variable {P : Primitives} {A : Aead} {pb : HandshakeProto}

/-- The requests of `perform` on a handshake that goes well. -/
theorem perform_run (hpb : ∀ m, pb.parse (pb.serialize m) = some m)
    {i i₁ i₂ i₃ : HandshakeState P} {ephemeral : KeyPair P}
    {clientPayload serverPayload leg2 leg3 : Bytes} {c1 c2 : CipherState}
    (h1 : i.writeMessage A ephemeral [] = .ok (ephemeral.pub, none, i₁))
    (h2 : i₁.readMessage A leg2 = .ok (serverPayload, none, i₂))
    (h3 : i₂.writeMessage A ephemeral clientPayload = .ok (leg3, some (c1, c2), i₃))
    (hello : Hello) (hleg2 : hello.ephemeral ++ hello.static ++ hello.payload = leg2)
    (hephemeral : hello.ephemeral.isEmpty = false) :
    ∃ k, perform A pb i ephemeral clientPayload =
        .await (.send (pb.serialize { clientHello := { ephemeral := ephemeral.pub.take dhLen } })) k ∧
      ∃ k', k (.ok ()) = .await .recv k' ∧
      ∃ k'', k' (.ok (pb.serialize { serverHello := hello })) = .await (.send (pb.serialize
        { clientFinish :=
          { static := leg3.take (dhLen + tagLen), payload := leg3.drop (dhLen + tagLen) } })) k'' ∧
      k'' (.ok ()) = .ret (.ok (⟨c1, c2, i₃.handshakeHash⟩, i₃)) := by
  rw [perform, h1]
  refine ⟨_, rfl, _, rfl, ?_⟩
  have hpresent : ¬ hello.ephemeral.isEmpty = true := by simp [hephemeral]
  simp only [hpb, Option.elim_some, bind, Co.bind, Co.lift, hleg2, h2, h3, if_neg hpresent]
  exact ⟨_, rfl, rfl⟩

theorem serverPerform_run (hpb : ∀ m, pb.parse (pb.serialize m) = some m)
    {r r₁ r₂ r₃ : HandshakeState P} {ephemeral : KeyPair P}
    {clientPayload serverPayload payload₁ leg1 leg2 leg3 : Bytes} {c1 c2 : CipherState}
    (h1 : r.readMessage A leg1 = .ok (payload₁, none, r₁))
    (h2 : r₁.writeMessage A ephemeral serverPayload = .ok (leg2, none, r₂))
    (h3 : r₂.readMessage A leg3 = .ok (clientPayload, some (c1, c2), r₃))
    (finish : Finish) (hleg3 : finish.static ++ finish.payload = leg3) :
    ∃ k, serverPerform A pb r ephemeral serverPayload = .await .recv k ∧
      ∃ k', k (.ok (pb.serialize { clientHello := { ephemeral := leg1 } })) =
        .await (.send (pb.serialize { serverHello := {
          ephemeral := leg2.take dhLen
          static := (leg2.drop dhLen).take (dhLen + tagLen)
          payload := leg2.drop (dhLen + (dhLen + tagLen)) } })) k' ∧
      ∃ k'', k' (.ok ()) = .await .recv k'' ∧
      k'' (.ok (pb.serialize { clientFinish := finish })) =
        .ret (.ok (⟨c2, c1, r₃.handshakeHash⟩, r₃, clientPayload)) := by
  rw [serverPerform]
  refine ⟨_, rfl, ?_⟩
  simp only [hpb, Option.elim_some, bind, Co.bind, Co.lift, h1, h2]
  refine ⟨_, rfl, _, rfl, ?_⟩
  simp only [Co.bind, hpb, Option.elim_some, hleg3, h3]
  rfl

/-- The client and the test server, each with its static and its ephemeral key. -/
def handshakeStart (A : Aead) (pb : HandshakeProto) (protocol : Protocol) (prologue : Bytes)
    (clientStatic clientEphemeral serverStatic serverEphemeral : KeyPair P)
    (clientPayload serverPayload : Bytes) :
    Duplex Bytes NoiseError (NoiseTransport × HandshakeState P)
      (NoiseTransport × HandshakeState P × Bytes) where
  left := perform A pb (.new A .initiator protocol.name protocol.cipher prologue clientStatic)
    clientEphemeral clientPayload
  right := serverPerform A pb
    (.new A .responder protocol.name protocol.cipher prologue serverStatic) serverEphemeral
    serverPayload
  toRight := []
  toLeft := []

/-- What the two sides end with fits together. -/
structure Agreement (clientStatic serverStatic : KeyPair P) (clientPayload : Bytes)
    (client : NoiseTransport × HandshakeState P)
    (server : NoiseTransport × HandshakeState P × Bytes) : Prop where
  handshakeHash : client.1.handshakeHash = server.1.handshakeHash
  toServer : client.1.send.k = server.1.recv.k ∧ client.1.send.k.isSome = true
  toClient : server.1.send.k = client.1.recv.k ∧ server.1.send.k.isSome = true
  nonces : client.1.send.n = 0 ∧ client.1.recv.n = 0 ∧ server.1.send.n = 0 ∧ server.1.recv.n = 0
  serverStatic : client.2.remoteStatic = some serverStatic.pub
  clientStatic : server.2.1.remoteStatic = some clientStatic.pub
  payload : server.2.2 = clientPayload

theorem mirror_start (protocol : Protocol) (prologue : Bytes) (clientStatic serverStatic : KeyPair P) :
    Mirror 0 (.new A .initiator protocol.name protocol.cipher prologue clientStatic)
      (.new A .responder protocol.name protocol.cipher prologue serverStatic) where
  roles := rfl
  ss := rfl
  sound := ⟨fun k hk => (Option.not_mem_none k hk).elim, Nat.le_refl 0⟩
  messages := rfl
  re := rfl
  re' := rfl
  rs := fun k hk => (Option.not_mem_none k hk).elim
  rs' := fun k hk => (Option.not_mem_none k hk).elim

/-- Every run of the handshake ends, with both sides in agreement. -/
theorem noise_xx_agrees (hP : P.Lawful) (hA : A.Lawful)
    (hpb : ∀ m, pb.parse (pb.serialize m) = some m) (protocol : Protocol) (prologue : Bytes)
    (clientStatic clientEphemeral serverStatic serverEphemeral : KeyPair P)
    (clientPayload serverPayload : Bytes) :
    ∃ client server, Agreement clientStatic serverStatic clientPayload client server ∧
      ∀ d, Relation.ReflTransGen Duplex.Step (handshakeStart A pb protocol prologue clientStatic
          clientEphemeral serverStatic serverEphemeral clientPayload serverPayload) d →
        Relation.ReflTransGen Duplex.Step d ⟨.ret (.ok client), .ret (.ok server), [], []⟩ := by
  have hstart := mirror_start (A := A) protocol prologue clientStatic serverStatic
  obtain ⟨i₁, r₁, hw₁, hr₁, hmirror₁, hi₁, hm₁, he₁, hsi₁, hsr₁⟩ := leg1_lockstep hP hA hstart
    (by decide) rfl rfl rfl rfl clientEphemeral
  obtain ⟨more, i₂, r₂, hw₂, hr₂, hmirror₂, hi₂, hm₂, hrs₂, he₂, hsi₂, hsr₂⟩ := leg2_lockstep hP hA
    hmirror₁ (by decide) hi₁ hm₁ rfl (by rw [he₁]; rfl) serverEphemeral serverPayload
  obtain ⟨leg3, c1, c2, i₃, r₃, hw₃, hr₃, hss₃, hrsi₃, hrsr₃, hk1, hk2, hn1, hn2⟩ := leg3_lockstep
    hP hA hmirror₂ (by decide) hi₂ hm₂ (by rw [he₂]; rfl) clientEphemeral clientPayload
  have hsplit2 : ∀ leg : Bytes, leg.take dhLen ++ (leg.drop dhLen).take (dhLen + tagLen) ++
      leg.drop (dhLen + (dhLen + tagLen)) = leg := by
    intro leg
    rw [List.append_assoc, ← List.drop_drop, List.take_append_drop, List.take_append_drop]
  have hpub : (serverEphemeral.pub ++ more).take dhLen = serverEphemeral.pub :=
    List.take_left' (hP.public_length serverEphemeral)
  have hpresent : ((serverEphemeral.pub ++ more).take dhLen).isEmpty = false := by
    have hlength := hP.public_length serverEphemeral
    rw [hpub]
    cases hpub : serverEphemeral.pub with
    | nil => simp [hpub] at hlength
    | cons b bs => rfl
  obtain ⟨k, hk, k', hk', k'', hk'', hleft⟩ := perform_run hpb hw₁ hr₂ hw₃
    ⟨_, _, _⟩ (hsplit2 (serverEphemeral.pub ++ more)) hpresent
  obtain ⟨q, hq, q', hq', q'', hq'', hright⟩ := serverPerform_run hpb hr₁ hw₂ hr₃
    ⟨_, _⟩ (List.take_append_drop (dhLen + tagLen) leg3)
  have hhello : clientEphemeral.pub.take dhLen = clientEphemeral.pub :=
    List.take_of_length_le (Nat.le_of_eq (hP.public_length clientEphemeral))
  rw [hhello] at hk
  refine ⟨(⟨c1, c2, i₃.handshakeHash⟩, i₃), (⟨c2, c1, r₃.handshakeHash⟩, r₃, clientPayload), ?_, ?_⟩
  · refine ⟨?_, ⟨rfl, hk1⟩, ⟨rfl, hk2⟩, ⟨hn1, hn2, hn2, hn1⟩, ?_, ?_, rfl⟩
    · simp only [HandshakeState.handshakeHash, hss₃]
    · exact hrsi₃.trans (hrs₂.trans (congrArg (fun s => some s.pub) hsr₁))
    · exact hrsr₃.trans (congrArg (fun s => some s.pub) (hsi₂.trans hsi₁))
  · intro d hd
    rw [handshakeStart, hk, hq] at hd
    refine Duplex.Forced.reaches ?_ (fun _ => Duplex.ended) hd
    refine Duplex.forced_leftSend.trans ?_
    rw [hk']
    refine Duplex.Forced.trans (Duplex.forced_rightRecv (by trivial)) ?_
    rw [hq']
    refine Duplex.forced_rightSend.trans ?_
    rw [hq'']
    refine Duplex.Forced.trans (Duplex.forced_leftRecv (by trivial)) ?_
    rw [hk'']
    refine Duplex.forced_leftSend.trans ?_
    rw [hleft]
    refine Duplex.Forced.trans (Duplex.forced_rightRecv (by trivial)) ?_
    rw [hright]
    exact .refl _

/-- Ciphers with the laws and without any strength. -/
def demoAead : Aead where
  sha256 data := demoDigest 32 data
  encrypt _ _ _ plaintext _ := plaintext ++ List.replicate 16 0
  decrypt _ _ _ ciphertext _ := some (ciphertext.take (ciphertext.length - 16))

theorem demoAead_lawful : demoAead.Lawful where
  decrypt_encrypt := by simp [demoAead]
  encrypt_length := by simp [demoAead]

/-- Bytes that say themselves where they end. -/
def demoField (data : Bytes) : Bytes := data.flatMap (fun b => [1, b]) ++ [0]

def demoTakeField : Bytes → Option (Bytes × Bytes)
  | 0 :: rest => some ([], rest)
  | _ :: b :: rest => (demoTakeField rest).map fun r => (b :: r.1, r.2)
  | _ => none

theorem demoTakeField_demoField (data rest : Bytes) :
    demoTakeField (demoField data ++ rest) = some (data, rest) := by
  induction data with
  | nil => rfl
  | cons b data ih =>
    have hcons : demoField (b :: data) ++ rest = 1 :: b :: (demoField data ++ rest) := rfl
    rw [hcons, demoTakeField, ih]
    · rfl
    · decide

def demoHandshakeProto : HandshakeProto where
  serialize m := demoField m.clientHello.ephemeral ++ (demoField m.clientHello.static ++
    (demoField m.clientHello.payload ++ (demoField m.serverHello.ephemeral ++
    (demoField m.serverHello.static ++ (demoField m.serverHello.payload ++
    (demoField m.clientFinish.static ++ (demoField m.clientFinish.payload ++ [])))))))
  parse b := do
    let (e, b) ← demoTakeField b
    let (s, b) ← demoTakeField b
    let (p, b) ← demoTakeField b
    let (e', b) ← demoTakeField b
    let (s', b) ← demoTakeField b
    let (p', b) ← demoTakeField b
    let (s'', b) ← demoTakeField b
    let (p'', _) ← demoTakeField b
    return ⟨⟨e, s, p⟩, ⟨e', s', p'⟩, ⟨s'', p''⟩⟩

theorem demoHandshakeProto_parse (m : HandshakeMessage) :
    demoHandshakeProto.parse (demoHandshakeProto.serialize m) = some m := by
  simp only [demoHandshakeProto, demoTakeField_demoField, bind, Option.bind, pure]

theorem noise_xx_agrees_default :
    ∃ client server, Agreement (demoKey 1) (demoKey 3) [7, 8] client server ∧
      ∀ d, Relation.ReflTransGen Duplex.Step (handshakeStart demoAead demoHandshakeProto .aesGcm
          [87, 65, 6, 3] (demoKey 1) (demoKey 2) (demoKey 3) (demoKey 4) [7, 8] []) d →
        Relation.ReflTransGen Duplex.Step d ⟨.ret (.ok client), .ret (.ok server), [], []⟩ :=
  noise_xx_agrees demoPrimitives_lawful demoAead_lawful demoHandshakeProto_parse .aesGcm
    [87, 65, 6, 3] (demoKey 1) (demoKey 2) (demoKey 3) (demoKey 4) [7, 8] []

end Agreement

end PyWhats.Noise
