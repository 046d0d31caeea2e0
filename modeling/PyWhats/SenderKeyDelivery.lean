import PyWhats.SenderKey

/-! A sender-key session between one sender and a receiver that was given the chain at
some point: in order and with gaps, messages decrypt to what was sent. -/

namespace PyWhats

variable {P : Primitives} {pb : Protobuf}

/-- XEdDSA signatures have 64 bytes and verify, and CBC keeps the length. -/
structure SenderKeyPrimitives (P : Primitives) : Prop where
  verify_sign : ∀ (signing : KeyPair P) (message nonce : Bytes),
    P.xeddsaVerify signing.pub message (P.xeddsaSign signing.priv message nonce) = true
  sign_length : ∀ priv message nonce : Bytes, (P.xeddsaSign priv message nonce).length = 64
  cbc_length : ∀ key iv data : Bytes, key.length = 32 → iv.length = 16 → data.length % 16 = 0 →
    (P.aesCbcEncrypt key iv data).length = data.length

/-- A body whose `uint32` fields are in range serializes. -/
structure SenderKeyFields (pb : Protobuf) : Prop where
  message : ∀ body : SenderKeyMessageBody, body.id < 0x100000000 → body.iteration < 0x100000000 →
    ∃ data, pb.senderKeyMessage.serialize body = .ok data
  distribution : ∀ body : SenderKeyDistributionMessageBody, body.id < 0x100000000 →
    body.iteration < 0x100000000 → body.signingKey.length = 33 →
    ∃ data, pb.senderKeyDistribution.serialize body = .ok data

/-- An own sending state. -/
structure Owns (signing : KeyPair P) (s : SenderKeyState) : Prop where
  signingPublic : s.signingPublic = signing.pub
  signingPrivate : s.signingPrivate = some signing.priv

def groupEncryptAll (P : Primitives) (pb : Protobuf) :
    SenderKeyState → List (Bytes × Bytes) → Except PyError (List Bytes × SenderKeyState)
  | state, [] => .ok ([], state)
  | state, (nonce, plaintext) :: calls => do
    let (skmsg, state') ← groupEncrypt P pb nonce state plaintext
    let (skmsgs, final) ← groupEncryptAll P pb state' calls
    return (skmsg :: skmsgs, final)

def groupDecryptAll (P : Primitives) (pb : Protobuf) :
    SenderKeyState → List Bytes → Except PyError (List Bytes × SenderKeyState)
  | state, [] => .ok ([], state)
  | state, skmsg :: skmsgs => do
    let (plaintext, state') ← groupDecrypt P pb state skmsg
    let (plaintexts, final) ← groupDecryptAll P pb state' skmsgs
    return (plaintext :: plaintexts, final)

namespace SenderKeyState

/-- The state after `n` more messages. -/
def advance (P : Primitives) (n : Nat) (s : SenderKeyState) : SenderKeyState :=
  { s with iteration := s.iteration + n, chainKey := (nextSenderChainKey P)^[n] s.chainKey }

/-- What a receiver of the distribution message holds. -/
def received (s : SenderKeyState) : SenderKeyState := { s with signingPrivate := none }

theorem advance_add (m n : Nat) (s : SenderKeyState) :
    (s.advance P m).advance P n = s.advance P (m + n) := by
  simp only [advance, Nat.add_assoc, Nat.add_comm m n, Function.iterate_add_apply]

theorem received_advance (n : Nat) (s : SenderKeyState) :
    s.received.advance P n = (s.advance P n).received := rfl

end SenderKeyState

theorem Owns.advance {signing : KeyPair P} {s : SenderKeyState} (h : Owns signing s) (n : Nat) :
    Owns signing (s.advance P n) := ⟨h.signingPublic, h.signingPrivate⟩

section One

variable {signing : KeyPair P} {s : SenderKeyState}

theorem stripDjb_signalPubkey {key typed : Bytes} (hlen : key.length = 32)
    (h : signalPubkey key = .ok typed) : stripDjb typed = .ok key := by
  simp only [signalPubkey, hlen] at h
  cases h
  simp [stripDjb, hlen]

theorem senderAesCbcDecrypt_encrypt (hP : P.Lawful) (hsk : SenderKeyPrimitives P)
    {key iv : Bytes} (hkey : key.length = 32) (hiv : iv.length = 16) (plaintext : Bytes) :
    senderAesCbcDecrypt P key iv (P.aesCbcEncrypt key iv (pkcs7Pad plaintext)) = .ok plaintext := by
  have hmod := pkcs7Pad_length_mod plaintext
  have hlen := hsk.cbc_length key iv (pkcs7Pad plaintext) hkey hiv hmod
  have hpad : 0 < (pkcs7Pad plaintext).length := by
    simp only [pkcs7Pad, List.length_append, List.length_replicate]
    omega
  have hblocks : ¬ (P.aesCbcEncrypt key iv (pkcs7Pad plaintext) = [] ∨
      (P.aesCbcEncrypt key iv (pkcs7Pad plaintext)).length % 16 ≠ 0) := by
    rintro (hnil | hodd)
    · rw [hnil] at hlen
      simp only [List.length_nil] at hlen
      omega
    · omega
  rw [senderAesCbcDecrypt, if_neg hblocks, hP.cbc_decrypt_encrypt key iv _ hkey hiv hmod,
    Option.bind_some, pkcs7Unpad_pad]

theorem senderMessageKey_lengths (hP : P.Lawful) (chainKey : Bytes) :
    (senderMessageKey P chainKey).2.length = 32 ∧ (senderMessageKey P chainKey).1.length = 16 := by
  simp [senderMessageKey, hP.hkdf_length]

/-- The message that the state makes of `plaintext`. -/
def senderCiphertext (P : Primitives) (s : SenderKeyState) (plaintext : Bytes) : Bytes :=
  P.aesCbcEncrypt (senderMessageKey P s.chainKey).2 (senderMessageKey P s.chainKey).1
    (pkcs7Pad plaintext)

theorem groupEncrypt_owned (howns : Owns signing s) (nonce plaintext : Bytes) :
    groupEncrypt P pb nonce s plaintext =
      (pb.senderKeyMessage.serialize ⟨s.keyId, s.iteration, senderCiphertext P s plaintext⟩).map
        fun body => (signalMagic :: body ++
          P.xeddsaSign signing.priv (signalMagic :: body) nonce, s.advance P 1) := by
  have hpriv := howns.signingPrivate
  obtain ⟨keyId, iteration, chainKey, signingPublic, signingPrivate⟩ := s
  cases hpriv
  simp only [groupEncrypt, buildSkmsg, senderCiphertext]
  cases pb.senderKeyMessage.serialize _ <;> rfl

theorem groupDecrypt_owned (hP : P.Lawful) (hsk : SenderKeyPrimitives P) (hpb : pb.Lawful)
    {r : SenderKeyState} {body plaintext : Bytes} {gap : Nat}
    (hpub : r.signingPublic = signing.pub) (hgap : gap ≤ maxJump)
    (hbody : pb.senderKeyMessage.serialize
      ⟨r.keyId, r.iteration + gap, senderCiphertext P (r.advance P gap) plaintext⟩ = .ok body)
    (nonce : Bytes) :
    groupDecrypt P pb r (signalMagic :: body ++
      P.xeddsaSign signing.priv (signalMagic :: body) nonce) =
        .ok (plaintext, r.advance P (gap + 1)) := by
  have hlen := hsk.sign_length signing.priv (signalMagic :: body) nonce
  have hsigned := hsk.verify_sign signing (signalMagic :: body) nonce
  generalize P.xeddsaSign signing.priv (signalMagic :: body) nonce = signature at hlen hsigned ⊢
  have hcut : (signalMagic :: body ++ signature).length - 64 = (signalMagic :: body).length := by
    rw [List.length_append, hlen, Nat.add_sub_cancel]
  have hlong : ¬ (signalMagic :: body ++ signature).length < 64 := by
    rw [List.length_append, hlen]
    omega
  have hparse := hpb.senderKeyMessage _ _ hbody
  obtain ⟨hkey, hiv⟩ := senderMessageKey_lengths hP (r.advance P gap).chainKey
  have hopen := senderAesCbcDecrypt_encrypt hP hsk hkey hiv plaintext
  rw [← hpub] at hsigned
  simp only [senderCiphertext] at hparse
  simp only [SenderKeyState.advance] at hparse hopen
  simp only [groupDecrypt, if_neg hlong, hcut, List.take_left, List.drop_left, hsigned,
    Bool.not_true, Bool.false_eq_true, if_false, List.drop_one, List.tail_cons, hparse]
  rw [if_neg (by omega), if_neg (by omega)]
  simp only [Nat.add_sub_cancel_left]
  change (senderAesCbcDecrypt P _ _ _ >>= _) = _
  rw [hopen]
  simp only [SenderKeyState.advance, Function.iterate_succ_apply', Nat.add_assoc]
  rfl

theorem groupEncryptAll_sent (howns : Owns signing s) {calls : List (Bytes × Bytes)}
    {skmsgs : List Bytes} {last : SenderKeyState}
    (h : groupEncryptAll P pb s calls = .ok (skmsgs, last)) :
    last = s.advance P calls.length ∧ skmsgs.length = calls.length ∧
      ∀ j < calls.length, ∃ body,
        pb.senderKeyMessage.serialize ⟨s.keyId, s.iteration + j,
          senderCiphertext P (s.advance P j) (calls.getD j ([], [])).2⟩ = .ok body ∧
        skmsgs.getD j [] = signalMagic :: body ++
          P.xeddsaSign signing.priv (signalMagic :: body) (calls.getD j ([], [])).1 := by
  induction calls generalizing s skmsgs with
  | nil =>
    cases h
    exact ⟨rfl, rfl, fun j hj => absurd hj (Nat.not_lt_zero j)⟩
  | cons call calls ih =>
    obtain ⟨nonce, plaintext⟩ := call
    simp only [groupEncryptAll, except_bind_ok] at h
    obtain ⟨⟨skmsg, next⟩, hfirst, ⟨later, last'⟩, hlater, hpair⟩ := h
    cases hpair
    rw [groupEncrypt_owned howns] at hfirst
    cases hbody : pb.senderKeyMessage.serialize
      ⟨s.keyId, s.iteration, senderCiphertext P s plaintext⟩ with
    | error e => simp [hbody, Except.map] at hfirst
    | ok body =>
      simp only [hbody, Except.map] at hfirst
      cases hfirst
      obtain ⟨hlast, hlength, hsent⟩ := ih (howns.advance 1) hlater
      rw [SenderKeyState.advance_add, Nat.add_comm] at hlast
      refine ⟨hlast, by simp [hlength], ?_⟩
      intro j hj
      cases j with
      | zero => exact ⟨body, hbody, rfl⟩
      | succ j =>
        obtain ⟨body', hbody', hmsg⟩ := hsent j (by simpa using hj)
        rw [SenderKeyState.advance_add, Nat.add_comm 1 j] at hbody'
        simp only [SenderKeyState.advance, Nat.add_assoc, Nat.add_comm 1 j] at hbody' ⊢
        exact ⟨body', hbody', hmsg⟩

theorem groupEncryptAll_total (hf : SenderKeyFields pb) (howns : Owns signing s)
    (hid : s.keyId < 0x100000000) {calls : List (Bytes × Bytes)}
    (hroom : s.iteration + calls.length < 0x100000000) :
    ∃ skmsgs, groupEncryptAll P pb s calls = .ok (skmsgs, s.advance P calls.length) := by
  induction calls generalizing s with
  | nil => exact ⟨[], rfl⟩
  | cons call calls ih =>
    obtain ⟨nonce, plaintext⟩ := call
    rw [List.length_cons] at hroom
    have hiter : s.iteration < 0x100000000 := by omega
    obtain ⟨body, hbody⟩ := hf.message
      ⟨s.keyId, s.iteration, senderCiphertext P s plaintext⟩ hid hiter
    have hnext : (s.advance P 1).iteration + calls.length < 0x100000000 := by
      simp only [SenderKeyState.advance]
      omega
    obtain ⟨later, hlater⟩ := ih (howns.advance 1) hid hnext
    rw [SenderKeyState.advance_add, Nat.add_comm] at hlater
    have hfirst : groupEncrypt P pb nonce s plaintext = .ok (signalMagic :: body ++
        P.xeddsaSign signing.priv (signalMagic :: body) nonce, s.advance P 1) := by
      rw [groupEncrypt_owned howns, hbody]
      rfl
    exact ⟨_, except_bind_ok.mpr ⟨_, hfirst, except_bind_ok.mpr ⟨_, hlater, rfl⟩⟩⟩

theorem buildDistributionMessage_total (hP : P.Lawful) (hf : SenderKeyFields pb)
    (howns : Owns signing s) (hid : s.keyId < 0x100000000) (hiter : s.iteration < 0x100000000) :
    ∃ data, buildDistributionMessage pb s = .ok data := by
  have hlen := hP.public_length signing
  rw [← howns.signingPublic] at hlen
  obtain ⟨body, hbody⟩ := hf.distribution
    ⟨s.keyId, s.iteration, s.chainKey, 0x05 :: s.signingPublic⟩ hid hiter (by simp [hlen])
  have htyped : signalPubkey s.signingPublic = .ok (0x05 :: s.signingPublic) := by
    simp [signalPubkey, hlen]
  exact ⟨_, except_bind_ok.mpr ⟨_, htyped, except_bind_ok.mpr ⟨_, hbody, rfl⟩⟩⟩

/-- Whoever processes the distribution message holds the sender's chain, to verify with. -/
theorem processDistributionMessage_built (hP : P.Lawful) (hpb : pb.Lawful)
    (howns : Owns signing s) {data : Bytes} (h : buildDistributionMessage pb s = .ok data) :
    processDistributionMessage pb data = .ok s.received := by
  simp only [buildDistributionMessage, except_bind_ok] at h
  obtain ⟨typed, htyped, body, hbody, hdata⟩ := h
  cases hdata
  have hlen := hP.public_length signing
  rw [← howns.signingPublic] at hlen
  have hparse := hpb.senderKeyDistribution _ _ hbody
  simp only [processDistributionMessage, List.drop_one, List.tail_cons, hparse,
    stripDjb_signalPubkey hlen htyped]
  rfl

end One

/-- A run of the sender: `before`, the distribution message, `after`. -/
structure GroupSending (P : Primitives) (pb : Protobuf) (s : SenderKeyState)
    (before after : List (Bytes × Bytes)) where
  earlier : List Bytes
  given : SenderKeyState
  distribution : Bytes
  later : List Bytes
  last : SenderKeyState
  earlier_sent : groupEncryptAll P pb s before = .ok (earlier, given)
  distributed : buildDistributionMessage pb given = .ok distribution
  later_sent : groupEncryptAll P pb given after = .ok (later, last)

/-- Picks out of `count` messages, in order and with no jump beyond `maxJump`, for a receiver
that is at `pos`. -/
def Deliverable (count : Nat) : Nat → List Nat → Prop
  | _, [] => True
  | pos, j :: picks =>
    pos ≤ j ∧ j < count ∧ j - pos ≤ maxJump ∧ Deliverable count (j + 1) picks

/-- Where the receiver is after the picks. -/
def reached : Nat → List Nat → Nat
  | pos, [] => pos
  | _, j :: picks => reached (j + 1) picks

section Run

variable {signing : KeyPair P} {s : SenderKeyState} {before after : List (Bytes × Bytes)}

theorem Deliverable.reached_le {count pos : Nat} {picks : List Nat}
    (h : Deliverable count pos picks) (hpos : pos ≤ count) : reached pos picks ≤ count := by
  induction picks generalizing pos with
  | nil => exact hpos
  | cons j picks ih => exact ih h.2.2.2 (by have := h.2.1; omega)

theorem groupEncryptAll_take {calls : List (Bytes × Bytes)} {skmsgs : List Bytes}
    {last : SenderKeyState} (h : groupEncryptAll P pb s calls = .ok (skmsgs, last)) (n : Nat) :
    ∃ mid, groupEncryptAll P pb s (calls.take n) = .ok (skmsgs.take n, mid) := by
  induction calls generalizing s skmsgs n with
  | nil =>
    cases h
    rw [List.take_nil, List.take_nil]
    exact ⟨_, rfl⟩
  | cons call calls ih =>
    cases n with
    | zero => exact ⟨s, rfl⟩
    | succ n =>
      obtain ⟨nonce, plaintext⟩ := call
      simp only [groupEncryptAll, except_bind_ok] at h
      obtain ⟨⟨skmsg, next⟩, hfirst, ⟨later, last'⟩, hlater, hpair⟩ := h
      cases hpair
      obtain ⟨mid, hmid⟩ := ih hlater n
      exact ⟨mid, except_bind_ok.mpr ⟨_, hfirst, except_bind_ok.mpr ⟨_, hmid, rfl⟩⟩⟩

theorem groupDecryptAll_picks (hP : P.Lawful) (hsk : SenderKeyPrimitives P) (hpb : pb.Lawful)
    (howns : Owns signing s) {skmsgs : List Bytes} {last : SenderKeyState}
    (h : groupEncryptAll P pb s after = .ok (skmsgs, last)) {picks : List Nat} {pos : Nat}
    (hpicks : Deliverable after.length pos picks) :
    groupDecryptAll P pb (s.advance P pos).received (picks.map fun j => skmsgs.getD j []) =
      .ok (picks.map fun j => (after.getD j ([], [])).2,
        (s.advance P (reached pos picks)).received) := by
  obtain ⟨_, _, hsent⟩ := groupEncryptAll_sent howns h
  induction picks generalizing pos with
  | nil => rfl
  | cons j picks ih =>
    obtain ⟨hle, hlt, hjump, hrest⟩ := hpicks
    obtain ⟨body, hbody, hmsg⟩ := hsent j hlt
    obtain ⟨gap, rfl⟩ := Nat.exists_eq_add_of_le hle
    have hcarried : pb.senderKeyMessage.serialize
        ⟨(s.advance P pos).received.keyId, (s.advance P pos).received.iteration + gap,
          senderCiphertext P ((s.advance P pos).received.advance P gap)
            (after.getD (pos + gap) ([], [])).2⟩ = .ok body := by
      rw [← hbody, ← SenderKeyState.advance_add pos gap s]
      simp only [SenderKeyState.advance, SenderKeyState.received, Nat.add_assoc]
      rfl
    have hone := groupDecrypt_owned (r := (s.advance P pos).received) hP hsk hpb
      howns.signingPublic (by omega) hcarried
      (after.getD (pos + gap) ([], [])).1
    rw [← hmsg, SenderKeyState.received_advance, SenderKeyState.advance_add,
      ← Nat.add_assoc] at hone
    exact except_bind_ok.mpr ⟨_, hone, except_bind_ok.mpr ⟨_, ih hrest, rfl⟩⟩

theorem groupDecrypt_below {r : SenderKeyState} {skmsg : Bytes} {body : SenderKeyMessageBody}
    (hparse : pb.senderKeyMessage.parse ((skmsg.take (skmsg.length - 64)).drop 1) = some body)
    (hold : body.iteration < r.iteration) : ∃ e, groupDecrypt P pb r skmsg = .error e := by
  simp only [groupDecrypt, hparse, if_pos hold]
  split
  · exact ⟨_, rfl⟩
  · split <;> exact ⟨_, rfl⟩

end Run

theorem sender_key_delivery (hP : P.Lawful) (hsk : SenderKeyPrimitives P) (hpb : pb.Lawful)
    (hf : SenderKeyFields pb) {signing : KeyPair P} {s : SenderKeyState} (howns : Owns signing s)
    (before after : List (Bytes × Bytes)) :
    (s.keyId < 0x100000000 → s.iteration + before.length + after.length < 0x100000000 →
      Nonempty (GroupSending P pb s before after)) ∧
    ∀ run : GroupSending P pb s before after,
      ∃ r, processDistributionMessage pb run.distribution = .ok r ∧
        ∀ picks, Deliverable after.length 0 picks →
          ∃ r' mid,
            groupDecryptAll P pb r (picks.map fun j => run.later.getD j []) =
              .ok (picks.map fun j => (after.getD j ([], [])).2, r') ∧
            groupEncryptAll P pb run.given (after.take (reached 0 picks)) =
              .ok (run.later.take (reached 0 picks), mid) ∧
            r' = mid.received ∧
            ∀ skmsg body,
              pb.senderKeyMessage.parse ((skmsg.take (skmsg.length - 64)).drop 1) = some body →
              body.iteration < r'.iteration → ∃ e, groupDecrypt P pb r' skmsg = .error e := by
  constructor
  · intro hid hroom
    obtain ⟨earlier, hearlier⟩ :=
      groupEncryptAll_total hf howns hid (by omega : s.iteration + before.length < 0x100000000)
    have hgiven := howns.advance before.length
    have hiter : (s.advance P before.length).iteration + after.length < 0x100000000 := hroom
    obtain ⟨data, hdata⟩ := buildDistributionMessage_total hP hf hgiven hid (by omega)
    obtain ⟨later, hlater⟩ := groupEncryptAll_total hf hgiven hid hiter
    exact ⟨⟨earlier, _, data, later, _, hearlier, hdata, hlater⟩⟩
  · intro run
    obtain ⟨hgiven, _, _⟩ := groupEncryptAll_sent howns run.earlier_sent
    have howns' : Owns signing run.given := hgiven ▸ howns.advance before.length
    refine ⟨_, processDistributionMessage_built hP hpb howns' run.distributed, ?_⟩
    intro picks hpicks
    obtain ⟨mid, hmid⟩ := groupEncryptAll_take run.later_sent (reached 0 picks)
    obtain ⟨hstate, _, _⟩ := groupEncryptAll_sent howns' hmid
    rw [List.length_take, Nat.min_eq_left (hpicks.reached_le (Nat.zero_le _))] at hstate
    exact ⟨_, mid, groupDecryptAll_picks hP hsk hpb howns' run.later_sent hpicks, hmid,
      by rw [hstate], fun skmsg body hparse hold => groupDecrypt_below hparse hold⟩

section Demo

def demoWord (n : Nat) : Bytes :=
  [UInt8.ofNat n, UInt8.ofNat (n / 0x100), UInt8.ofNat (n / 0x10000), UInt8.ofNat (n / 0x1000000)]

def demoTakeWord : Bytes → Option (Nat × Bytes)
  | a :: b :: c :: d :: rest =>
    some (a.toNat + 0x100 * b.toNat + 0x10000 * c.toNat + 0x1000000 * d.toNat, rest)
  | _ => none

theorem demoTakeWord_demoWord {n : Nat} (h : n < 0x100000000) (rest : Bytes) :
    demoTakeWord (demoWord n ++ rest) = some (n, rest) := by
  simp only [demoWord, demoTakeWord, List.cons_append, List.nil_append, UInt8.toNat_ofNat',
    Option.some.injEq, Prod.mk.injEq, and_true]
  omega

def demoCheckWord (n : Nat) : Except PyError Bytes :=
  if n < 0x100000000 then .ok (demoWord n) else .error (.valueError "Value out of range")

theorem demoCheckWord_ok {n : Nat} {b : Bytes} (h : demoCheckWord n = .ok b) :
    b = demoWord n ∧ n < 0x100000000 := by
  by_cases hn : n < 0x100000000
  · rw [demoCheckWord, if_pos hn] at h
    cases h
    exact ⟨rfl, hn⟩
  · rw [demoCheckWord, if_neg hn] at h
    cases h

/-- `demoProtobuf` with four-byte integers and trailing bytes of any length. -/
def demoGroupProtobuf : Protobuf :=
  { demoProtobuf with
    senderKeyMessage :=
      { serialize := fun m => do
          return (← demoCheckWord m.id) ++ ((← demoCheckWord m.iteration) ++ m.ciphertext)
        parse := fun b => do
          let (id, b) ← demoTakeWord b
          let (iteration, ciphertext) ← demoTakeWord b
          return ⟨id, iteration, ciphertext⟩ }
    senderKeyDistribution :=
      { serialize := fun m => do
          return (← demoCheckWord m.id) ++ ((← demoCheckWord m.iteration) ++
            ((← demoBytes m.signingKey) ++ m.chainKey))
        parse := fun b => do
          let (id, b) ← demoTakeWord b
          let (iteration, b) ← demoTakeWord b
          let (signingKey, chainKey) ← demoTakeBytes b
          return ⟨id, iteration, chainKey, signingKey⟩ } }

theorem demoGroupProtobuf_lawful : demoGroupProtobuf.Lawful where
  whisper := demoProtobuf_lawful.whisper
  preKeyWhisper := demoProtobuf_lawful.preKeyWhisper
  senderKeyMessage m b h := by
    simp only [demoGroupProtobuf, except_bind_ok] at h
    obtain ⟨_, h₁, _, h₂, h⟩ := h
    cases h
    obtain ⟨rfl, hid⟩ := demoCheckWord_ok h₁
    obtain ⟨rfl, hiter⟩ := demoCheckWord_ok h₂
    simp [demoGroupProtobuf, demoTakeWord_demoWord hid, demoTakeWord_demoWord hiter]
  senderKeyDistribution m b h := by
    simp only [demoGroupProtobuf, except_bind_ok] at h
    obtain ⟨_, h₁, _, h₂, _, h₃, h⟩ := h
    cases h
    obtain ⟨rfl, hid⟩ := demoCheckWord_ok h₁
    obtain ⟨rfl, hiter⟩ := demoCheckWord_ok h₂
    simp [demoGroupProtobuf, demoTakeWord_demoWord hid, demoTakeWord_demoWord hiter,
      demoTakeBytes_demoBytes h₃]

theorem demoGroupProtobuf_fields : SenderKeyFields demoGroupProtobuf where
  message body hid hiter := by
    simp only [demoGroupProtobuf, demoCheckWord, if_pos hid, if_pos hiter]
    exact ⟨_, rfl⟩
  distribution body hid hiter hlen := by
    have hshort : body.signingKey.length < 256 := by omega
    simp only [demoGroupProtobuf, demoCheckWord, if_pos hid, if_pos hiter, demoBytes,
      if_pos hshort]
    exact ⟨_, rfl⟩

theorem demoPrimitives_senderKey : SenderKeyPrimitives demoPrimitives where
  verify_sign signing message nonce := by
    simp [demoPrimitives, signing.pub_eq]
  sign_length priv message nonce := by
    simp [demoPrimitives, demoDigest]
  cbc_length key iv data hkey hiv hlen := rfl

def demoGroupState : SenderKeyState :=
  createSenderKeyState 7 (demoKey 5) (List.replicate 32 9)

/-- The receiver joins after one message, misses the second of the next three. -/
theorem demo_group_delivered :
    ∃ run : GroupSending demoPrimitives demoGroupProtobuf demoGroupState [([], [1])]
        [([], [2]), ([], [3, 4]), ([], [])],
      ∃ r, processDistributionMessage demoGroupProtobuf run.distribution = .ok r ∧
        ∃ r', groupDecryptAll demoPrimitives demoGroupProtobuf r
            [run.later.getD 0 [], run.later.getD 2 []] = .ok ([[2], []], r') ∧
          r'.iteration = 4 := by
  obtain ⟨htotal, hdelivered⟩ := sender_key_delivery demoPrimitives_lawful
    demoPrimitives_senderKey demoGroupProtobuf_lawful demoGroupProtobuf_fields
    (s := demoGroupState) ⟨rfl, rfl⟩ [([], [1])]
    [([], [2]), ([], [3, 4]), ([], [])]
  obtain ⟨run⟩ := htotal (by decide) (by decide)
  obtain ⟨r, hr, hpicks⟩ := hdelivered run
  obtain ⟨r', mid, hopened, hmid, rfl, _⟩ := hpicks [0, 2] ⟨by decide, by decide, by decide,
    by decide, by decide, by decide, trivial⟩
  refine ⟨run, r, hr, mid.received, hopened, ?_⟩
  have hgiven := groupEncryptAll_sent ⟨rfl, rfl⟩ run.earlier_sent
  have howns : Owns (demoKey 5) run.given := by
    rw [hgiven.1]
    exact ⟨rfl, rfl⟩
  have hstate := groupEncryptAll_sent howns hmid
  rw [hstate.1, hgiven.1]
  rfl

end Demo

end PyWhats
