import PyWhats.Ratchet

/-! The wire format of Signal messages (`types.py`). The protobuf runtime is a
parameter: it serialises a record, or raises when a field is out of range, and
parses what it serialised. -/

namespace PyWhats

structure WhisperMessage where
  ratchetKey : Bytes
  counter : Nat
  previousCounter : Nat
  ciphertext : Bytes
  deriving DecidableEq

structure PreKeyWhisperMessage where
  preKeyId : Option Nat
  baseKey : Bytes
  identityKey : Bytes
  message : Bytes
  registrationId : Nat
  signedPreKeyId : Nat
  deriving DecidableEq

structure SenderKeyMessageBody where
  id : Nat
  iteration : Nat
  ciphertext : Bytes
  deriving DecidableEq

structure SenderKeyDistributionMessageBody where
  id : Nat
  iteration : Nat
  chainKey : Bytes
  signingKey : Bytes
  deriving DecidableEq

structure ProtoCodec (α : Type) where
  serialize : α → Except PyError Bytes
  parse : Bytes → Option α

def ProtoCodec.Lawful {α : Type} (c : ProtoCodec α) : Prop :=
  ∀ a b, c.serialize a = .ok b → c.parse b = some a

structure Protobuf where
  whisper : ProtoCodec WhisperMessage
  preKeyWhisper : ProtoCodec PreKeyWhisperMessage
  senderKeyMessage : ProtoCodec SenderKeyMessageBody
  senderKeyDistribution : ProtoCodec SenderKeyDistributionMessageBody

structure Protobuf.Lawful (pb : Protobuf) : Prop where
  whisper : pb.whisper.Lawful
  preKeyWhisper : pb.preKeyWhisper.Lawful
  senderKeyMessage : pb.senderKeyMessage.Lawful
  senderKeyDistribution : pb.senderKeyDistribution.Lawful

def signalMagic : UInt8 := 0x33

def macLen : Nat := 8

/-- `_strip_signal_pubkey` of `types.py`. -/
def stripSignalPubkey (key : Bytes) : Except PyError Bytes :=
  if key.length = 33 then
    if key.head? ≠ some 0x05 then
      .error (.signalCryptoError "invalid Signal public key type byte")
    else .ok (key.drop 1)
  else if key.length ≠ 32 then
    .error (.signalCryptoError "invalid Signal public key length")
  else .ok key

/-- The truncated HMAC over both identities and the versioned body. -/
def signalMac (P : Primitives) (senderIdentity receiverIdentity versionedBody macKey : Bytes) :
    Except PyError Bytes := do
  let sender ← signalPubkey senderIdentity
  let receiver ← signalPubkey receiverIdentity
  return (P.hmac macKey (sender ++ receiver ++ versionedBody)).take macLen

structure SignalMessage where
  header : MessageHeader
  ciphertext : Bytes
  body : Option Bytes := none
  mac : Option Bytes := none

namespace SignalMessage

def serializeBody (pb : Protobuf) (m : SignalMessage) : Except PyError Bytes := do
  let ratchetKey ← signalPubkey m.header.dh
  pb.whisper.serialize ⟨ratchetKey, m.header.n, m.header.pn, m.ciphertext⟩

def encode (P : Primitives) (pb : Protobuf) (m : SignalMessage)
    (senderIdentity receiverIdentity macKey : Bytes) : Except PyError Bytes := do
  let body ← match m.body with
    | some body => pure body
    | none => m.serializeBody pb
  let versioned := signalMagic :: body
  let mac ← signalMac P senderIdentity receiverIdentity versioned macKey
  return versioned ++ mac

def decode (pb : Protobuf) (data : Bytes) : Except PyError SignalMessage :=
  if data.length < 1 + macLen ∨ data.head? ≠ some signalMagic then
    .error (.signalCryptoError "bad signal message version")
  else
    let body := (data.take (data.length - macLen)).drop 1
    match pb.whisper.parse body with
    | none => .error (.signalCryptoError "invalid whisper message protobuf")
    | some proto => do
      let dh ← stripSignalPubkey proto.ratchetKey
      return {
        header := ⟨dh, proto.previousCounter, proto.counter⟩
        ciphertext := proto.ciphertext
        body := some body
        mac := some (data.drop (data.length - macLen)) }

def verifyMac (P : Primitives) (m : SignalMessage) (senderIdentity receiverIdentity macKey : Bytes) :
    Except PyError Unit :=
  match m.body, m.mac with
  | some body, some mac => do
    let expected ← signalMac P senderIdentity receiverIdentity (signalMagic :: body) macKey
    if expected = mac then pure ()
    else throw (.signalCryptoError "signal message mac check failed")
  | _, _ => .error (.signalCryptoError "signal message has no MAC to verify")

end SignalMessage

structure PreKeySignalMessage where
  registrationId : Nat
  oneTimePreKeyId : Option Nat
  signedPreKeyId : Nat
  baseKey : Bytes
  identityKey : Bytes
  message : SignalMessage

namespace PreKeySignalMessage

def encode (P : Primitives) (pb : Protobuf) (m : PreKeySignalMessage)
    (senderIdentity receiverIdentity macKey : Bytes) : Except PyError Bytes := do
  let baseKey ← signalPubkey m.baseKey
  let identityKey ← signalPubkey m.identityKey
  let message ← m.message.encode P pb senderIdentity receiverIdentity macKey
  let proto ← pb.preKeyWhisper.serialize
    ⟨m.oneTimePreKeyId, baseKey, identityKey, message, m.registrationId, m.signedPreKeyId⟩
  return signalMagic :: proto

def decode (pb : Protobuf) (data : Bytes) : Except PyError PreKeySignalMessage :=
  if data.head? ≠ some signalMagic then
    .error (.signalCryptoError "bad prekey signal message version")
  else
    match pb.preKeyWhisper.parse (data.drop 1) with
    | none => .error (.signalCryptoError "invalid prekey whisper message protobuf")
    | some proto => do
      let baseKey ← stripSignalPubkey proto.baseKey
      let identityKey ← stripSignalPubkey proto.identityKey
      let message ← SignalMessage.decode pb proto.message
      return {
        registrationId := proto.registrationId
        oneTimePreKeyId := proto.preKeyId
        signedPreKeyId := proto.signedPreKeyId
        baseKey := baseKey
        identityKey := identityKey
        message := message }

end PreKeySignalMessage

section RoundTrip

variable {P : Primitives} {pb : Protobuf}

theorem except_bind_ok {α β : Type} {x : Except PyError α} {f : α → Except PyError β} {b : β} :
    (x >>= f) = .ok b ↔ ∃ a, x = .ok a ∧ f a = .ok b := by
  cases x <;> simp [bind, Except.bind]

theorem stripSignalPubkey_signalPubkey {key typed : Bytes} (hlen : key.length = 32)
    (h : signalPubkey key = .ok typed) : stripSignalPubkey typed = .ok key := by
  simp only [signalPubkey, hlen] at h
  cases h
  simp [stripSignalPubkey, hlen]

theorem signalMac_length (hP : P.Lawful) {a b body key mac : Bytes}
    (h : signalMac P a b body key = .ok mac) : mac.length = macLen := by
  simp only [signalMac, except_bind_ok] at h
  obtain ⟨_, _, _, _, hmac⟩ := h
  cases hmac
  simp [hP.hmac_length, macLen]

/-- A message built in code and encoded decodes to itself, with the body and the
tag that were sent. -/
theorem SignalMessage.decode_encoded (hP : P.Lawful) (hpb : pb.Lawful) {header : MessageHeader}
    {ciphertext a b key data : Bytes} (hdh : header.dh.length = 32)
    (h : SignalMessage.encode P pb { header := header, ciphertext := ciphertext } a b key =
      .ok data) :
    ∃ body mac, data = signalMagic :: body ++ mac ∧
      signalMac P a b (signalMagic :: body) key = .ok mac ∧
      SignalMessage.decode pb data = .ok {
        header := header, ciphertext := ciphertext, body := some body, mac := some mac } := by
  simp only [encode, serializeBody, except_bind_ok] at h
  obtain ⟨body, ⟨typed, hk, hs⟩, mac, hm, hdata⟩ := h
  cases hdata
  have hlen := signalMac_length hP hm
  have hcut : (signalMagic :: body ++ mac).length - macLen = (signalMagic :: body).length := by
    simp only [List.length_append, hlen, Nat.add_sub_cancel]
  have hguard : ¬ ((signalMagic :: body ++ mac).length < 1 + macLen ∨
      (signalMagic :: body ++ mac).head? ≠ some signalMagic) := by
    simp only [List.length_append, List.length_cons, hlen, List.cons_append, List.head?_cons, ne_eq,
      not_true_eq_false, or_false]
    omega
  refine ⟨body, mac, rfl, hm, ?_⟩
  simp only [decode, if_neg hguard, hcut, List.take_left, List.drop_left, List.drop_succ_cons,
    List.drop_zero, hpb.whisper _ _ hs, stripSignalPubkey_signalPubkey hdh hk]
  rfl

theorem PreKeySignalMessage.decode_encoded (hP : P.Lawful) (hpb : pb.Lawful)
    {m : PreKeySignalMessage} {a b key data : Bytes} (hfresh : m.message.body = none)
    (hmac : m.message.mac = none) (hdh : m.message.header.dh.length = 32)
    (hbase : m.baseKey.length = 32) (hid : m.identityKey.length = 32)
    (h : m.encode P pb a b key = .ok data) :
    ∃ body mac, signalMac P a b (signalMagic :: body) key = .ok mac ∧
      PreKeySignalMessage.decode pb data = .ok { m with
        message := { m.message with body := some body, mac := some mac } } := by
  obtain ⟨reg, opk, spk, base, id, ⟨header, ciphertext, _, _⟩⟩ := m
  simp only at hfresh hmac hdh hbase hid
  subst hfresh hmac
  simp only [encode, except_bind_ok] at h
  obtain ⟨base', hbase', id', hid', inner, hinner, proto, hproto, hdata⟩ := h
  cases hdata
  obtain ⟨body, mac, _, htag, hdec⟩ := SignalMessage.decode_encoded hP hpb hdh hinner
  refine ⟨body, mac, htag, ?_⟩
  simp only [decode, List.head?_cons, ne_eq, not_true_eq_false, if_false, List.drop_succ_cons,
    List.drop_zero, hpb.preKeyWhisper _ _ hproto, stripSignalPubkey_signalPubkey hbase hbase',
    stripSignalPubkey_signalPubkey hid hid', hdec]
  rfl

theorem SignalMessage.verifyMac_of_mac {m : SignalMessage} {a b key body mac : Bytes}
    (h : signalMac P a b (signalMagic :: body) key = .ok mac) :
    SignalMessage.verifyMac P { m with body := some body, mac := some mac } a b key = .ok () := by
  simp only [verifyMac, h]
  exact if_pos rfl

theorem SignalMessage.verifyMac_refused {m : SignalMessage} {a b key tried body mac : Bytes}
    (h : signalMac P a b (signalMagic :: body) key = .ok mac)
    (hne : signalMac P a b (signalMagic :: body) tried ≠ signalMac P a b (signalMagic :: body) key) :
    SignalMessage.verifyMac P { m with body := some body, mac := some mac } a b tried =
      .error (.signalCryptoError "signal message mac check failed") := by
  simp only [signalMac, except_bind_ok] at h
  obtain ⟨a', ha', b', hb', htag⟩ := h
  have htried : signalMac P a b (signalMagic :: body) tried =
      .ok ((P.hmac tried (a' ++ b' ++ signalMagic :: body)).take macLen) := by
    simp only [signalMac, ha', hb']
    rfl
  have hkey : signalMac P a b (signalMagic :: body) key = .ok mac := by
    simp only [signalMac, ha', hb']
    exact htag
  rw [htried, hkey] at hne
  simp only [verifyMac, htried]
  exact if_neg fun heq => hne (congrArg Except.ok heq)

end RoundTrip

section Demo

def demoNat (n : Nat) : Except PyError Bytes :=
  if n < 256 then .ok [UInt8.ofNat n] else .error (.valueError "Value out of range")

def demoBytes (b : Bytes) : Except PyError Bytes :=
  if b.length < 256 then .ok (UInt8.ofNat b.length :: b)
  else .error (.valueError "Value out of range")

def demoTakeNat : Bytes → Option (Nat × Bytes)
  | [] => none
  | n :: rest => some (n.toNat, rest)

def demoTakeBytes : Bytes → Option (Bytes × Bytes)
  | [] => none
  | n :: rest => some (rest.take n.toNat, rest.drop n.toNat)

theorem demoTakeNat_demoNat {n : Nat} {b rest : Bytes} (h : demoNat n = .ok b) :
    demoTakeNat (b ++ rest) = some (n, rest) := by
  rw [demoNat] at h
  split at h
  · rename_i hn
    cases h
    simp [demoTakeNat, Nat.mod_eq_of_lt hn]
  · cases h

theorem demoTakeBytes_demoBytes {a b rest : Bytes} (h : demoBytes a = .ok b) :
    demoTakeBytes (b ++ rest) = some (a, rest) := by
  rw [demoBytes] at h
  split at h
  · rename_i hn
    cases h
    simp [demoTakeBytes, Nat.mod_eq_of_lt hn]
  · cases h

def demoOption : Option Nat → Except PyError Bytes
  | none => .ok [0]
  | some n => do return 1 :: (← demoNat n)

def demoTakeOption : Bytes → Option (Option Nat × Bytes)
  | [] => none
  | tag :: rest =>
    if tag = 0 then some (none, rest) else (demoTakeNat rest).map fun r => (some r.1, r.2)

theorem demoTakeOption_demoOption {o : Option Nat} {b rest : Bytes} (h : demoOption o = .ok b) :
    demoTakeOption (b ++ rest) = some (o, rest) := by
  cases o with
  | none =>
    cases h
    rfl
  | some n =>
    obtain ⟨b', hb', h⟩ := except_bind_ok.mp h
    cases h
    simp [demoTakeOption, demoTakeNat_demoNat hb']

def demoProtobuf : Protobuf where
  whisper :=
    { serialize := fun m => do
        return (← demoBytes m.ratchetKey) ++ ((← demoNat m.counter) ++
          ((← demoNat m.previousCounter) ++ ((← demoBytes m.ciphertext) ++ [])))
      parse := fun b => do
        let (ratchetKey, b) ← demoTakeBytes b
        let (counter, b) ← demoTakeNat b
        let (previousCounter, b) ← demoTakeNat b
        let (ciphertext, _) ← demoTakeBytes b
        return ⟨ratchetKey, counter, previousCounter, ciphertext⟩ }
  preKeyWhisper :=
    { serialize := fun m => do
        return (← demoOption m.preKeyId) ++ ((← demoBytes m.baseKey) ++
          ((← demoBytes m.identityKey) ++ ((← demoBytes m.message) ++
          ((← demoNat m.registrationId) ++ ((← demoNat m.signedPreKeyId) ++ [])))))
      parse := fun b => do
        let (preKeyId, b) ← demoTakeOption b
        let (baseKey, b) ← demoTakeBytes b
        let (identityKey, b) ← demoTakeBytes b
        let (message, b) ← demoTakeBytes b
        let (registrationId, b) ← demoTakeNat b
        let (signedPreKeyId, _) ← demoTakeNat b
        return ⟨preKeyId, baseKey, identityKey, message, registrationId, signedPreKeyId⟩ }
  senderKeyMessage :=
    { serialize := fun m => do
        return (← demoNat m.id) ++ ((← demoNat m.iteration) ++ ((← demoBytes m.ciphertext) ++ []))
      parse := fun b => do
        let (id, b) ← demoTakeNat b
        let (iteration, b) ← demoTakeNat b
        let (ciphertext, _) ← demoTakeBytes b
        return ⟨id, iteration, ciphertext⟩ }
  senderKeyDistribution :=
    { serialize := fun m => do
        return (← demoNat m.id) ++ ((← demoNat m.iteration) ++
          ((← demoBytes m.chainKey) ++ ((← demoBytes m.signingKey) ++ [])))
      parse := fun b => do
        let (id, b) ← demoTakeNat b
        let (iteration, b) ← demoTakeNat b
        let (chainKey, b) ← demoTakeBytes b
        let (signingKey, _) ← demoTakeBytes b
        return ⟨id, iteration, chainKey, signingKey⟩ }

theorem demoProtobuf_lawful : demoProtobuf.Lawful where
  whisper m b h := by
    simp only [demoProtobuf, except_bind_ok] at h
    obtain ⟨_, h₁, _, h₂, _, h₃, _, h₄, h⟩ := h
    cases h
    simp [-List.append_nil, demoProtobuf, demoTakeBytes_demoBytes h₁, demoTakeNat_demoNat h₂,
      demoTakeNat_demoNat h₃, demoTakeBytes_demoBytes h₄]
  preKeyWhisper m b h := by
    simp only [demoProtobuf, except_bind_ok] at h
    obtain ⟨_, h₁, _, h₂, _, h₃, _, h₄, _, h₅, _, h₆, h⟩ := h
    cases h
    simp [-List.append_nil, demoProtobuf, demoTakeOption_demoOption h₁, demoTakeBytes_demoBytes h₂,
      demoTakeBytes_demoBytes h₃, demoTakeBytes_demoBytes h₄, demoTakeNat_demoNat h₅,
      demoTakeNat_demoNat h₆]
  senderKeyMessage m b h := by
    simp only [demoProtobuf, except_bind_ok] at h
    obtain ⟨_, h₁, _, h₂, _, h₃, h⟩ := h
    cases h
    simp [-List.append_nil, demoProtobuf, demoTakeNat_demoNat h₁, demoTakeNat_demoNat h₂,
      demoTakeBytes_demoBytes h₃]
  senderKeyDistribution m b h := by
    simp only [demoProtobuf, except_bind_ok] at h
    obtain ⟨_, h₁, _, h₂, _, h₃, _, h₄, h⟩ := h
    cases h
    simp [-List.append_nil, demoProtobuf, demoTakeNat_demoNat h₁, demoTakeNat_demoNat h₂,
      demoTakeBytes_demoBytes h₃, demoTakeBytes_demoBytes h₄]

end Demo

end PyWhats
