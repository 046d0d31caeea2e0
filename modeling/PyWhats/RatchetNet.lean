import Mathlib.Logic.Function.Basic
import Mathlib.Logic.Relation
import PyWhats.RatchetChain

/-! Two parties that run the Double Ratchet over a channel that loses and
reorders messages. A run is a sequence of encryptions, deliveries and losses;
every delivery is logged with what `ratchet_decrypt` returned. -/

namespace PyWhats

inductive Party where
  | alice
  | bob
  deriving DecidableEq

def Party.other : Party → Party
  | .alice => .bob
  | .bob => .alice

/-- A message on its way, with the plaintext it was made from and the MAC key
`ratchet_encrypt` returned for it. -/
structure InFlight where
  header : MessageHeader
  ciphertext : Bytes
  macKey : Bytes
  plaintext : Bytes

structure Delivery (P : Primitives) where
  message : InFlight
  generated : KeyPair P
  associatedData : Bytes
  before : RatchetState
  result : Except PyError Bytes

structure Net (P : Primitives) where
  state : Party → RatchetState
  inbox : Party → List InFlight
  usedKeys : List Bytes
  log : List (Delivery P)

def StartsChain (st : RatchetState) (header : MessageHeader) : Prop :=
  st.mkskipped.get? (header.dh, header.n) = none ∧ st.dhr ≠ some header.dh

instance (st : RatchetState) (header : MessageHeader) : Decidable (StartsChain st header) :=
  inferInstanceAs (Decidable (_ ∧ _))

def skipsInOldChain (st : RatchetState) (header : MessageHeader) : Nat :=
  if StartsChain st header ∧ st.ckr.isSome = true then header.pn - st.nr else 0

def skipsInNewChain (st : RatchetState) (header : MessageHeader) : Nat :=
  if (st.mkskipped.get? (header.dh, header.n)).isSome then 0
  else if st.dhr = some header.dh then header.n - st.nr else header.n

/-- At most `max_skip` keys are skipped in each chain and the cache, with the
keys this delivery adds, stays within its bound. -/
def WithinLimits (st : RatchetState) (header : MessageHeader) : Prop :=
  skipsInOldChain st header ≤ st.maxSkip ∧ skipsInNewChain st header ≤ st.maxSkip ∧
    st.mkskipped.size + skipsInOldChain st header + skipsInNewChain st header ≤ maxSkippedTotal

instance (st : RatchetState) (header : MessageHeader) : Decidable (WithinLimits st header) :=
  inferInstanceAs (Decidable (_ ∧ _))

def expectMac (macKey : Bytes) : MacVerifier := fun derived =>
  if derived = macKey then .ok () else .error (.signalCryptoError "signal message mac check failed")

def outcome {σ α : Type} : EStateM.Result PyError σ α → Except PyError α
  | .ok a _ => .ok a
  | .error e _ => .error e

def finalState {σ α : Type} : EStateM.Result PyError σ α → σ
  | .ok _ s => s
  | .error _ s => s

variable {P : Primitives}

def receive (generated : KeyPair P) (ad : Bytes) (m : InFlight) (st : RatchetState) :
    EStateM.Result PyError RatchetState Bytes :=
  ratchetDecrypt P generated m.header m.ciphertext ad (some (expectMac m.macKey)) st

namespace Net

def sent (net : Net P) (p : Party) (st : RatchetState) (m : InFlight) : Net P :=
  { net with
    state := Function.update net.state p st
    inbox := Function.update net.inbox p.other (net.inbox p.other ++ [m]) }

def delivered (net : Net P) (p : Party) (generated : KeyPair P) (ad : Bytes) (m : InFlight)
    (rest : List InFlight) : Net P where
  state := Function.update net.state p (finalState (receive generated ad m (net.state p)))
  inbox := Function.update net.inbox p rest
  usedKeys :=
    if StartsChain (net.state p) m.header then generated.pub :: net.usedKeys else net.usedKeys
  log := net.log ++ [⟨m, generated, ad, net.state p, outcome (receive generated ad m (net.state p))⟩]

/-- A freshly generated DH key must differ from every DH key used so far. -/
inductive Step : Net P → Net P → Prop
  | send {net : Net P} {p : Party} {plaintext ad ciphertext macKey : Bytes} {header : MessageHeader}
      {st : RatchetState}
      (h : ratchetEncrypt P plaintext ad (net.state p) = .ok (header, ciphertext, macKey) st) :
      Step net (net.sent p st ⟨header, ciphertext, macKey, plaintext⟩)
  | deliver {net : Net P} {p : Party} {pre post : List InFlight} {m : InFlight}
      (generated : KeyPair P) (ad : Bytes) (hin : net.inbox p = pre ++ m :: post)
      (hlimits : WithinLimits (net.state p) m.header)
      (hfresh : StartsChain (net.state p) m.header → generated.pub ∉ net.usedKeys) :
      Step net (net.delivered p generated ad m (pre ++ post))
  | lose {net : Net P} {p : Party} {pre post : List InFlight} {m : InFlight}
      (hin : net.inbox p = pre ++ m :: post) :
      Step net { net with inbox := Function.update net.inbox p (pre ++ post) }

/-- The two states right after X3DH for one published bundle. -/
inductive Established : Net P → Prop
  | intro {ika eka ikb generated : KeyPair P} {spk : SignedPreKey P}
      {opk : Option (OneTimePreKey P)} {r : X3DHInitiatorResult} {r' : X3DHResponderResult}
      {sa : RatchetState}
      (hinit : x3dhInitiator P ika (publishBundle ikb spk opk) eka = .ok r)
      (hresp : x3dhResponder P ikb spk opk r.identityPublic r.ephemeralPublic = .ok r')
      (halice : ratchetInitAlice P generated r.sharedSecret
        (publishBundle ikb spk opk).signedPreKeyPublic = .ok sa)
      (hfresh : generated.pub ≠ spk.pair.pub) :
      Established {
        state := fun
          | .alice => sa
          | .bob => ratchetInitBob r'.sharedSecret spk.pair.priv spk.pair.pub
        inbox := fun _ => []
        usedKeys := [generated.pub, spk.pair.pub]
        log := [] }

abbrev Run : Net P → Net P → Prop := Relation.ReflTransGen Step

end Net

end PyWhats
