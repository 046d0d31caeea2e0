import PyWhats.Crossing
import PyWhats.FirstMessages
import PyWhats.SessionKeys

/-! What a receiver accepts over all its sessions. Sessions are opened, replaced, dropped
and moved; a `pkmsg` opens one on a chain that is fixed by its X3DH inputs, so what keeps
it from being accepted twice is the one-time prekey it consumes. -/

namespace PyWhats

variable {P : Primitives}

/-- What `_decrypt_enc` accepts when it accepts a `pkmsg`. -/
def World.pkmsgAcceptance (env : Env P) (dev : Device P) (w : World P) (ciphertext : Bytes) :
    Option Acceptance := do
  let pkmsg ← (PreKeySignalMessage.decode env.pb ciphertext).toOption
  let spk ← (getSignedPreKey dev pkmsg.signedPreKeyId).toOption
  let opk := pkmsg.oneTimePreKeyId.bind w.prekeys.get?
  let result ← (x3dhResponder P dev.identity spk opk pkmsg.identityKey pkmsg.baseKey).toOption
  let start := ratchetInitBob result.sharedSecret spk.pair.priv spk.pair.pub
  let id := ChainId.opened (opk.map fun k => k.pair.pub) pkmsg.identityKey pkmsg.baseKey
    pkmsg.message.header.dh
  return {
    encType := "pkmsg"
    ciphertext := ciphertext
    message := pkmsg.message
    oneTime := opk.map fun k => k.pair.pub
    macKey := start.usedMacKey P pkmsg.message.header
    derived := start.derived P id id pkmsg.message.header
    chain := start.chainAfter id id pkmsg.message.header }

/-- The receiver, the chain that each stored session receives on, the MAC keys derived so
far, what was accepted, and the public keys of all one-time prekeys there ever were. -/
structure Ledger (P : Primitives) where
  world : World P
  chain : String → ChainId
  made : List ((ChainId × Nat) × Bytes)
  accepted : List Acceptance
  seen : List Bytes

namespace Ledger

def start (w : World P) : Ledger P where
  world := w
  chain := .initial
  made := w.sessions.entries.flatMap fun e => e.2.state.cachedPositions P e.1
  accepted := []
  seen := w.prekeys.values.map fun opk => opk.pair.pub

def migrate (L : Ledger P) (pn lid : String) (session : Session) : Ledger P :=
  { L with
    world := L.world.log (.migrate pn lid) (.migrate pn lid session)
    chain := Function.update L.chain lid (L.chain pn) }

def arrive (L : Ledger P) (sender : JID) : Ledger P :=
  match L.world.movesFrom sender with
  | none => L
  | some (pn, session) => L.migrate pn (sessionId sender) session

def accept (L : Ledger P) (w : World P) (sid : String) (a : Acceptance) : Ledger P :=
  { L with
    world := w
    chain := Function.update L.chain sid a.chain
    made := L.made ++ a.derived
    accepted := L.accepted ++ [a] }

section Steps

variable (env : Env P) (dev : Device P)

def acceptance (L : Ledger P) (sender : JID) (encType : String) (ciphertext : Bytes) :
    Option Acceptance :=
  if encType = "pkmsg" then L.world.pkmsgAcceptance env dev ciphertext
  else L.world.msgAcceptance env sender ciphertext (L.chain (sessionId sender))
    (.ratchet L.accepted.length)

def deliver (L : Ledger P) (channel : Channel) (sender : JID) (encType : String)
    (ciphertext : Bytes) : Ledger P :=
  let out := (decryptEnc env dev channel sender encType ciphertext).run L.world
  let L := L.arrive sender
  match out.2.ok?, L.acceptance env dev sender encType ciphertext with
  | some _, some a => L.accept out.1 (sessionId sender) a
  | _, _ => { L with world := out.1 }

end Steps

end Ledger

def Event.receives : Event → Bool
  | .acceptPrekey _ _ _ | .acceptMessage _ _ | .migrate _ _ => true
  | _ => false

/-- A ciphertext arrives, a session moves to the peer's other address, a new one-time
prekey is stored, pending preambles are given up, the process starts again, or the client
does something else, perhaps not to its end. -/
inductive LedgerStep (env : Env P) (dev : Device P) : Ledger P → Ledger P → Prop
  | deliver {L : Ledger P} (channel : Channel) (sender : JID) (encType : String)
      (ciphertext : Bytes) : LedgerStep env dev L (L.deliver env dev channel sender encType ciphertext)
  | migrate {L : Ledger P} {pn lid : String} {session : Session}
      (hpn : L.world.sessions.get? pn = some session) (hlid : L.world.sessions.get? lid = none) :
      LedgerStep env dev L (L.migrate pn lid session)
  | stock {L : Ledger P} (id : Nat) (opk : OneTimePreKey P) (hfresh : opk.pair.pub ∉ L.seen) :
      LedgerStep env dev L { L with
        world := L.world.put fun s => { s with prekeys := s.prekeys.set id opk }
        seen := opk.pair.pub :: L.seen }
  | noted {L : Ledger P} (js : List JID) : LedgerStep env dev L { L with world := L.world.noted js }
  | restart {L : Ledger P} : LedgerStep env dev L { L with world := L.world.restart }
  | other {L : Ledger P} {w : World P} (h : Trans env dev L.world w ∨ Part env dev L.world w)
      (hevents : ∀ ev ∈ w.history.drop L.world.history.length, ev.2.receives = false)
      (hprekeys : w.prekeys = L.world.prekeys) : LedgerStep env dev L { L with world := w }

section Others

variable {env : Env P} {dev : Device P} {w w' : World P}

/-- What the rest of the client does to the stored sessions. -/
inductive SessionsChange (find : String → Option Session) : (String → Option Session) → Prop
  | same : SessionsChange find find
  | renew (sid : String) (x : Option Session)
      (hx : ∀ session ∈ x, session.state.ckr = none ∧ session.state.mkskipped = .empty) :
      SessionsChange find (Function.update find sid x)
  | sent {sid : String} {session session' : Session} (hfind : find sid = some session)
      (hsame : SameReceiving session.state session'.state) :
      SessionsChange find (Function.update find sid (some session'))

theorem KeysInv.change {find find' : String → Option Session} {chain : String → ChainId}
    {made : List ((ChainId × Nat) × Bytes)} {accepted : List Acceptance}
    (h : KeysInv P find chain made accepted) (hchange : SessionsChange find find') :
    KeysInv P find' chain made accepted := by
  cases hchange with
  | same => exact h
  | renew sid x hx =>
    have hrenewed := h.renew sid x (chain sid) hx
    rwa [Function.update_eq_self] at hrenewed
  | sent hfind hsame => exact h.same _ hfind hsame

theorem get?_set_eq_update {κ ν : Type} [DecidableEq κ] (m : OrderedMap κ ν) (k : κ) (v : ν) :
    (m.set k v).get? = Function.update m.get? k (some v) := by
  funext k'
  rw [OrderedMap.get?_set, Function.update_apply]

theorem get?_erase_eq_update {κ ν : Type} [DecidableEq κ] (m : OrderedMap κ ν) (k : κ) :
    (m.erase k).get? = Function.update m.get? k none := by
  funext k'
  rw [OrderedMap.get?_erase, Function.update_apply]

theorem InitiatorRun.Made.receivesNothing {generated : KeyPair P} {run : InitiatorRun}
    (h : run.Made dev generated) : run.start.ckr = none ∧ run.start.mkskipped = .empty := by
  have hr := h.ratchet
  simp only [ratchetInitAlice, except_bind_ok] at hr
  obtain ⟨shared, _, hstart⟩ := hr
  rw [← Except.ok.inj hstart]
  exact ⟨rfl, rfl⟩

theorem noted_prekeys (w : World P) (js : List JID) : (w.noted js).prekeys = w.prekeys := by
  induction js generalizing w with
  | nil => rfl
  | cons j js ih =>
    rw [World.noted, ih, World.log_toStores, Stores.note]
    split <;> rfl

theorem mem_new_history {ev : Stores P × Event} (h : w.history ++ [ev] <+: w'.history) :
    ev ∈ w'.history.drop w.history.length := by
  obtain ⟨more, hmore⟩ := h
  rw [← hmore, List.append_assoc, List.drop_left]
  exact List.mem_cons_self

theorem acceptedPrekey_receives {n : Nat} {sid : String} {opk : Option Nat}
    {start state : RatchetState} {identityKey : Bytes} {channel : Channel} (js : List JID)
    (hevents : ∀ ev ∈ ((w.acceptedPrekey n sid opk start state identityKey channel).noted
      js).history.drop w.history.length, ev.2.receives = false) : False := by
  have hnew : w.history ++ [((w.put (.setDrawn n)).toStores,
      Event.acceptPrekey sid identityKey channel)] <+: _ :=
    World.noted_history (w.acceptedPrekey n sid opk start state identityKey channel) js
  cases hevents _ (mem_new_history hnew)

theorem acceptedMessage_receives {n : Nat} {sid : String} {session : Session} {state : RatchetState}
    {channel : Channel} (js : List JID)
    (hevents : ∀ ev ∈ ((w.acceptedMessage n sid session state channel).noted js).history.drop
      w.history.length, ev.2.receives = false) : False := by
  have hnew : w.history ++ [((w.put (.setDrawn n)).toStores, Event.acceptMessage sid channel)] <+: _ :=
    World.noted_history (w.acceptedMessage n sid session state channel) js
  cases hevents _ (mem_new_history hnew)

theorem Trans.sessionsChange (h : Trans env dev w w')
    (hevents : ∀ ev ∈ w'.history.drop w.history.length, ev.2.receives = false) :
    SessionsChange w.sessions.get? w'.sessions.get? := by
  cases h with
  | quiet h =>
    simp only [World.put_toStores, h.sessions]
    exact .same
  | @initiate run e state i n hi hn hrun hsession hmeta he =>
    obtain ⟨hckr, hcache⟩ := hrun.receivesNothing
    have hsame := he.receiving
    rw [hsession] at hsame
    simp only [World.log_toStores, World.put_toStores, Stores.setSession, Stores.setIdentity,
      Stores.setMeta, Stores.setDrawn, get?_set_eq_update]
    refine .renew _ _ ?_
    rintro _ ⟨⟩
    exact ⟨hsame.ckr.trans hckr, hsame.mkskipped.trans hcache⟩
  | install hreceipt hid hi hn hrun =>
    simp only [World.log_toStores, World.put_toStores, Stores.setSession, Stores.setMeta,
      Stores.setDrawn, get?_set_eq_update]
    refine .renew _ _ ?_
    rintro _ ⟨⟩
    exact hrun.receivesNothing
  | encrypt hsession hmeta he =>
    simp only [World.log_toStores, Stores.setSession, get?_set_eq_update]
    exact .sent hsession he.receiving
  | drop =>
    simp only [World.log_toStores, World.put_toStores, Stores.dropSession, Stores.dropMeta,
      Stores.dropIdentity, get?_erase_eq_update]
    exact .renew _ none (by rintro _ ⟨⟩)
  | acceptPrekey hi hn hstart hdec => exact (acceptedPrekey_receives [] hevents).elim
  | acceptPrekeyNoted hi hn hstart hdec => exact (acceptedPrekey_receives _ hevents).elim
  | acceptMessage hi hn hsession hdec => exact (acceptedMessage_receives [] hevents).elim
  | acceptMessageNoted hi hn hsession hdec => exact (acceptedMessage_receives _ hevents).elim
  | migrate hserver hserver' hpn hlid => cases hevents _ (mem_new_history (List.prefix_refl _))
  | _ => exact .same

theorem Part.sessionsChange (h : Part env dev w w')
    (hevents : ∀ ev ∈ w'.history.drop w.history.length, ev.2.receives = false) :
    SessionsChange w.sessions.get? w'.sessions.get? := by
  cases h with
  | install hi hn hrun =>
    simp only [World.log_toStores, World.put_toStores, Stores.setSession, Stores.setDrawn,
      get?_set_eq_update]
    refine .renew _ _ ?_
    rintro _ ⟨⟩
    exact hrun.receivesNothing
  | dropSession =>
    simp only [World.log_toStores, Stores.dropSession, get?_erase_eq_update]
    exact .renew _ none (by rintro _ ⟨⟩)
  | dropMeta =>
    simp only [World.log_toStores, World.put_toStores, Stores.dropSession, Stores.dropMeta,
      get?_erase_eq_update]
    exact .renew _ none (by rintro _ ⟨⟩)
  | acceptPrekey hi hn hstart hdec noted => exact (acceptedPrekey_receives _ hevents).elim
  | acceptMessage hi hn hsession hdec noted => exact (acceptedMessage_receives _ hevents).elim
  | _ => exact .same

end Others

/-- The message of an acceptance is the one inside its ciphertext, and it used a one-time
prekey if the ciphertext names one. -/
inductive Acceptance.Decoded (env : Env P) (a : Acceptance) : Prop
  | msg (htype : a.encType ≠ "pkmsg")
      (hdecode : SignalMessage.decode env.pb a.ciphertext = .ok a.message)
  | pkmsg {m : PreKeySignalMessage} (htype : a.encType = "pkmsg")
      (hdecode : PreKeySignalMessage.decode env.pb a.ciphertext = .ok m)
      (hmessage : a.message = m.message) (honeTime : a.oneTime.isSome = m.oneTimePreKeyId.isSome)

theorem Acceptance.Decoded.same {env : Env P} {a a' : Acceptance} (h : a.Decoded env)
    (h' : a'.Decoded env) (htype : a.encType = a'.encType) (hct : a.ciphertext = a'.ciphertext) :
    a.message = a'.message ∧ (a.encType = "pkmsg" → a.oneTime.isSome = a'.oneTime.isSome) := by
  cases h with
  | msg hmsg hdecode =>
    cases h' with
    | msg hmsg' hdecode' =>
      refine ⟨Except.ok.inj (hdecode.symm.trans (hct ▸ hdecode')), fun h => absurd h hmsg⟩
    | pkmsg htype' => exact absurd (htype.trans htype') hmsg
  | pkmsg hpk hdecode hmessage honeTime =>
    cases h' with
    | msg hmsg' => exact absurd (htype.symm.trans hpk) hmsg'
    | pkmsg htype' hdecode' hmessage' honeTime' =>
      cases Except.ok.inj (hdecode.symm.trans (hct ▸ hdecode'))
      exact ⟨hmessage.trans hmessage'.symm, fun _ => honeTime.trans honeTime'.symm⟩

namespace Ledger

/-- Every accepted `pkmsg` consumed a one-time prekey. -/
def OneTime (L : Ledger P) : Prop :=
  ∀ a ∈ L.accepted, a.encType = "pkmsg" → a.oneTime.isSome = true

/-- A one-time prekey is stored once, and not any more when it was used. -/
structure PrekeysInv (L : Ledger P) : Prop where
  held_seen : ∀ id opk, L.world.prekeys.get? id = some opk → opk.pair.pub ∈ L.seen
  held_unspent : ∀ id opk, L.world.prekeys.get? id = some opk →
    opk.pair.pub ∉ spentKeys L.accepted
  distinct : ∀ id id' opk opk', L.world.prekeys.get? id = some opk →
    L.world.prekeys.get? id' = some opk' → opk.pair.pub = opk'.pair.pub → id = id'
  spent_seen : ∀ pub ∈ spentKeys L.accepted, pub ∈ L.seen

structure Inv (env : Env P) (L : Ledger P) : Prop where
  keys : KeysInv P L.world.sessions.get? L.chain L.made L.accepted
  prekeys : L.PrekeysInv
  decoded : ∀ a ∈ L.accepted, a.Decoded env

variable {env : Env P} {dev : Device P} {L : Ledger P}

theorem inv_start {w : World P}
    (hdistinct : (w.prekeys.values.map fun opk => opk.pair.pub).Nodup) : (start w).Inv env := by
  refine ⟨?_, ⟨?_, ?_, ?_, ?_⟩, fun a ha => absurd ha List.not_mem_nil⟩
  · refine keysInv_start id Function.injective_id (fun d hd => ?_) ?_ fun sid session hsession => ?_
    · obtain ⟨e, _, hd⟩ := List.mem_flatMap.mp hd
      obtain ⟨e', _, rfl⟩ := List.mem_map.mp hd
      exact ⟨_, _, rfl⟩
    · rw [start, List.map_flatMap]
      refine List.nodup_flatMap.mpr ⟨fun e _ => cachedPositions_nodup e.1 e.2.state, ?_⟩
      refine (List.pairwise_map.mp w.sessions.nodup).imp fun hne => ?_
      rintro p hp hp'
      obtain ⟨d, hd, rfl⟩ := List.mem_map.mp hp
      obtain ⟨d', hd', heq⟩ := List.mem_map.mp hp'
      obtain ⟨_, _, rfl⟩ := List.mem_map.mp hd
      obtain ⟨_, _, rfl⟩ := List.mem_map.mp hd'
      exact hne (ChainId.cached.inj (Prod.mk.inj heq).1).1.symm
    · refine List.sublist_flatten_of_mem (List.mem_map.mpr ⟨(sid, session), ?_, rfl⟩)
      exact OrderedMap.get?_eq_some_iff.mp hsession
  · intro id opk hopk
    exact List.mem_map_of_mem (List.mem_map_of_mem (OrderedMap.get?_eq_some_iff.mp hopk))
  · exact fun _ _ _ h => absurd h List.not_mem_nil
  · intro id id' opk opk' hopk hopk' hpub
    rw [OrderedMap.values, List.map_map] at hdistinct
    have hsame := List.inj_on_of_nodup_map hdistinct (OrderedMap.get?_eq_some_iff.mp hopk)
      (OrderedMap.get?_eq_some_iff.mp hopk') hpub
    exact congrArg Prod.fst hsame
  · exact fun _ h => absurd h List.not_mem_nil

/-- Steps that accept nothing and keep the prekeys. -/
theorem Inv.keep (h : L.Inv env) {w : World P} {chain : String → ChainId}
    (hkeys : KeysInv P w.sessions.get? chain L.made L.accepted)
    (hprekeys : w.prekeys = L.world.prekeys) : Inv env { L with world := w, chain := chain } := by
  refine ⟨hkeys, ?_, h.decoded⟩
  obtain ⟨hseen, hunspent, hdistinct, hspent⟩ := h.prekeys
  exact ⟨by rw [hprekeys]; exact hseen, by rw [hprekeys]; exact hunspent,
    by rw [hprekeys]; exact hdistinct, hspent⟩

theorem Inv.migrate (h : L.Inv env) {pn lid : String} {session : Session}
    (hpn : L.world.sessions.get? pn = some session) (hlid : L.world.sessions.get? lid = none) :
    (L.migrate pn lid session).Inv env := by
  have hne : lid ≠ pn := by
    rintro rfl
    cases hlid.symm.trans hpn
  refine h.keep ?_ rfl
  simp only [World.log_toStores, Stores.migrate, get?_erase_eq_update, get?_set_eq_update]
  exact h.keys.move hpn hne

theorem Inv.arrive (h : L.Inv env) (sender : JID) : (L.arrive sender).Inv env := by
  rw [Ledger.arrive]
  split
  · exact h
  · rename_i pn session hmoves
    obtain ⟨hpn, hlid⟩ := World.movesFrom_spec hmoves
    exact h.migrate hpn hlid

theorem arrive_world (L : Ledger P) (sender : JID) :
    (L.arrive sender).world = L.world.arrive sender := by
  rw [Ledger.arrive, World.arrive]
  cases L.world.movesFrom sender <;> rfl

theorem arrive_accepted (L : Ledger P) (sender : JID) :
    (L.arrive sender).accepted = L.accepted := by
  rw [Ledger.arrive]
  split <;> rfl

theorem spentKeys_append (accepted : List Acceptance) (a : Acceptance) :
    spentKeys (accepted ++ [a]) = spentKeys accepted ++ a.oneTime.toList := by
  rw [spentKeys, List.filterMap_append, spentKeys]
  cases h : a.oneTime <;> simp [h]

/-- A `msg` is accepted. -/
theorem Inv.message (h : L.Inv env) {sid : String} {session : Session} {w : World P}
    {inner : SignalMessage} {ciphertext ad plaintext : Bytes} {generated : KeyPair P}
    {verify : MacVerifier} {state : RatchetState} {a : Acceptance}
    (hsession : L.world.sessions.get? sid = some session)
    (hdecode : SignalMessage.decode env.pb ciphertext = .ok inner)
    (hdec : ratchetDecrypt P generated inner.header inner.ciphertext ad (some verify)
      session.state = .ok plaintext state)
    (ha : a = ⟨"msg", ciphertext, inner, none, session.state.usedMacKey P inner.header,
      session.state.derived P (L.chain sid) (.ratchet L.accepted.length) inner.header,
      session.state.chainAfter (L.chain sid) (.ratchet L.accepted.length) inner.header⟩)
    (hsessions : w.sessions = L.world.sessions.set sid { session with state := state, heard := true })
    (hprekeys : w.prekeys = L.world.prekeys) : (L.accept w sid a).Inv env := by
  have honeTime : spentKeys (L.accepted ++ [a]) = spentKeys L.accepted := by
    rw [spentKeys_append, ha]
    exact List.append_nil _
  refine ⟨?_, ?_, ?_⟩
  · have hnew : ¬ (ChainId.ratchet L.accepted.length).Known L.accepted.length
        (spentKeys L.accepted) := Nat.lt_irrefl _
    have hknown : (ChainId.ratchet L.accepted.length).Known (L.accepted ++ [a]).length
        (spentKeys (L.accepted ++ [a])) := by simp [ChainId.Known]
    simp only [Ledger.accept, hsessions, get?_set_eq_update]
    exact h.keys.accept _ _ hsession hdec hnew hknown (by rw [ha]) (by rw [ha]) (by rw [ha]) rfl
  · obtain ⟨hseen, hunspent, hdistinct, hspent⟩ := h.prekeys
    constructor <;> simp only [Ledger.accept, hprekeys, honeTime]
    · exact hseen
    · exact hunspent
    · exact hdistinct
    · exact hspent
  · simp only [Ledger.accept]
    rw [List.forall_mem_append, List.forall_mem_singleton, ha]
    exact ⟨h.decoded, .msg (show "msg" ≠ "pkmsg" by decide) hdecode⟩

/-- A `pkmsg` is accepted and uses a one-time prekey, which is then gone. -/
theorem Inv.prekey (h : L.Inv env) {sid : String} {session : Session} {w : World P}
    {pkmsg : PreKeySignalMessage} {ciphertext ad plaintext secret priv pub : Bytes} {keyId : Nat}
    {opk : OneTimePreKey P} {generated : KeyPair P} {verify : MacVerifier} {state : RatchetState}
    {a : Acceptance} {id : ChainId}
    (hdecode : PreKeySignalMessage.decode env.pb ciphertext = .ok pkmsg)
    (hkeyId : pkmsg.oneTimePreKeyId = some keyId) (hopk : L.world.prekeys.get? keyId = some opk)
    (hdec : ratchetDecrypt P generated pkmsg.message.header pkmsg.message.ciphertext ad
      (some verify) (ratchetInitBob secret priv pub) = .ok plaintext state)
    (hid : id = .opened (some opk.pair.pub) pkmsg.identityKey pkmsg.baseKey
      pkmsg.message.header.dh)
    (ha : a = ⟨"pkmsg", ciphertext, pkmsg.message, some opk.pair.pub,
      (ratchetInitBob secret priv pub).usedMacKey P pkmsg.message.header,
      (ratchetInitBob secret priv pub).derived P id id pkmsg.message.header,
      (ratchetInitBob secret priv pub).chainAfter id id pkmsg.message.header⟩)
    (hsessions : w.sessions = L.world.sessions.set sid session) (hstate : session.state = state)
    (hprekeys : w.prekeys = L.world.prekeys.erase keyId) : (L.accept w sid a).Inv env := by
  obtain ⟨hseen, hunspent, hdistinct, hspent⟩ := h.prekeys
  have honeTime : spentKeys (L.accepted ++ [a]) = spentKeys L.accepted ++ [opk.pair.pub] := by
    rw [spentKeys_append, ha]
    rfl
  refine ⟨?_, ?_, ?_⟩
  · have hnew : ¬ id.Known L.accepted.length (spentKeys L.accepted) := by
      rw [hid]
      rintro ⟨_, ⟨⟩, hmem⟩
      exact hunspent keyId opk hopk hmem
    have hknown : id.Known (L.accepted ++ [a]).length (spentKeys (L.accepted ++ [a])) := by
      rw [hid, honeTime]
      exact ⟨opk.pair.pub, rfl, List.mem_append_right _ (List.mem_singleton_self _)⟩
    have hopened := h.keys.renew sid (some { session with
      state := ratchetInitBob secret priv pub }) id (by rintro _ ⟨⟩; exact ⟨rfl, rfl⟩)
    have haccepted := hopened.accept sid session (Function.update_self sid _ _) hdec hnew
      hknown (by rw [ha]) (by rw [ha, Function.update_self]) (by rw [ha, Function.update_self]) hstate
    simp only [Ledger.accept, hsessions, get?_set_eq_update]
    simpa only [Function.update_idem] using haccepted
  · have hothers : ∀ id opk', (L.world.prekeys.erase keyId).get? id = some opk' →
        id ≠ keyId ∧ L.world.prekeys.get? id = some opk' := by
      intro id opk' h
      rw [OrderedMap.get?_erase] at h
      split at h
      · cases h
      · exact ⟨by assumption, h⟩
    constructor <;> simp only [Ledger.accept, hprekeys, honeTime]
    · exact fun id opk' h => hseen id opk' (hothers id opk' h).2
    · intro id opk' h hmem
      obtain ⟨hne, h⟩ := hothers id opk' h
      rcases List.mem_append.mp hmem with hmem | hmem
      · exact hunspent id opk' h hmem
      · exact hne (hdistinct id keyId opk' opk h hopk (List.mem_singleton.mp hmem))
    · intro id id' opk₁ opk₂ h₁ h₂ hpub
      exact hdistinct id id' opk₁ opk₂ (hothers id opk₁ h₁).2 (hothers id' opk₂ h₂).2 hpub
    · intro pub hmem
      rcases List.mem_append.mp hmem with hmem | hmem
      · exact hspent pub hmem
      · rw [List.mem_singleton.mp hmem]
        exact hseen keyId opk hopk
  · simp only [Ledger.accept]
    rw [List.forall_mem_append, List.forall_mem_singleton, ha]
    exact ⟨h.decoded, .pkmsg rfl hdecode rfl (by rw [hkeyId]; rfl)⟩

theorem pkmsgAcceptance_eq {w : World P} {ciphertext : Bytes} {pkmsg : PreKeySignalMessage}
    {spk : SignedPreKey P} {opk : Option (OneTimePreKey P)} {result : X3DHResponderResult}
    {id : ChainId} (hdecode : PreKeySignalMessage.decode env.pb ciphertext = .ok pkmsg)
    (hspk : getSignedPreKey dev pkmsg.signedPreKeyId = .ok spk)
    (hopk : pkmsg.oneTimePreKeyId.bind w.prekeys.get? = opk)
    (hx3dh : x3dhResponder P dev.identity spk opk pkmsg.identityKey pkmsg.baseKey = .ok result)
    (hid : id = .opened (opk.map fun k => k.pair.pub) pkmsg.identityKey pkmsg.baseKey
      pkmsg.message.header.dh) :
    w.pkmsgAcceptance env dev ciphertext = some
      ⟨"pkmsg", ciphertext, pkmsg.message, opk.map fun k => k.pair.pub,
        (ratchetInitBob result.sharedSecret spk.pair.priv spk.pair.pub).usedMacKey P
          pkmsg.message.header,
        (ratchetInitBob result.sharedSecret spk.pair.priv spk.pair.pub).derived P id id
          pkmsg.message.header,
        (ratchetInitBob result.sharedSecret spk.pair.priv spk.pair.pub).chainAfter id id
          pkmsg.message.header⟩ := by
  subst hopk hid
  simp only [World.pkmsgAcceptance, hdecode, hspk, hx3dh, Except.toOption, Option.bind_eq_bind,
    Option.bind_some]
  rfl

variable (env dev) in
/-- What a delivery does: the ciphertext is refused and the sessions stay as they were, or
it is accepted and recorded. -/
theorem deliver_cases (L : Ledger P) (channel : Channel) (sender : JID) (encType : String)
    (ciphertext : Bytes) :
    (((decryptEnc env dev channel sender encType ciphertext).run L.world).2.ok? = none ∧
      ∃ n, L.deliver env dev channel sender encType ciphertext =
        { L.arrive sender with world := (L.arrive sender).world.put (.setDrawn n) }) ∨
    ∃ a : Acceptance, a.encType = encType ∧ a.ciphertext = ciphertext ∧ a.Decoded env ∧
      (L.deliver env dev channel sender encType ciphertext).accepted = L.accepted ++ [a] ∧
      (L.deliver env dev channel sender encType ciphertext).made =
        (L.arrive sender).made ++ a.derived ∧
      ((L.arrive sender).Inv env → (encType = "pkmsg" → a.oneTime.isSome = true) →
        (L.deliver env dev channel sender encType ciphertext).Inv env) := by
  obtain ⟨w', r, hrun, hreceived⟩ := decryptEnc_received env dev channel sender ciphertext
    L.world encType
  rw [← arrive_world] at hreceived
  rw [Ledger.deliver, hrun]
  cases hreceived with
  | refused _ n e => exact .inl ⟨rfl, n, rfl⟩
  | @message session identity plaintext inner state hsession hidentity hdecode hdec =>
    have hacceptance : (L.arrive sender).acceptance env dev sender "msg" ciphertext = _ :=
      (if_neg (by decide)).trans (msgAcceptance_eq _ hsession hdecode _ _)
    simp only [hacceptance, Co.Stop.ok?]
    refine .inr ⟨_, rfl, rfl, .msg (show "msg" ≠ "pkmsg" by decide) hdecode, ?_, rfl, fun h _ => ?_⟩
    · rw [Ledger.accept, arrive_accepted]
    · exact h.message hsession hdecode hdec rfl rfl rfl
  | @prekey pkmsg spk opk result plaintext state hdecode hspk hopk hheld hx3dh hdec =>
    have hacceptance : (L.arrive sender).acceptance env dev sender "pkmsg" ciphertext = _ :=
      (if_pos rfl).trans (pkmsgAcceptance_eq hdecode hspk hopk hx3dh rfl)
    simp only [hacceptance, Co.Stop.ok?]
    refine .inr ⟨_, rfl, rfl, .pkmsg rfl hdecode rfl ?_, ?_, rfl, fun h honeTime => ?_⟩
    · rw [Option.isSome_map]
      exact hheld
    · rw [Ledger.accept, arrive_accepted]
    · cases opk with
      | none => cases honeTime trivial
      | some opk =>
        obtain ⟨keyId, hkeyId, hopk⟩ := Option.bind_eq_some_iff.mp hopk
        refine h.prekey hdecode hkeyId hopk hdec rfl rfl rfl rfl ?_
        simp only [World.acceptedPrekey, World.log_toStores, World.put_toStores,
          Stores.acceptPrekey, Stores.setDrawn, hkeyId]

theorem OneTime.of_prefix {L' : Ledger P} (h : L'.OneTime) (hpre : L.accepted <+: L'.accepted) :
    L.OneTime := fun a ha => h a (hpre.subset ha)

theorem accepted_step {L' : Ledger P} (h : LedgerStep env dev L L') :
    L.accepted <+: L'.accepted := by
  cases h with
  | deliver channel sender encType ciphertext =>
    rcases deliver_cases env dev L channel sender encType ciphertext with
      ⟨_, n, heq⟩ | ⟨a, _, _, _, haccepted, _⟩
    · simp only [heq, arrive_accepted, List.prefix_refl]
    · rw [haccepted]
      exact List.prefix_append _ _
  | _ => exact List.prefix_refl _

theorem inv_step {L' : Ledger P} (hstep : LedgerStep env dev L L') (h : L.Inv env)
    (honeTime : L'.OneTime) : L'.Inv env := by
  cases hstep with
  | deliver channel sender encType ciphertext =>
    have harrived := h.arrive sender
    rcases deliver_cases env dev L channel sender encType ciphertext with
      ⟨_, n, heq⟩ | ⟨a, htype, _, _, haccepted, _, hinv⟩
    · rw [heq]
      exact harrived.keep harrived.keys rfl
    · refine hinv harrived fun hpk => honeTime a ?_ (htype.trans hpk)
      rw [haccepted]
      exact List.mem_append_right _ (List.mem_singleton_self a)
  | migrate hpn hlid => exact h.migrate hpn hlid
  | stock id opk hfresh =>
    obtain ⟨hseen, hunspent, hdistinct, hspent⟩ := h.prekeys
    have hstored : ∀ id' opk', (L.world.prekeys.set id opk).get? id' = some opk' →
        (id' = id ∧ opk' = opk) ∨ L.world.prekeys.get? id' = some opk' := by
      intro id' opk' hopk'
      rw [OrderedMap.get?_set] at hopk'
      split at hopk'
      · exact .inl ⟨by assumption, (Option.some.inj hopk').symm⟩
      · exact .inr hopk'
    refine ⟨h.keys, ⟨fun id' opk' hopk' => ?_, fun id' opk' hopk' hmem => ?_,
      fun id₁ id₂ opk₁ opk₂ h₁ h₂ hpub => ?_, fun pub hmem => ?_⟩, h.decoded⟩
    · rcases hstored id' opk' hopk' with ⟨_, rfl⟩ | hopk'
      · exact List.mem_cons_self
      · exact List.mem_cons_of_mem _ (hseen id' opk' hopk')
    · rcases hstored id' opk' hopk' with ⟨_, rfl⟩ | hopk'
      · exact hfresh (hspent _ hmem)
      · exact hunspent id' opk' hopk' hmem
    · rcases hstored id₁ opk₁ h₁ with ⟨hid₁, hopk₁⟩ | hold₁ <;>
        rcases hstored id₂ opk₂ h₂ with ⟨hid₂, hopk₂⟩ | hold₂
      · rw [hid₁, hid₂]
      · rw [← hopk₁, hpub] at hfresh
        exact absurd (hseen id₂ opk₂ hold₂) hfresh
      · rw [← hopk₂, ← hpub] at hfresh
        exact absurd (hseen id₁ opk₁ hold₁) hfresh
      · exact hdistinct id₁ id₂ opk₁ opk₂ hold₁ hold₂ hpub
    · exact List.mem_cons_of_mem _ (hspent pub hmem)
  | noted js =>
    refine h.keep ?_ (noted_prekeys L.world js)
    rw [noted_sessions]
    exact h.keys
  | restart => exact h.keep h.keys rfl
  | other hmoves hevents hprekeys =>
    refine h.keep (h.keys.change ?_) hprekeys
    exact hmoves.elim (fun h => h.sessionsChange hevents) fun h => h.sessionsChange hevents

theorem inv_run {w : World P} (hdistinct : (w.prekeys.values.map fun opk => opk.pair.pub).Nodup)
    (hrun : Relation.ReflTransGen (LedgerStep env dev) (start w) L) (honeTime : L.OneTime) :
    L.Inv env := by
  induction hrun with
  | refl => exact inv_start hdistinct
  | tail _ hstep ih => exact inv_step hstep (ih (honeTime.of_prefix (accepted_step hstep))) honeTime

/-- What was accepted, by type and ciphertext. -/
def ciphertexts (L : Ledger P) : List (String × Bytes) :=
  L.accepted.map fun a => (a.encType, a.ciphertext)

/-- Everything that is accepted is recorded. -/
theorem deliver_accepted {channel : Channel} {sender : JID} {encType : String}
    {ciphertext plaintext : Bytes} {w : World P}
    (h : (decryptEnc env dev channel sender encType ciphertext).run L.world =
      (w, .done (.ok plaintext))) :
    (L.deliver env dev channel sender encType ciphertext).ciphertexts =
      L.ciphertexts ++ [(encType, ciphertext)] := by
  rcases deliver_cases env dev L channel sender encType ciphertext with
    ⟨hrefused, _⟩ | ⟨a, htype, hct, _, haccepted, _⟩
  · rw [h] at hrefused
    cases hrefused
  · rw [ciphertexts, haccepted, List.map_append, List.map_singleton, htype, hct]
    rfl

theorem Inv.ciphertexts_nodup (h : L.Inv env) (hmacs : MacsApart L.made L.accepted) :
    L.ciphertexts.Nodup := by
  have hused : (L.accepted.map Acceptance.macKey).Nodup :=
    (h.keys.rings (hmacs.nodup h.keys.counts.nodup)).used_nodup
  refine nodup_map_of_nodup_map hused fun a ha a' ha' heq => ?_
  obtain ⟨htype, hct⟩ := Prod.mk.inj heq
  have hmessage := ((h.decoded a ha).same (h.decoded a' ha') htype hct).1
  exact hmacs.tags a ha a' ha' (by rw [hmessage]) (by rw [hmessage])

end Ledger

/-- In a run in which every accepted `pkmsg` uses a one-time prekey, no ciphertext is
accepted twice, and one that was accepted changes no session when it comes again. -/
theorem ciphertexts_accepted_once {env : Env P} {dev : Device P} {w : World P} {L : Ledger P}
    (hdistinct : (w.prekeys.values.map fun opk => opk.pair.pub).Nodup)
    (hrun : Relation.ReflTransGen (LedgerStep env dev) (.start w) L) (honeTime : L.OneTime)
    (hmacs : MacsApart L.made L.accepted) :
    L.ciphertexts.Nodup ∧ ∀ channel sender encType ciphertext,
      (encType, ciphertext) ∈ L.ciphertexts →
      MacsApart (L.deliver env dev channel sender encType ciphertext).made
        (L.deliver env dev channel sender encType ciphertext).accepted →
      (L.deliver env dev channel sender encType ciphertext).accepted = L.accepted ∧
        (L.deliver env dev channel sender encType ciphertext).world.sessions =
          (L.world.arrive sender).sessions := by
  have hinv := Ledger.inv_run hdistinct hrun honeTime
  refine ⟨hinv.ciphertexts_nodup hmacs, fun channel sender encType ciphertext hmem hmacs' => ?_⟩
  rcases Ledger.deliver_cases env dev L channel sender encType ciphertext with
    ⟨_, n, heq⟩ | ⟨a, htype, hct, hdecoded, haccepted, _, hinv'⟩
  · rw [heq]
    exact ⟨L.arrive_accepted sender, by rw [← Ledger.arrive_world]; rfl⟩
  · obtain ⟨a', ha', heq⟩ := List.mem_map.mp hmem
    obtain ⟨htype', hct'⟩ := Prod.mk.inj heq
    have hsame := ((hinv.decoded a' ha').same hdecoded (htype'.trans htype.symm)
      (hct'.trans hct.symm)).2
    have hafter := hinv' (hinv.arrive sender) fun hpk => by
      rw [← hsame (htype'.trans hpk)]
      exact honeTime a' ha' (htype'.trans hpk)
    have htwice := hafter.ciphertexts_nodup hmacs'
    rw [Ledger.ciphertexts, haccepted, List.map_append, List.nodup_append] at htwice
    refine absurd rfl (htwice.2.2 (encType, ciphertext) hmem (encType, ciphertext) ?_)
    rw [List.map_singleton, htype, hct]
    exact List.mem_singleton_self _

section Demo

/-- The ledger after a `pkmsg` came `n` times. -/
def demoRepeated (w : World demoPrimitives) (ciphertext : Bytes) : Nat → Ledger demoPrimitives
  | 0 => .start w
  | n + 1 => (demoRepeated w ciphertext n).deliver demoRight.env demoPeer .direct demoMe.ownJid
      "pkmsg" ciphertext

theorem demoRepeated_run (w : World demoPrimitives) (ciphertext : Bytes) (n : Nat) :
    Relation.ReflTransGen (LedgerStep demoRight.env demoPeer) (.start w)
      (demoRepeated w ciphertext n) := by
  induction n with
  | zero => exact .refl
  | succ n ih => exact ih.tail (.deliver _ _ _ _)

def demoWithOpk : Bytes :=
  (((demoLeft.encryptFor { demoRight with opk := some demoOpk } [1]).run {}).2.ok?.map
    Prod.snd).getD []

theorem ciphertexts_accepted_once_with_opk :
    (demoRepeated demoStored demoWithOpk 1).ciphertexts = [("pkmsg", demoWithOpk)] ∧
      (demoRepeated demoStored demoWithOpk 2).ciphertexts = [("pkmsg", demoWithOpk)] ∧
      (demoRepeated demoStored demoWithOpk 2).world.sessions =
        ((demoRepeated demoStored demoWithOpk 1).world.arrive demoMe.ownJid).sessions := by
  have hfirst : (demoRepeated demoStored demoWithOpk 1).ciphertexts = [("pkmsg", demoWithOpk)] := by
    decide +kernel
  have honeTime : ∀ a ∈ (demoRepeated demoStored demoWithOpk 1).accepted,
      a.encType = "pkmsg" → a.oneTime.isSome = true := by decide +kernel
  obtain ⟨_, hagain⟩ := ciphertexts_accepted_once (w := demoStored) (by decide +kernel)
    (demoRepeated_run demoStored demoWithOpk 1) honeTime
    ⟨by decide +kernel, by decide +kernel⟩
  obtain ⟨haccepted, hsessions⟩ := hagain .direct demoMe.ownJid "pkmsg" demoWithOpk
    (by rw [hfirst]; exact List.mem_singleton_self _) ⟨by decide +kernel, by decide +kernel⟩
  have hsecond : demoRepeated demoStored demoWithOpk 2 =
      (demoRepeated demoStored demoWithOpk 1).deliver demoRight.env demoPeer .direct demoMe.ownJid
        "pkmsg" demoWithOpk := rfl
  rw [hsecond]
  refine ⟨hfirst, ?_, hsessions⟩
  rw [Ledger.ciphertexts, haccepted]
  exact hfirst

/-- Without a one-time prekey nothing keeps a `pkmsg` from being accepted again. -/
theorem pkmsg_accepted_again :
    ¬ ∀ L : Ledger demoPrimitives, Relation.ReflTransGen (LedgerStep demoRight.env demoPeer)
        (.start {}) L → MacsApart L.made L.accepted → L.ciphertexts.Nodup := by
  intro h
  have hnodup := h _ (demoRepeated_run {} (demoOut demoLeft demoRight).2 2)
    ⟨by decide +kernel, by decide +kernel⟩
  exact absurd hnodup (by decide +kernel)

end Demo

end PyWhats
