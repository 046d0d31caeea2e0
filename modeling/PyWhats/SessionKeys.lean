import PyWhats.Delivery
import PyWhats.RatchetUse

/-! The MAC keys of the stored sessions: at which position of which chain each was derived,
and that no key that was used is still in a cache or ahead on a chain. -/

namespace PyWhats

variable {P : Primitives}

/-- A receiving chain: one that was there when the run began, whether a session stood on
it or had only keys of it in its cache; the one that the `k`-th accepted message started;
or the first one of a session that a `pkmsg` opened. -/
inductive ChainId where
  | initial (sid : String)
  | cached (sid : String) (dh : Bytes)
  | ratchet (k : Nat)
  | opened (oneTime : Option Bytes) (identityKey baseKey dh : Bytes)
  deriving DecidableEq

/-- An accepted ciphertext, the MAC key that verified it, and the MAC keys that were
derived on the way with their positions. -/
structure Acceptance where
  encType : String
  ciphertext : Bytes
  message : SignalMessage
  oneTime : Option Bytes
  macKey : Bytes
  derived : List ((ChainId × Nat) × Bytes)
  chain : ChainId

/-- MAC keys of different chain positions do not collide, and a message that verifies
under one MAC key does not verify under another. -/
structure MacsApart (made : List ((ChainId × Nat) × Bytes)) (accepted : List Acceptance) :
    Prop where
  keys : ∀ d ∈ made, ∀ d' ∈ made, d.2 = d'.2 → d.1 = d'.1
  tags : ∀ a ∈ accepted, ∀ a' ∈ accepted, a.message.body = a'.message.body →
    a.message.mac = a'.message.mac → a.macKey = a'.macKey

def RatchetState.cachedPositions (P : Primitives) (sid : String) (st : RatchetState) :
    List ((ChainId × Nat) × Bytes) :=
  st.mkskipped.entries.map fun e => ((.cached sid e.1.1, e.1.2), macKeyOf P e.2)

/-- What `_decrypt_enc` accepts when it accepts a `msg`, on the chain `chain` of the
session or on the chain `new` that the message starts. -/
def World.msgAcceptance (env : Env P) (w : World P) (sender : JID) (ciphertext : Bytes)
    (chain new : ChainId) : Option Acceptance := do
  let session ← w.sessions.get? (sessionId sender)
  let inner ← (SignalMessage.decode env.pb ciphertext).toOption
  return {
    encType := "msg"
    ciphertext := ciphertext
    message := inner
    oneTime := none
    macKey := session.state.usedMacKey P inner.header
    derived := session.state.derived P chain new inner.header
    chain := session.state.chainAfter chain new inner.header }

theorem msgAcceptance_eq {env : Env P} (w : World P) {session : Session} {sender : JID}
    {ciphertext : Bytes} {inner : SignalMessage}
    (hsession : w.sessions.get? (sessionId sender) = some session)
    (hdecode : SignalMessage.decode env.pb ciphertext = .ok inner) (chain new : ChainId) :
    w.msgAcceptance env sender ciphertext chain new = some {
      encType := "msg"
      ciphertext := ciphertext
      message := inner
      oneTime := none
      macKey := session.state.usedMacKey P inner.header
      derived := session.state.derived P chain new inner.header
      chain := session.state.chainAfter chain new inner.header } := by
  rw [World.msgAcceptance, hsession, hdecode]
  rfl

/-- The chains that exist after `k` messages were accepted and the one-time prekeys in
`spent` consumed. -/
def ChainId.Known (k : Nat) (spent : List Bytes) : ChainId → Prop
  | .initial _ | .cached _ _ => True
  | .ratchet j => j < k
  | .opened oneTime _ _ _ => ∃ pub ∈ oneTime, pub ∈ spent

theorem ChainId.Known.mono {k k' : Nat} {spent spent' : List Bytes} {id : ChainId}
    (h : id.Known k spent) (hk : k ≤ k') (hspent : spent ⊆ spent') : id.Known k' spent' := by
  cases id with
  | initial sid => trivial
  | cached sid dh => trivial
  | ratchet j => exact Nat.lt_of_lt_of_le h hk
  | opened oneTime identityKey baseKey dh =>
    obtain ⟨pub, hpub, hmem⟩ := h
    exact ⟨pub, hpub, hspent hmem⟩

theorem MacsApart.nodup {made : List ((ChainId × Nat) × Bytes)} {accepted : List Acceptance}
    (h : MacsApart made accepted) (hpositions : (made.map Prod.fst).Nodup) :
    (made.map Prod.snd).Nodup :=
  nodup_map_of_nodup_map hpositions h.keys

/-- The receiving side of two states is the same. -/
structure SameReceiving (st st' : RatchetState) : Prop where
  ckr : st'.ckr = st.ckr
  nr : st'.nr = st.nr
  mkskipped : st'.mkskipped = st.mkskipped

section Receiving

variable {env : Env P} {dev : Device P} {st st' : RatchetState}

theorem SameReceiving.position {τ : Type} (h : SameReceiving st st') (id : τ) :
    st'.position id = st.position id := by
  rw [RatchetState.position, h.ckr, h.nr, RatchetState.position]

theorem SameReceiving.cachedMacKeys (h : SameReceiving st st') :
    st'.cachedMacKeys P = st.cachedMacKeys P := by
  rw [RatchetState.cachedMacKeys, h.mkskipped, RatchetState.cachedMacKeys]

theorem Encryption.Made.receiving {e : Encryption} {state : RatchetState} (h : e.Made dev state) :
    SameReceiving e.session.state state := by
  cases hck : e.session.state.cks with
  | none =>
    rw [Encryption.Made, ratchetEncrypt_none hck] at h
    cases h
  | some ck =>
    rw [Encryption.Made, ratchetEncrypt_eq hck] at h
    injection h with _ hstate
    rw [← hstate]
    exact ⟨rfl, rfl, rfl⟩

theorem cachedPositions_nodup (sid : String) (st : RatchetState) :
    ((st.cachedPositions P sid).map Prod.fst).Nodup := by
  rw [RatchetState.cachedPositions, List.map_map]
  refine nodup_map_of_nodup_map st.mkskipped.nodup fun e _ e' _ h => ?_
  obtain ⟨hid, hn⟩ := Prod.mk.inj h
  obtain ⟨_, hdh⟩ := ChainId.cached.inj hid
  exact Prod.ext hdh hn

theorem cachedPositions_keys (sid : String) (st : RatchetState) :
    (st.cachedPositions P sid).map Prod.snd = st.cachedMacKeys P := by
  rw [RatchetState.cachedPositions, RatchetState.cachedMacKeys, OrderedMap.values, List.map_map,
    List.map_map]
  rfl

end Receiving

section Keys

variable {κ : Type}

/-- Where the receiving chains of the stored sessions stand. -/
def positionsOf (find : κ → Option Session) (chain : κ → ChainId) (k : κ) :
    Option (ChainId × Nat) := (find k).bind fun session => session.state.position (chain k)

def ringsOf (P : Primitives) (find : κ → Option Session) (k : κ) : List Bytes :=
  ((find k).map fun session => session.state.cachedMacKeys P).getD []

def spentKeys (accepted : List Acceptance) : List Bytes := accepted.filterMap Acceptance.oneTime

/-- Every chain is ahead of what was derived on it, and no key in a cache was used. -/
structure KeysInv (P : Primitives) (find : κ → Option Session) (chain : κ → ChainId)
    (made : List ((ChainId × Nat) × Bytes)) (accepted : List Acceptance) : Prop where
  counts : Counters.Inv ⟨positionsOf find chain,
    {id | id.Known accepted.length (spentKeys accepted)}, made.map Prod.fst⟩
  rings : (made.map Prod.snd).Nodup → Keyrings.Inv ⟨ringsOf P find, made.map Prod.snd,
    accepted.map Acceptance.macKey⟩

variable [DecidableEq κ] {find : κ → Option Session} {chain : κ → ChainId} {sid : κ}
  {session : Session} {made : List ((ChainId × Nat) × Bytes)} {accepted : List Acceptance}

variable (find chain sid) in
theorem positionsOf_update (x : Option Session) (id : ChainId) :
    positionsOf (Function.update find sid x) (Function.update chain sid id) =
      Function.update (positionsOf find chain) sid (x.bind fun session => session.state.position id) := by
  funext k
  by_cases hk : k = sid
  · subst hk
    simp [positionsOf]
  · simp [positionsOf, hk]

theorem ringsOf_update (x : Option Session) :
    ringsOf P (Function.update find sid x) = Function.update (ringsOf P find) sid
      ((x.map fun session => session.state.cachedMacKeys P).getD []) := by
  funext k
  by_cases hk : k = sid
  · subst hk
    simp [ringsOf]
  · simp [ringsOf, hk]

omit [DecidableEq κ] in
/-- At the start of a run the keys that exist are those in the caches. -/
theorem keysInv_start (name : κ → String) (hname : Function.Injective name)
    (hcached : ∀ d ∈ made, ∃ sid dh, d.1.1 = ChainId.cached sid dh)
    (hpositions : (made.map Prod.fst).Nodup)
    (hfind : ∀ k session, find k = some session →
      (session.state.cachedPositions P (name k)).Sublist made) :
    KeysInv P find (fun k => .initial (name k)) made [] := by
  have hheld : ∀ k id n, positionsOf find (fun k => .initial (name k)) k = some (id, n) →
      id = .initial (name k) := by
    intro k id n h
    obtain ⟨session, _, h⟩ := Option.bind_eq_some_iff.mp h
    obtain ⟨_, _, h⟩ := Option.map_eq_some_iff.mp h
    cases h
    rfl
  have hlog : ∀ e ∈ made.map Prod.fst, ∃ sid dh, e.1 = ChainId.cached sid dh := by
    intro e he
    obtain ⟨d, hd, rfl⟩ := List.mem_map.mp he
    exact hcached d hd
  refine ⟨⟨?_, ?_, ?_, ?_, hpositions⟩, fun hnodup => ?_⟩
  · intro k id n h
    rw [hheld k id n h]
    trivial
  · intro e he
    obtain ⟨sid, dh, hid⟩ := hlog e he
    change ChainId.Known _ _ e.1
    rw [hid]
    trivial
  · intro k id n h m hm
    obtain ⟨sid, dh, hid⟩ := hlog _ hm
    cases (hheld k id n h).symm.trans hid
  · intro k k' id n n' h h'
    exact hname (ChainId.initial.inj ((hheld k id n h).symm.trans (hheld k' id n' h')))
  · have hring : ∀ k v, v ∈ ringsOf P find k → ∃ session, find k = some session ∧
        v ∈ (session.state.cachedPositions P (name k)).map Prod.snd := by
      intro k v hv
      cases hk : find k with
      | none => simp [ringsOf, hk] at hv
      | some session => exact ⟨session, rfl, by simpa [ringsOf, hk, cachedPositions_keys] using hv⟩
    refine ⟨fun k v hv => ?_, ?_, fun k => ?_, ?_, fun k k' v hv hv' => ?_, List.nodup_nil⟩
    · obtain ⟨session, hk, hv⟩ := hring k v hv
      exact ((hfind k session hk).map _).subset hv
    · exact fun v hv => absurd hv List.not_mem_nil
    · cases hk : find k with
      | none => simp [ringsOf, hk]
      | some session =>
        have hsub := (hfind k session hk).map Prod.snd
        rw [cachedPositions_keys] at hsub
        simpa [ringsOf, hk] using hnodup.sublist hsub
    · exact fun k v _ hv => absurd hv List.not_mem_nil
    · obtain ⟨session, hk, hv⟩ := hring k v hv
      obtain ⟨session', hk', hv'⟩ := hring k' v hv'
      obtain ⟨d, hd, hdv⟩ := List.mem_map.mp hv
      obtain ⟨d', hd', hdv'⟩ := List.mem_map.mp hv'
      have hsame : d = d' := List.inj_on_of_nodup_map hnodup ((hfind k session hk).subset hd)
        ((hfind k' session' hk').subset hd') (hdv.trans hdv'.symm)
      obtain ⟨e, _, rfl⟩ := List.mem_map.mp hd
      obtain ⟨e', _, heq⟩ := List.mem_map.mp hd'
      have hid := congrArg (fun d => d.1.1) (hsame.trans heq.symm)
      exact hname (ChainId.cached.inj hid).1

/-- A slot is emptied, or taken by a session that has received nothing. -/
theorem KeysInv.renew (h : KeysInv P find chain made accepted) (sid : κ) (x : Option Session)
    (id : ChainId)
    (hx : ∀ session ∈ x, session.state.ckr = none ∧ session.state.mkskipped = .empty) :
    KeysInv P (Function.update find sid x) (Function.update chain sid id) made accepted := by
  have hposition : (x.bind fun session => session.state.position id) = none := by
    cases x with
    | none => rfl
    | some session =>
      rw [Option.bind_some, RatchetState.position, (hx session rfl).1]
      rfl
  have hring : (x.map fun session => session.state.cachedMacKeys P).getD [] = [] := by
    cases x with
    | none => rfl
    | some session =>
      rw [Option.map_some, Option.getD_some, RatchetState.cachedMacKeys, (hx session rfl).2]
      rfl
  refine ⟨?_, fun hnodup => ?_⟩
  · rw [positionsOf_update, hposition]
    exact h.counts.clear sid
  · rw [ringsOf_update, hring]
    exact (h.rings hnodup).clear sid

theorem KeysInv.same (h : KeysInv P find chain made accepted) (sid : κ) {session' : Session}
    (hfind : find sid = some session) (hsame : SameReceiving session.state session'.state) :
    KeysInv P (Function.update find sid (some session')) chain made accepted := by
  have hpositions : positionsOf (Function.update find sid (some session')) chain =
      positionsOf find chain := by
    have hupdate := positionsOf_update find chain sid (some session') (chain sid)
    rw [Function.update_eq_self] at hupdate
    rw [hupdate, Option.bind_some, hsame.position]
    have hbefore : positionsOf find chain sid = session.state.position (chain sid) := by
      rw [positionsOf, hfind, Option.bind_some]
    rw [← hbefore, Function.update_eq_self]
  have hrings : ringsOf P (Function.update find sid (some session')) = ringsOf P find := by
    rw [ringsOf_update, Option.map_some, Option.getD_some, hsame.cachedMacKeys]
    have hbefore : ringsOf P find sid = session.state.cachedMacKeys P := by
      rw [ringsOf, hfind, Option.map_some, Option.getD_some]
    rw [← hbefore, Function.update_eq_self]
  exact ⟨by rw [hpositions]; exact h.counts, by rw [hrings]; exact h.rings⟩

theorem KeysInv.move (h : KeysInv P find chain made accepted) {pn lid : κ}
    (hfind : find pn = some session) (hne : lid ≠ pn) :
    KeysInv P (Function.update (Function.update find lid (some session)) pn none)
      (Function.update chain lid (chain pn)) made accepted := by
  refine ⟨?_, fun hnodup => ?_⟩
  · have hpositions : positionsOf (Function.update (Function.update find lid (some session)) pn none)
        (Function.update chain lid (chain pn)) = Function.update
          (Function.update (positionsOf find chain) lid (positionsOf find chain pn)) pn none := by
      have hpn : Function.update (Function.update chain lid (chain pn)) pn (chain pn) =
          Function.update chain lid (chain pn) := by
        funext k
        by_cases hk : k = pn
        · subst hk
          simp [hne.symm]
        · simp [hk]
      rw [← hpn, positionsOf_update, positionsOf_update]
      simp [positionsOf, hfind]
    rw [hpositions]
    exact h.counts.move pn lid
  · rw [ringsOf_update, ringsOf_update]
    have hring : ringsOf P find pn = session.state.cachedMacKeys P := by
      rw [ringsOf, hfind, Option.map_some, Option.getD_some]
    simp only [Option.map_some, Option.map_none, Option.getD_some, Option.getD_none, ← hring]
    exact (h.rings hnodup).move pn lid

/-- A message is accepted on a stored session. -/
theorem KeysInv.accept (h : KeysInv P find chain made accepted) (sid : κ) (session' : Session)
    (hfind : find sid = some session)
    {a : Acceptance} {header : MessageHeader} {generated : KeyPair P} {ct ad plaintext : Bytes}
    {verify : MacVerifier} {state : RatchetState} {new : ChainId}
    (hdec : ratchetDecrypt P generated header ct ad (some verify) session.state =
      .ok plaintext state)
    (hnew : ¬ new.Known accepted.length (spentKeys accepted))
    (hknown : new.Known (accepted ++ [a]).length (spentKeys (accepted ++ [a])))
    (hkey : a.macKey = session.state.usedMacKey P header)
    (hderived : a.derived = session.state.derived P (chain sid) new header)
    (hchain : a.chain = session.state.chainAfter (chain sid) new header)
    (hstate : session'.state = state) :
    KeysInv P (Function.update find sid (some session')) (Function.update chain sid a.chain)
      (made ++ a.derived) (accepted ++ [a]) := by
  refine ⟨?_, fun hnodup => ?_⟩
  · have hheld : positionsOf find chain sid = session.state.position (chain sid) := by
      rw [positionsOf, hfind, Option.bind_some]
    have hsteps := ratchetDecrypt_counts (c := ⟨positionsOf find chain,
      {id | id.Known accepted.length (spentKeys accepted)}, made.map Prod.fst⟩) (k := sid) hheld
      (fun _ => hnew) hdec
    have hmono : ∀ id : ChainId, id.Known accepted.length (spentKeys accepted) →
        id.Known (accepted ++ [a]).length (spentKeys (accepted ++ [a])) := fun id hid =>
      hid.mono (by simp) (by rw [spentKeys, spentKeys, List.filterMap_append]; exact List.subset_append_left _ _)
    have hinv := (Counters.inv_of_steps hsteps h.counts).widen
      {id | id.Known (accepted ++ [a]).length (spentKeys (accepted ++ [a]))} ?_
    · rw [positionsOf_update, Option.bind_some, hstate, hchain, List.map_append, hderived]
      exact hinv
    · split
      · rintro id (rfl | hid)
        · exact hknown
        · exact hmono id hid
      · exact fun id hid => hmono id hid
  · rw [List.map_append] at hnodup
    have hheld : ringsOf P find sid = session.state.cachedMacKeys P := by
      rw [ringsOf, hfind, Option.map_some, Option.getD_some]
    have huses := (ratchetDecrypt_uses (chain sid) new hdec).2
    rw [← hkey, ← hderived, ← hheld] at huses
    rw [ringsOf_update, Option.map_some, Option.getD_some, hstate, List.map_append, List.map_append]
    exact (h.rings (List.nodup_append.mp hnodup).1).use sid huses hnodup

end Keys

end PyWhats
