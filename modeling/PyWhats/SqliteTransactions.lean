import PyWhats.Endpoint
import PyWhats.Lib.Transactional
import PyWhats.StoreRefinement

/-! The database of `SqliteStore` under failing statements and crashes: each facet
write is committed on its own, and what `transaction()` groups is committed together
or not at all. -/

namespace PyWhats.Storage

open AppState (SyncError)
open Transactional (Db Script Run Meets Life)

abbrev SqlScript := Script Tables SyncError

section Facets

/-- A read of one facet, decoded after the query. -/
def readFacet {α : Type} (read : Tables → Except SyncError α) : SqlScript α :=
  (Script.select : SqlScript Tables).bind fun t => .ret (read t)

def sessionsLoad (sid : String) : SqlScript (Option RatchetState) :=
  readFacet fun t => (sqliteSessionStore.load t.sessions sid).mapError .raised

def sessionsSave (sid : String) (state : RatchetState) : SqlScript Unit :=
  Script.write fun t => do
    let sessions ← (sqliteSessionStore.save t.sessions sid state).mapError SyncError.raised
    return { t with sessions := sessions }

def sessionsDelete (sid : String) : SqlScript Unit :=
  Script.write fun t => do
    let sessions ← (sqliteSessionStore.delete t.sessions sid).mapError SyncError.raised
    return { t with sessions := sessions }

def identitiesLoad (sid : String) : SqlScript (Option Bytes) :=
  readFacet fun t => (identityStore.load t.identities sid).mapError .raised

def identitiesSave (sid : String) (identityPublic : Bytes) : SqlScript Unit :=
  Script.write fun t => do
    let identities ← (identityStore.save t.identities sid identityPublic).mapError SyncError.raised
    return { t with identities := identities }

def identitiesDelete (sid : String) : SqlScript Unit :=
  Script.write fun t => do
    let identities ← (identityStore.delete t.identities sid).mapError SyncError.raised
    return { t with identities := identities }

def prekeysSave (opk : StoredPreKey) : SqlScript Unit :=
  Script.write fun t => do
    let prekeys ← sqlitePreKeyStore.save t.prekeys opk.keyId opk
    return { t with prekeys := prekeys }

def prekeysDelete (keyId : Int) : SqlScript Unit :=
  Script.write fun t => do
    let prekeys ← sqlitePreKeyStore.delete t.prekeys keyId
    return { t with prekeys := prekeys }

def appStateKeysPut (key : AppStateSyncKey) : SqlScript Unit :=
  Script.write fun t => .ok { t with appStateSyncKeys := upsertSyncKey key t.appStateSyncKeys }

def senderKeysSave (key : String × String) (state : SenderKeyState) : SqlScript Unit :=
  Script.write fun t => do
    let senderKeys ← (sqliteSenderKeyStore.save t.senderKeys key state).mapError SyncError.raised
    return { t with senderKeys := senderKeys }

/-- `SqliteLidMap.set`, which opens a transaction of its own. -/
def lidMapSet (pnUser lidUser : String) : SqlScript Unit :=
  Script.transaction do
    Script.write fun t => .ok { t with lidMap := deleteLid pnUser lidUser t.lidMap }
    Script.write fun t => do
      let lidMap ← insertLid pnUser lidUser t.lidMap
      return { t with lidMap := lidMap }

end Facets

section Jobs

def consumeOpk : Option Nat → SqlScript Unit
  | none => pure ()
  | some keyId => prekeysDelete keyId

/-- What an accepted `pkmsg` writes: the consumed prekey, the session, the identity. -/
def landAccepted (sid : String) (oneTimePreKeyId : Option Nat) (state : RatchetState)
    (identityKey : Bytes) : SqlScript Unit := do
  consumeOpk oneTimePreKeyId
  sessionsSave sid state
  identitiesSave sid identityKey

def acceptPrekey (sid : String) (oneTimePreKeyId : Option Nat) (state : RatchetState)
    (identityKey : Bytes) : SqlScript Unit :=
  Script.transaction (landAccepted sid oneTimePreKeyId state identityKey)

def moveIdentity (pn lid : String) : SqlScript Unit := do
  match ← identitiesLoad pn with
  | none => pure ()
  | some peerIdentity => identitiesSave lid peerIdentity

def migratePnSession (pn lid : String) : SqlScript Unit := do
  match ← sessionsLoad pn with
  | none => pure ()
  | some state =>
    match ← sessionsLoad lid with
    | some _ => pure ()
    | none => do
      sessionsSave lid state
      moveIdentity pn lid
      sessionsDelete pn
      identitiesDelete pn

def putAll : List AppStateSyncKey → SqlScript Unit
  | [] => pure ()
  | key :: rest => do
    appStateKeysPut key
    putAll rest

def storeAppStateKeys (keys : List AppStateSyncKey) : SqlScript Unit :=
  Script.transaction (putAll keys)

/-- The `msg` branch of `_decrypt_enc`, with what decrypts as a parameter. -/
def decryptStored (sid : String)
    (decrypt : RatchetState → Bytes → Except SyncError RatchetState) : SqlScript Unit := do
  match ← sessionsLoad sid with
  | none => Script.raise (.raised (.valueError ("no session for peer " ++ sid)))
  | some state =>
    match ← identitiesLoad sid with
    | none => Script.raise (.raised (.valueError ("no cached peer identity for " ++ sid)))
    | some peerIdentity =>
      match decrypt state peerIdentity with
      | .error e => Script.raise e
      | .ok state => sessionsSave sid state

/-- `_encrypt_for_peer` on a stored session. -/
def encryptStored (sid : String) (encrypt : RatchetState → Except SyncError RatchetState) :
    SqlScript Unit := do
  match ← sessionsLoad sid with
  | none => pure ()
  | some state =>
    match encrypt state with
    | .error e => Script.raise e
    | .ok state => sessionsSave sid state

/-- `_encrypt_for_peer` on a session that was just established. -/
def encryptEstablished (sid : String) (peerIdentity : Bytes) (state : RatchetState) :
    SqlScript Unit := do
  identitiesSave sid peerIdentity
  sessionsSave sid state

/-- `_drop_peer_session` on the session ids of a peer. -/
def dropPeer : List String → SqlScript Unit
  | [] => pure ()
  | sid :: rest => do
    sessionsDelete sid
    identitiesDelete sid
    dropPeer rest

/-- What sender and receiver do to the database. -/
inductive StoreJob : SqlScript Unit → Prop
  | acceptPrekey (sid : String) (oneTimePreKeyId : Option Nat) (state : RatchetState)
      (identityKey : Bytes) : StoreJob (acceptPrekey sid oneTimePreKeyId state identityKey)
  | decryptStored (sid : String) (decrypt : RatchetState → Bytes → Except SyncError RatchetState) :
      StoreJob (decryptStored sid decrypt)
  | encryptStored (sid : String) (encrypt : RatchetState → Except SyncError RatchetState) :
      StoreJob (encryptStored sid encrypt)
  | encryptEstablished (sid : String) (peerIdentity : Bytes) (state : RatchetState) :
      StoreJob (encryptEstablished sid peerIdentity state)
  | dropPeer (sids : List String) : StoreJob (dropPeer sids)
  | migrate (pn lid : String) : StoreJob (Script.transaction (migratePnSession pn lid))
  | setLid (pnUser lidUser : String) : StoreJob (lidMapSet pnUser lidUser)
  | storeAppStateKeys (keys : List AppStateSyncKey) : StoreJob (storeAppStateKeys keys)
  | savePreKey (opk : StoredPreKey) : StoreJob (prekeysSave opk)
  | saveSenderKey (key : String × String) (state : SenderKeyState) :
      StoreJob (senderKeysSave key state)

end Jobs

section Effects

variable (refused : SyncError) (sid : String) (t : Tables)

@[simp] theorem bind_def {α β : Type} (p : SqlScript α) (f : α → SqlScript β) :
    p >>= f = p.bind f := rfl

@[simp] theorem within_ret {α : Type} (a : α) :
    (pure a : SqlScript α).within refused t = .ok (a, t) := rfl

theorem within_readFacet {α : Type} (read : Tables → Except SyncError α) :
    (readFacet read).within refused t = (read t).map (·, t) := rfl

theorem within_sessionsSave (state : RatchetState) :
    (sessionsSave sid state).within refused t =
      .ok ((), { t with sessions := t.sessions.set sid (sessionText (serializeState state)) }) := rfl

theorem within_sessionsDelete :
    (sessionsDelete sid).within refused t =
      .ok ((), { t with sessions := t.sessions.erase sid }) := rfl

theorem within_identitiesSave (identityPublic : Bytes) (h : identityPublic.length = 32) :
    (identitiesSave sid identityPublic).within refused t =
      .ok ((), { t with identities := t.identities.set sid identityPublic }) := by
  rw [identitiesSave, Script.within_write]
  simp [KeyedStore.save, identityStore, h]
  rfl

theorem within_identitiesDelete :
    (identitiesDelete sid).within refused t =
      .ok ((), { t with identities := t.identities.erase sid }) := rfl

end Effects

section Consistency

/-- What every later process relies on: each session has its pinned identity, rows can
be read back, and no two phone numbers share a LID. -/
structure Consistent (t : Tables) : Prop where
  pinned : ∀ sid, (t.sessions.get? sid).isSome → (t.identities.get? sid).isSome
  readable : ∀ sid row, t.sessions.get? sid = some row →
    ∃ state, row = sessionText (serializeState state)
  identity : ∀ sid identityPublic, t.identities.get? sid = some identityPublic →
    identityPublic.length = 32
  lids : ∀ pn pn' lid, t.lidMap.get? pn = some lid → t.lidMap.get? pn' = some lid → pn = pn'

theorem consistent_empty : Consistent {} where
  pinned _ h := by cases h
  readable _ _ h := by cases h
  identity _ _ h := by cases h
  lids _ _ _ h := by cases h

variable {refused : SyncError} {t u : Tables} {sid : String}

/-- Tables that no part of `Consistent` speaks about may change freely. -/
theorem Consistent.congr (h : Consistent t) (hs : u.sessions = t.sessions)
    (hi : u.identities = t.identities) (hl : u.lidMap = t.lidMap) : Consistent u := by
  obtain ⟨pinned, readable, identity, lids⟩ := h
  rw [← hs, ← hi] at pinned
  rw [← hs] at readable
  rw [← hi] at identity
  rw [← hl] at lids
  exact ⟨pinned, readable, identity, lids⟩

theorem Consistent.setIdentity (h : Consistent t) (sid : String) {identityPublic : Bytes}
    (hlen : identityPublic.length = 32) :
    Consistent { t with identities := t.identities.set sid identityPublic } where
  pinned sid' hsid' := by
    rw [OrderedMap.get?_set]
    split
    · rfl
    · exact h.pinned sid' hsid'
  readable := h.readable
  identity sid' key hkey := by
    rw [OrderedMap.get?_set] at hkey
    split at hkey
    · cases hkey
      exact hlen
    · exact h.identity sid' key hkey
  lids := h.lids

theorem Consistent.setSession (h : Consistent t) (hpinned : (t.identities.get? sid).isSome)
    (state : RatchetState) : Consistent
      { t with sessions := t.sessions.set sid (sessionText (serializeState state)) } where
  pinned sid' hsid' := by
    rw [OrderedMap.get?_set] at hsid'
    by_cases heq : sid' = sid
    · rw [heq]
      exact hpinned
    · rw [if_neg heq] at hsid'
      exact h.pinned sid' hsid'
  readable sid' row hrow := by
    rw [OrderedMap.get?_set] at hrow
    split at hrow
    · cases hrow
      exact ⟨state, rfl⟩
    · exact h.readable sid' row hrow
  identity := h.identity
  lids := h.lids

theorem Consistent.dropSession (h : Consistent t) (sid : String) :
    Consistent { t with sessions := t.sessions.erase sid } where
  pinned sid' hsid' := by
    rw [OrderedMap.get?_erase] at hsid'
    split at hsid'
    · cases hsid'
    · exact h.pinned sid' hsid'
  readable sid' row hrow := by
    rw [OrderedMap.get?_erase] at hrow
    split at hrow
    · cases hrow
    · exact h.readable sid' row hrow
  identity := h.identity
  lids := h.lids

theorem Consistent.dropIdentity (h : Consistent t) (hnone : t.sessions.get? sid = none) :
    Consistent { t with identities := t.identities.erase sid } where
  pinned sid' hsid' := by
    rw [OrderedMap.get?_erase]
    split
    · next heq =>
      rw [heq, hnone] at hsid'
      cases hsid'
    · exact h.pinned sid' hsid'
  readable := h.readable
  identity sid' key hkey := by
    rw [OrderedMap.get?_erase] at hkey
    split at hkey
    · cases hkey
    · exact h.identity sid' key hkey
  lids := h.lids

theorem Consistent.setLid (h : Consistent t) {pnUser lidUser : String}
    {lidMap : OrderedMap String String}
    (hins : insertLid pnUser lidUser (deleteLid pnUser lidUser t.lidMap) = .ok lidMap) :
    Consistent { t with lidMap := lidMap } where
  pinned := h.pinned
  readable := h.readable
  identity := h.identity
  lids pn pn' lid hpn hpn' := by
    have hlid : ∀ p l, lidMap.get? p = some l →
        (p = pnUser ∧ l = lidUser) ∨ (p ≠ pnUser ∧ l ≠ lidUser ∧ t.lidMap.get? p = some l) := by
      intro p l hp
      rw [insertLid_deleteLid, Except.ok.injEq] at hins
      rw [← hins, OrderedMap.get?_set] at hp
      by_cases hpu : p = pnUser
      · rw [if_pos hpu] at hp
        exact Or.inl ⟨hpu, (Option.some.inj hp).symm⟩
      · rw [if_neg hpu, get?_deleteLid] at hp
        split at hp
        · cases hp
        · next hnot =>
          rw [not_or] at hnot
          refine Or.inr ⟨hpu, ?_, hp⟩
          rintro rfl
          exact hnot.2 hp
    rcases hlid pn lid hpn with ⟨h₁, h₂⟩ | ⟨_, hne, h₁⟩
    · rcases hlid pn' lid hpn' with ⟨h₃, _⟩ | ⟨_, hne, _⟩
      · rw [h₁, h₃]
      · exact absurd h₂ hne
    · rcases hlid pn' lid hpn' with ⟨_, h₄⟩ | ⟨_, _, h₃⟩
      · exact absurd h₄ hne
      · exact h.lids pn pn' lid h₁ h₃

end Consistency

section Bodies

variable {refused : SyncError} {t u : Tables} {a : Unit}

theorem plain_readFacet {α : Type} (read : Tables → Except SyncError α) :
    (readFacet read).Plain :=
  Script.plain_select.bind fun _ => .ret _

/-- The prekeys once the one a message used is gone. -/
def unconsumed (prekeys : OrderedMap Int (Bytes × Bytes)) :
    Option Nat → OrderedMap Int (Bytes × Bytes)
  | none => prekeys
  | some keyId => prekeys.erase keyId

theorem within_consumeOpk {oneTimePreKeyId : Option Nat}
    (h : (consumeOpk oneTimePreKeyId).within refused t = .ok (a, u)) :
    u = { t with prekeys := unconsumed t.prekeys oneTimePreKeyId } := by
  cases oneTimePreKeyId with
  | none =>
    cases h
    rfl
  | some keyId =>
    rw [consumeOpk, prekeysDelete, Script.within_write] at h
    by_cases hfits : fitsSqlite keyId
    · rw [KeyedStore.delete_of_bind (sqliteInteger_ok hfits)] at h
      cases h
      rfl
    · have hbind : sqlitePreKeyStore.bind (keyId : Int) = .error .overflowError := if_neg hfits
      simp only [KeyedStore.delete, hbind] at h
      cases h

theorem within_identitiesSave_ok {sid : String} {identityPublic : Bytes}
    (h : (identitiesSave sid identityPublic).within refused t = .ok (a, u)) :
    identityPublic.length = 32 ∧
      u = { t with identities := t.identities.set sid identityPublic } := by
  by_cases hlen : identityPublic.length = 32
  · rw [within_identitiesSave refused sid t identityPublic hlen] at h
    cases h
    exact ⟨hlen, rfl⟩
  · rw [identitiesSave, Script.within_write] at h
    simp [KeyedStore.save, identityStore, hlen] at h
    cases h

/-- The tables after an accepted `pkmsg`. -/
def Tables.accepted (sid : String) (oneTimePreKeyId : Option Nat) (state : RatchetState)
    (identityKey : Bytes) (t : Tables) : Tables :=
  { t with
    prekeys := unconsumed t.prekeys oneTimePreKeyId
    sessions := t.sessions.set sid (sessionText (serializeState state))
    identities := t.identities.set sid identityKey }

theorem within_landAccepted {sid : String} {oneTimePreKeyId : Option Nat} {state : RatchetState}
    {identityKey : Bytes}
    (h : (landAccepted sid oneTimePreKeyId state identityKey).within refused t = .ok (a, u)) :
    identityKey.length = 32 ∧ u = t.accepted sid oneTimePreKeyId state identityKey := by
  obtain ⟨_, v, hconsume, h⟩ := Script.within_bind_inv h
  obtain ⟨_, w, hsave, h⟩ := Script.within_bind_inv h
  obtain ⟨hlen, rfl⟩ := within_identitiesSave_ok h
  rw [within_sessionsSave] at hsave
  cases hsave
  rw [within_consumeOpk hconsume]
  exact ⟨hlen, rfl⟩

theorem plain_consumeOpk (oneTimePreKeyId : Option Nat) : (consumeOpk oneTimePreKeyId).Plain := by
  cases oneTimePreKeyId with
  | none => exact .ret _
  | some keyId => exact Script.plain_write _

theorem plain_landAccepted (sid : String) (oneTimePreKeyId : Option Nat) (state : RatchetState)
    (identityKey : Bytes) : (landAccepted sid oneTimePreKeyId state identityKey).Plain :=
  (plain_consumeOpk oneTimePreKeyId).bind fun _ =>
    (Script.plain_write _).bind fun _ => Script.plain_write _

theorem Consistent.accepted (h : Consistent t) {sid : String} {oneTimePreKeyId : Option Nat}
    {state : RatchetState} {identityKey : Bytes} (hlen : identityKey.length = 32) :
    Consistent (t.accepted sid oneTimePreKeyId state identityKey) := by
  have hidentity := h.setIdentity sid hlen
  have hpinned : (({ t with identities := t.identities.set sid identityKey } :
      Tables).identities.get? sid).isSome := by
    rw [OrderedMap.get?_set, if_pos rfl]
    rfl
  exact (hidentity.setSession hpinned state).congr rfl rfl rfl

theorem sessionsLoad_of_readable (refused : SyncError) (h : Consistent t) (sid : String) :
    (t.sessions.get? sid = none ∧ (sessionsLoad sid).within refused t = .ok (none, t)) ∨
      ∃ state, t.sessions.get? sid = some (sessionText (serializeState state)) ∧
        (sessionsLoad sid).within refused t = .ok (some state, t) := by
  rw [sessionsLoad, within_readFacet]
  cases hrow : t.sessions.get? sid with
  | none =>
    left
    rw [KeyedStore.load_of_bind rfl, hrow]
    exact ⟨rfl, rfl⟩
  | some row =>
    obtain ⟨state, rfl⟩ := h.readable sid row hrow
    right
    refine ⟨state, rfl, ?_⟩
    rw [KeyedStore.load_of_bind rfl, hrow]
    simp only [(sqliteSessionStore_keeps sid state).decode]
    rfl

/-- The identities once the one under `pn` also stands under `lid`. -/
def repinned (identities : OrderedMap String Bytes) (pn lid : String) : OrderedMap String Bytes :=
  match identities.get? pn with
  | none => identities
  | some identityPublic => identities.set lid identityPublic

/-- The tables after a session moved to its LID, if it does. -/
def Tables.migrated (pn lid : String) (t : Tables) : Tables :=
  match t.sessions.get? pn, t.sessions.get? lid with
  | some row, none =>
    { t with
      sessions := (t.sessions.set lid row).erase pn
      identities := (repinned t.identities pn lid).erase pn }
  | _, _ => t

theorem within_moveIdentity (refused : SyncError) (t : Tables) (pn lid : String)
    (hlen : ∀ identityPublic, t.identities.get? pn = some identityPublic →
      identityPublic.length = 32) :
    (moveIdentity pn lid).within refused t =
      .ok ((), { t with identities := repinned t.identities pn lid }) := by
  have hload : (identitiesLoad pn).within refused t = .ok (t.identities.get? pn, t) := by
    rw [identitiesLoad, within_readFacet, KeyedStore.load_of_bind rfl]
    cases t.identities.get? pn <;> rfl
  refine (Script.within_bind_ok hload).trans ?_
  rw [repinned]
  cases hget : t.identities.get? pn with
  | none => rfl
  | some identityPublic =>
    exact within_identitiesSave refused lid t identityPublic (hlen identityPublic hget)

theorem within_migratePnSession (refused : SyncError) (h : Consistent t) (pn lid : String) :
    (migratePnSession pn lid).within refused t = .ok ((), t.migrated pn lid) := by
  rcases sessionsLoad_of_readable refused h pn with ⟨hpn, heq⟩ | ⟨state, hpn, heq⟩
  · refine (Script.within_bind_ok heq).trans ?_
    rw [Tables.migrated, hpn]
    rfl
  · refine (Script.within_bind_ok heq).trans ?_
    rcases sessionsLoad_of_readable refused h lid with
      ⟨hlid, heq⟩ | ⟨other, hlid, heq⟩
    · refine (Script.within_bind_ok heq).trans ?_
      have hmove := within_moveIdentity refused { t with
        sessions := t.sessions.set lid (sessionText (serializeState state)) } pn lid (h.identity pn)
      refine (Script.within_bind_ok (within_sessionsSave refused lid t state)).trans ?_
      refine (Script.within_bind_ok hmove).trans ?_
      refine (Script.within_bind_ok (within_sessionsDelete refused pn _)).trans ?_
      rw [Tables.migrated, hpn, hlid]
      exact within_identitiesDelete refused pn _
    · refine (Script.within_bind_ok heq).trans ?_
      rw [Tables.migrated, hpn, hlid]
      rfl

theorem plain_migratePnSession (pn lid : String) : (migratePnSession pn lid).Plain := by
  refine (plain_readFacet _).bind fun found => ?_
  cases found with
  | none => exact .ret _
  | some state =>
    refine (plain_readFacet _).bind fun found => ?_
    cases found with
    | some other => exact .ret _
    | none =>
      refine (Script.plain_write _).bind fun _ => Script.Plain.bind ?_ fun _ =>
        (Script.plain_write _).bind fun _ => Script.plain_write _
      refine (plain_readFacet _).bind fun found => ?_
      cases found with
      | none => exact .ret _
      | some peerIdentity => exact Script.plain_write _

theorem Consistent.migrated (h : Consistent t) (pn lid : String) :
    Consistent (t.migrated pn lid) := by
  rw [Tables.migrated]
  split
  · next row hpn hlid =>
    obtain ⟨state, rfl⟩ := h.readable pn row hpn
    obtain ⟨identityPublic, hidentity⟩ := Option.isSome_iff_exists.mp
      (h.pinned pn (by rw [hpn]; rfl))
    have hne : pn ≠ lid := by
      rintro rfl
      rw [hpn] at hlid
      cases hlid
    have hset := h.setIdentity lid (h.identity pn identityPublic hidentity)
    have hlidPinned : (({ t with identities := t.identities.set lid identityPublic } :
        Tables).identities.get? lid).isSome := by
      rw [OrderedMap.get?_set, if_pos rfl]
      rfl
    have hmoved := (hset.setSession hlidPinned state).dropSession pn
    have hgone : ((t.sessions.set lid (sessionText (serializeState state))).erase pn).get? pn =
        none := by
      rw [OrderedMap.get?_erase, if_pos rfl]
    rw [repinned, hidentity]
    exact hmoved.dropIdentity hgone
  · exact h

theorem plain_putAll (keys : List AppStateSyncKey) : (putAll keys).Plain := by
  induction keys with
  | nil => exact .ret _
  | cons key rest ih => exact (Script.plain_write _).bind fun _ => ih

theorem within_putAll (keys : List AppStateSyncKey) :
    (putAll keys).within refused t = .ok ((), { t with
      appStateSyncKeys :=
        keys.foldl (fun table key => upsertSyncKey key table) t.appStateSyncKeys }) := by
  induction keys generalizing t with
  | nil => rfl
  | cons key rest ih => exact (Script.within_bind_ok rfl).trans ih

end Bodies

section Specs

variable {refused : SyncError} {sid : String}

/-- A job that keeps the tables consistent, whatever fails and wherever it is cut off. -/
abbrev Keeps (refused : SyncError) (p : SqlScript Unit) : Prop :=
  Meets refused Consistent p (fun _ => Consistent) Consistent Consistent

theorem keeps_transaction {body : SqlScript Unit} (hp : body.Plain)
    (hbody : ∀ t u, Consistent t → body.within refused t = .ok ((), u) → Consistent u) :
    Keeps refused (Script.transaction body) :=
  Transactional.meets_transaction hp (fun _ h => ⟨h, h⟩) fun t _ u ht hu =>
    ⟨hbody t u ht hu, hbody t u ht hu⟩

theorem meets_readFacet {α : Type} {P : Tables → Prop} {read : Tables → Except SyncError α}
    (hP : ∀ t, P t → Consistent t) : Meets refused P (readFacet read)
      (fun a t => P t ∧ read t = .ok a) Consistent Consistent := by
  refine Transactional.meets_update (fun t ht => ⟨hP t ht, hP t ht⟩) (fun _ => rfl)
    fun t u ht hu => ?_
  cases hu
  intro v o db hv hrun
  subst hv
  have hrun : Run refused ⟨v, none⟩ (.ret (read v)) o db := hrun
  obtain ⟨rfl, ho⟩ := hrun.ret_inv
  cases hread : read v with
  | ok a =>
    rw [hread] at ho
    rcases ho with rfl | rfl
    · exact ⟨rfl, ht, hread⟩
    · exact hP v ht
  | error e =>
    rw [hread] at ho
    rcases ho with rfl | rfl
    · exact ⟨rfl, hP v ht⟩
    · exact hP v ht

theorem keeps_write {P : Tables → Prop} {f : Tables → Except SyncError Tables}
    (hP : ∀ t, P t → Consistent t) (h : ∀ t u, P t → f t = .ok u → Consistent u) :
    Meets refused P (Script.write f) (fun _ => Consistent) Consistent Consistent :=
  Transactional.meets_write (fun t ht => ⟨hP t ht, hP t ht⟩) fun t u ht hu =>
    ⟨h t u ht hu, h t u ht hu⟩

theorem keeps_sessionsSave (state : RatchetState) :
    Meets refused (fun t => Consistent t ∧ (t.identities.get? sid).isSome)
      (sessionsSave sid state) (fun _ => Consistent) Consistent Consistent := by
  refine keeps_write (fun t ht => ht.1) fun t u ht hu => ?_
  cases hu
  exact ht.1.setSession ht.2 state

theorem load_isSome {t : Tables} {state : RatchetState}
    (h : (sqliteSessionStore.load t.sessions sid).mapError SyncError.raised = .ok (some state)) :
    (t.sessions.get? sid).isSome := by
  rw [KeyedStore.load_of_bind rfl] at h
  cases hget : t.sessions.get? sid with
  | none =>
    rw [hget] at h
    cases h
  | some row => rfl

theorem loadIdentity_isSome {t : Tables} {identityPublic : Bytes}
    (h : (identityStore.load t.identities sid).mapError SyncError.raised =
      .ok (some identityPublic)) : (t.identities.get? sid).isSome := by
  rw [KeyedStore.load_of_bind rfl] at h
  cases hget : t.identities.get? sid with
  | none =>
    rw [hget] at h
    cases h
  | some row => rfl

theorem keeps_raise (e : SyncError) {P : Tables → Prop} (hP : ∀ t, P t → Consistent t) :
    Meets refused P (Script.raise e : SqlScript Unit) (fun _ => Consistent) Consistent Consistent :=
  Transactional.meets_raise fun t ht => ⟨hP t ht, hP t ht⟩

theorem keeps_pure {P : Tables → Prop} (hP : ∀ t, P t → Consistent t) :
    Meets refused P (pure () : SqlScript Unit) (fun _ => Consistent) Consistent Consistent :=
  Transactional.meets_ret fun t ht => ⟨hP t ht, hP t ht⟩

theorem keeps_decryptStored (decrypt : RatchetState → Bytes → Except SyncError RatchetState) :
    Keeps refused (decryptStored sid decrypt) := by
  refine (meets_readFacet fun t ht => ht).bind fun found => ?_
  cases found with
  | none => exact keeps_raise _ fun t ht => ht.1
  | some state =>
    refine (meets_readFacet fun t ht => ht.1).bind fun found => ?_
    cases found with
    | none => exact keeps_raise _ fun t ht => ht.1.1
    | some peerIdentity =>
      cases hdec : decrypt state peerIdentity with
      | error e =>
        simp only [hdec]
        exact keeps_raise _ fun t ht => ht.1.1
      | ok state' =>
        simp only [hdec]
        refine (keeps_sessionsSave state').mono (fun t ht => ?_) (fun _ _ h => h) (fun _ h => h)
          fun _ h => h
        exact ⟨ht.1.1, loadIdentity_isSome ht.2⟩

theorem keeps_encryptStored (encrypt : RatchetState → Except SyncError RatchetState) :
    Keeps refused (encryptStored sid encrypt) := by
  refine (meets_readFacet fun t ht => ht).bind fun found => ?_
  cases found with
  | none => exact keeps_pure fun t ht => ht.1
  | some state =>
    cases henc : encrypt state with
    | error e =>
      simp only [henc]
      exact keeps_raise _ fun t ht => ht.1
    | ok state' =>
      simp only [henc]
      refine (keeps_sessionsSave state').mono (fun t ht => ?_) (fun _ _ h => h) (fun _ h => h)
        fun _ h => h
      exact ⟨ht.1, ht.1.pinned sid (load_isSome ht.2)⟩

theorem keeps_encryptEstablished (peerIdentity : Bytes) (state : RatchetState) :
    Keeps refused (encryptEstablished sid peerIdentity state) := by
  refine Transactional.Meets.bind (Transactional.meets_write (fun t ht => ⟨ht, ht⟩) ?_) fun _ =>
    keeps_sessionsSave state
  intro t u ht hu
  have hwithin : (identitiesSave sid peerIdentity).within refused t = .ok ((), u) := by
    rw [identitiesSave, Script.within_write, hu]
    rfl
  obtain ⟨hlen, rfl⟩ := within_identitiesSave_ok hwithin
  have hset := ht.setIdentity sid hlen
  refine ⟨⟨hset, ?_⟩, hset⟩
  rw [OrderedMap.get?_set, if_pos rfl]
  rfl

theorem keeps_dropPeer (sids : List String) : Keeps refused (dropPeer sids) := by
  induction sids with
  | nil => exact keeps_pure fun t ht => ht
  | cons sid rest ih =>
    have hsession : Meets refused Consistent (sessionsDelete sid)
        (fun _ t => Consistent t ∧ t.sessions.get? sid = none) Consistent Consistent := by
      refine Transactional.meets_write (fun t ht => ⟨ht, ht⟩) fun t u ht hu => ?_
      cases hu
      exact ⟨⟨ht.dropSession sid, by rw [OrderedMap.get?_erase, if_pos rfl]⟩, ht.dropSession sid⟩
    have hidentity : Meets refused (fun t => Consistent t ∧ t.sessions.get? sid = none)
        (identitiesDelete sid) (fun _ => Consistent) Consistent Consistent := by
      refine keeps_write (fun t ht => ht.1) fun t u ht hu => ?_
      cases hu
      exact ht.1.dropIdentity ht.2
    exact hsession.bind fun _ => hidentity.bind fun _ => ih

theorem keeps_lidMapSet (pnUser lidUser : String) : Keeps refused (lidMapSet pnUser lidUser) := by
  refine keeps_transaction ((Script.plain_write _).bind fun _ => Script.plain_write _)
    fun t u ht hu => ?_
  obtain ⟨_, v, hdelete, hinsert⟩ := Script.within_bind_inv hu
  cases hdelete
  rw [Script.within_write] at hinsert
  cases hlid : insertLid pnUser lidUser (deleteLid pnUser lidUser t.lidMap) with
  | error e =>
    rw [hlid] at hinsert
    cases hinsert
  | ok lidMap =>
    rw [hlid] at hinsert
    cases hinsert
    exact ht.setLid hlid

theorem StoreJob.keeps {p : SqlScript Unit} (h : StoreJob p) : Keeps refused p := by
  cases h with
  | acceptPrekey sid oneTimePreKeyId state identityKey =>
    refine keeps_transaction (plain_landAccepted sid oneTimePreKeyId state identityKey)
      fun t u ht hu => ?_
    obtain ⟨hlen, rfl⟩ := within_landAccepted hu
    exact ht.accepted hlen
  | decryptStored sid decrypt => exact keeps_decryptStored decrypt
  | encryptStored sid encrypt => exact keeps_encryptStored encrypt
  | encryptEstablished sid peerIdentity state => exact keeps_encryptEstablished peerIdentity state
  | dropPeer sids => exact keeps_dropPeer sids
  | migrate pn lid =>
    refine keeps_transaction (plain_migratePnSession pn lid) fun t u ht hu => ?_
    rw [within_migratePnSession refused ht] at hu
    cases hu
    exact ht.migrated pn lid
  | setLid pnUser lidUser => exact keeps_lidMapSet pnUser lidUser
  | storeAppStateKeys keys =>
    refine keeps_transaction (plain_putAll keys) fun t u ht hu => ?_
    rw [within_putAll keys] at hu
    cases hu
    exact ht.congr rfl rfl rfl
  | savePreKey opk =>
    refine keeps_write (fun t ht => ht) fun t u ht hu => ?_
    cases hsave : sqlitePreKeyStore.save t.prekeys opk.keyId opk with
    | error e =>
      rw [hsave] at hu
      cases hu
    | ok prekeys =>
      rw [hsave] at hu
      cases hu
      exact ht.congr rfl rfl rfl
  | saveSenderKey key state =>
    refine keeps_write (fun t ht => ht) fun t u ht hu => ?_
    cases hu
    exact ht.congr rfl rfl rfl

end Specs

section Lives

/-- Over any life of the database, with any statement failing and a crash anywhere,
what a later process finds is consistent. -/
theorem database_stays_consistent {refused : SyncError} {db : Db Tables}
    (h : Life refused StoreJob {} db) : db.pending = none ∧ Consistent db.file :=
  h.keeps consistent_empty fun _ hp => hp.keeps

def demoStoredState : RatchetState := ratchetInitBob [1] [2] [3]

/-- A session is stored, and the process is killed inside the transaction that was to
replace it, with the new session written and the identity not yet. -/
theorem database_stays_consistent_killed : ∃ db : Db Tables, Life .decodeError StoreJob {} db ∧
    (db.file.identities.get? "1:0@lid").isSome ∧ db.pending = none ∧ Consistent db.file := by
  have hstored : Life .decodeError StoreJob {} _ := .ended .opened
    (.encryptEstablished "1:0@lid" (List.replicate 32 7) demoStoredState) (Script.run_perform _ _)
  have hkilled : Life .decodeError StoreJob {} _ := .reopened hstored
    (.acceptPrekey "1:0@lid" none demoStoredState (List.replicate 32 8))
    (.exec .start (.exec (.update rfl) .crash))
  exact ⟨_, hkilled, rfl, database_stays_consistent hkilled⟩

end Lives

end PyWhats.Storage
