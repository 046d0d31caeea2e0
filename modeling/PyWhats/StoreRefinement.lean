import PyWhats.SqliteStore

/-! The SQLite facets answer as the volatile stores do, for any sequence of operations
and with the database closed and opened again at any point of it. -/

namespace PyWhats.Storage

open AppState (SyncError HashState MutationMac)

section PreKeys

theorem max?_congr {as bs : List Int} (h : ∀ a, a ∈ as ↔ a ∈ bs) : as.max? = bs.max? := by
  cases has : as.max? with
  | none =>
    rw [List.max?_eq_none_iff] at has
    subst has
    have hbs : bs = [] := List.eq_nil_iff_forall_not_mem.mpr fun a ha => by simpa using (h a).mpr ha
    rw [hbs]
    rfl
  | some a =>
    obtain ⟨hmem, hmax⟩ := List.max?_eq_some_iff.mp has
    exact (List.max?_eq_some_iff.mpr ⟨(h a).mp hmem, fun b hb => hmax b ((h b).mpr hb)⟩).symm

abbrev PreKeysMatch (table : OrderedMap Int (Bytes × Bytes)) (keys : OrderedMap Int StoredPreKey) :
    Prop :=
  KeyedStore.SameReads sqlitePreKeyStore inMemoryPreKeyStore table keys

theorem PreKeysMatch.maxKey_eq {table : OrderedMap Int (Bytes × Bytes)}
    {keys : OrderedMap Int StoredPreKey} (h : PreKeysMatch table keys) :
    maxKey table = maxKey keys := by
  have hkeys : ∀ k, k ∈ table.entries.map Prod.fst ↔ k ∈ keys.entries.map Prod.fst := by
    intro k
    have hk := congrArg Option.isSome (h k)
    rw [Option.isSome_map, Option.isSome_map] at hk
    rw [OrderedMap.mem_keys_iff, OrderedMap.mem_keys_iff, hk]
  rw [maxKey, maxKey, max?_congr hkeys]

def fitsSqlite (n : Int) : Prop := -9223372036854775808 ≤ n ∧ n ≤ 9223372036854775807

theorem sqliteInteger_ok {n : Int} (h : fitsSqlite n) : sqliteInteger n = .ok () := if_pos h

theorem preKeys_keeps {opk : StoredPreKey} (h : fitsSqlite opk.keyId) :
    sqlitePreKeyStore.Keeps opk.keyId opk (opk.priv, opk.pub) :=
  ⟨sqliteInteger_ok h, rfl, rfl⟩

def PreKeyOp.admissible : PreKeyOp → Prop
  | .load keyId => fitsSqlite keyId
  | .save opk => fitsSqlite opk.keyId
  | .delete keyId => fitsSqlite keyId
  | .maxId => True

theorem preKeys_simulate : Mealy.Simulates (PreKeyOp.step sqlitePreKeyStore)
    (PreKeyOp.step inMemoryPreKeyStore) PreKeyOp.admissible PreKeysMatch := by
  intro table keys h op hop
  cases op with
  | load keyId =>
    have hload := h.load (sqliteInteger_ok hop) rfl
    exact ⟨congrArg Reply.prekey hload, h⟩
  | save opk =>
    obtain ⟨hreply, hnext⟩ := KeyedStore.simulates h (.save opk.keyId opk)
      (Or.inl ⟨_, opk, preKeys_keeps hop, rfl, rfl, rfl⟩)
    exact ⟨congrArg Reply.prekey hreply, hnext⟩
  | delete keyId =>
    obtain ⟨hreply, hnext⟩ := KeyedStore.simulates h (.delete keyId) ⟨sqliteInteger_ok hop, rfl⟩
    exact ⟨congrArg Reply.prekey hreply, hnext⟩
  | maxId => exact ⟨congrArg Reply.maxId h.maxKey_eq, h⟩

end PreKeys

section SenderKeys

theorem fromHex_pair {n : Nat} (h : n < 256) (rest : List Char) :
    fromHex (Json.hexDigit (n / 16) :: Json.hexDigit (n % 16) :: rest) =
      (fromHex rest).map (UInt8.ofNat n :: ·) := by
  have hspace : ∀ d < 16, fromHexSpace (Json.hexDigit d) = false := by decide +kernel
  have hback : n / 16 * 16 + n % 16 = n := by omega
  rw [fromHex, hspace _ (by omega), Json.hexValue?_hexDigit (by omega),
    Json.hexValue?_hexDigit (by omega)]
  cases fromHex rest with
  | none => rfl
  | some data => exact congrArg (fun k => some (UInt8.ofNat k :: data)) hback

theorem fromHex_hex (data : Bytes) : fromHex (AppState.hex data).toList = some data := by
  rw [AppState.hex, String.toList_ofList]
  induction data with
  | nil => rfl
  | cons b data ih =>
    have hpair := fromHex_pair b.toNat_lt
      (data.flatMap fun b => [Json.hexDigit (b.toNat / 16), Json.hexDigit (b.toNat % 16)])
    rw [List.flatMap_cons]
    refine hpair.trans ?_
    have hrest : fromHex (data.flatMap fun b =>
        [Json.hexDigit (b.toNat / 16), Json.hexDigit (b.toNat % 16)]) = some data := ih
    rw [hrest, Option.map_some, UInt8.ofNat_toNat]

/-- The signing key is missing or not empty. -/
def signable (state : SenderKeyState) : Prop := state.signingPrivate ≠ some []

theorem deserializeSenderKeyState_serialize {state : SenderKeyState} (h : signable state) :
    deserializeSenderKeyState (serializeSenderKeyState state) = some state := by
  obtain ⟨keyId, iteration, chainKey, signingPublic, signingPrivate⟩ := state
  have hprivate : ∀ b bytes, optionalHexOf (.str (AppState.hex (b :: bytes))) =
      some (some (b :: bytes)) := fun b bytes => by
    rw [optionalHexOf, fromHex_hex, Option.map_some]
  cases signingPrivate with
  | none => simp [deserializeSenderKeyState, serializeSenderKeyState, Json.get?, hexOf, textOf,
      fromHex_hex, optionalText, optionalHexOf]
  | some key =>
    cases key with
    | nil => exact absurd rfl h
    | cons b bytes => simp [deserializeSenderKeyState, serializeSenderKeyState, Json.get?, hexOf,
        textOf, fromHex_hex, optionalText, hprivate]

theorem senderKeys_keeps (key : String × String) {state : SenderKeyState} (h : signable state) :
    sqliteSenderKeyStore.Keeps key state (String.ofList (serializeSenderKeyState state).dumps) := by
  refine ⟨rfl, rfl, ?_⟩
  simp only [sqliteSenderKeyStore, String.toList_ofList, Json.loads_dumps, Option.bind_some,
    deserializeSenderKeyState_serialize h]

end SenderKeys

section Lids

/-- The table and the first dictionary agree, and the second one is its inverse. -/
structure LidsMatch (table : OrderedMap String String) (lids : LidMap) : Prop where
  lid : ∀ pn, table.get? pn = lids.getLid pn
  pn : ∀ pn lid, table.get? pn = some lid ↔ lids.getPn lid = some pn

variable {table : OrderedMap String String} {lids : LidMap} {pnUser lidUser : String}

theorem LidsMatch.select_pn (h : LidsMatch table lids) (lidUser : String) :
    (table.entries.find? fun e => e.2 = lidUser).map Prod.fst = lids.getPn lidUser := by
  cases hfind : table.entries.find? (fun e => e.2 = lidUser) with
  | some e =>
    have hlid : e.2 = lidUser := by simpa using List.find?_some hfind
    have hget : table.get? e.1 = some lidUser :=
      OrderedMap.get?_eq_some_iff.mpr (hlid ▸ List.mem_of_find?_eq_some hfind)
    exact ((h.pn e.1 lidUser).mp hget).symm
  | none =>
    cases hpn : lids.getPn lidUser with
    | none => rfl
    | some pn =>
      have hmem := OrderedMap.get?_eq_some_iff.mp ((h.pn pn lidUser).mpr hpn)
      have hnot := List.find?_eq_none.mp hfind _ hmem
      simp at hnot

theorem get?_deleteLid (table : OrderedMap String String) (pnUser lidUser pn : String) :
    (deleteLid pnUser lidUser table).get? pn =
      if pn = pnUser ∨ table.get? pn = some lidUser then none else table.get? pn := by
  have hiff : ∀ lid, (deleteLid pnUser lidUser table).get? pn = some lid ↔
      table.get? pn = some lid ∧ pn ≠ pnUser ∧ lid ≠ lidUser := by
    intro lid
    rw [OrderedMap.get?_eq_some_iff, OrderedMap.get?_eq_some_iff, deleteLid, List.mem_filter]
    simp [not_or]
  by_cases hgone : pn = pnUser ∨ table.get? pn = some lidUser
  · rw [if_pos hgone]
    apply Option.eq_none_iff_forall_ne_some.mpr
    intro lid hlid
    obtain ⟨hget, hpn, hne⟩ := (hiff lid).mp hlid
    rcases hgone with hgone | hgone
    · exact hpn hgone
    · rw [hget] at hgone
      exact hne (Option.some.inj hgone)
  · rw [if_neg hgone]
    rw [not_or] at hgone
    cases hget : table.get? pn with
    | none =>
      apply Option.eq_none_iff_forall_ne_some.mpr
      intro lid hlid
      have := ((hiff lid).mp hlid).1
      rw [hget] at this
      cases this
    | some lid =>
      exact (hiff lid).mpr ⟨hget, hgone.1, fun hlid => hgone.2 (by rw [hget, hlid])⟩

/-- After the `DELETE` the `INSERT` violates neither constraint. -/
theorem insertLid_deleteLid (table : OrderedMap String String) (pnUser lidUser : String) :
    insertLid pnUser lidUser (deleteLid pnUser lidUser table) =
      .ok ((deleteLid pnUser lidUser table).set pnUser lidUser) := by
  apply if_neg
  rintro (hpn | hlid)
  · obtain ⟨e, he, hkey⟩ := List.mem_map.mp hpn
    have hkeep := (List.mem_filter.mp he).2
    simp [hkey] at hkeep
  · obtain ⟨e, he, hvalue⟩ := List.mem_map.mp hlid
    have hkeep := (List.mem_filter.mp he).2
    simp [hvalue] at hkeep

theorem get?_popOther (dict : OrderedMap String String) (old : Option String) (new key : String) :
    (popOther dict old new).get? key =
      if old = some key ∧ key ≠ new then none else dict.get? key := by
  cases old with
  | none => simp [popOther]
  | some k =>
    simp only [popOther, Option.some.injEq, ne_eq]
    by_cases hk : k = new
    · have hnone : ¬ (k = key ∧ ¬ key = new) := fun h => h.2 (h.1.symm.trans hk)
      rw [if_neg (fun h => h hk), if_neg hnone]
    · rw [if_pos hk, OrderedMap.get?_erase]
      by_cases hkey : key = k
      · rw [if_pos hkey, if_pos ⟨hkey.symm, hkey ▸ hk⟩]
      · rw [if_neg hkey, if_neg fun h => hkey h.1.symm]

theorem getPn_set (lids : LidMap) (pnUser lidUser lid : String) :
    (lids.set pnUser lidUser).getPn lid =
      if lid = lidUser then some pnUser
      else if lids.getLid pnUser = some lid then none else lids.getPn lid := by
  simp only [LidMap.getPn, LidMap.getLid, LidMap.set, OrderedMap.get?_set, get?_popOther]
  by_cases hlid : lid = lidUser
  · rw [if_pos hlid, if_pos hlid]
  · simp only [hlid, if_false, ne_eq, not_false_eq_true, and_true]
    rfl

theorem getLid_set (lids : LidMap) (pnUser lidUser pn : String) :
    (lids.set pnUser lidUser).getLid pn =
      if pn = pnUser then some lidUser
      else if lids.getPn lidUser = some pn then none else lids.getLid pn := by
  simp only [LidMap.getPn, LidMap.getLid, LidMap.set, OrderedMap.get?_set, get?_popOther, ne_eq,
    not_true_eq_false, and_false, if_false]
  by_cases hpn : pn = pnUser
  · rw [if_pos hpn, if_pos hpn]
  · simp only [hpn, if_false, not_false_eq_true, and_true]
    rfl

theorem LidsMatch.set (h : LidsMatch table lids) (pnUser lidUser : String) :
    LidsMatch ((deleteLid pnUser lidUser table).set pnUser lidUser)
      (lids.set pnUser lidUser) := by
  have hget : ∀ pn, ((deleteLid pnUser lidUser table).set pnUser lidUser).get? pn =
      if pn = pnUser then some lidUser
      else if table.get? pn = some lidUser then none else table.get? pn := by
    intro pn
    rw [OrderedMap.get?_set, get?_deleteLid]
    by_cases hpn : pn = pnUser
    · rw [if_pos hpn, if_pos hpn]
    · simp only [hpn, if_false, false_or]
  constructor
  · intro pn
    rw [hget, getLid_set, ← h.lid pn]
    simp only [h.pn pn lidUser]
  · intro pn lid
    rw [hget, getPn_set, ← h.lid pnUser]
    have hold := h.pn pn lid
    by_cases hpn : pn = pnUser
    · by_cases hlid : lid = lidUser
      · simp [hpn, hlid]
      · rw [if_pos hpn, if_neg hlid, ← hpn]
        have hne : ¬ some lidUser = some lid := fun h => hlid (Option.some.inj h).symm
        by_cases hgone : table.get? pn = some lid
        · simp [hne, hgone]
        · rw [if_neg hgone, ← hold]
          exact iff_of_false hne hgone
    · by_cases hlid : lid = lidUser
      · rw [if_neg hpn, if_pos hlid, hlid]
        have hne : ¬ some pnUser = some pn := fun h => hpn (Option.some.inj h).symm
        by_cases hgone : table.get? pn = some lidUser
        · simp [hne, hgone]
        · rw [if_neg hgone]
          exact iff_of_false hgone hne
      · rw [if_neg hpn, if_neg hlid]
        have hother : table.get? pnUser = some lid → ¬ lids.getPn lid = some pn := by
          intro hboth hback
          rw [(h.pn pnUser lid).mp hboth] at hback
          exact hpn (Option.some.inj hback).symm
        have hmoved : table.get? pn = some lidUser → ¬ table.get? pn = some lid := by
          intro hboth hback
          rw [hboth] at hback
          exact hlid (Option.some.inj hback).symm
        by_cases hgone : table.get? pn = some lidUser
        · rw [if_pos hgone]
          have hback : ¬ lids.getPn lid = some pn := fun h => hmoved hgone (hold.mpr h)
          by_cases hleft : table.get? pnUser = some lid <;> simp [hleft, hback]
        · rw [if_neg hgone, hold]
          by_cases hleft : table.get? pnUser = some lid
          · simp [hleft, hother hleft]
          · simp [hleft]

theorem lids_simulate {c : Connection} (hpending : c.pending = none)
    (h : LidsMatch c.file.lidMap lids) (op : LidOp) :
    (sqliteLidStep c op).2 = (memoryLidStep lids op).2 ∧
      ∃ lidMap, (sqliteLidStep c op).1 = { file := { c.file with lidMap := lidMap } } ∧
        LidsMatch lidMap (memoryLidStep lids op).1 := by
  obtain ⟨file, pending⟩ := c
  simp only at hpending h
  subst hpending
  cases op with
  | getLid pnUser => exact ⟨congrArg Reply.user (h.lid pnUser), file.lidMap, rfl, h⟩
  | getPn lidUser => exact ⟨congrArg Reply.user (h.select_pn lidUser), file.lidMap, rfl, h⟩
  | set pnUser lidUser =>
    have hstep : sqliteSetLid ⟨file, none⟩ pnUser lidUser =
        ({ file := { file with
            lidMap := (deleteLid pnUser lidUser file.lidMap).set pnUser lidUser } },
          .done (.ok ())) := by
      have hinsert := insertLid_deleteLid file.lidMap pnUser lidUser
      simp only [sqliteSetLid, Connection.beginTransaction, Connection.execute, Connection.tables,
        Option.getD_none, Option.getD_some, hinsert, Connection.commit]
    simp only [sqliteLidStep, hstep]
    exact ⟨rfl, _, rfl, h.set pnUser lidUser⟩

end Lids

section SyncKeys

def SyncKeyRow.key (keyId : Bytes) (row : SyncKeyRow) : AppStateSyncKey :=
  ⟨keyId, row.keyData, row.fingerprint, row.timestamp⟩

def SyncKeysMatch (table : OrderedMap Bytes SyncKeyRow) (keys : OrderedMap Bytes AppStateSyncKey) :
    Prop :=
  ∀ keyId, (table.get? keyId).map (SyncKeyRow.key keyId) = keys.get? keyId

variable {table : OrderedMap Bytes SyncKeyRow} {keys : OrderedMap Bytes AppStateSyncKey}

theorem SyncKeysMatch.set (h : SyncKeysMatch table keys) (key : AppStateSyncKey) :
    SyncKeysMatch (table.set key.keyId ⟨key.keyData, key.fingerprint, key.timestamp⟩)
      (keys.set key.keyId key) := by
  intro keyId
  rw [OrderedMap.get?_set, OrderedMap.get?_set]
  by_cases hkey : keyId = key.keyId
  · rw [if_pos hkey, if_pos hkey, hkey]
    rfl
  · rw [if_neg hkey, if_neg hkey]
    exact h keyId

/-- The guard of the upsert is the comparison that the volatile store makes. -/
theorem SyncKeysMatch.put (h : SyncKeysMatch table keys) (key : AppStateSyncKey) :
    SyncKeysMatch (upsertSyncKey key table) (memoryPutSyncKey keys key) := by
  have hkey := h key.keyId
  cases hrow : table.get? key.keyId with
  | none =>
    rw [hrow, Option.map_none] at hkey
    simp only [upsertSyncKey, memoryPutSyncKey, hrow, ← hkey]
    exact h.set key
  | some row =>
    rw [hrow, Option.map_some] at hkey
    simp only [upsertSyncKey, memoryPutSyncKey, hrow, ← hkey, SyncKeyRow.key]
    by_cases hnewer : key.timestamp > row.timestamp
    · rw [if_pos hnewer, if_neg (by omega)]
      exact h.set key
    · rw [if_neg hnewer, if_pos (by omega)]
      exact h

def SyncKeyOp.admissible : SyncKeyOp → Prop
  | .get _ => True
  | .put key => fitsSqlite key.timestamp

theorem syncKeys_simulate {c : Connection} (hpending : c.pending = none)
    (h : SyncKeysMatch c.file.appStateSyncKeys keys) (op : SyncKeyOp) (hop : op.admissible) :
    (sqliteSyncKeyStep c op).2 = (memorySyncKeyStep keys op).2 ∧
      ∃ table, (sqliteSyncKeyStep c op).1 = { file := { c.file with appStateSyncKeys := table } } ∧
        SyncKeysMatch table (memorySyncKeyStep keys op).1 := by
  obtain ⟨file, pending⟩ := c
  simp only at hpending h
  subst hpending
  cases op with
  | get keyId => exact ⟨congrArg Reply.syncKey (h keyId), file.appStateSyncKeys, rfl, h⟩
  | put key =>
    simp only [sqliteSyncKeyStep, sqliteInteger_ok hop, Connection.execute]
    exact ⟨rfl, _, rfl, h.put key⟩

end SyncKeys

section AppStates

open AppState (inMemoryAppStateStore sqliteAppStateStore inMemoryView sqliteView)

structure AppStatesMatch (store : AppState.Sqlite) (memory : AppState.InMemory) : Prop where
  versions : sqliteAppStateStore.getVersion store = inMemoryAppStateStore.getVersion memory
  newest : sqliteView.newest store = inMemoryView.newest memory

def AppStateOp.admissible : AppStateOp → Prop
  | .putVersion _ state => state.hash.length = 128 ∧ state.version ≤ AppState.maxSqliteInteger
  | .putMutationMacs _ version _ => version ≤ AppState.maxSqliteInteger
  | _ => True

theorem appStates_simulate : Mealy.Simulates (AppStateOp.step sqliteAppStateStore)
    (AppStateOp.step inMemoryAppStateStore) AppStateOp.admissible AppStatesMatch := by
  intro store memory h op hop
  cases op with
  | getVersion name => exact ⟨congrArg Reply.version (congrFun h.versions name), h⟩
  | putVersion name state =>
    obtain ⟨hhash, hversion⟩ := hop
    have hsqlite : sqliteAppStateStore.putVersion store name state =
        .ok (store.commit (.upsertVersion name state)) := by
      simp only [sqliteAppStateStore, hhash, ne_eq, not_true_eq_false, if_false]
      exact if_neg (by omega)
    have hmemory : inMemoryAppStateStore.putVersion memory name state =
        .ok { memory with versions := memory.versions.set name state } := rfl
    simp only [AppStateOp.step, hsqlite, hmemory]
    refine ⟨trivial, ?_, ?_⟩
    · rw [sqliteView.getVersion_putVersion hsqlite, inMemoryView.getVersion_putVersion hmemory,
        h.versions]
    · rw [sqliteView.newest_putVersion hsqlite, inMemoryView.newest_putVersion hmemory, h.newest]
  | deleteVersion name =>
    refine ⟨rfl, ?_, ?_⟩
    · rw [AppStateOp.step, AppStateOp.step, sqliteView.getVersion_deleteVersion,
        inMemoryView.getVersion_deleteVersion, h.versions]
    · rw [AppStateOp.step, AppStateOp.step, sqliteView.newest_deleteVersion,
        inMemoryView.newest_deleteVersion, h.newest]
  | getMutationMac name indexMac =>
    refine ⟨congrArg Reply.valueMac ?_, h⟩
    rw [sqliteView.getMutationMac_eq, inMemoryView.getMutationMac_eq, h.newest]
  | putMutationMacs name version macs =>
    refine ⟨rfl, ?_, ?_⟩
    · rw [AppStateOp.step, AppStateOp.step, sqliteView.getVersion_putMutationMacs,
        inMemoryView.getVersion_putMutationMacs, h.versions]
    · rw [AppStateOp.step, AppStateOp.step, sqliteView.newest_putMutationMacs,
        inMemoryView.newest_putMutationMacs, h.newest]
  | deleteMutationMacs name indexMacs =>
    refine ⟨rfl, ?_, ?_⟩
    · rw [AppStateOp.step, AppStateOp.step, sqliteView.getVersion_deleteMutationMacs,
        inMemoryView.getVersion_deleteMutationMacs, h.versions]
    · rw [AppStateOp.step, AppStateOp.step, sqliteView.newest_deleteMutationMacs,
        inMemoryView.newest_deleteMutationMacs, h.newest]

end AppStates

section Whole

/-- Integers that SQLite can hold, hashes of 128 bytes and signing keys that are not
empty. -/
def StoreOp.admissible : StoreOp → Prop
  | .prekeys op => op.admissible
  | .appStateKeys op => op.admissible
  | .senderKeys (.save _ state) => signable state
  | .appState op => op.admissible
  | _ => True

/-- Every facet reads as its volatile store does, and nothing is left uncommitted. -/
structure StoresMatch (c : Connection) (m : MemoryStores) : Prop where
  committed : c.pending = none
  sessions : KeyedStore.SameReads sqliteSessionStore inMemorySessionStore c.file.sessions m.sessions
  identities : KeyedStore.SameReads identityStore identityStore c.file.identities m.identities
  lidMap : LidsMatch c.file.lidMap m.lidMap
  prekeys : PreKeysMatch c.file.prekeys m.prekeys
  appStateKeys : SyncKeysMatch c.file.appStateSyncKeys m.appStateKeys
  senderKeys : KeyedStore.SameReads sqliteSenderKeyStore inMemorySenderKeyStore c.file.senderKeys
    m.senderKeys
  appState : AppStatesMatch c.file.appState m.appState

theorem sessions_agree (op : KeyedStore.Op String RatchetState) :
    KeyedStore.Agrees sqliteSessionStore inMemorySessionStore op := by
  cases op with
  | load key => exact ⟨rfl, rfl⟩
  | save key state =>
    exact Or.inl ⟨_, _, sqliteSessionStore_keeps key state, inMemorySessionStore_keeps key state⟩
  | delete key => exact ⟨rfl, rfl⟩

theorem identities_agree (op : KeyedStore.Op String Bytes) :
    KeyedStore.Agrees identityStore identityStore op := by
  cases op with
  | load key => exact ⟨rfl, rfl⟩
  | save key identityPublic =>
    by_cases hlen : identityPublic.length = 32
    · have hkeep : identityStore.Keeps key identityPublic identityPublic :=
        ⟨rfl, if_neg fun h => h hlen, rfl⟩
      exact Or.inl ⟨_, _, hkeep, hkeep⟩
    · exact Or.inr ⟨_, if_pos hlen, if_pos hlen⟩
  | delete key => exact ⟨rfl, rfl⟩

theorem senderKeys_agree {op : KeyedStore.Op (String × String) SenderKeyState}
    (h : (StoreOp.senderKeys op).admissible) :
    KeyedStore.Agrees sqliteSenderKeyStore inMemorySenderKeyStore op := by
  cases op with
  | load key => exact ⟨rfl, rfl⟩
  | save key state => exact Or.inl ⟨_, state, senderKeys_keeps key h, rfl, rfl, rfl⟩
  | delete key => exact ⟨rfl, rfl⟩

theorem stores_simulate : Mealy.Simulates sqliteStep memoryStep StoreOp.admissible StoresMatch := by
  rintro ⟨file, pending⟩ m h op hop
  obtain rfl : pending = none := h.committed
  cases op with
  | sessions op =>
    obtain ⟨hreply, hnext⟩ := KeyedStore.simulates h.sessions op (sessions_agree op)
    exact ⟨congrArg Reply.session hreply, { h with sessions := hnext }⟩
  | identities op =>
    obtain ⟨hreply, hnext⟩ := KeyedStore.simulates h.identities op (identities_agree op)
    exact ⟨congrArg Reply.identity hreply, { h with identities := hnext }⟩
  | lidMap op =>
    obtain ⟨hreply, lidMap, hfile, hnext⟩ := lids_simulate rfl h.lidMap op
    refine ⟨hreply, ?_⟩
    have hstep : (sqliteStep ⟨file, none⟩ (.lidMap op)).1 =
        { file := { file with lidMap := lidMap } } := hfile
    rw [hstep]
    exact { h with committed := rfl, lidMap := hnext }
  | prekeys op =>
    obtain ⟨hreply, hnext⟩ := preKeys_simulate h.prekeys op hop
    exact ⟨hreply, { h with prekeys := hnext }⟩
  | appStateKeys op =>
    obtain ⟨hreply, table, hfile, hnext⟩ := syncKeys_simulate rfl h.appStateKeys op hop
    refine ⟨hreply, ?_⟩
    have hstep : (sqliteStep ⟨file, none⟩ (.appStateKeys op)).1 =
        { file := { file with appStateSyncKeys := table } } := hfile
    rw [hstep]
    exact { h with committed := rfl, appStateKeys := hnext }
  | senderKeys op =>
    obtain ⟨hreply, hnext⟩ := KeyedStore.simulates h.senderKeys op (senderKeys_agree hop)
    exact ⟨congrArg Reply.senderKey hreply, { h with senderKeys := hnext }⟩
  | appState op =>
    obtain ⟨hreply, hnext⟩ := appStates_simulate h.appState op hop
    exact ⟨hreply, { h with appState := hnext }⟩
  | reopen => exact ⟨rfl, { h with committed := rfl }⟩

theorem storesMatch_empty : StoresMatch {} {} where
  committed := rfl
  sessions := KeyedStore.sameReads_empty
  identities := KeyedStore.sameReads_empty
  lidMap := ⟨fun _ => rfl, fun _ _ => iff_of_false (Option.some_ne_none _).symm
    (Option.some_ne_none _).symm⟩
  prekeys := KeyedStore.sameReads_empty
  appStateKeys := fun _ => rfl
  senderKeys := KeyedStore.sameReads_empty
  appState := ⟨rfl, rfl⟩

theorem sqlite_refines_memory {ops : List StoreOp} (h : ∀ op ∈ ops, op.admissible) :
    sqliteStep.answers {} ops = memoryStep.answers {} ops :=
  stores_simulate.answers_eq storesMatch_empty h

/-- A LID that moves to another user, a sync key that is not newer, a pool with a gap,
and a collection whose index is set at an older version. -/
def demoOps : List StoreOp :=
  [.lidMap (.set "1" "a"), .lidMap (.set "2" "a"), .reopen, .lidMap (.getLid "1"),
    .lidMap (.getPn "a"), .appStateKeys (.put ⟨[1], [2], [3], 5⟩), .reopen,
    .appStateKeys (.put ⟨[1], [9], [9], 5⟩), .appStateKeys (.get [1]),
    .prekeys (.save ⟨3, [1], [2]⟩), .prekeys (.save ⟨7, [1], [2]⟩), .prekeys (.delete 7), .reopen,
    .prekeys .maxId, .senderKeys (.save ("g", "s") ⟨1, 2, [3], [4], some [5]⟩), .reopen,
    .appState (.putMutationMacs "n" 2 [⟨[1], [2]⟩]), .appState (.putMutationMacs "n" 1 [⟨[1], [9]⟩]),
    .appState (.getMutationMac "n" [1])]

theorem sqlite_refines_memory_demo :
    memoryStep.answers {} demoOps =
        [.done (.ok ()), .done (.ok ()), .done (.ok ()), .user none, .user (some "2"),
          .done (.ok ()), .done (.ok ()), .done (.ok ()), .syncKey (some ⟨[1], [2], [3], 5⟩),
          .prekey (.ok none), .prekey (.ok none), .prekey (.ok none), .done (.ok ()), .maxId 3,
          .senderKey (.ok none), .done (.ok ()), .done (.ok ()), .done (.ok ()),
          .valueMac (some [2])] ∧
      sqliteStep.answers {} demoOps = memoryStep.answers {} demoOps := by
  refine ⟨rfl, sqlite_refines_memory ?_⟩
  simp [demoOps, StoreOp.admissible, SyncKeyOp.admissible, PreKeyOp.admissible,
    AppStateOp.admissible, fitsSqlite, signable, AppState.maxSqliteInteger]

end Whole

end PyWhats.Storage
