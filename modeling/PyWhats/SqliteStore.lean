import PyWhats.AppStateStores
import PyWhats.Endpoint
import PyWhats.SessionPersistence

/-! The seven stores twice: the volatile ones over dictionaries, and the facets of
`SqliteStore` (`sqlite_store.py`) over the tables of one connection in autocommit mode. -/

namespace PyWhats.Storage

open AppState (SyncError HashState MutationMac)

section Values

def sqliteInteger (n : Int) : Except SyncError Unit :=
  if -9223372036854775808 ≤ n ∧ n ≤ 9223372036854775807 then .ok () else .error .overflowError

/-- Both identity stores check the length and keep the bytes. -/
def identityStore : KeyedStore PyError String Bytes Bytes where
  encode _ identityPublic :=
    if identityPublic.length ≠ 32 then
      .error (.valueError ("identity_public must be 32 bytes, got " ++
        toString identityPublic.length))
    else .ok identityPublic
  decode _ identityPublic := .ok identityPublic

structure StoredPreKey where
  keyId : Int
  priv : Bytes
  pub : Bytes
  deriving DecidableEq

def inMemoryPreKeyStore : KeyedStore SyncError Int StoredPreKey StoredPreKey where
  encode _ opk := .ok opk
  decode _ opk := .ok opk

def sqlitePreKeyStore : KeyedStore SyncError Int StoredPreKey (Bytes × Bytes) where
  bind := sqliteInteger
  encode _ opk := .ok (opk.priv, opk.pub)
  decode keyId row := .ok ⟨keyId, row.1, row.2⟩

def fromHexSpace (c : Char) : Bool := c = ' ' || (9 ≤ c.toNat && c.toNat ≤ 13)

/-- `bytes.fromhex`; `none` is its `ValueError`. -/
def fromHex : List Char → Option Bytes
  | [] => some []
  | [c] => if fromHexSpace c then some [] else none
  | a :: b :: rest =>
    if fromHexSpace a then fromHex (b :: rest)
    else do
      let high ← Json.hexValue? a
      let low ← Json.hexValue? b
      let data ← fromHex rest
      return UInt8.ofNat (high * 16 + low) :: data

/-- An empty private key is written as no key. -/
def serializeSenderKeyState (state : SenderKeyState) : Json :=
  .obj [
    ("key_id", .int state.keyId),
    ("iteration", .int state.iteration),
    ("chain_key", .str (AppState.hex state.chainKey)),
    ("signing_public", .str (AppState.hex state.signingPublic)),
    ("signing_private", optionalText
      (match state.signingPrivate with
        | some (b :: bytes) => some (AppState.hex (b :: bytes))
        | _ => none))]

def hexOf (data : Json) : Option Bytes := (textOf data).bind fun s => fromHex s.toList

def optionalHexOf : Json → Option (Option Bytes)
  | .str s => (fromHex s.toList).map some
  | _ => some none

def deserializeSenderKeyState (data : Json) : Option SenderKeyState := do
  let keyId ← (data.get? "key_id").bind natOf
  let iteration ← (data.get? "iteration").bind natOf
  let chainKey ← (data.get? "chain_key").bind hexOf
  let signingPublic ← (data.get? "signing_public").bind hexOf
  let signingPrivate ← (data.get? "signing_private").bind optionalHexOf
  return ⟨keyId, iteration, chainKey, signingPublic, signingPrivate⟩

def inMemorySenderKeyStore : KeyedStore PyError (String × String) SenderKeyState SenderKeyState where
  encode _ state := .ok state
  decode _ state := .ok state

def sqliteSenderKeyStore : KeyedStore PyError (String × String) SenderKeyState String where
  encode _ state := .ok (String.ofList (serializeSenderKeyState state).dumps)
  decode _ text :=
    match (Json.loads text.toList).bind deserializeSenderKeyState with
    | some state => .ok state
    | none => .error (.valueError "not a stored sender key")

structure AppStateSyncKey where
  keyId : Bytes
  keyData : Bytes
  fingerprint : Bytes
  timestamp : Int
  deriving DecidableEq

end Values

section Operations

inductive LidOp where
  | getLid (pnUser : String)
  | getPn (lidUser : String)
  | set (pnUser lidUser : String)

inductive PreKeyOp where
  | load (keyId : Int)
  | save (opk : StoredPreKey)
  | delete (keyId : Int)
  | maxId

inductive SyncKeyOp where
  | get (keyId : Bytes)
  | put (key : AppStateSyncKey)

inductive AppStateOp where
  | getVersion (name : String)
  | putVersion (name : String) (state : HashState)
  | deleteVersion (name : String)
  | getMutationMac (name : String) (indexMac : Bytes)
  | putMutationMacs (name : String) (version : Nat) (macs : List MutationMac)
  | deleteMutationMacs (name : String) (indexMacs : List Bytes)

inductive StoreOp where
  | sessions (op : KeyedStore.Op String RatchetState)
  | identities (op : KeyedStore.Op String Bytes)
  | lidMap (op : LidOp)
  | prekeys (op : PreKeyOp)
  | appStateKeys (op : SyncKeyOp)
  | senderKeys (op : KeyedStore.Op (String × String) SenderKeyState)
  | appState (op : AppStateOp)
  | reopen

inductive Reply where
  | session (r : Except PyError (Option RatchetState))
  | identity (r : Except PyError (Option Bytes))
  | user (r : Option String)
  | prekey (r : Except SyncError (Option StoredPreKey))
  | maxId (n : Int)
  | syncKey (r : Option AppStateSyncKey)
  | senderKey (r : Except PyError (Option SenderKeyState))
  | version (state : HashState)
  | valueMac (r : Option Bytes)
  | done (r : Except SyncError Unit)

end Operations

section Maps

/-- `max(keys, default=0)` and `MAX(key_id)`. -/
def maxKey {ρ : Type} (table : OrderedMap Int ρ) : Int :=
  ((table.entries.map Prod.fst).max?).getD 0

def PreKeyOp.step {ρ : Type} (S : KeyedStore SyncError Int StoredPreKey ρ) (table : OrderedMap Int ρ) :
    PreKeyOp → OrderedMap Int ρ × Reply
  | .load keyId => (table, .prekey (S.load table keyId))
  | .save opk => ((S.step table (.save opk.keyId opk)).1,
      .prekey (S.step table (.save opk.keyId opk)).2)
  | .delete keyId => ((S.step table (.delete keyId)).1, .prekey (S.step table (.delete keyId)).2)
  | .maxId => (table, .maxId (maxKey table))

def AppStateOp.step {σ : Type} (S : AppState.AppStateStore σ) (store : σ) : AppStateOp → σ × Reply
  | .getVersion name => (store, .version (S.getVersion store name))
  | .putVersion name state =>
    match S.putVersion store name state with
    | .ok store => (store, .done (.ok ()))
    | .error e => (store, .done (.error e))
  | .deleteVersion name => (S.deleteVersion store name, .done (.ok ()))
  | .getMutationMac name indexMac => (store, .valueMac (S.getMutationMac store name indexMac))
  | .putMutationMacs name version macs =>
    (S.putMutationMacs store name version macs, .done (.ok ()))
  | .deleteMutationMacs name indexMacs => (S.deleteMutationMacs store name indexMacs, .done (.ok ()))

def memoryLidStep (m : LidMap) : LidOp → LidMap × Reply
  | .getLid pnUser => (m, .user (m.getLid pnUser))
  | .getPn lidUser => (m, .user (m.getPn lidUser))
  | .set pnUser lidUser => (m.set pnUser lidUser, .done (.ok ()))

def memoryPutSyncKey (keys : OrderedMap Bytes AppStateSyncKey) (key : AppStateSyncKey) :
    OrderedMap Bytes AppStateSyncKey :=
  match keys.get? key.keyId with
  | some existing => if key.timestamp ≤ existing.timestamp then keys else keys.set key.keyId key
  | none => keys.set key.keyId key

def memorySyncKeyStep (keys : OrderedMap Bytes AppStateSyncKey) :
    SyncKeyOp → OrderedMap Bytes AppStateSyncKey × Reply
  | .get keyId => (keys, .syncKey (keys.get? keyId))
  | .put key => (memoryPutSyncKey keys key, .done (.ok ()))

end Maps

section Memory

structure MemoryStores where
  sessions : OrderedMap String SessionBlob := .empty
  identities : OrderedMap String Bytes := .empty
  lidMap : LidMap := {}
  prekeys : OrderedMap Int StoredPreKey := .empty
  appStateKeys : OrderedMap Bytes AppStateSyncKey := .empty
  senderKeys : OrderedMap (String × String) SenderKeyState := .empty
  appState : AppState.InMemory := {}

def memoryStep : Mealy MemoryStores StoreOp Reply
  | m, .sessions op =>
    let (sessions, r) := inMemorySessionStore.step m.sessions op
    ({ m with sessions := sessions }, .session r)
  | m, .identities op =>
    let (table, r) := identityStore.step m.identities op
    ({ m with identities := table }, .identity r)
  | m, .lidMap op =>
    let (lidMap, r) := memoryLidStep m.lidMap op
    ({ m with lidMap := lidMap }, r)
  | m, .prekeys op =>
    let (prekeys, r) := op.step inMemoryPreKeyStore m.prekeys
    ({ m with prekeys := prekeys }, r)
  | m, .appStateKeys op =>
    let (keys, r) := memorySyncKeyStep m.appStateKeys op
    ({ m with appStateKeys := keys }, r)
  | m, .senderKeys op =>
    let (senderKeys, r) := inMemorySenderKeyStore.step m.senderKeys op
    ({ m with senderKeys := senderKeys }, .senderKey r)
  | m, .appState op =>
    let (appState, r) := op.step AppState.inMemoryAppStateStore m.appState
    ({ m with appState := appState }, r)
  | m, .reopen => (m, .done (.ok ()))

end Memory

section Sqlite

structure SyncKeyRow where
  keyData : Bytes
  fingerprint : Bytes
  timestamp : Int

structure Tables where
  sessions : OrderedMap String String := .empty
  identities : OrderedMap String Bytes := .empty
  lidMap : OrderedMap String String := .empty
  prekeys : OrderedMap Int (Bytes × Bytes) := .empty
  appStateSyncKeys : OrderedMap Bytes SyncKeyRow := .empty
  senderKeys : OrderedMap (String × String) String := .empty
  appState : AppState.Sqlite := {}

/-- The committed file and, inside a transaction, what would be committed. -/
structure Connection where
  file : Tables := {}
  pending : Option Tables := none

namespace Connection

def tables (c : Connection) : Tables := c.pending.getD c.file

def execute (c : Connection) (statement : Tables → Tables) : Connection :=
  match c.pending with
  | none => { c with file := statement c.file }
  | some tables => { c with pending := some (statement tables) }

def beginTransaction (c : Connection) : Connection := { c with pending := some c.tables }

def commit (c : Connection) : Connection := { file := c.tables, pending := none }

def rollback (c : Connection) : Connection := { c with pending := none }

/-- A closed connection loses what it did not commit, and the schema script of the
next one creates only tables that are missing. -/
def reopen (c : Connection) : Connection := c.rollback

end Connection

/-- The `INSERT` into `lid_map`, whose two columns are both unique. -/
def insertLid (pnUser lidUser : String) (lidMap : OrderedMap String String) :
    Except SyncError (OrderedMap String String) :=
  if pnUser ∈ lidMap.entries.map Prod.fst ∨ lidUser ∈ lidMap.entries.map Prod.snd then
    .error (.valueError "UNIQUE constraint failed")
  else .ok (lidMap.set pnUser lidUser)

/-- `DELETE FROM lid_map WHERE pn_user = ? OR lid_user = ?`. -/
def deleteLid (pnUser lidUser : String) (lidMap : OrderedMap String String) :
    OrderedMap String String :=
  ⟨lidMap.entries.filter (fun e => ¬ (e.1 = pnUser ∨ e.2 = lidUser)),
    lidMap.nodup.sublist (List.filter_sublist.map _)⟩

def sqliteSetLid (c : Connection) (pnUser lidUser : String) : Connection × Reply :=
  let c := c.beginTransaction
  let c := c.execute fun t => { t with lidMap := deleteLid pnUser lidUser t.lidMap }
  match insertLid pnUser lidUser c.tables.lidMap with
  | .ok lidMap => ((c.execute fun t => { t with lidMap := lidMap }).commit, .done (.ok ()))
  | .error e => (c.rollback, .done (.error e))

def sqliteLidStep (c : Connection) : LidOp → Connection × Reply
  | .getLid pnUser => (c, .user (c.tables.lidMap.get? pnUser))
  | .getPn lidUser =>
    (c, .user ((c.tables.lidMap.entries.find? fun e => e.2 = lidUser).map Prod.fst))
  | .set pnUser lidUser => sqliteSetLid c pnUser lidUser

/-- The upsert with the guard on the timestamp. -/
def upsertSyncKey (key : AppStateSyncKey) (table : OrderedMap Bytes SyncKeyRow) :
    OrderedMap Bytes SyncKeyRow :=
  match table.get? key.keyId with
  | some row =>
    if key.timestamp > row.timestamp then
      table.set key.keyId ⟨key.keyData, key.fingerprint, key.timestamp⟩
    else table
  | none => table.set key.keyId ⟨key.keyData, key.fingerprint, key.timestamp⟩

def sqliteSyncKeyStep (c : Connection) : SyncKeyOp → Connection × Reply
  | .get keyId => (c, .syncKey ((c.tables.appStateSyncKeys.get? keyId).map fun row =>
      ⟨keyId, row.keyData, row.fingerprint, row.timestamp⟩))
  | .put key =>
    match sqliteInteger key.timestamp with
    | .error e => (c, .done (.error e))
    | .ok () => (c.execute fun t => { t with
        appStateSyncKeys := upsertSyncKey key t.appStateSyncKeys }, .done (.ok ()))

def sqliteStep : Mealy Connection StoreOp Reply
  | c, .sessions op =>
    let (sessions, r) := sqliteSessionStore.step c.tables.sessions op
    (c.execute fun t => { t with sessions := sessions }, .session r)
  | c, .identities op =>
    let (table, r) := identityStore.step c.tables.identities op
    (c.execute fun t => { t with identities := table }, .identity r)
  | c, .lidMap op => sqliteLidStep c op
  | c, .prekeys op =>
    let (prekeys, r) := op.step sqlitePreKeyStore c.tables.prekeys
    (c.execute fun t => { t with prekeys := prekeys }, r)
  | c, .appStateKeys op => sqliteSyncKeyStep c op
  | c, .senderKeys op =>
    let (senderKeys, r) := sqliteSenderKeyStore.step c.tables.senderKeys op
    (c.execute fun t => { t with senderKeys := senderKeys }, .senderKey r)
  | c, .appState op =>
    let (appState, r) := op.step AppState.sqliteAppStateStore c.tables.appState
    (c.execute fun t => { t with appState := appState }, r)
  | c, .reopen => (c.reopen, .done (.ok ()))

end Sqlite

end PyWhats.Storage
