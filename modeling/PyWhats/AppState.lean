import PyWhats.Codec

/-! App-state collections: the LT-hash, the verification of snapshots and patches,
and their application to a store (`appstate/lthash.py`, `crypto.py`, `patches.py`
and the apply half of `fetch.py`). -/

namespace PyWhats.AppState

inductive SyncError where
  | appStateKeyNotFound (message : String)
  | contentMacMismatch (message : String)
  | indexMacMismatch (message : String)
  | snapshotMacMismatch (message : String)
  | patchMacMismatch (message : String)
  | valueError (message : String)
  | decodeError
  | overflowError
  | raised (e : PyError)
  deriving DecidableEq

inductive SyncdOperation where
  | set
  | remove
  | unknown (n : Int) (h : n ≠ 0 ∧ n ≠ 1)
  deriving DecidableEq

def SyncdOperation.number : SyncdOperation → Int
  | .set => 0
  | .remove => 1
  | .unknown n _ => n

structure SyncdRecord where
  index : Bytes
  value : Bytes
  keyId : Bytes
  deriving DecidableEq

structure SyncdMutation where
  operation : SyncdOperation
  record : SyncdRecord
  deriving DecidableEq

structure ExternalBlobReference where
  mediaKey : Bytes
  directPath : String
  fileSha256 : Bytes
  fileEncSha256 : Bytes
  deriving DecidableEq

structure SyncdPatch where
  version : Nat
  mutations : List SyncdMutation
  externalMutations : Option ExternalBlobReference := none
  snapshotMac : Bytes
  patchMac : Bytes
  keyId : Bytes
  deriving DecidableEq

structure SyncdSnapshot where
  version : Nat
  records : List SyncdRecord
  mac : Bytes
  keyId : Bytes
  deriving DecidableEq

/-- The action itself is handed on and not looked at. -/
structure SyncActionData where
  index : Bytes
  value : Bytes
  version : Int

/-- The libraries that app-state sync calls into. -/
structure Libraries where
  primitives : Primitives
  hmacSha512 : (key data : Bytes) → Bytes
  parseSyncActionData : Bytes → Option SyncActionData
  parseExternalBlobReference : Bytes → Option ExternalBlobReference
  parseSyncdSnapshot : Bytes → Option SyncdSnapshot
  parseSyncdPatch : Bytes → Option SyncdPatch
  parseSyncdMutations : Bytes → Option (List SyncdMutation)
  jsonLoads : Bytes → Option (List String)

/-- The root keys by key id. -/
abbrev AppStateKeyStore := Bytes → Option Bytes

def valueMacOf (blob : Bytes) : Bytes := blob.drop (blob.length - 32)

def contentOf (blob : Bytes) : Bytes := blob.take (blob.length - 32)

section LtHash

def fromBytesLittle : Bytes → Nat
  | [] => 0
  | b :: rest => b.toNat + 256 * fromBytesLittle rest

def toBytesLittle2 (n : Nat) : Bytes := [UInt8.ofNat n, UInt8.ofNat (n / 256)]

/-- The next `lanes` pairs of bytes of `base` with those of `comp` folded in. -/
def pointwiseLanes (subtract : Bool) : (lanes : Nat) → (base comp : Bytes) → Bytes
  | 0, base, _ => base
  | lanes + 1, base, comp =>
    let x : Int := fromBytesLittle (base.take 2)
    let y : Int := fromBytesLittle (comp.take 2)
    let r := ((if subtract then x - y else x + y) % 65536).toNat
    toBytesLittle2 r ++ pointwiseLanes subtract lanes (base.drop 2) (comp.drop 2)

def hkdfExpand (L : Libraries) (inputKeyMaterial info : Bytes) (length : Nat) : Bytes :=
  L.primitives.hkdf length (List.replicate 32 0) info inputKeyMaterial

def patchIntegrityInfo : Bytes := Binary.utf8Encode "WhatsApp Patch Integrity"

def pointwise (L : Libraries) (base item : Bytes) (subtract : Bool) : Bytes :=
  pointwiseLanes subtract 64 base (hkdfExpand L item patchIntegrityInfo 128)

def subtractThenAdd (L : Libraries) (base : Bytes) (added removed : List Bytes) : Bytes :=
  added.foldl (fun out item => pointwise L out item false)
    (removed.foldl (fun out item => pointwise L out item true) base)

end LtHash

structure HashState where
  version : Nat := 0
  hash : Bytes := List.replicate 128 0
  deriving DecidableEq

structure Mutation where
  operation : SyncdOperation
  index : List String
  action : Bytes
  indexMac : Bytes
  valueMac : Bytes
  keyId : Bytes
  version : Int
  deriving DecidableEq

structure PatchDecodeResult where
  state : HashState
  mutations : List Mutation
  deriving DecidableEq

structure ExpandedAppStateKeys where
  index : Bytes
  valueEncryption : Bytes
  valueMac : Bytes
  snapshotMac : Bytes
  patchMac : Bytes

section Decode

variable (L : Libraries) (keyStore : AppStateKeyStore) (validateMacs : Bool)

def mutationKeysInfo : Bytes := Binary.utf8Encode "WhatsApp Mutation Keys"

def expandAppStateKeys (keyData : Bytes) : ExpandedAppStateKeys :=
  let okm := hkdfExpand L keyData mutationKeysInfo 160
  { index := okm.take 32
    valueEncryption := (okm.drop 32).take 32
    valueMac := (okm.drop 64).take 32
    snapshotMac := (okm.drop 96).take 32
    patchMac := (okm.drop 128).take 32 }

def hexDigits : List Char := "0123456789abcdef".toList

def hex (data : Bytes) : String :=
  String.ofList (data.flatMap fun b =>
    [hexDigits.getD (b.toNat / 16) '0', hexDigits.getD (b.toNat % 16) '0'])

def resolveKeys (keyId : Bytes) : Except SyncError ExpandedAppStateKeys :=
  match keyStore keyId with
  | none => .error (.appStateKeyNotFound ("no app-state sync key for id " ++ hex keyId))
  | some keyData => .ok (expandAppStateKeys L keyData)

/-- `n.to_bytes(8, "big")`, which raises when the number does not fit. -/
def toBytes8 (n : Nat) : Except SyncError Bytes :=
  if n < 256 ^ 8 then .ok (Binary.toBytesBig 8 n) else .error .overflowError

/-- `bytes([operation + 1])` raises outside a byte. -/
def generateContentMac (operation : SyncdOperation) (data keyId valueMacKey : Bytes) :
    Except SyncError Bytes :=
  if 0 ≤ operation.number + 1 ∧ operation.number + 1 < 256 then do
    let keyIdLength ← toBytes8 (keyId.length + 1)
    return (L.hmacSha512 valueMacKey (Binary.byte (operation.number + 1).toNat :: keyId ++ data ++
      keyIdLength)).take 32
  else .error (.valueError "bytes must be in range(0, 256)")

def aesCbcDecrypt (key ivAndCiphertext : Bytes) : Except SyncError Bytes :=
  let iv := ivAndCiphertext.take 16
  let ciphertext := ivAndCiphertext.drop 16
  if ciphertext = [] ∨ ciphertext.length % 16 ≠ 0 then
    .error (.valueError
      ("ciphertext is not a multiple of the block size: " ++ toString ciphertext.length))
  else
    match L.primitives.aesCbcDecrypt key iv ciphertext with
    | none => .error (.valueError "Invalid IV size for CBC.")
    | some padded =>
      let pad := (padded.getLast?.getD 0).toNat
      if pad < 1 ∨ pad > 16 ∨ pad > padded.length then
        .error (.valueError "invalid PKCS#7 padding")
      else if padded.drop (padded.length - pad) ≠ List.replicate pad (Binary.byte pad) then
        .error (.valueError "invalid PKCS#7 padding")
      else .ok (padded.take (padded.length - pad))

/-- `_prev_set_value_mac`, with the earlier mutations of the patch newest first. -/
def prevSetValueMac (getPrevValueMac : Bytes → Option Bytes) (indexMac : Bytes) :
    (earlier : List SyncdMutation) → Option Bytes
  | [] => getPrevValueMac indexMac
  | m :: rest =>
    if m.record.index = indexMac then
      match m.operation with
      | .set => some (valueMacOf m.record.value)
      | _ => none
    else prevSetValueMac getPrevValueMac indexMac rest

/-- The value MACs that the loop of `_update_hash` adds and removes. -/
def hashDeltas (getPrevValueMac : Bytes → Option Bytes) :
    (earlier mutations : List SyncdMutation) → List Bytes × List Bytes
  | _, [] => ([], [])
  | earlier, m :: rest =>
    let (added, removed) := hashDeltas getPrevValueMac (m :: earlier) rest
    ((if m.operation = .set then [valueMacOf m.record.value] else []) ++ added,
      (prevSetValueMac getPrevValueMac m.record.index earlier).toList ++ removed)

def updateHash (prevHash : Bytes) (mutations : List SyncdMutation)
    (getPrevValueMac : Bytes → Option Bytes) : Bytes :=
  let (added, removed) := hashDeltas getPrevValueMac [] mutations
  subtractThenAdd L prevHash added removed

def verifySnapshotMac (state : HashState) (name : String) (snapshotMacKey expected : Bytes) :
    Except SyncError Unit := do
  let version ← toBytes8 state.version
  if L.primitives.hmac snapshotMacKey (state.hash ++ version ++ Binary.utf8Encode name) =
      expected then
    .ok ()
  else .error (.snapshotMacMismatch
    ("snapshot MAC mismatch for " ++ name ++ " v" ++ toString state.version))

def verifyPatchMac (patch : SyncdPatch) (name : String) (patchMacKey : Bytes) (version : Nat) :
    Except SyncError Unit := do
  let versionBytes ← toBytes8 version
  if L.primitives.hmac patchMacKey
      (patch.snapshotMac ++ patch.mutations.flatMap (fun m => valueMacOf m.record.value) ++
        versionBytes ++ Binary.utf8Encode name) = patch.patchMac then
    .ok ()
  else .error (.patchMacMismatch ("patch MAC mismatch for " ++ name ++ " v" ++ toString version))

def checkMac (computed expected : Bytes) (e : SyncError) : Except SyncError Unit :=
  if !validateMacs || computed = expected then .ok () else .error e

def checkContentMac (m : SyncdMutation) (keys : ExpandedAppStateKeys) : Except SyncError Unit :=
  if validateMacs then do
    let expected ← generateContentMac L m.operation (contentOf m.record.value) m.record.keyId
      keys.valueMac
    checkMac true expected (valueMacOf m.record.value)
      (.contentMacMismatch "mutation content MAC mismatch")
  else .ok ()

def parsed {α : Type} : Option α → Except SyncError α
  | some a => .ok a
  | none => .error .decodeError

def decodeMutation (m : SyncdMutation) : Except SyncError Mutation := do
  let keys ← resolveKeys L keyStore m.record.keyId
  checkContentMac L validateMacs m keys
  let plaintext ← aesCbcDecrypt L keys.valueEncryption (contentOf m.record.value)
  let actionData ← parsed (L.parseSyncActionData plaintext)
  checkMac validateMacs (L.primitives.hmac keys.index actionData.index) m.record.index
    (.indexMacMismatch "mutation index MAC mismatch")
  let index ← parsed (L.jsonLoads actionData.index)
  return {
    operation := m.operation
    index := index
    action := actionData.value
    indexMac := m.record.index
    valueMac := valueMacOf m.record.value
    keyId := m.record.keyId
    version := actionData.version }

def verifyPatch (patch : SyncdPatch) (name : String) (newState : HashState)
    (keys : ExpandedAppStateKeys) : Except SyncError Unit :=
  if validateMacs then do
    verifySnapshotMac L newState name keys.snapshotMac patch.snapshotMac
    verifyPatchMac L patch name keys.patchMac patch.version
  else .ok ()

def decodePatch (patch : SyncdPatch) (name : String) (prevState : HashState)
    (getPrevValueMac : Bytes → Option Bytes) : Except SyncError PatchDecodeResult := do
  let keys ← resolveKeys L keyStore patch.keyId
  let newState : HashState :=
    ⟨patch.version, updateHash L prevState.hash patch.mutations getPrevValueMac⟩
  verifyPatch L validateMacs patch name newState keys
  let decoded ← patch.mutations.mapM (decodeMutation L keyStore validateMacs)
  return ⟨newState, decoded⟩

def verifySnapshot (snapshot : SyncdSnapshot) (name : String) (newState : HashState) :
    Except SyncError Unit :=
  if validateMacs then do
    let keys ← resolveKeys L keyStore snapshot.keyId
    verifySnapshotMac L newState name keys.snapshotMac snapshot.mac
  else .ok ()

def snapshotMutations (snapshot : SyncdSnapshot) : List SyncdMutation :=
  snapshot.records.map fun r => ⟨.set, r⟩

def decodeSnapshot (snapshot : SyncdSnapshot) (name : String) (initialState : HashState) :
    Except SyncError PatchDecodeResult := do
  let mutations := snapshotMutations snapshot
  let added := mutations.map fun m => valueMacOf m.record.value
  let newState : HashState := ⟨snapshot.version, subtractThenAdd L initialState.hash added []⟩
  verifySnapshot L keyStore validateMacs snapshot name newState
  let decoded ← mutations.mapM (decodeMutation L keyStore validateMacs)
  return ⟨newState, decoded⟩

end Decode

structure MutationMac where
  indexMac : Bytes
  valueMac : Bytes
  deriving DecidableEq

/-- The protocol that the in-memory and the SQLite store implement. -/
structure AppStateStore (σ : Type) where
  getVersion : σ → String → HashState
  putVersion : σ → String → HashState → Except SyncError σ
  deleteVersion : σ → String → σ
  getMutationMac : σ → String → Bytes → Option Bytes
  putMutationMacs : σ → String → Nat → List MutationMac → σ
  deleteMutationMacs : σ → String → List Bytes → σ

structure PatchList where
  name : String
  hasMorePatches : Bool := false
  patches : List SyncdPatch := []
  snapshot : Option SyncdSnapshot := none

section Apply

/-- `_compute_mac_deltas`, from the lists gathered so far. -/
def macDeltas : (added : List MutationMac) → (removed : List Bytes) → List Mutation →
    List MutationMac × List Bytes
  | added, removed, [] => (added, removed)
  | added, removed, m :: rest =>
    match m.operation with
    | .remove =>
      macDeltas (added.filter fun a => a.indexMac ≠ m.indexMac) (removed ++ [m.indexMac]) rest
    | .set => macDeltas (added ++ [⟨m.indexMac, m.valueMac⟩]) removed rest
    | .unknown _ _ => macDeltas added removed rest

def computeMacDeltas (mutations : List Mutation) : List MutationMac × List Bytes :=
  macDeltas [] [] mutations

variable {σ : Type} (S : AppStateStore σ) (L : Libraries) (keyStore : AppStateKeyStore)
  (validateMacs : Bool)

def persist (store : σ) (name : String) (result : PatchDecodeResult) : Except SyncError σ := do
  let deltas := computeMacDeltas result.mutations
  let store ← S.putVersion store name result.state
  let store := if deltas.2 = [] then store else S.deleteMutationMacs store name deltas.2
  return if deltas.1 = [] then store
    else S.putMutationMacs store name result.state.version deltas.1

inductive Item where
  | snapshot (snapshot : SyncdSnapshot)
  | patch (patch : SyncdPatch)
  deriving DecidableEq

def PatchList.items (patchList : PatchList) : List Item :=
  patchList.snapshot.toList.map .snapshot ++ patchList.patches.map .patch

def decodeItem (store : σ) (name : String) (state : HashState) :
    Item → Except SyncError PatchDecodeResult
  | .snapshot snapshot => decodeSnapshot L keyStore validateMacs snapshot name state
  | .patch patch => decodePatch L keyStore validateMacs patch name state (S.getMutationMac store name)

/-- One pass of the loop of `apply_patch_list`: the item, the cursor it was decoded
from, the store before and after it, and what was decoded. -/
structure Applied (σ : Type) where
  name : String
  item : Item
  cursor : HashState
  before : σ
  result : PatchDecodeResult
  after : σ

def applyItem (store : σ) (name : String) (state : HashState) (item : Item) :
    Except SyncError (Applied σ) := do
  let result ← decodeItem S L keyStore validateMacs store name state item
  let after ← persist S store name result
  return ⟨name, item, state, store, result, after⟩

/-- How a call ends, the store it leaves and the items it applied on the way. -/
structure Outcome (σ : Type) where
  result : Except SyncError (List Mutation × HashState)
  store : σ
  applied : List (Applied σ)

def applyItems (name : String) (store : σ) (state : HashState) (mutations : List Mutation) :
    List Item → Outcome σ
  | [] => ⟨.ok (mutations, state), store, []⟩
  | item :: rest =>
    match applyItem S L keyStore validateMacs store name state item with
    | .error e => ⟨.error e, store, []⟩
    | .ok step =>
      let out := applyItems name step.after step.result.state (mutations ++ step.result.mutations) rest
      { out with applied := step :: out.applied }

def applyPatchList (patchList : PatchList) (store : σ) (initialState : HashState) : Outcome σ :=
  applyItems S L keyStore validateMacs patchList.name store initialState [] patchList.items

end Apply

section Demo

/-- Libraries without any strength, to run the model on: a plaintext is its own index. -/
def demoLibraries : Libraries where
  primitives := demoPrimitives
  hmacSha512 key data := demoDigest 64 (key ++ data)
  parseSyncActionData data := some ⟨data, [], 3⟩
  parseExternalBlobReference data := some ⟨data, "", [], []⟩
  parseSyncdSnapshot _ := none
  parseSyncdPatch _ := none
  parseSyncdMutations _ := none
  jsonLoads _ := some []

def demoName : String := "regular_low"

def demoKeyId : Bytes := [7]

def demoKeyStore : AppStateKeyStore := fun keyId => if keyId = demoKeyId then some [42] else none

def demoKeys : ExpandedAppStateKeys := expandAppStateKeys demoLibraries [42]

/-- The record of the one-byte index `k`, encrypted under the initialisation vector `v`. -/
def demoMutation (operation : SyncdOperation) (k v : UInt8) : SyncdMutation :=
  let content := (v :: List.replicate 15 0) ++ pkcs7Pad [k]
  let valueMac := (generateContentMac demoLibraries operation content demoKeyId
    demoKeys.valueMac).toOption.getD []
  ⟨operation, ⟨demoPrimitives.hmac demoKeys.index [k], content ++ valueMac, demoKeyId⟩⟩

def demoSnapshotMac (version : Nat) (hash : Bytes) : Bytes :=
  demoPrimitives.hmac demoKeys.snapshotMac
    (hash ++ Binary.toBytesBig 8 version ++ Binary.utf8Encode demoName)

/-- A patch that is signed for the hash it leads to. -/
def demoPatch (version : Nat) (hash : Bytes) (mutations : List SyncdMutation) : SyncdPatch :=
  let snapshotMac := demoSnapshotMac version hash
  { version := version
    mutations := mutations
    snapshotMac := snapshotMac
    patchMac := demoPrimitives.hmac demoKeys.patchMac
      (snapshotMac ++ mutations.flatMap (fun m => valueMacOf m.record.value) ++
        Binary.toBytesBig 8 version ++ Binary.utf8Encode demoName)
    keyId := demoKeyId }

def demoSnapshot (version : Nat) (mutations : List SyncdMutation) : SyncdSnapshot :=
  let hash := subtractThenAdd demoLibraries (List.replicate 128 0)
    (mutations.map fun m => valueMacOf m.record.value) []
  { version := version
    records := mutations.map SyncdMutation.record
    mac := demoSnapshotMac version hash
    keyId := demoKeyId }

/-- The hash of a collection that holds the values of these mutations. -/
def demoHash (mutations : List SyncdMutation) : Bytes :=
  subtractThenAdd demoLibraries (List.replicate 128 0)
    (mutations.map fun m => valueMacOf m.record.value) []

end Demo

end PyWhats.AppState
