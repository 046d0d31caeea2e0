import PyWhats.Collection
import PyWhats.Lib.Coroutine

/-! The fetch half of `appstate/fetch.py`: `AppStateSyncer` asks for a page, waits
for it, applies it to the store and goes on while the server has more. What `log`
and `passed` record is not in the source. -/

namespace PyWhats.AppState

inductive SyncRequest where
  | iq (content : Node)
  | download (ref : ExternalBlobReference)
  | onMutations (name : String) (mutations : List Mutation)

abbrev SyncRequest.Reply : SyncRequest → Type
  | .iq _ => Node
  | .download _ => Bytes
  | .onMutations _ _ => Unit

/-- A page that was not received, or one whose application stopped. -/
inductive Failure where
  | fetch (e : SyncError)
  | apply (e : SyncError)
  deriving DecidableEq

structure Page (σ : Type) where
  applied : List (Applied σ)
  failure : Option Failure

inductive SyncEvent (σ : Type) where
  | reset (name : String) (before : σ)
  | page (page : Page σ)

/-- The stores that the tasks of a client share. -/
structure SyncState (σ : Type) where
  keyStore : AppStateKeyStore
  store : σ
  log : List (SyncEvent σ) := []
  passed : List (List Mutation) := []

abbrev SyncM (σ : Type) := Co (SyncState σ) SyncRequest.Reply SyncError

def SyncError.isException : SyncError → Bool
  | .raised e => e.isException
  | _ => true

def buildFetchCollectionContent (name : String) (version : Nat) (wantSnapshot : Bool) : Node :=
  let attrs : List (String × AttrValue) :=
    [("name", .str name), ("return_snapshot", .str (if wantSnapshot then "true" else "false"))] ++
      if wantSnapshot then [] else [("version", .str (toString version))]
  .mk "sync" [] (.nodes [.mk "collection" attrs .none])

/-- `_attr_bool`. No character beyond ASCII has a lower case in `true`. -/
def attrBool (node : Node) (name : String) : Bool :=
  decide ((node.getStr name).toLower ∈ ["true", "1"])

section Pages

variable {σ : Type} (S : AppStateStore σ) (L : Libraries) (downloadExternal : Bool)

def fetchCollection (name : String) (version : Nat) (wantSnapshot : Bool) : SyncM σ Node := do
  let resp ← Co.wait (.iq (buildFetchCollectionContent name version wantSnapshot))
  match (resp.getChild "sync").bind (·.getChild "collection") with
  | some collection => return collection
  | none => Co.raise (.valueError
      ("app-state fetch for " ++ name ++ " missing <sync><collection>"))

def parseSnapshot (collection : Node) : SyncM σ (Option SyncdSnapshot) :=
  match collection.getChild "snapshot" with
  | none => return none
  | some node =>
    if node.contentBytes = [] then return none
    else do
      let ref ← Co.lift (parsed (L.parseExternalBlobReference node.contentBytes))
      if downloadExternal then
        let data ← Co.wait (.download ref)
        let snapshot ← Co.lift (parsed (L.parseSyncdSnapshot data))
        return some snapshot
      else Co.raise (.valueError
        "app-state snapshot is an external blob; a media downloader (#36) is required")

def parsePatch (raw : Bytes) : SyncM σ SyncdPatch := do
  let patch ← Co.lift (parsed (L.parseSyncdPatch raw))
  match patch.externalMutations with
  | none => return patch
  | some ref =>
    if downloadExternal then
      let data ← Co.wait (.download ref)
      let mutations ← Co.lift (parsed (L.parseSyncdMutations data))
      return { patch with mutations := mutations }
    else Co.raise (.valueError
      "app-state patch has external mutations; a media downloader (#36) is required")

def parsePatchNodes : List Node → SyncM σ (List SyncdPatch)
  | [] => return []
  | node :: rest =>
    if node.contentBytes = [] then parsePatchNodes rest
    else do
      let patch ← parsePatch L downloadExternal node.contentBytes
      let patches ← parsePatchNodes rest
      return patch :: patches

def parsePatches (collection : Node) : SyncM σ (List SyncdPatch) :=
  match collection.getChild "patches" with
  | none => return []
  | some node => parsePatchNodes L downloadExternal (node.getChildren "patch")

def parsePatchList (collection : Node) : SyncM σ PatchList := do
  let snapshot ← parseSnapshot L downloadExternal collection
  let patches ← parsePatches L downloadExternal collection
  return {
    name := collection.getStr "name"
    hasMorePatches := attrBool collection "has_more_patches"
    patches := patches
    snapshot := snapshot }

def SyncState.record (event : SyncEvent σ) (s : SyncState σ) : SyncState σ :=
  { s with log := s.log ++ [event] }

def nextPage (name : String) (version : Nat) (wantSnapshot : Bool) : SyncM σ PatchList :=
  Co.tryCatch (do
    let collection ← fetchCollection name version wantSnapshot
    parsePatchList L downloadExternal collection) fun e => do
    Co.modify (SyncState.record (.page ⟨[], some (.fetch e)⟩))
    Co.raise e

def Outcome.page (out : Outcome σ) : Page σ :=
  ⟨out.applied, match out.result with
    | .ok _ => none
    | .error e => some (.apply e)⟩

def SyncState.outcome (patchList : PatchList) (cursor : HashState) (s : SyncState σ) : Outcome σ :=
  applyPatchList S L s.keyStore true patchList s.store cursor

def SyncState.applyPage (patchList : PatchList) (cursor : HashState) (s : SyncState σ) :
    SyncState σ :=
  { s with store := (s.outcome S L patchList cursor).store }.record
    (.page (s.outcome S L patchList cursor).page)

/-- `apply_patch_list` does not wait: other tasks see the store before it or after it. -/
def applyPage (patchList : PatchList) (cursor : HashState) :
    SyncM σ (Except SyncError (List Mutation × HashState)) :=
  Co.act (SyncState.applyPage S L patchList cursor) fun s =>
    return (s.outcome S L patchList cursor).result

/-- The loop of `fetch`. When no page is left of `pages`, the task is cancelled while it
waits for the next one. -/
def fetchLoop (name : String) : (pages : Nat) → (state : HashState) → (wantSnapshot : Bool) →
    (allMutations : List Mutation) → SyncM σ (List Mutation)
  | 0, _, _, _ => do
    Co.modify (SyncState.record (.page ⟨[], some (.fetch (.raised .cancelledError))⟩))
    Co.raise (.raised .cancelledError)
  | pages + 1, state, wantSnapshot, allMutations => do
    let patchList ← nextPage L downloadExternal name state.version wantSnapshot
    match ← applyPage S L patchList state with
    | .ok (mutations, state) =>
      if patchList.hasMorePatches then
        fetchLoop name pages state false (allMutations ++ mutations)
      else return allMutations ++ mutations
    | .error (.appStateKeyNotFound _) => return allMutations
    | .error e => Co.raise e

def SyncState.reset (name : String) (s : SyncState σ) : SyncState σ :=
  { s with store := S.deleteVersion s.store name }.record (.reset name s.store)

def SyncState.pass (mutations : List Mutation) (s : SyncState σ) : SyncState σ :=
  { s with passed := s.passed ++ [mutations] }

variable (onMutations : Bool)

def passOn (name : String) (allMutations : List Mutation) : SyncM σ Unit :=
  if allMutations ≠ [] ∧ onMutations = true then do
    Co.modify (SyncState.pass allMutations)
    Co.wait (SyncRequest.onMutations name allMutations)
  else return

/-- `fetch` once it has read its cursor. -/
def fetchFrom (pages : Nat) (name : String) (fullSync onlyIfNotSynced : Bool) (state : HashState) :
    SyncM σ (List Mutation) :=
  if state.version ≠ 0 ∧ onlyIfNotSynced = true then return []
  else do
    let allMutations ← fetchLoop S L downloadExternal name pages state
      (fullSync || state.version == 0) []
    passOn onMutations name allMutations
    return allMutations

/-- `AppStateSyncer.fetch`, cancelled after `pages` pages if it has not ended by then. -/
def fetch (pages : Nat) (name : String) (fullSync onlyIfNotSynced : Bool) :
    SyncM σ (List Mutation) := do
  if fullSync then Co.modify (SyncState.reset S name)
  let s ← Co.get
  fetchFrom S L downloadExternal onMutations pages name fullSync onlyIfNotSynced
    (S.getVersion s.store name)

def handleCollections (pages : Nat) : List Node → SyncM σ Unit
  | [] => return
  | collection :: rest => do
    let name := collection.getStr "name"
    if name ≠ "" then
      Co.tryCatch (do let _ ← fetch S L downloadExternal onMutations pages name false false) fun e =>
        if e.isException then return else Co.raise e
    handleCollections pages rest

def handleServerSync (pages : Nat) (node : Node) : SyncM σ Unit :=
  handleCollections S L downloadExternal onMutations pages (node.getChildren "collection")

/-- What a client starts: fetches, handlers of `server_sync` notifications, and the
arrival of app-state keys. -/
inductive SyncTask : SyncM σ Unit → Prop
  | fetch (pages : Nat) (name : String) (fullSync onlyIfNotSynced : Bool) :
      SyncTask (do
        let _ ← fetch S L downloadExternal onMutations pages name fullSync onlyIfNotSynced)
  | handleServerSync (pages : Nat) (node : Node) :
      SyncTask (handleServerSync S L downloadExternal onMutations pages node)
  | keyShare (keyStore : AppStateKeyStore) :
      SyncTask (Co.modify fun s => { s with keyStore := keyStore })

def syncInterface (Answer : SyncState σ → (q : SyncRequest) → Except SyncError q.Reply → Prop) :
    Machine.Interface (SyncState σ) SyncRequest.Reply SyncError where
  Task _ p := SyncTask S L downloadExternal onMutations p
  Item _ _ := False
  Answer := Answer

end Pages

section Demo

/-- The demo libraries, with the snapshot and the two patches of a small server as the
bytes `1`, `2` and `3`. -/
def demoWire : Libraries :=
  { demoLibraries with
    parseSyncdSnapshot := fun data =>
      if data = [1] then some (demoSnapshot 1 [demoMutation .set 1 10]) else none
    parseSyncdPatch := fun data =>
      if data = [2] then
        some (demoPatch 2 (demoHash [demoMutation .set 1 20]) [demoMutation .set 1 20])
      else if data = [3] then
        some { demoPatch 3 (demoHash [demoMutation .set 1 20]) [] with keyId := [8] }
      else none }

def demoPage (hasMore : Bool) (children : List Node) : Node :=
  .mk "iq" [] (.nodes [.mk "sync" [] (.nodes [.mk "collection"
    [("name", .str demoName), ("has_more_patches", .str (if hasMore then "true" else "false"))]
    (.nodes children)])])

def demoPatchNodes (patches : List Bytes) : List Node :=
  [.mk "patches" [] (.nodes (patches.map fun raw => .mk "patch" [] (.bytes raw)))]

/-- A server whose snapshot is of version 1; the patches follow it. -/
def demoServer (patches : List Bytes) (_ : SyncState InMemory) :
    (q : SyncRequest) → Except SyncError q.Reply
  | .iq content =>
    match content.children.map fun c => (c.getStr "return_snapshot", c.getStr "version") with
    | [("true", _)] => .ok (demoPage true [.mk "snapshot" [] (.bytes [1])])
    | [(_, "1")] => .ok (demoPage false (demoPatchNodes patches))
    | _ => .ok (demoPage false [])
  | .download _ => .ok [1]
  | .onMutations _ _ => .ok ()

def demoSyncState : SyncState InMemory := ⟨demoKeyStore, {}, [], []⟩

def demoFetch : SyncM InMemory Unit := do
  let _ ← fetch inMemoryAppStateStore demoWire true true 5 demoName false false

end Demo

end PyWhats.AppState
