import PyWhats.AppStateStores
import PyWhats.Lib.AtomicFold

/-! `apply_patch_list` statement by statement, in a monad whose exceptions keep what was
written before them: the outcomes of `applyPatchList` are what these runs leave, and a
failing element has written nothing. -/

namespace PyWhats.AppState

def PatchList.cut (patchList : PatchList) (n : Nat) : PatchList :=
  match patchList.snapshot with
  | none => { patchList with patches := patchList.patches.take n }
  | some _ =>
    match n with
    | 0 => { patchList with snapshot := none, patches := [] }
    | n + 1 => { patchList with patches := patchList.patches.take n }

theorem PatchList.items_cut (patchList : PatchList) (n : Nat) :
    (patchList.cut n).items = patchList.items.take n := by
  simp only [cut, items]
  cases patchList.snapshot with
  | none => simp [List.map_take]
  | some s => cases n <;> simp [List.map_take]

theorem PatchList.name_cut (patchList : PatchList) (n : Nat) :
    (patchList.cut n).name = patchList.name := by
  simp only [cut]
  cases patchList.snapshot with
  | none => rfl
  | some s => cases n <;> rfl

namespace Effectful

variable {σ : Type} (S : AppStateStore σ) (L : Libraries) (keyStore : AppStateKeyStore)
  (validateMacs : Bool)

def putVersion (name : String) (state : HashState) : EStateM SyncError σ Unit := do
  set (← ofExcept (S.putVersion (← get) name state))

def deleteMutationMacs (name : String) (indexMacs : List Bytes) : EStateM SyncError σ Unit :=
  modify fun store => S.deleteMutationMacs store name indexMacs

def putMutationMacs (name : String) (version : Nat) (macs : List MutationMac) :
    EStateM SyncError σ Unit :=
  modify fun store => S.putMutationMacs store name version macs

def persist (name : String) (result : PatchDecodeResult) : EStateM SyncError σ Unit := do
  let (added, removed) := computeMacDeltas result.mutations
  putVersion S name result.state
  if removed ≠ [] then
    deleteMutationMacs S name removed
  if added ≠ [] then
    putMutationMacs S name result.state.version added

/-- One element: decoding only reads the store, through `get_mutation_mac`. -/
def applyItem (name : String) (done : List Mutation × HashState) (item : Item) :
    EStateM SyncError σ (List Mutation × HashState) := do
  let result ← ofExcept (decodeItem S L keyStore validateMacs (← get) name done.2 item)
  persist S name result
  return (done.1 ++ result.mutations, result.state)

def applyPatchList (patchList : PatchList) (initialState : HashState) :
    EStateM SyncError σ (List Mutation × HashState) :=
  patchList.items.foldlM (applyItem S L keyStore validateMacs patchList.name) ([], initialState)

variable {S L keyStore validateMacs}

theorem get_run (store : σ) : (get : EStateM SyncError σ σ) store = .ok store store := rfl

theorem putVersion_run (store : σ) (name : String) (state : HashState) :
    putVersion S name state store =
      match S.putVersion store name state with
      | .error e => .error e store
      | .ok after => .ok () after := by
  simp only [putVersion, bind, EStateM.bind, get_run]
  cases S.putVersion store name state <;> rfl

theorem persist_run (store : σ) (name : String) (result : PatchDecodeResult) :
    persist S name result store =
      match AppState.persist S store name result with
      | .error e => .error e store
      | .ok after => .ok () after := by
  simp only [persist, AppState.persist, bind, EStateM.bind, Except.bind, putVersion_run]
  cases S.putVersion store name result.state with
  | error e => rfl
  | ok stored =>
    by_cases hremoved : (computeMacDeltas result.mutations).2 = [] <;>
      by_cases hadded : (computeMacDeltas result.mutations).1 = [] <;>
        simp [hremoved, hadded] <;> rfl

theorem applyItem_run (store : σ) (name : String) (done : List Mutation × HashState)
    (item : Item) :
    applyItem S L keyStore validateMacs name done item store =
      match AppState.applyItem S L keyStore validateMacs store name done.2 item with
      | .error e => .error e store
      | .ok step => .ok (done.1 ++ step.result.mutations, step.result.state) step.after := by
  simp only [applyItem, AppState.applyItem, bind, EStateM.bind, Except.bind, get_run]
  cases decodeItem S L keyStore validateMacs store name done.2 item with
  | error e => rfl
  | ok result =>
    have hpersist := persist_run (S := S) store name result
    cases hstored : AppState.persist S store name result with
    | error e =>
      simp only [hstored] at hpersist
      simp only [ofExcept, pure, EStateM.pure, hpersist, hstored]
    | ok after =>
      simp only [hstored] at hpersist
      simp only [ofExcept, pure, Except.pure, EStateM.pure, hpersist, hstored]

theorem applyItem_keepsOnError (name : String) (done : List Mutation × HashState) (item : Item) :
    AtomicFold.KeepsOnError (applyItem S L keyStore validateMacs name done item) := by
  intro store after e h
  rw [applyItem_run] at h
  cases hitem : AppState.applyItem S L keyStore validateMacs store name done.2 item with
  | error e' =>
    simp only [hitem] at h
    cases h
    rfl
  | ok step => simp [hitem] at h

/-- The outcome is what the run leaves, raised or not. -/
theorem foldlM_applyItem_run (name : String) (store : σ) (done : List Mutation × HashState)
    (items : List Item) :
    items.foldlM (applyItem S L keyStore validateMacs name) done store =
      match (applyItems S L keyStore validateMacs name store done.2 done.1 items).result with
      | .error e => .error e (applyItems S L keyStore validateMacs name store done.2 done.1 items).store
      | .ok r => .ok r (applyItems S L keyStore validateMacs name store done.2 done.1 items).store := by
  induction items generalizing store done with
  | nil => rfl
  | cons item rest ih =>
    rw [AtomicFold.foldlM_cons_run, applyItem_run, applyItems]
    cases AppState.applyItem S L keyStore validateMacs store name done.2 item with
    | error e => rfl
    | ok step => exact ih step.after _

theorem applyPatchList_run (patchList : PatchList) (initialState : HashState) (store : σ) :
    applyPatchList S L keyStore validateMacs patchList initialState store =
      match (AppState.applyPatchList S L keyStore validateMacs patchList store initialState).result
      with
      | .error e => .error e
        (AppState.applyPatchList S L keyStore validateMacs patchList store initialState).store
      | .ok r => .ok r
        (AppState.applyPatchList S L keyStore validateMacs patchList store initialState).store :=
  foldlM_applyItem_run patchList.name store ([], initialState) patchList.items

end Effectful

theorem failing_element_leaves_last_good (L : Libraries) (keyStore : AppStateKeyStore)
    (validateMacs : Bool) (patchList : PatchList) (cursor : HashState) (store after : InMemory)
    (e : SyncError) :
    Effectful.applyPatchList inMemoryAppStateStore L keyStore validateMacs patchList cursor store =
        .error e after ↔
      ∃ k item done, patchList.items[k]? = some item ∧
        Effectful.applyPatchList inMemoryAppStateStore L keyStore validateMacs (patchList.cut k)
          cursor store = .ok done after ∧
        Effectful.applyItem inMemoryAppStateStore L keyStore validateMacs patchList.name done item
          after = .error e after := by
  simp only [Effectful.applyPatchList, PatchList.items_cut, PatchList.name_cut]
  exact AtomicFold.foldlM_error_iff fun done item => Effectful.applyItem_keepsOnError _ done item

end PyWhats.AppState
