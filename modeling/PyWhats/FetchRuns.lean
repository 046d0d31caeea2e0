import PyWhats.CollectionRuns
import PyWhats.Fetch

/-! Runs of `AppStateSyncer`. Any number of fetches share one store, and each
carries its own cursor while it waits for the next page. -/

namespace PyWhats.AppState

section Silent

variable {σ : Type} {L : Libraries} {downloadExternal : Bool}

theorem fetchCollection_silent (name : String) (version : Nat) (wantSnapshot : Bool) :
    (fetchCollection name version wantSnapshot : SyncM σ Node).Silent := by
  apply Co.silent_bind (Co.silent_wait _)
  intro resp
  split <;> trivial

theorem parseSnapshot_silent (collection : Node) :
    (parseSnapshot L downloadExternal collection : SyncM σ _).Silent := by
  rw [parseSnapshot]
  split
  · trivial
  · split
    · trivial
    · apply Co.silent_bind (Co.silent_lift _)
      intro ref
      split
      · apply Co.silent_bind (Co.silent_wait _)
        intro data
        exact Co.silent_bind (Co.silent_lift _) fun _ => trivial
      · trivial

theorem parsePatch_silent (raw : Bytes) :
    (parsePatch L downloadExternal raw : SyncM σ _).Silent := by
  apply Co.silent_bind (Co.silent_lift _)
  intro patch
  split
  · trivial
  · split
    · apply Co.silent_bind (Co.silent_wait _)
      intro data
      exact Co.silent_bind (Co.silent_lift _) fun _ => trivial
    · trivial

theorem parsePatchNodes_silent (nodes : List Node) :
    (parsePatchNodes L downloadExternal nodes : SyncM σ _).Silent := by
  induction nodes with
  | nil => trivial
  | cons node rest ih =>
    rw [parsePatchNodes]
    split
    · exact ih
    · exact Co.silent_bind (parsePatch_silent _) fun _ => Co.silent_bind ih fun _ => trivial

theorem parsePatchList_silent (collection : Node) :
    (parsePatchList L downloadExternal collection : SyncM σ _).Silent := by
  apply Co.silent_bind (parseSnapshot_silent _)
  intro snapshot
  refine Co.silent_bind ?_ fun _ => trivial
  rw [parsePatches]
  split
  · trivial
  · exact parsePatchNodes_silent _

theorem receivePage_silent (name : String) (version : Nat) (wantSnapshot : Bool) :
    (fetchCollection name version wantSnapshot >>= parsePatchList L downloadExternal :
      SyncM σ _).Silent :=
  Co.silent_bind (fetchCollection_silent _ _ _) parsePatchList_silent

end Silent

section Steps

variable {σ : Type} (S : AppStateStore σ) (L : Libraries)

/-- What a task does between two waits. -/
inductive SyncStep : SyncState σ → SyncState σ → Prop
  | page (patchList : PatchList) (cursor : HashState) {s : SyncState σ} :
      SyncStep s (s.applyPage S L patchList cursor)
  | lost (e : SyncError) {s : SyncState σ} :
      SyncStep s (s.record (.page ⟨[], some (.fetch e)⟩))
  | reset (name : String) {s : SyncState σ} : SyncStep s (s.reset S name)
  | pass (mutations : List Mutation) {s : SyncState σ} : SyncStep s (s.pass mutations)
  | keyShare (keyStore : AppStateKeyStore) {s : SyncState σ} :
      SyncStep s { s with keyStore := keyStore }

variable {S L} {downloadExternal onMutations : Bool}

theorem lose_stepwise (e : SyncError) {α : Type} :
    (do
      Co.modify (SyncState.record (.page ⟨[], some (.fetch e)⟩))
      Co.raise e : SyncM σ α).Stepwise (SyncStep S L) :=
  .bind (.modify fun _ => .lost e) fun _ => .ret _

theorem fetchLoop_stepwise (name : String) (pages : Nat) (state : HashState) (wantSnapshot : Bool)
    (allMutations : List Mutation) :
    (fetchLoop S L downloadExternal name pages state wantSnapshot allMutations).Stepwise
      (SyncStep S L) := by
  induction pages generalizing state wantSnapshot allMutations with
  | zero => exact lose_stepwise _
  | succ pages ih =>
    have hnext : (nextPage L downloadExternal name state.version wantSnapshot : SyncM σ _).Stepwise
        (SyncStep S L) :=
      .tryCatch (.of_silent (receivePage_silent _ _ _)) fun e => lose_stepwise e
    refine .bind hnext fun patchList => ?_
    have happly : (applyPage S L patchList state).Stepwise (SyncStep S L) :=
      .act (fun _ => .page patchList state) fun _ => .ret _
    refine .bind happly fun r => ?_
    split
    · split
      · exact ih _ _ _
      · exact .ret _
    · exact .ret _
    · exact .ret _

theorem fetch_stepwise (pages : Nat) (name : String) (fullSync onlyIfNotSynced : Bool) :
    (fetch S L downloadExternal onMutations pages name fullSync onlyIfNotSynced).Stepwise
      (SyncStep S L) := by
  have hpass : ∀ ms, (passOn onMutations name ms : SyncM σ Unit).Stepwise (SyncStep S L) := by
    intro ms
    rw [passOn]
    split
    · exact .bind (.modify fun _ => .pass ms) fun _ => .wait _
    · exact .ret _
  have hfrom : ∀ state, (fetchFrom S L downloadExternal onMutations pages name fullSync
      onlyIfNotSynced state).Stepwise (SyncStep S L) := by
    intro state
    rw [fetchFrom]
    split
    · exact .ret _
    · exact .bind (fetchLoop_stepwise _ _ _ _ _) fun ms => .bind (hpass ms) fun _ => .ret _
  rw [fetch]
  split
  · exact .bind (.modify fun _ => .reset name) fun _ => .get_bind fun _ => hfrom _
  · exact .get_bind fun _ => hfrom _

theorem handleServerSync_stepwise (pages : Nat) (node : Node) :
    (handleServerSync S L downloadExternal onMutations pages node).Stepwise (SyncStep S L) := by
  rw [handleServerSync]
  induction node.getChildren "collection" with
  | nil => exact .ret _
  | cons collection rest ih =>
    rw [handleCollections]
    have hfetch : (fetch S L downloadExternal onMutations pages (collection.getStr "name") false
        false).Stepwise (SyncStep S L) := fetch_stepwise pages _ false false
    split
    · refine .bind (.tryCatch (.bind hfetch fun _ => .ret _) fun e => ?_) fun _ => ih
      split <;> exact .ret _
    · exact ih

theorem syncInterface_safe
    {Answer : SyncState σ → (q : SyncRequest) → Except SyncError q.Reply → Prop} :
    Machine.SafeInterface (syncInterface S L downloadExternal onMutations Answer) (SyncStep S L)
      (fun _ _ => False) (fun _ => True) (fun _ => True) := by
  refine ⟨fun s p hp => ?_, fun _ _ hp => hp.elim⟩
  cases hp with
  | fetch pages name fullSync onlyIfNotSynced =>
    exact Co.Stepwise.bind (fetch_stepwise pages name fullSync onlyIfNotSynced) (fun _ => .ret _) s
  | handleServerSync pages node => exact handleServerSync_stepwise pages node s
  | keyShare keyStore => exact Co.Stepwise.modify (fun _ => .keyShare keyStore) s

end Steps

section Concurrent

variable {σ : Type} {S : AppStateStore σ} {L : Libraries} {V : S.View}

def SyncEvent.applied : SyncEvent σ → List (Applied σ)
  | .reset _ _ => []
  | .page p => p.applied

def appliedIn (log : List (SyncEvent σ)) : List (Applied σ) := log.flatMap SyncEvent.applied

/-- Every item is folded onto the hash that is stored when it is applied and is not
older than what is stored, and a reset finds nothing to delete. -/
def SyncEvent.InTurn (S : AppStateStore σ) (L : Libraries) : SyncEvent σ → Prop
  | .reset name before => (S.getVersion before name).version = 0
  | .page p => ∀ step ∈ p.applied, step.item.Fits S L step.before step.name step.cursor ∧
      (S.getVersion step.before step.name).version ≤ step.item.version

instance (event : SyncEvent σ) : Decidable (event.InTurn S L) :=
  match event with
  | .reset _ _ => inferInstanceAs (Decidable (_ = _))
  | .page _ => inferInstanceAs (Decidable (∀ step ∈ _, _ ∧ _))

/-- The hash is the sum of the stored MACs, now and after every item, and no item was
newer than what is stored now. -/
structure Synced (V : S.View) (L : Libraries) (store : σ) (applied : List (Applied σ)) : Prop where
  sound : ∀ n, Sound V L store n
  coherent : ∀ step ∈ applied, Coherent S L step.after step.name
  version : ∀ step ∈ applied, step.item.version ≤ (S.getVersion store step.name).version

theorem Synced.applyItem {keyStore : AppStateKeyStore} {validateMacs : Bool} {name : String}
    {cursor : HashState} {item : Item} {step : Applied σ} {store : σ} {applied : List (Applied σ)}
    (hs : Synced V L store applied)
    (h : applyItem S L keyStore validateMacs store name cursor item = .ok step)
    (hfits : step.item.Fits S L step.before step.name step.cursor)
    (hversion : (S.getVersion step.before step.name).version ≤ step.item.version) :
    Synced V L step.after (applied ++ [step]) := by
  have hstored := applyItem_version V h
  have hsound := applyItem_sound hs.sound h
  obtain ⟨rfl, rfl, rfl, rfl, -, hpersist⟩ := applyItem_spec h
  have hafter := hsound hversion hfits
  refine ⟨hafter, ?_, ?_⟩
  · rw [List.forall_mem_append, List.forall_mem_singleton]
    exact ⟨hs.coherent, (hafter step.name).coherent⟩
  · rw [List.forall_mem_append, List.forall_mem_singleton]
    refine ⟨fun old hold => ?_, Nat.le_of_eq hstored.symm⟩
    by_cases hn : old.name = step.name
    · rw [hn, hstored]
      have hold' := hs.version old hold
      rw [hn] at hold'
      exact hold'.trans hversion
    · rw [(persist_other V hn hpersist).1]
      exact hs.version old hold

theorem Synced.applyItems {keyStore : AppStateKeyStore} {validateMacs : Bool} {name : String}
    {items : List Item} {cursor : HashState} {mutations : List Mutation} {store : σ}
    {applied : List (Applied σ)} (hs : Synced V L store applied)
    (hturn : ∀ step ∈ (applyItems S L keyStore validateMacs name store cursor mutations
        items).applied,
      step.item.Fits S L step.before step.name step.cursor ∧
        (S.getVersion step.before step.name).version ≤ step.item.version) :
    Synced V L (applyItems S L keyStore validateMacs name store cursor mutations items).store
      (applied ++ (applyItems S L keyStore validateMacs name store cursor mutations
        items).applied) := by
  induction items generalizing store cursor mutations applied with
  | nil =>
    rw [AppState.applyItems, List.append_nil]
    exact hs
  | cons item rest ih =>
    rw [AppState.applyItems] at hturn ⊢
    cases happly : AppState.applyItem S L keyStore validateMacs store name cursor item with
    | error e =>
      rw [List.append_nil]
      exact hs
    | ok step =>
      rw [happly, List.forall_mem_cons] at hturn
      have hrest := ih (hs.applyItem happly hturn.1.1 hturn.1.2) hturn.2
      rw [List.append_assoc] at hrest
      exact hrest

theorem sound_new {store : σ} {name : String} (hversion : S.getVersion store name = {})
    (hnone : ∀ k, S.getMutationMac store name k = none) : Sound V L store name := by
  refine ⟨⟨[], List.nodup_nil, fun k => ?_, by rw [hversion]; rfl⟩, fun k e he => ?_⟩
  · rw [hnone]
    simp
  · have hk := hnone k
    rw [V.getMutationMac_eq, he] at hk
    cases hk

theorem Synced.deleteVersion {store : σ} {name : String} {applied : List (Applied σ)}
    (hs : Synced V L store applied) (h : (S.getVersion store name).version = 0) :
    Synced V L (S.deleteVersion store name) applied := by
  have hversion := V.getVersion_deleteVersion store name
  have hnewest := V.newest_deleteVersion store name
  refine ⟨fun n => ?_, hs.coherent, fun step hstep => ?_⟩
  · by_cases hn : n = name
    · subst hn
      apply sound_new
      · rw [hversion, Function.update_self]
      · intro k
        rw [V.getMutationMac_eq, hnewest, Function.update_self]
        rfl
    · refine (hs.sound n).congr V ?_ ?_
      · rw [hversion, Function.update_of_ne hn]
      · rw [hnewest, Function.update_of_ne hn]
  · have hold := hs.version step hstep
    rw [hversion]
    by_cases hn : step.name = name
    · rw [hn, h] at hold
      exact hold.trans (Nat.zero_le _)
    · rw [Function.update_of_ne hn]
      exact hold

theorem appliedIn_concat (log : List (SyncEvent σ)) (event : SyncEvent σ) :
    appliedIn (log ++ [event]) = appliedIn log ++ event.applied := by
  simp [appliedIn]

theorem SyncStep.synced {s s' : SyncState σ} (h : SyncStep S L s s')
    (hs : (∀ e ∈ s.log, e.InTurn S L) → Synced V L s.store (appliedIn s.log))
    (hlog : ∀ e ∈ s'.log, e.InTurn S L) : Synced V L s'.store (appliedIn s'.log) := by
  cases h with
  | page patchList cursor =>
    simp only [SyncState.applyPage, SyncState.record, List.forall_mem_append,
      List.forall_mem_singleton, appliedIn_concat] at hlog ⊢
    exact (hs hlog.1).applyItems hlog.2
  | lost e =>
    simp only [SyncState.record, List.forall_mem_append, appliedIn_concat] at hlog ⊢
    rw [SyncEvent.applied, List.append_nil]
    exact hs hlog.1
  | reset name =>
    simp only [SyncState.reset, SyncState.record, List.forall_mem_append,
      List.forall_mem_singleton, appliedIn_concat] at hlog ⊢
    rw [SyncEvent.applied, List.append_nil]
    exact (hs hlog.1).deleteVersion hlog.2
  | pass ms => exact hs hlog
  | keyShare k => exact hs hlog

theorem synced_run {s t : SyncState σ} (hs : Synced V L s.store (appliedIn s.log))
    (h : Relation.ReflTransGen (SyncStep S L) s t) (hlog : ∀ e ∈ t.log, e.InTurn S L) :
    Synced V L t.store (appliedIn t.log) := by
  induction h with
  | refl => exact hs
  | tail _ hstep ih => exact hstep.synced ih hlog

theorem concurrent_fetches_safe (V : S.View) {downloadExternal onMutations : Bool}
    {Answer : SyncState σ → (q : SyncRequest) → Except SyncError q.Reply → Prop}
    {s : SyncState σ} (hlog : s.log = [])
    (hnew : ∀ name, S.getVersion s.store name = {} ∧ ∀ k, S.getMutationMac s.store name k = none)
    {m : Machine (SyncState σ) SyncRequest.Reply SyncError}
    (hrun : Relation.ReflTransGen
      (Machine.Step (syncInterface S L downloadExternal onMutations Answer)) (Machine.idle s) m)
    (hturn : ∀ e ∈ m.state.log, e.InTurn S L) :
    (∀ name, Coherent S L m.state.store name) ∧
      ∀ step ∈ appliedIn m.state.log, Coherent S L step.after step.name ∧
        step.item.version ≤ (S.getVersion m.state.store step.name).version := by
  have hstart : Synced V L s.store (appliedIn s.log) := by
    rw [hlog]
    exact ⟨fun n => sound_new (hnew n).1 (hnew n).2, fun _ h => absurd h List.not_mem_nil,
      fun _ h => absurd h List.not_mem_nil⟩
  have hsteps := (Machine.run_sound syncInterface_safe (Machine.allReady_idle s) hrun).2
  have hend := synced_run hstart hsteps hturn
  exact ⟨fun name => (hend.sound name).coherent,
    fun step hstep => ⟨hend.coherent step hstep, hend.version step hstep⟩⟩

theorem demoFetch_task : SyncTask inMemoryAppStateStore demoWire true true demoFetch :=
  .fetch 5 demoName false false

abbrev DemoMachine := Machine (SyncState InMemory) SyncRequest.Reply SyncError

/-- The answers of the demo server and no others. -/
def demoSync (patches : List Bytes) :
    Machine.Interface (SyncState InMemory) SyncRequest.Reply SyncError :=
  syncInterface inMemoryAppStateStore demoWire true true fun s q r => r = demoServer patches s q

def demoTurns (patches : List Bytes)
    (turns : List (Machine.Turn (SyncState InMemory) SyncRequest.Reply SyncError)) : DemoMachine :=
  (Machine.idle demoSyncState).turns (demoServer patches) turns

theorem demoTurns_run {patches : List Bytes}
    {turns : List (Machine.Turn (SyncState InMemory) SyncRequest.Reply SyncError)}
    (h : ∀ t ∈ turns, t.Allowed (demoSync patches)) :
    Relation.ReflTransGen (Machine.Step (demoSync patches)) (Machine.idle demoSyncState)
      (demoTurns patches turns) :=
  Machine.turns_run (demoSync patches) (fun _ _ => rfl) _ h

/-- A second fetch that reads its cursor when the first has applied its pages. -/
def fetchesInTurn : DemoMachine :=
  demoTurns [[2]] [.spawn demoFetch, .resume, .resume, .resume, .spawn demoFetch, .resume, .resume]

theorem concurrent_fetches_safe_in_turn :
    (appliedIn fetchesInTurn.state.log).map (fun step => step.item.version) = [1, 2] ∧
    fetchesInTurn.state.log.length = 3 ∧
    Coherent inMemoryAppStateStore demoWire fetchesInTurn.state.store demoName := by
  have hallowed : ∀ t ∈ [Machine.Turn.spawn demoFetch, .resume, .resume, .resume,
      .spawn demoFetch, .resume, .resume], t.Allowed (demoSync [[2]]) := by
    simp [Machine.Turn.Allowed, demoSync, syncInterface, demoFetch_task]
  have hnew : ∀ name, inMemoryAppStateStore.getVersion demoSyncState.store name = {} ∧
      ∀ k, inMemoryAppStateStore.getMutationMac demoSyncState.store name k = none := by
    simp [inMemoryAppStateStore, demoSyncState]
  have hlog : (∀ e ∈ fetchesInTurn.state.log, e.InTurn inMemoryAppStateStore demoWire) ∧
      (appliedIn fetchesInTurn.state.log).map (fun step => step.item.version) = [1, 2] ∧
      fetchesInTurn.state.log.length = 3 := by decide +kernel
  obtain ⟨hturn, hversions, hlength⟩ := hlog
  have hrun : Relation.ReflTransGen (Machine.Step (demoSync [[2]])) (Machine.idle demoSyncState)
      fetchesInTurn := demoTurns_run hallowed
  have hsafe := concurrent_fetches_safe inMemoryView (s := demoSyncState) rfl hnew hrun hturn
  exact ⟨hversions, hlength, hsafe.1 demoName⟩

/-- The second fetch asks for the snapshot before the first has applied it, and its
download ends last. -/
def fetchesOverlap : DemoMachine :=
  demoTurns [[2]] [.spawn demoFetch, .resume, .spawn demoFetch, .resume, .resume, .resume, .resume]

theorem not_coherent_of_one_row {store : InMemory} {name : String} (k v : Bytes) (version : Nat)
    (hrows : store.macs.entries = [((name, k), (version, v))])
    (hhash : (inMemoryAppStateStore.getVersion store name).hash ≠
      subtractThenAdd L (List.replicate 128 0) [v] []) :
    ¬ Coherent inMemoryAppStateStore L store name := by
  rintro ⟨indices, hnodup, hindices, hsum⟩
  have hget : ∀ k', inMemoryAppStateStore.getMutationMac store name k' =
      if k' = k then some v else none := by
    intro k'
    by_cases hk : k = k'
    · simp [inMemoryAppStateStore, OrderedMap.get?, hrows, hk]
    · have hk' : k' ≠ k := fun h => hk h.symm
      simp [inMemoryAppStateStore, OrderedMap.get?, hrows, hk, hk']
  have hone : indices = [k] := by
    rw [← List.perm_singleton, List.perm_ext_iff_of_nodup hnodup (List.nodup_singleton k)]
    intro k'
    rw [hindices, hget, List.mem_singleton]
    by_cases hk : k' = k <;> simp [hk]
  rw [hone, List.filterMap_cons, hget, if_pos rfl, List.filterMap_nil] at hsum
  exact hhash hsum

theorem late_snapshot_rolls_back :
    Relation.ReflTransGen (Machine.Step (demoSync [[2]])) (Machine.idle demoSyncState)
      fetchesOverlap ∧
    (appliedIn fetchesOverlap.state.log).map (fun step => step.item.version) = [1, 2, 1] ∧
    (inMemoryAppStateStore.getVersion fetchesOverlap.state.store demoName).version = 1 ∧
    ¬ Coherent inMemoryAppStateStore demoWire fetchesOverlap.state.store demoName := by
  have hend : (appliedIn fetchesOverlap.state.log).map (fun step => step.item.version) = [1, 2, 1] ∧
      (inMemoryAppStateStore.getVersion fetchesOverlap.state.store demoName).version = 1 ∧
      fetchesOverlap.state.store.macs.entries =
        [((demoName, (demoMutation .set 1 20).record.index),
          (2, valueMacOf (demoMutation .set 1 20).record.value))] ∧
      (inMemoryAppStateStore.getVersion fetchesOverlap.state.store demoName).hash ≠
        subtractThenAdd demoWire (List.replicate 128 0)
          [valueMacOf (demoMutation .set 1 20).record.value] [] := by decide +kernel
  obtain ⟨hversions, hversion, hrows, hhash⟩ := hend
  refine ⟨demoTurns_run ?_, hversions, hversion, not_coherent_of_one_row _ _ 2 hrows hhash⟩
  simp [Machine.Turn.Allowed, demoSync, syncInterface, demoFetch_task]

end Concurrent

section Passing

variable {σ : Type} {S : AppStateStore σ} {L : Libraries} {downloadExternal : Bool}

def Page.mutations (p : Page σ) : List Mutation :=
  p.applied.flatMap fun step => step.result.mutations

/-- The one failure after which `fetch` still passes on what earlier pages gave. -/
def Failure.handled : Failure → Bool
  | .apply (.appStateKeyNotFound _) => true
  | _ => false

def pagesIn (log : List (SyncEvent σ)) : List (Page σ) :=
  log.filterMap fun
    | .reset _ _ => none
    | .page p => some p

/-- A failed page had persisted no mutation, and unless its failure is handled neither
had a page before it. -/
def Lossless (earlier : List Mutation) (pages : List (Page σ)) : Prop :=
  ∀ pre p post f, pages = pre ++ p :: post → p.failure = some f →
    p.mutations = [] ∧ (f.handled = true ∨ earlier ++ pre.flatMap Page.mutations = [])

/-- How the loop ends, over the pages it went through. -/
inductive LoopEnds : List Mutation → Except SyncError (List Mutation) → List (Page σ) → Prop
  | last {all : List Mutation} {p : Page σ} (h : p.failure = none) :
      LoopEnds all (.ok (all ++ p.mutations)) [p]
  | more {all : List Mutation} {p : Page σ} {r : Except SyncError (List Mutation)}
      {pages : List (Page σ)} (h : p.failure = none)
      (hrest : LoopEnds (all ++ p.mutations) r pages) : LoopEnds all r (p :: pages)
  | keyMissing {all : List Mutation} {p : Page σ} {f : Failure} (h : p.failure = some f)
      (hf : f.handled = true) : LoopEnds all (.ok all) [p]
  | failed {all : List Mutation} {p : Page σ} {f : Failure} {e : SyncError}
      (h : p.failure = some f) (hf : f.handled = false) : LoopEnds all (.error e) [p]

/-- Other tasks change the stores and leave the record of this call alone. -/
def Others (s s' : SyncState σ) : Prop := s'.log = s.log ∧ s'.passed = s.passed

theorem others_run {s t : SyncState σ} (h : Relation.ReflTransGen Others s t) : Others s t := by
  have hrefl : Std.Refl (Others : SyncState σ → SyncState σ → Prop) := ⟨fun _ => ⟨rfl, rfl⟩⟩
  have htrans : IsTrans (SyncState σ) Others :=
    ⟨fun _ _ _ h h' => ⟨h'.1.trans h.1, h'.2.trans h.2⟩⟩
  rwa [Relation.reflTransGen_eq_self] at h

theorem applyItems_mutations {keyStore : AppStateKeyStore} {validateMacs : Bool} {name : String}
    {items : List Item} {cursor state : HashState} {mutations all : List Mutation} {store : σ}
    (h : (applyItems S L keyStore validateMacs name store cursor mutations items).result =
      .ok (all, state)) :
    all = mutations ++ (applyItems S L keyStore validateMacs name store cursor mutations
      items).applied.flatMap fun step => step.result.mutations := by
  induction items generalizing store cursor mutations with
  | nil =>
    cases h
    simp [applyItems]
  | cons item rest ih =>
    rw [applyItems] at h ⊢
    cases happly : applyItem S L keyStore validateMacs store name cursor item with
    | error e => rw [happly] at h; cases h
    | ok step =>
      rw [happly] at h
      simp only at h ⊢
      rw [ih h, List.flatMap_cons, List.append_assoc]

/-- Among the mutations of its pages the loop returns those of the pages before a failure
it handles. -/
theorem fetchLoop_ensures (name : String) (pages : Nat) (state : HashState) (wantSnapshot : Bool)
    (all : List Mutation) (s : SyncState σ) :
    (fetchLoop S L downloadExternal name pages state wantSnapshot all).Ensures Others
      (fun r t => t.passed = s.passed ∧
        ∃ seen : List (Page σ), t.log = s.log ++ seen.map .page ∧ LoopEnds all r seen) s := by
  induction pages generalizing state wantSnapshot all s with
  | zero => exact ⟨rfl, [_], rfl, .failed rfl rfl⟩
  | succ pages ih =>
    have hnext : (nextPage L downloadExternal name state.version wantSnapshot :
        SyncM σ PatchList).Ensures Others (fun r t => t.passed = s.passed ∧
          match r with
          | .ok _ => t.log = s.log
          | .error e => t.log = s.log ++ [.page ⟨[], some (.fetch e)⟩]) s := by
      refine Co.Ensures.tryCatch (Co.Ensures.of_silent (receivePage_silent _ _ _)
        fun r t ht => others_run ht) (fun patchList t ht => ⟨ht.2, ht.1⟩) fun e t ht => ?_
      exact ⟨ht.2, congrArg (· ++ _) ht.1⟩
    refine hnext.bind (fun patchList t ht => ?_) fun e t ht => ?_
    · have hact : (applyPage S L patchList state).Ensures Others
          (fun r t' => t' = t.applyPage S L patchList state ∧
            r = .ok (t.outcome S L patchList state).result) t := ⟨rfl, rfl⟩
      refine hact.bind (fun r t' ht' => ?_) fun e t' ht' => by cases ht'.2
      obtain ⟨rfl, hr⟩ := ht'
      replace hr : r = (t.outcome S L patchList state).result := Except.ok.inj hr
      have hlog : (t.applyPage S L patchList state).log =
          s.log ++ [.page (t.outcome S L patchList state).page] :=
        congrArg (· ++ _) ht.2
      have hpassed : (t.applyPage S L patchList state).passed = s.passed := ht.1
      rcases r with e | ⟨mutations, state'⟩
      · have hfailure : (t.outcome S L patchList state).page.failure = some (.apply e) := by
          rw [Outcome.page, ← hr]
        cases e with
        | appStateKeyNotFound message =>
          exact ⟨hpassed, [_], hlog, .keyMissing hfailure rfl⟩
        | _ => exact ⟨hpassed, [_], hlog, .failed hfailure rfl⟩
      · have hnone : (t.outcome S L patchList state).page.failure = none := by
          rw [Outcome.page, ← hr]
        have hmutations : mutations = (t.outcome S L patchList state).page.mutations :=
          applyItems_mutations hr.symm
        dsimp only
        split
        · refine (ih _ _ _ _).mono fun r' u hu => ?_
          obtain ⟨hpassed', seen, hseen, hends⟩ := hu
          refine ⟨hpassed'.trans hpassed, _ :: seen, ?_, .more hnone (hmutations ▸ hends)⟩
          rw [hseen, hlog, List.append_assoc, List.map_cons, List.singleton_append]
        · exact ⟨hpassed, [_], hlog, hmutations ▸ .last hnone⟩
    · exact ⟨ht.1, [_], ht.2, .failed rfl rfl⟩

theorem Lossless.cons_iff {earlier : List Mutation} {p : Page σ} {pages : List (Page σ)}
    (h : p.failure = none) :
    Lossless earlier (p :: pages) ↔ Lossless (earlier ++ p.mutations) pages := by
  constructor
  · intro hall pre q post f hpages hf
    obtain ⟨hq, hpre⟩ := hall (p :: pre) q post f (congrArg (p :: ·) hpages) hf
    rw [List.flatMap_cons, ← List.append_assoc] at hpre
    exact ⟨hq, hpre⟩
  · intro hall pre q post f hpages hf
    cases pre with
    | nil =>
      cases hpages
      rw [h] at hf
      cases hf
    | cons p' pre =>
      obtain ⟨rfl, hrest⟩ := List.cons.inj hpages
      rw [List.flatMap_cons, ← List.append_assoc]
      exact hall pre q post f hrest hf

theorem lossless_singleton {earlier : List Mutation} {p : Page σ} {f : Failure}
    (h : p.failure = some f) :
    Lossless earlier [p] ↔ p.mutations = [] ∧ (f.handled = true ∨ earlier = []) := by
  constructor
  · intro hall
    simpa using hall [] p [] f rfl h
  · intro hp pre q post g hpages hg
    cases pre with
    | nil =>
      cases hpages
      rw [h] at hg
      cases hg
      simpa using hp
    | cons p' pre => simp at hpages

theorem LoopEnds.passed_iff {all : List Mutation} {r : Except SyncError (List Mutation)}
    {pages : List (Page σ)} (h : LoopEnds all r pages) :
    (r.toOption.getD []).Perm (all ++ pages.flatMap Page.mutations) ↔ Lossless all pages := by
  induction h with
  | @last all p h =>
    rw [Lossless.cons_iff h]
    refine ⟨fun _ => ?_, fun _ => by simp [Except.toOption]⟩
    intro pre q post f hpages
    simp at hpages
  | more h _ ih => rw [Lossless.cons_iff h, ← ih, List.flatMap_cons, List.append_assoc]
  | @keyMissing all p f h hf =>
    rw [lossless_singleton h, List.flatMap_singleton]
    simp only [Except.toOption, Option.getD_some, hf, true_or, and_true]
    refine ⟨fun hperm => ?_, fun hnil => by rw [hnil, List.append_nil]⟩
    have hlength := hperm.length_eq
    rw [List.length_append] at hlength
    exact List.length_eq_zero_iff.mp (by omega)
  | @failed all p f e h hf =>
    rw [lossless_singleton h, List.flatMap_singleton]
    simp only [Except.toOption, Option.getD_none, hf, Bool.false_eq_true, false_or,
      List.nil_perm, List.append_eq_nil_iff]
    exact And.comm

theorem passOn_ensures (name : String) (all : List Mutation) {s : SyncState σ}
    (hpassed : s.passed = []) :
    (passOn true name all : SyncM σ Unit).Ensures Others
      (fun _ t => t.log = s.log ∧ t.passed.flatten = all) s := by
  rw [passOn]
  split
  · intro r t ht
    refine ⟨ht.1, ?_⟩
    rw [ht.2, SyncState.pass, hpassed]
    simp
  · rename_i hnot
    have hall : all = [] := by simpa using hnot
    refine ⟨rfl, ?_⟩
    rw [hpassed, hall]
    rfl

theorem fetchFrom_ensures (pages : Nat) (name : String) (fullSync onlyIfNotSynced : Bool)
    (state : HashState) {s : SyncState σ} (hpassed : s.passed = []) :
    (fetchFrom S L downloadExternal true pages name fullSync onlyIfNotSynced state).Ensures Others
      (fun _ t => ∃ seen : List (Page σ), t.log = s.log ++ seen.map .page ∧
        (t.passed.flatten.Perm (seen.flatMap Page.mutations) ↔ Lossless [] seen)) s := by
  rw [fetchFrom]
  split
  · refine ⟨[], (List.append_nil _).symm, fun _ pre p post f hpages => ?_, fun _ => ?_⟩
    · simp at hpages
    · rw [hpassed]
      exact .refl _
  · apply (fetchLoop_ensures name pages state _ [] s).bind
    · rintro all t ⟨ht, seen, hlog, hends⟩
      apply (passOn_ensures name all (ht.trans hpassed)).bind
      · rintro - u ⟨hlog', hflat⟩
        refine ⟨seen, hlog'.trans hlog, ?_⟩
        rw [hflat, ← hends.passed_iff]
        rfl
      · rintro e u ⟨hlog', hflat⟩
        refine ⟨seen, hlog'.trans hlog, ?_⟩
        rw [hflat, ← hends.passed_iff]
        rfl
    · rintro e t ⟨ht, seen, hlog, hends⟩
      refine ⟨seen, hlog, ?_⟩
      rw [ht, hpassed, ← hends.passed_iff]
      rfl

theorem appliedIn_pages (seen : List (Page σ)) :
    (appliedIn (seen.map .page)).flatMap (fun step => step.result.mutations) =
      seen.flatMap Page.mutations := by
  induction seen with
  | nil => rfl
  | cons p seen ih =>
    have hcons : appliedIn ((p :: seen).map SyncEvent.page) =
        p.applied ++ appliedIn (seen.map .page) := rfl
    rw [hcons, List.flatMap_append, ih]
    rfl

theorem pagesIn_pages (seen : List (Page σ)) : pagesIn (seen.map .page) = seen := by
  induction seen with
  | nil => rfl
  | cons p seen ih => exact congrArg (p :: ·) ih

theorem fetch_ensures (pages : Nat) (name : String) (fullSync onlyIfNotSynced : Bool)
    {s : SyncState σ} (hlog : s.log = []) (hpassed : s.passed = []) :
    (fetch S L downloadExternal true pages name fullSync onlyIfNotSynced).Ensures Others
      (fun _ t => ∃ resets : List (SyncEvent σ), ∃ seen : List (Page σ),
        pagesIn resets = [] ∧ appliedIn resets = [] ∧ t.log = resets ++ seen.map .page ∧
          (t.passed.flatten.Perm (seen.flatMap Page.mutations) ↔ Lossless [] seen)) s := by
  cases fullSync with
  | false =>
    apply (fetchFrom_ensures pages name false onlyIfNotSynced (S.getVersion s.store name)
      hpassed).mono
    rintro - t ⟨seen, hseen, hiff⟩
    exact ⟨[], seen, rfl, rfl, by rw [hseen, hlog], hiff⟩
  | true =>
    have hreset : (s.reset S name).passed = [] := hpassed
    apply (fetchFrom_ensures pages name true onlyIfNotSynced
      (S.getVersion (s.reset S name).store name) hreset).mono
    rintro - t ⟨seen, hseen, hiff⟩
    refine ⟨[.reset name s.store], seen, rfl, rfl, ?_, hiff⟩
    rw [hseen, SyncState.reset, SyncState.record, hlog]
    rfl

theorem mutations_passed_iff {pages : Nat} {name : String} {fullSync onlyIfNotSynced : Bool}
    {s t : SyncState σ} {r : Except SyncError (List Mutation)} (hlog : s.log = [])
    (hpassed : s.passed = [])
    (h : Co.EndsAmidst Others
      (fetch S L downloadExternal true pages name fullSync onlyIfNotSynced) s r t) :
    t.passed.flatten.Perm ((appliedIn t.log).flatMap fun step => step.result.mutations) ↔
      Lossless [] (pagesIn t.log) := by
  obtain ⟨resets, seen, hpages, happlied, hseen, hiff⟩ :=
    (fetch_ensures pages name fullSync onlyIfNotSynced hlog hpassed).ends h
  have hpages' : pagesIn t.log = seen := by
    rw [hseen, pagesIn, List.filterMap_append]
    exact (congrArg₂ (· ++ ·) hpages (pagesIn_pages seen)).trans (List.nil_append seen)
  have happlied' : appliedIn t.log = appliedIn (seen.map .page) := by
    rw [hseen, appliedIn, List.flatMap_append]
    exact congrArg₂ (· ++ ·) happlied rfl
  rw [happlied', appliedIn_pages, hpages', hiff]

theorem lossless_of_none {pages : List (Page σ)} (h : ∀ p ∈ pages, p.failure = none) :
    Lossless [] pages := by
  intro pre p post f hpages hf
  rw [h p (by simp [hpages])] at hf
  cases hf

def demoFetched (patches : List Bytes) : Except SyncError (List Mutation) × SyncState InMemory :=
  (fetch inMemoryAppStateStore demoWire true true 5 demoName false false).finish
    (demoServer patches) demoSyncState

theorem demoFetched_ends (patches : List Bytes) :
    Co.EndsAmidst Others (fetch inMemoryAppStateStore demoWire true true 5 demoName false false)
      demoSyncState (demoFetched patches).1 (demoFetched patches).2 :=
  Co.endsAmidst_finish (fun _ => ⟨rfl, rfl⟩) _ _ _

theorem mutations_passed_two_pages :
    (appliedIn (demoFetched [[2]]).2.log).map (fun step => step.item.version) = [1, 2] ∧
    (demoFetched [[2]]).2.passed.flatten.Perm
      ((appliedIn (demoFetched [[2]]).2.log).flatMap fun step => step.result.mutations) := by
  have hlog : (appliedIn (demoFetched [[2]]).2.log).map (fun step => step.item.version) = [1, 2] ∧
      ∀ p ∈ pagesIn (demoFetched [[2]]).2.log, p.failure = none := by decide +kernel
  obtain ⟨hversions, hpages⟩ := hlog
  exact ⟨hversions,
    (mutations_passed_iff rfl rfl (demoFetched_ends [[2]])).mpr (lossless_of_none hpages)⟩

/-- The second patch of the second page is under a key that has not arrived. -/
theorem key_missing_loses_patch :
    Co.EndsAmidst Others (fetch inMemoryAppStateStore demoWire true true 5 demoName false false)
      demoSyncState (demoFetched [[2], [3]]).1 (demoFetched [[2], [3]]).2 ∧
    (appliedIn (demoFetched [[2], [3]]).2.log).map (fun step => step.item.version) = [1, 2] ∧
    (inMemoryAppStateStore.getVersion (demoFetched [[2], [3]]).2.store demoName).version = 2 ∧
    ¬ (demoFetched [[2], [3]]).2.passed.flatten.Perm
      ((appliedIn (demoFetched [[2], [3]]).2.log).flatMap fun step => step.result.mutations) := by
  have hend : (appliedIn (demoFetched [[2], [3]]).2.log).map (fun step => step.item.version) =
        [1, 2] ∧
      (inMemoryAppStateStore.getVersion (demoFetched [[2], [3]]).2.store demoName).version = 2 ∧
      (demoFetched [[2], [3]]).2.passed.flatten.length ≠
        ((appliedIn (demoFetched [[2], [3]]).2.log).flatMap
          fun step => step.result.mutations).length := by decide +kernel
  obtain ⟨hversions, hversion, hlength⟩ := hend
  exact ⟨demoFetched_ends _, hversions, hversion, fun hperm => hlength hperm.length_eq⟩

end Passing

end PyWhats.AppState
