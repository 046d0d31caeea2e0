import PyWhats.Collection

/-! Runs of `apply_patch_list` on the stored cursor, call after call. -/

namespace PyWhats.AppState

open Tally (Edit edits)

/-- A call with the keys that have arrived by then. -/
structure Call where
  keyStore : AppStateKeyStore
  validateMacs : Bool := true
  patchList : PatchList

section Runs

variable {σ : Type} (S : AppStateStore σ) (L : Libraries)

def Call.run (store : σ) (c : Call) : Outcome σ :=
  applyPatchList S L c.keyStore c.validateMacs c.patchList store
    (S.getVersion store c.patchList.name)

def runCalls (store : σ) (calls : List Call) : σ :=
  calls.foldl (fun store c => (c.run S L store).store) store

/-- Every item that a run applies, in order. -/
def appliedBy : σ → List Call → List (Applied σ)
  | _, [] => []
  | store, c :: calls => (c.run S L store).applied ++ appliedBy (c.run S L store).store calls

variable {S L}

/-- What one item keeps and leaves behind, a list of items and a run of calls do. -/
theorem applyItems_trace {keyStore : AppStateKeyStore} {validateMacs : Bool} {name : String}
    {Inv : σ → Prop} {Allowed Post : Applied σ → Prop}
    (hstep : ∀ store cursor item step, Inv store →
      applyItem S L keyStore validateMacs store name cursor item = .ok step →
      Allowed step → Inv step.after ∧ Post step)
    {items : List Item} {store : σ} {cursor : HashState} {mutations : List Mutation}
    (hinv : Inv store)
    (hallowed : ∀ step ∈ (applyItems S L keyStore validateMacs name store cursor mutations
      items).applied, Allowed step) :
    Inv (applyItems S L keyStore validateMacs name store cursor mutations items).store ∧
      ∀ step ∈ (applyItems S L keyStore validateMacs name store cursor mutations items).applied,
        Post step := by
  induction items generalizing store cursor mutations with
  | nil => exact ⟨hinv, fun _ h => absurd h List.not_mem_nil⟩
  | cons item rest ih =>
    rw [applyItems] at hallowed ⊢
    cases happly : applyItem S L keyStore validateMacs store name cursor item with
    | error e => exact ⟨hinv, fun _ h => absurd h List.not_mem_nil⟩
    | ok step =>
      rw [happly] at hallowed
      obtain ⟨hafter, hpost⟩ := hstep store cursor item step hinv happly
        (hallowed step List.mem_cons_self)
      obtain ⟨hend, hrest⟩ := ih hafter
        fun step' hstep' => hallowed step' (List.mem_cons_of_mem _ hstep')
      refine ⟨hend, fun step' hstep' => ?_⟩
      rcases List.mem_cons.mp hstep' with rfl | hstep'
      · exact hpost
      · exact hrest step' hstep'

theorem appliedBy_trace (Inv : σ → Prop) (Allowed Post : Applied σ → Prop)
    (hstep : ∀ keyStore validateMacs name store cursor item step, Inv store →
      applyItem S L keyStore validateMacs store name cursor item = .ok step →
      Allowed step → Inv step.after ∧ Post step)
    {calls : List Call} {store : σ} (hinv : Inv store)
    (hallowed : ∀ step ∈ appliedBy S L store calls, Allowed step) :
    ∀ step ∈ appliedBy S L store calls, Post step := by
  induction calls generalizing store with
  | nil => exact fun _ h => absurd h List.not_mem_nil
  | cons c calls ih =>
    rw [appliedBy, List.forall_mem_append] at hallowed ⊢
    obtain ⟨hend, hpost⟩ := applyItems_trace
      (fun store cursor item step => hstep _ _ _ store cursor item step) hinv hallowed.1
    exact ⟨hpost, ih hend hallowed.2⟩

end Runs

section Coherence

variable {σ : Type} {S : AppStateStore σ} {L : Libraries} (V : S.View)

/-- The versions of the items never decrease, from the version of the cursor on. -/
def Rising : Nat → List Item → Prop
  | _, [] => True
  | version, item :: rest => version ≤ item.version ∧ Rising item.version rest

instance decidableRising : (version : Nat) → (items : List Item) → Decidable (Rising version items)
  | _, [] => .isTrue trivial
  | version, item :: rest =>
    have := decidableRising item.version rest
    inferInstanceAs (Decidable (version ≤ item.version ∧ Rising item.version rest))

/-- The calls of a collection's history: mutations are SETs and REMOVEs, versions
never decrease, and a snapshot comes first, with distinct index MACs. -/
structure Orderly (S : AppStateStore σ) (store : σ) (c : Call) : Prop where
  rising : Rising (S.getVersion store c.patchList.name).version c.patchList.items
  known : ∀ p ∈ c.patchList.patches, ∀ m ∈ p.mutations,
    m.operation = .set ∨ m.operation = .remove
  distinct : ∀ s, c.patchList.snapshot = some s → (s.records.map SyncdRecord.index).Nodup
  first : c.patchList.snapshot.isSome = true →
    S.getVersion store c.patchList.name = {} ∧
      ∀ k, S.getMutationMac store c.patchList.name k = none

def OrderlyRun (S : AppStateStore σ) (L : Libraries) : σ → List Call → Prop
  | _, [] => True
  | store, c :: calls => Orderly S store c ∧ OrderlyRun S L (c.run S L store).store calls

variable {V}

theorem applyItem_sound {keyStore : AppStateKeyStore} {validateMacs : Bool} {store : σ}
    {name : String} {cursor : HashState} {item : Item} {step : Applied σ}
    (hsound : ∀ n, Sound V L store n)
    (h : applyItem S L keyStore validateMacs store name cursor item = .ok step)
    (hversion : (S.getVersion store name).version ≤ item.version)
    (hfits : item.Fits S L store name cursor) (n : String) :
    Sound V L step.after n := by
  obtain ⟨-, -, -, -, hdecoded, hpersist⟩ := applyItem_spec h
  by_cases hn : n = name
  · subst hn
    exact (hsound n).persist V hfits hversion hdecoded hpersist
  · obtain ⟨hv, hnewest⟩ := persist_other V hn hpersist
    exact (hsound n).congr V hv hnewest

theorem applyItems_patches_sound {keyStore : AppStateKeyStore} {validateMacs : Bool}
    {name : String} {patches : List SyncdPatch} {store : σ} {mutations : List Mutation}
    (hsound : ∀ n, Sound V L store n)
    (hrising : Rising (S.getVersion store name).version (patches.map .patch))
    (hknown : ∀ p ∈ patches, ∀ m ∈ p.mutations, m.operation = .set ∨ m.operation = .remove)
    (n : String) :
    Sound V L (applyItems S L keyStore validateMacs name store (S.getVersion store name) mutations
      (patches.map .patch)).store n := by
  induction patches generalizing store mutations with
  | nil => exact hsound n
  | cons p patches ih =>
    rw [List.map_cons, applyItems]
    cases happly : applyItem S L keyStore validateMacs store name (S.getVersion store name)
        (.patch p) with
    | error e => exact hsound n
    | ok step =>
      have hfits : (Item.patch p).Fits S L store name (S.getVersion store name) :=
        ⟨hknown p List.mem_cons_self, rfl⟩
      have hrest : Rising (S.getVersion step.after name).version (patches.map .patch) := by
        rw [applyItem_version V happly]
        exact hrising.2
      simp only [applyItem_stored V happly]
      exact ih (applyItem_sound hsound happly hrising.1 hfits) hrest
        fun p' hp' => hknown p' (List.mem_cons_of_mem _ hp')

theorem snapshot_fits {store : σ} {name : String} {s : SyncdSnapshot}
    (hdistinct : (s.records.map SyncdRecord.index).Nodup)
    (hnone : ∀ k, S.getMutationMac store name k = none) :
    (Item.snapshot s).Fits S L store name (S.getVersion store name) := by
  refine ⟨hdistinct, ?_⟩
  have hreplaced : (s.records.filterMap fun r => S.getMutationMac store name r.index) = [] := by
    simp [hnone]
  rw [hreplaced]
  rfl

theorem call_sound {store : σ} {c : Call} (hsound : ∀ n, Sound V L store n)
    (h : Orderly S store c) (n : String) : Sound V L (c.run S L store).store n := by
  have hrising := h.rising
  rw [Call.run, applyPatchList]
  cases hsnapshot : c.patchList.snapshot with
  | none =>
    have hitems : c.patchList.items = c.patchList.patches.map .patch := by
      rw [PatchList.items, hsnapshot]
      rfl
    rw [hitems] at hrising ⊢
    exact applyItems_patches_sound hsound hrising h.known n
  | some s =>
    have hitems : c.patchList.items = .snapshot s :: c.patchList.patches.map .patch := by
      rw [PatchList.items, hsnapshot]
      rfl
    rw [hitems] at hrising ⊢
    rw [applyItems]
    cases happly : applyItem S L c.keyStore c.validateMacs store c.patchList.name
        (S.getVersion store c.patchList.name) (.snapshot s) with
    | error e => exact hsound n
    | ok step =>
      have hfits := snapshot_fits (L := L) (h.distinct s hsnapshot)
        (h.first (by rw [hsnapshot]; rfl)).2
      have hrest : Rising (S.getVersion step.after c.patchList.name).version
          (c.patchList.patches.map .patch) := by
        rw [applyItem_version V happly]
        exact hrising.2
      simp only [applyItem_stored V happly]
      exact applyItems_patches_sound (applyItem_sound hsound happly hrising.1 hfits) hrest h.known n

theorem run_sound {store : σ} {calls : List Call} (hsound : ∀ n, Sound V L store n)
    (h : OrderlyRun S L store calls) (n : String) : Sound V L (runCalls S L store calls) n := by
  induction calls generalizing store with
  | nil => exact hsound n
  | cons c calls ih => exact ih (call_sound hsound h.1) h.2

theorem sound_empty (name : String) : Sound inMemoryView L {} name := by
  refine ⟨⟨[], List.nodup_nil, fun k => ?_, rfl⟩, fun k e he => ?_⟩
  · simp [inMemoryAppStateStore]
  · simp [inMemoryView, InMemory.newest] at he

theorem hash_is_sum_of_macs {L : Libraries} {calls : List Call}
    (h : OrderlyRun inMemoryAppStateStore L {} calls) (name : String) :
    Coherent inMemoryAppStateStore L (runCalls inMemoryAppStateStore L {} calls) name :=
  (run_sound sound_empty h name).coherent

def demoCall (snapshot : Option SyncdSnapshot) (patches : List SyncdPatch) : Call where
  keyStore := demoKeyStore
  patchList := { name := demoName, patches := patches, snapshot := snapshot }

/-- A snapshot of one index, and a patch that replaces it, sets another one and
removes it again. -/
def demoCalls : List Call :=
  [demoCall (some (demoSnapshot 1 [demoMutation .set 1 10])) [],
   demoCall none [demoPatch 2 (demoHash [demoMutation .set 1 20])
     [demoMutation .set 1 20, demoMutation .set 2 30, demoMutation .remove 2 40]]]

theorem demoCalls_orderly : OrderlyRun inMemoryAppStateStore demoLibraries {} demoCalls := by
  refine ⟨⟨by decide +kernel, ?_, ?_, fun _ => ⟨rfl, fun k => ?_⟩⟩,
    ⟨by decide +kernel, ?_, ?_, ?_⟩, trivial⟩
  · simp [demoCall]
  · rintro s ⟨⟩
    decide +kernel
  · simp [inMemoryAppStateStore]
  · decide +kernel
  · rintro s ⟨⟩
  · rintro ⟨⟩

theorem hash_is_sum_of_macs_replaced :
    ((appliedBy inMemoryAppStateStore demoLibraries {} demoCalls).map
      fun step => step.item.version) = [1, 2] ∧
    Coherent inMemoryAppStateStore demoLibraries
      (runCalls inMemoryAppStateStore demoLibraries {} demoCalls) demoName :=
  ⟨by decide +kernel, hash_is_sum_of_macs demoCalls_orderly demoName⟩

end Coherence

section Rollback

variable {σ : Type} {S : AppStateStore σ} {L : Libraries}

/-- The last word of the mutations on the index `k` is a SET of the value MAC `v`. -/
def LastSet (ms : List SyncdMutation) (k v : Bytes) : Prop :=
  ∃ pre m post, ms = pre ++ m :: post ∧ m.operation = .set ∧ m.record.index = k ∧
    valueMacOf m.record.value = v ∧ ∀ e ∈ post.filterMap recordEdit, e.1 ≠ k

/-- The stored version does not decrease, and every index that the item sets is
stored with the value MAC that the item folded into the hash. -/
structure NoRollback (S : AppStateStore σ) (step : Applied σ) : Prop where
  version : (S.getVersion step.before step.name).version ≤
    (S.getVersion step.after step.name).version
  macs : ∀ k v, LastSet step.item.mutations k v → S.getMutationMac step.after step.name k = some v

theorem edits_lastSet {t : Bytes → Option Bytes} {ms : List SyncdMutation} {k v : Bytes}
    (h : LastSet ms k v) : edits t (ms.filterMap recordEdit) k = some v := by
  obtain ⟨pre, m, post, rfl, hop, hk, hv, hpost⟩ := h
  have hedit : recordEdit m = some (k, some v) := by rw [recordEdit, hop, hk, hv]
  have hnot : k ∉ (post.filterMap recordEdit).map Prod.fst := by
    intro hmem
    obtain ⟨e, he, heq⟩ := List.mem_map.mp hmem
    exact hpost e he heq
  rw [List.filterMap_append, List.filterMap_cons_some hedit, Tally.edits_append]
  have hrest : ∀ t' : Bytes → Option Bytes,
      edits t' ((k, some v) :: post.filterMap recordEdit) k = some v := by
    intro t'
    have htail := Tally.edits_of_not_mem (t := Function.update t' k (some v)) hnot
    rw [Function.update_self] at htail
    exact htail
  exact hrest _

theorem applyItem_noRollback (V : S.View) {keyStore : AppStateKeyStore} {validateMacs : Bool}
    {store : σ} {name : String} {cursor : HashState} {item : Item} {step : Applied σ}
    (hupTo : UpTo (S.getVersion store name).version (V.newest store name))
    (h : applyItem S L keyStore validateMacs store name cursor item = .ok step)
    (hversion : (S.getVersion step.before step.name).version ≤ step.item.version) :
    NoRollback S step ∧ UpTo (S.getVersion step.after name).version (V.newest step.after name) := by
  have hstored := applyItem_version V h
  obtain ⟨rfl, rfl, rfl, rfl, hdecoded, hpersist⟩ := applyItem_spec h
  have hnew : UpTo step.result.state.version (V.newest step.before step.name) :=
    hupTo.mono (hdecoded.version ▸ hversion)
  obtain ⟨hafter, htable⟩ := persist_table V hpersist hnew
  refine ⟨⟨hstored ▸ hversion, fun k v hset => ?_⟩, ?_⟩
  · rw [htable, hdecoded.edits]
    exact edits_lastSet hset
  · rw [← applyItem_stored V h]
    exact hafter

theorem no_rollback_iff (V : S.View) {store : σ} (hempty : ∀ n k, S.getMutationMac store n k = none)
    {calls : List Call} :
    (∀ step ∈ appliedBy S L store calls, NoRollback S step) ↔
      ∀ step ∈ appliedBy S L store calls,
        (S.getVersion step.before step.name).version ≤ step.item.version := by
  constructor
  · intro h step hstep
    have hversion : (S.getVersion step.after step.name).version = step.item.version := by
      refine appliedBy_trace (fun _ => True) (fun _ => True)
        (fun step => (S.getVersion step.after step.name).version = step.item.version)
        (fun _ _ name store cursor item step _ happly _ => ⟨trivial, ?_⟩) trivial (fun _ _ => trivial)
        step hstep
      have hstored := applyItem_version V happly
      obtain ⟨rfl, rfl, -, -, -, -⟩ := applyItem_spec happly
      exact hstored
    rw [← hversion]
    exact (h step hstep).version
  · intro h
    have hstart : ∀ n, UpTo (S.getVersion store n).version (V.newest store n) := by
      intro n k e he
      have hnone := hempty n k
      rw [V.getMutationMac_eq, he] at hnone
      cases hnone
    refine appliedBy_trace (fun s => ∀ n, UpTo (S.getVersion s n).version (V.newest s n))
      _ _ ?_ hstart h
    intro keyStore validateMacs name s cursor item step hinv happly hversion
    obtain ⟨hpost, hafter⟩ := applyItem_noRollback V (hinv name) happly hversion
    refine ⟨fun n => ?_, hpost⟩
    by_cases hn : n = name
    · rw [hn]
      exact hafter
    · obtain ⟨-, -, -, -, -, hpersist⟩ := applyItem_spec happly
      obtain ⟨hv, hnewest⟩ := persist_other V hn hpersist
      rw [hv, hnewest]
      exact hinv n

theorem no_rollback_in_order :
    (appliedBy inMemoryAppStateStore demoLibraries {} demoCalls).length = 2 ∧
      ∀ step ∈ appliedBy inMemoryAppStateStore demoLibraries {} demoCalls,
        NoRollback inMemoryAppStateStore step :=
  ⟨by decide +kernel, (no_rollback_iff inMemoryView fun n k => by
    simp [inMemoryAppStateStore]).mpr (by decide +kernel)⟩

/-- An index is set, set again, and the first patch is presented once more. -/
def replayCalls : List Call :=
  let first := demoPatch 1 (demoHash [demoMutation .set 1 10]) [demoMutation .set 1 10]
  let second := demoPatch 2 (demoHash [demoMutation .set 1 20]) [demoMutation .set 1 20]
  [demoCall none [first], demoCall none [second], demoCall none [first]]

theorem cursor_rolls_back :
    (∀ c ∈ replayCalls, c.validateMacs = true) ∧
    ((appliedBy inMemoryAppStateStore demoLibraries {} replayCalls).map fun step =>
      (step.item.version, inMemoryAppStateStore.getMutationMac step.after demoName
        (demoMutation .set 1 10).record.index)) =
      [(1, some (valueMacOf (demoMutation .set 1 10).record.value)),
       (2, some (valueMacOf (demoMutation .set 1 20).record.value)),
       (1, some (valueMacOf (demoMutation .set 1 20).record.value))] ∧
    ¬ ∀ step ∈ appliedBy inMemoryAppStateStore demoLibraries {} replayCalls,
      NoRollback inMemoryAppStateStore step := by
  have happlied : ((appliedBy inMemoryAppStateStore demoLibraries {} replayCalls).map fun step =>
      (step.item.version, inMemoryAppStateStore.getMutationMac step.after demoName
        (demoMutation .set 1 10).record.index)) =
      [(1, some (valueMacOf (demoMutation .set 1 10).record.value)),
       (2, some (valueMacOf (demoMutation .set 1 20).record.value)),
       (1, some (valueMacOf (demoMutation .set 1 20).record.value))] ∧
      ¬ ∀ step ∈ appliedBy inMemoryAppStateStore demoLibraries {} replayCalls,
        (inMemoryAppStateStore.getVersion step.before step.name).version ≤
          (inMemoryAppStateStore.getVersion step.after step.name).version := by decide +kernel
  obtain ⟨hmacs, hback⟩ := happlied
  exact ⟨by decide, hmacs, fun h => hback fun step hstep => (h step hstep).version⟩

end Rollback

end PyWhats.AppState
