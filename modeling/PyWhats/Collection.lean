import PyWhats.AppStateStores
import PyWhats.LtHash

/-! A collection as a table from index MACs to value MACs with the LT-hash as its
total. The hash of a patch is found by searching the patch backwards, its table by
two lists of additions and removals; both are the same sequence of edits. -/

namespace PyWhats.AppState

open Tally (Edit Total edit edits shift weight)

/-- The persisted hash is the LT-hash sum, from zero, of one value MAC for every
index that the store holds. -/
def Coherent {σ : Type} (S : AppStateStore σ) (L : Libraries) (store : σ) (name : String) : Prop :=
  ∃ indices : List Bytes, indices.Nodup ∧
    (∀ k, k ∈ indices ↔ (S.getMutationMac store name k).isSome = true) ∧
    (S.getVersion store name).hash = subtractThenAdd L (List.replicate 128 0)
      (indices.filterMap (S.getMutationMac store name)) []

section Hash

variable (L : Libraries)

/-- A mutation that is no SET takes its index out of the hash. -/
def hashEdit (m : SyncdMutation) : Edit Bytes Bytes :=
  (m.record.index, if m.operation = .set then some (valueMacOf m.record.value) else none)

theorem prevSetValueMac_eq (t : Bytes → Option Bytes) (k : Bytes) (earlier : List SyncdMutation) :
    prevSetValueMac t k earlier = edits t (earlier.reverse.map hashEdit) k := by
  induction earlier with
  | nil => rfl
  | cons m rest ih =>
    have hlast : edits t ((m :: rest).reverse.map hashEdit) =
        edit (edits t (rest.reverse.map hashEdit)) (hashEdit m) := by
      rw [List.reverse_cons, List.map_append, Tally.edits_append]
      rfl
    rw [hlast, prevSetValueMac, ih]
    by_cases hk : m.record.index = k
    · subst hk
      rw [if_pos rfl]
      simp only [edit, hashEdit, Function.update_self]
      cases m.operation <;> rfl
    · rw [if_neg hk]
      exact (Function.update_of_ne (fun h => hk h.symm) _ _).symm

theorem weight_eq_sum_toList (o : Option Bytes) :
    weight (ltWeight L) o = (o.toList.map (ltWeight L)).sum := by
  cases o with
  | none => rfl
  | some v => exact (List.sum_singleton).symm

theorem hashDeltas_shift (t : Bytes → Option Bytes) (earlier mutations : List SyncdMutation) :
    ((hashDeltas t earlier mutations).1.map (ltWeight L)).sum -
        ((hashDeltas t earlier mutations).2.map (ltWeight L)).sum =
      shift (ltWeight L) (edits t (earlier.reverse.map hashEdit)) (mutations.map hashEdit) := by
  induction mutations generalizing earlier with
  | nil => simp [hashDeltas, shift]
  | cons m rest ih =>
    have htable : edits t ((m :: earlier).reverse.map hashEdit) =
        edit (edits t (earlier.reverse.map hashEdit)) (hashEdit m) := by
      rw [List.reverse_cons, List.map_append, Tally.edits_append]
      rfl
    have hadded : ((if m.operation = .set then [valueMacOf m.record.value] else []).map
        (ltWeight L)).sum = weight (ltWeight L) (hashEdit m).2 := by
      rw [hashEdit, weight_eq_sum_toList]
      split <;> rfl
    have hrest := ih (m :: earlier)
    rw [htable] at hrest
    rw [List.map_cons, shift, ← hrest]
    simp only [hashDeltas, List.map_append, List.sum_append, hadded, ← weight_eq_sum_toList,
      prevSetValueMac_eq]
    rw [hashEdit]
    abel

theorem lanes_updateHash (prevHash : Bytes) (mutations : List SyncdMutation)
    (t : Bytes → Option Bytes) :
    lanes (updateHash L prevHash mutations t) =
      lanes prevHash + shift (ltWeight L) t (mutations.map hashEdit) := by
  have hshift := hashDeltas_shift L t [] mutations
  rw [List.reverse_nil, List.map_nil] at hshift
  have hstart : edits t [] = t := rfl
  rw [hstart] at hshift
  rw [updateHash, lanes_subtractThenAdd, ← hshift]
  abel

/-- Setting distinct indices moves the total by what is set less what is replaced. -/
theorem shift_sets {t : Bytes → Option Bytes} {ms : List SyncdMutation}
    (hset : ∀ m ∈ ms, m.operation = .set) (hnodup : (ms.map fun m => m.record.index).Nodup) :
    shift (ltWeight L) t (ms.map hashEdit) =
      (ms.map fun m => ltWeight L (valueMacOf m.record.value)).sum -
        (ms.map fun m => weight (ltWeight L) (t m.record.index)).sum := by
  induction ms generalizing t with
  | nil => simp [shift]
  | cons m rest ih =>
    rw [List.map_cons, List.nodup_cons] at hnodup
    have hm := hset m List.mem_cons_self
    have hsame : (rest.map fun m' => weight (ltWeight L) (edit t (hashEdit m) m'.record.index)) =
        rest.map fun m' => weight (ltWeight L) (t m'.record.index) := by
      apply List.map_congr_left
      intro m' hm'
      have hne : m'.record.index ≠ m.record.index := fun h => hnodup.1
        (h ▸ List.mem_map.mpr ⟨m', hm', rfl⟩)
      rw [edit, hashEdit, Function.update_of_ne hne]
    rw [List.map_cons, shift, ih (fun m' hm' => hset m' (List.mem_cons_of_mem _ hm')) hnodup.2, hsame]
    simp only [hashEdit, hm, if_true, List.map_cons, List.sum_cons, weight]
    abel

end Hash

section Table

def tableEdit (m : Mutation) : Option (Edit Bytes Bytes) :=
  match m.operation with
  | .set => some (m.indexMac, some m.valueMac)
  | .remove => some (m.indexMac, none)
  | .unknown _ _ => none

def putValue (t : Bytes → Option Bytes) (m : MutationMac) : Bytes → Option Bytes :=
  Function.update t m.indexMac (some m.valueMac)

/-- Deletes first, then the additions in their order. -/
def applyDeltas (t : Bytes → Option Bytes) (deltas : List MutationMac × List Bytes) :
    Bytes → Option Bytes :=
  deltas.1.foldl putValue (fun k => if k ∈ deltas.2 then none else t k)

theorem foldl_putValue_congr {t t' : Bytes → Option Bytes} {k : Bytes} (h : t k = t' k)
    (macs : List MutationMac) : macs.foldl putValue t k = macs.foldl putValue t' k := by
  induction macs generalizing t t' with
  | nil => exact h
  | cons m macs ih =>
    apply ih
    by_cases hk : k = m.indexMac
    · rw [putValue, putValue, hk, Function.update_self, Function.update_self]
    · rw [putValue, putValue, Function.update_of_ne hk, Function.update_of_ne hk, h]

theorem foldl_putValue_filter {t : Bytes → Option Bytes} {k k' : Bytes} (macs : List MutationMac) :
    (macs.filter fun a => a.indexMac ≠ k).foldl putValue t k' =
      if k' = k then t k' else macs.foldl putValue t k' := by
  induction macs generalizing t with
  | nil => simp
  | cons m macs ih =>
    by_cases hm : m.indexMac = k
    · rw [List.filter_cons_of_neg (by simp [hm]), ih, List.foldl_cons]
      by_cases hk : k' = k
      · rw [if_pos hk, if_pos hk]
      · rw [if_neg hk, if_neg hk]
        apply foldl_putValue_congr
        rw [putValue, Function.update_of_ne fun h => hk (h.trans hm)]
    · rw [List.filter_cons_of_pos (by simp [hm]), List.foldl_cons, ih, List.foldl_cons]
      by_cases hk : k' = k
      · rw [if_pos hk, if_pos hk, putValue, Function.update_of_ne fun h => hm (h.symm.trans hk)]
      · rw [if_neg hk, if_neg hk]

theorem applyDeltas_remove (t : Bytes → Option Bytes) (added : List MutationMac)
    (removed : List Bytes) (k : Bytes) :
    applyDeltas t (added.filter (fun a => a.indexMac ≠ k), removed ++ [k]) =
      Function.update (applyDeltas t (added, removed)) k none := by
  funext k'
  rw [applyDeltas, foldl_putValue_filter]
  by_cases hk : k' = k
  · subst hk
    simp
  · rw [if_neg hk, Function.update_of_ne hk, applyDeltas]
    apply foldl_putValue_congr
    simp [hk]

theorem applyDeltas_macDeltas (t : Bytes → Option Bytes) (added : List MutationMac)
    (removed : List Bytes) (ms : List Mutation) :
    applyDeltas t (macDeltas added removed ms) =
      edits (applyDeltas t (added, removed)) (ms.filterMap tableEdit) := by
  induction ms generalizing added removed with
  | nil => rfl
  | cons m rest ih =>
    rw [macDeltas]
    cases hop : m.operation with
    | set =>
      have hedit : tableEdit m = some (m.indexMac, some m.valueMac) := by rw [tableEdit, hop]
      simp only [ih, List.filterMap_cons_some hedit]
      have hput : applyDeltas t (added ++ [⟨m.indexMac, m.valueMac⟩], removed) =
          edit (applyDeltas t (added, removed)) (m.indexMac, some m.valueMac) := by
        rw [applyDeltas, List.foldl_append]
        rfl
      rw [hput]
      rfl
    | remove =>
      have hedit : tableEdit m = some (m.indexMac, none) := by rw [tableEdit, hop]
      simp only [ih, List.filterMap_cons_some hedit, applyDeltas_remove]
      rfl
    | unknown n _ =>
      have hedit : tableEdit m = none := by rw [tableEdit, hop]
      simp only [ih, List.filterMap_cons_none hedit]

/-- Deletes first and additions last come to the mutations in their order. -/
theorem applyDeltas_computeMacDeltas (t : Bytes → Option Bytes) (ms : List Mutation) :
    applyDeltas t (computeMacDeltas ms) = edits t (ms.filterMap tableEdit) := by
  have h := applyDeltas_macDeltas t [] [] ms
  have hstart : applyDeltas t ([], []) = t := by
    funext k
    simp [applyDeltas]
  rwa [hstart] at h

end Table

section Newest

def valueOf (t : Bytes → Option (Nat × Bytes)) : Bytes → Option Bytes := fun k => (t k).map Prod.snd

/-- No entry is newer than `version`. -/
def UpTo (version : Nat) (t : Bytes → Option (Nat × Bytes)) : Prop :=
  ∀ k e, t k = some e → e.1 ≤ version

theorem UpTo.mono {v v' : Nat} {t : Bytes → Option (Nat × Bytes)} (h : UpTo v t) (hv : v ≤ v') :
    UpTo v' t := fun k e he => Nat.le_trans (h k e he) hv

theorem putNewest_upTo {version : Nat} {t : Bytes → Option (Nat × Bytes)} (h : UpTo version t)
    (m : MutationMac) : putNewest version t m =
      Function.update t m.indexMac (some (version, m.valueMac)) := by
  rw [putNewest]
  cases hk : t m.indexMac with
  | none => rfl
  | some e => simp only [if_pos (h _ _ hk)]

theorem foldl_putNewest {version : Nat} {t : Bytes → Option (Nat × Bytes)} (h : UpTo version t)
    (macs : List MutationMac) :
    UpTo version (macs.foldl (putNewest version) t) ∧
      valueOf (macs.foldl (putNewest version) t) = macs.foldl putValue (valueOf t) := by
  induction macs generalizing t with
  | nil => exact ⟨h, rfl⟩
  | cons m macs ih =>
    have hstep : UpTo version (putNewest version t m) := by
      rw [putNewest_upTo h]
      intro k e he
      by_cases hk : k = m.indexMac
      · rw [hk, Function.update_self] at he
        cases he
        exact Nat.le_refl _
      · rw [Function.update_of_ne hk] at he
        exact h k e he
    have hvalue : valueOf (putNewest version t m) = putValue (valueOf t) m := by
      rw [putNewest_upTo h]
      funext k
      by_cases hk : k = m.indexMac
      · subst hk
        simp [valueOf, putValue]
      · simp [valueOf, putValue, Function.update_of_ne hk]
    rw [List.foldl_cons, List.foldl_cons, ← hvalue]
    exact ih hstep

end Newest

section Decode

variable {L : Libraries} {keyStore : AppStateKeyStore} {validateMacs : Bool}

theorem sync_bind_ok {α β : Type} {x : Except SyncError α} {f : α → Except SyncError β} {b : β} :
    (x >>= f) = .ok b ↔ ∃ a, x = .ok a ∧ f a = .ok b := by
  cases x <;> simp [bind, Except.bind]

theorem decodeMutation_spec {m : SyncdMutation} {m' : Mutation}
    (h : decodeMutation L keyStore validateMacs m = .ok m') :
    m'.operation = m.operation ∧ m'.indexMac = m.record.index ∧
      m'.valueMac = valueMacOf m.record.value := by
  simp only [decodeMutation, sync_bind_ok] at h
  obtain ⟨_, _, _, _, _, _, _, _, _, _, _, _, h⟩ := h
  cases h
  exact ⟨rfl, rfl, rfl⟩

theorem mapM_forall₂ {α β : Type} {f : α → Except SyncError β} {as : List α} {bs : List β}
    (h : as.mapM f = .ok bs) : List.Forall₂ (fun a b => f a = .ok b) as bs := by
  induction as generalizing bs with
  | nil =>
    cases h
    exact .nil
  | cons a as ih =>
    rw [List.mapM_cons] at h
    obtain ⟨b, hb, h⟩ := sync_bind_ok.mp h
    obtain ⟨bs', hbs', h⟩ := sync_bind_ok.mp h
    cases h
    exact .cons hb (ih hbs')

/-- The edit of a mutation, read off the record it was decoded from. -/
def recordEdit (m : SyncdMutation) : Option (Edit Bytes Bytes) :=
  match m.operation with
  | .set => some (m.record.index, some (valueMacOf m.record.value))
  | .remove => some (m.record.index, none)
  | .unknown _ _ => none

theorem filterMap_tableEdit {ms : List SyncdMutation} {ms' : List Mutation}
    (h : ms.mapM (decodeMutation L keyStore validateMacs) = .ok ms') :
    ms'.filterMap tableEdit = ms.filterMap recordEdit := by
  have hall := mapM_forall₂ h
  clear h
  induction hall with
  | nil => rfl
  | @cons m m' ms ms' hm hms ih =>
    obtain ⟨hop, hindex, hvalue⟩ := decodeMutation_spec hm
    have hedit : tableEdit m' = recordEdit m := by rw [tableEdit, recordEdit, hop, hindex, hvalue]
    rw [List.filterMap_cons, List.filterMap_cons, hedit]
    cases recordEdit m with
    | none => exact ih
    | some e => exact congrArg (e :: ·) ih

def Item.version : Item → Nat
  | .snapshot s => s.version
  | .patch p => p.version

def Item.mutations : Item → List SyncdMutation
  | .snapshot s => snapshotMutations s
  | .patch p => p.mutations

/-- By how much an item moves the hash of the cursor it is applied to. -/
def Item.gain (L : Libraries) (t : Bytes → Option Bytes) : Item → Lanes
  | .snapshot s => ((snapshotMutations s).map fun m => ltWeight L (valueMacOf m.record.value)).sum
  | .patch p => shift (ltWeight L) t (p.mutations.map hashEdit)

variable {σ : Type} {S : AppStateStore σ}

structure Decoded (S : AppStateStore σ) (L : Libraries) (store : σ) (name : String)
    (cursor : HashState) (item : Item) (result : PatchDecodeResult) : Prop where
  version : result.state.version = item.version
  edits : result.mutations.filterMap tableEdit = item.mutations.filterMap recordEdit
  lanes : lanes result.state.hash = lanes cursor.hash + item.gain L (S.getMutationMac store name)
  length : cursor.hash.length = 128 → result.state.hash.length = 128

theorem decodeItem_spec {store : σ} {name : String} {cursor : HashState} {item : Item}
    {result : PatchDecodeResult}
    (h : decodeItem S L keyStore validateMacs store name cursor item = .ok result) :
    Decoded S L store name cursor item result := by
  cases item with
  | snapshot s =>
    simp only [decodeItem, decodeSnapshot, sync_bind_ok] at h
    obtain ⟨_, _, decoded, hdecoded, h⟩ := h
    cases h
    refine ⟨rfl, filterMap_tableEdit hdecoded, ?_, fun hlen => subtractThenAdd_length L hlen _ _⟩
    rw [lanes_subtractThenAdd, List.map_nil, List.sum_nil, sub_zero, List.map_map]
    rfl
  | patch p =>
    simp only [decodeItem, decodePatch, sync_bind_ok] at h
    obtain ⟨_, _, _, _, decoded, hdecoded, h⟩ := h
    cases h
    exact ⟨rfl, filterMap_tableEdit hdecoded, lanes_updateHash L _ _ _,
      fun hlen => subtractThenAdd_length L hlen _ _⟩

end Decode

section Step

variable {σ : Type} {S : AppStateStore σ} (V : S.View) {L : Libraries}
  {keyStore : AppStateKeyStore} {validateMacs : Bool}

theorem lanes_zero : lanes (List.replicate 128 0) = 0 := by
  decide

theorem coherent_iff {store : σ} {name : String} :
    Coherent S L store name ↔ (S.getVersion store name).hash.length = 128 ∧
      Total (ltWeight L) (S.getMutationMac store name) (lanes (S.getVersion store name).hash) := by
  have hzero : (List.replicate 128 (0 : UInt8)).length = 128 := List.length_replicate
  constructor
  · rintro ⟨indices, hnodup, hindices, hhash⟩
    rw [hhash]
    refine ⟨subtractThenAdd_length L hzero _ _, ?_⟩
    have htotal := Tally.total_of_list (w := ltWeight L) hnodup hindices
    rw [lanes_subtractThenAdd, lanes_zero, List.map_nil, List.sum_nil, sub_zero, zero_add]
    exact htotal
  · rintro ⟨hlen, htotal⟩
    obtain ⟨indices, hnodup, hindices⟩ := htotal.exists_list
    refine ⟨indices, hnodup, hindices, ?_⟩
    apply eq_of_lanes_eq hlen (subtractThenAdd_length L hzero _ _)
    rw [lanes_subtractThenAdd, lanes_zero, List.map_nil, List.sum_nil, sub_zero, zero_add]
    exact htotal.unique (Tally.total_of_list hnodup hindices)

theorem getMutationMac_eq_valueOf (store : σ) (name : String) :
    S.getMutationMac store name = valueOf (V.newest store name) := by
  funext k
  exact V.getMutationMac_eq store name k

theorem persist_spec {store after : σ} {name : String} {result : PatchDecodeResult}
    (h : persist S store name result = .ok after) :
    S.getVersion after = Function.update (S.getVersion store) name result.state ∧
      V.newest after = Function.update (V.newest store) name
        ((computeMacDeltas result.mutations).1.foldl (putNewest result.state.version)
          (fun k => if k ∈ (computeMacDeltas result.mutations).2 then none
            else V.newest store name k)) := by
  simp only [persist, sync_bind_ok] at h
  obtain ⟨store', hput, h⟩ := h
  have hversion := V.getVersion_putVersion hput
  have hnewest := V.newest_putVersion hput
  generalize computeMacDeltas result.mutations = deltas at h ⊢
  obtain ⟨added, removed⟩ := deltas
  simp only at h ⊢
  have hdelete : ∃ store'', (if removed = [] then store' else S.deleteMutationMacs store' name removed)
      = store'' ∧ S.getVersion store'' = S.getVersion store' ∧
      V.newest store'' = Function.update (V.newest store) name
        (fun k => if k ∈ removed then none else V.newest store name k) := by
    by_cases hremoved : removed = []
    · refine ⟨store', if_pos hremoved, rfl, ?_⟩
      rw [hnewest, hremoved]
      simp
    · refine ⟨_, if_neg hremoved, V.getVersion_deleteMutationMacs _ _ _, ?_⟩
      rw [V.newest_deleteMutationMacs, hnewest]
  obtain ⟨store'', hstore'', hversion'', hnewest''⟩ := hdelete
  rw [hstore''] at h
  by_cases hadded : added = []
  · rw [if_pos hadded] at h
    cases h
    rw [hversion'', hversion, hnewest'', hadded]
    exact ⟨rfl, rfl⟩
  · rw [if_neg hadded] at h
    cases h
    rw [V.getVersion_putMutationMacs, V.newest_putMutationMacs, hversion'', hversion, hnewest'',
      Function.update_self, Function.update_idem]
    exact ⟨rfl, rfl⟩

theorem applyItem_spec {store : σ} {name : String} {cursor : HashState} {item : Item}
    {step : Applied σ} (h : applyItem S L keyStore validateMacs store name cursor item = .ok step) :
    step.name = name ∧ step.item = item ∧ step.cursor = cursor ∧ step.before = store ∧
      Decoded S L store name cursor item step.result ∧
      persist S store name step.result = .ok step.after := by
  simp only [applyItem, sync_bind_ok] at h
  obtain ⟨result, hresult, after, hafter, h⟩ := h
  cases h
  exact ⟨rfl, rfl, rfl, rfl, decodeItem_spec hresult, hafter⟩

include V in
theorem applyItem_stored {store : σ} {name : String} {cursor : HashState} {item : Item}
    {step : Applied σ} (h : applyItem S L keyStore validateMacs store name cursor item = .ok step) :
    step.result.state = S.getVersion step.after name := by
  obtain ⟨-, -, -, -, -, hpersist⟩ := applyItem_spec h
  rw [(persist_spec V hpersist).1, Function.update_self]

include V in
theorem applyItem_version {store : σ} {name : String} {cursor : HashState} {item : Item}
    {step : Applied σ} (h : applyItem S L keyStore validateMacs store name cursor item = .ok step) :
    (S.getVersion step.after name).version = item.version := by
  obtain ⟨-, -, -, -, hdecoded, -⟩ := applyItem_spec h
  rw [← applyItem_stored V h, hdecoded.version]

theorem persist_table {store after : σ} {name : String} {result : PatchDecodeResult}
    (h : persist S store name result = .ok after)
    (hnew : UpTo result.state.version (V.newest store name)) :
    UpTo result.state.version (V.newest after name) ∧
      S.getMutationMac after name =
        edits (S.getMutationMac store name) (result.mutations.filterMap tableEdit) := by
  have hnewest := (persist_spec V h).2
  have hafter := congrFun hnewest name
  rw [Function.update_self] at hafter
  have hkept : UpTo result.state.version
      (fun k => if k ∈ (computeMacDeltas result.mutations).2 then none
        else V.newest store name k) := by
    intro k e he
    beta_reduce at he
    by_cases hk : k ∈ (computeMacDeltas result.mutations).2
    · rw [if_pos hk] at he
      cases he
    · rw [if_neg hk] at he
      exact hnew k e he
  obtain ⟨hupTo, hvalue⟩ := foldl_putNewest hkept (computeMacDeltas result.mutations).1
  rw [← hafter] at hupTo hvalue
  refine ⟨hupTo, ?_⟩
  rw [getMutationMac_eq_valueOf V, hvalue, ← applyDeltas_computeMacDeltas, applyDeltas]
  congr 1
  funext k
  rw [getMutationMac_eq_valueOf V store name]
  simp only [valueOf]
  split <;> rfl

/-- An item that is folded onto the hash the table has: a patch onto the stored hash,
a snapshot onto the stored hash less the values it replaces. -/
def Item.Fits (S : AppStateStore σ) (L : Libraries) (store : σ) (name : String)
    (cursor : HashState) : Item → Prop
  | .snapshot s => (s.records.map SyncdRecord.index).Nodup ∧
      cursor.hash = subtractThenAdd L (S.getVersion store name).hash []
        (s.records.filterMap fun r => S.getMutationMac store name r.index)
  | .patch p => (∀ m ∈ p.mutations, m.operation = .set ∨ m.operation = .remove) ∧
      cursor.hash = (S.getVersion store name).hash

instance (store : σ) (name : String) (cursor : HashState) (item : Item) :
    Decidable (item.Fits S L store name cursor) :=
  match item with
  | .snapshot _ => inferInstanceAs (Decidable (_ ∧ _))
  | .patch _ => inferInstanceAs (Decidable (_ ∧ _))

/-- A coherent collection with no entry newer than its cursor. -/
structure Sound (V : S.View) (L : Libraries) (store : σ) (name : String) : Prop where
  coherent : Coherent S L store name
  upTo : UpTo (S.getVersion store name).version (V.newest store name)

theorem hashEdit_eq_recordEdit {ms : List SyncdMutation}
    (h : ∀ m ∈ ms, m.operation = .set ∨ m.operation = .remove) :
    ms.filterMap recordEdit = ms.map hashEdit := by
  induction ms with
  | nil => rfl
  | cons m ms ih =>
    have hm : recordEdit m = some (hashEdit m) := by
      rcases h m List.mem_cons_self with hop | hop <;> simp [recordEdit, hashEdit, hop]
    rw [List.filterMap_cons_some hm, List.map_cons,
      ih fun m' hm' => h m' (List.mem_cons_of_mem _ hm')]

theorem snapshotMutations_set {s : SyncdSnapshot} {m : SyncdMutation}
    (h : m ∈ snapshotMutations s) : m.operation = .set := by
  obtain ⟨r, _, rfl⟩ := List.mem_map.mp h
  rfl

theorem sum_weight_filterMap (t : Bytes → Option Bytes) (rs : List SyncdRecord) :
    ((rs.filterMap fun r => t r.index).map (ltWeight L)).sum =
      (rs.map fun r => weight (ltWeight L) (t r.index)).sum := by
  induction rs with
  | nil => rfl
  | cons r rs ih => cases hr : t r.index <;> simp [hr, ih, weight]

/-- The hash of the item and the edits of the table agree. -/
theorem Item.Fits.total {store : σ} {name : String} {cursor : HashState} {item : Item}
    {result : PatchDecodeResult} (hfits : item.Fits S L store name cursor)
    (hdecoded : Decoded S L store name cursor item result)
    (htotal : Total (ltWeight L) (S.getMutationMac store name)
      (lanes (S.getVersion store name).hash)) :
    Total (ltWeight L) (edits (S.getMutationMac store name) (result.mutations.filterMap tableEdit))
      (lanes result.state.hash) := by
  have hknown : ∀ m ∈ item.mutations, m.operation = .set ∨ m.operation = .remove := by
    cases item with
    | snapshot s => exact fun m hm => Or.inl (snapshotMutations_set hm)
    | patch p => exact hfits.1
  rw [hdecoded.edits, hashEdit_eq_recordEdit hknown, hdecoded.lanes]
  have hedits := htotal.edits (item.mutations.map hashEdit)
  convert hedits using 1
  cases item with
  | patch p => rw [hfits.2]; rfl
  | snapshot s =>
    obtain ⟨hnodup, hbase⟩ := hfits
    have hindices : ((snapshotMutations s).map fun m => m.record.index).Nodup := by
      simpa only [snapshotMutations, List.map_map, Function.comp_def] using hnodup
    have hlanes := congrArg lanes hbase
    rw [lanes_subtractThenAdd, List.map_nil, List.sum_nil, add_zero, sum_weight_filterMap] at hlanes
    have hshift := shift_sets L (t := S.getMutationMac store name)
      (fun m hm => snapshotMutations_set hm) hindices
    have hreplaced : ((snapshotMutations s).map fun m =>
        weight (ltWeight L) (S.getMutationMac store name m.record.index)).sum =
        (s.records.map fun r => weight (ltWeight L) (S.getMutationMac store name r.index)).sum := by
      simp only [snapshotMutations, List.map_map, Function.comp_def]
    rw [Item.gain, Item.mutations, hshift, hreplaced, hlanes]
    abel

theorem Item.Fits.cursor_length {store : σ} {name : String} {cursor : HashState} {item : Item}
    (h : item.Fits S L store name cursor) (hlen : (S.getVersion store name).hash.length = 128) :
    cursor.hash.length = 128 := by
  cases item with
  | snapshot s =>
    rw [h.2]
    exact subtractThenAdd_length L hlen _ _
  | patch p =>
    rw [h.2]
    exact hlen

/-- One item that fits and is not older than the cursor keeps the collection sound. -/
theorem Sound.persist {store after : σ} {name : String} {cursor : HashState} {item : Item}
    {result : PatchDecodeResult} (hsound : Sound V L store name)
    (hfits : item.Fits S L store name cursor)
    (hversion : (S.getVersion store name).version ≤ item.version)
    (hdecoded : Decoded S L store name cursor item result)
    (h : persist S store name result = .ok after) :
    Sound V L after name := by
  have hstored : S.getVersion after name = result.state := by
    rw [(persist_spec V h).1, Function.update_self]
  have hlen : cursor.hash.length = 128 := hfits.cursor_length (coherent_iff.mp hsound.coherent).1
  rw [← hdecoded.version] at hversion
  obtain ⟨hupTo, htable⟩ := persist_table V h (hsound.upTo.mono hversion)
  refine ⟨coherent_iff.mpr ?_, ?_⟩
  · rw [hstored, htable]
    exact ⟨hdecoded.length hlen, hfits.total hdecoded (coherent_iff.mp hsound.coherent).2⟩
  · rw [hstored]
    exact hupTo

/-- The other collections are left alone. -/
theorem persist_other {store after : σ} {name other : String} {result : PatchDecodeResult}
    (hother : other ≠ name) (h : PyWhats.AppState.persist S store name result = .ok after) :
    S.getVersion after other = S.getVersion store other ∧
      V.newest after other = V.newest store other := by
  obtain ⟨hversion, hnewest⟩ := persist_spec V h
  rw [hversion, hnewest, Function.update_of_ne hother, Function.update_of_ne hother]
  exact ⟨rfl, rfl⟩

theorem Sound.congr {store store' : σ} {name : String} (h : Sound V L store name)
    (hversion : S.getVersion store' name = S.getVersion store name)
    (hnewest : V.newest store' name = V.newest store name) : Sound V L store' name := by
  have htable : S.getMutationMac store' name = S.getMutationMac store name := by
    rw [getMutationMac_eq_valueOf V, getMutationMac_eq_valueOf V, hnewest]
  refine ⟨?_, by rw [hversion, hnewest]; exact h.upTo⟩
  have hcoherent := h.coherent
  rw [Coherent, ← htable, ← hversion] at hcoherent
  exact hcoherent

end Step

end PyWhats.AppState
