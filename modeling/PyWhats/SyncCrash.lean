import PyWhats.CollectionRuns

/-! A crash of the process between two statements of `apply_patch_list` on SQLite.
The cursor is committed first and the rows of the MAC table after it, one by one:
what a crash leaves is coherent exactly when nothing that the call writes moves the
LT-hash. -/

namespace PyWhats.AppState

open Tally (Edit Total edit edits weight)

section Statements

/-- The databases that a list of statements leaves, commit after commit. -/
def Db.states : Db → List Statement → List Db
  | _, [] => []
  | db, statement :: rest => db.exec statement :: (db.exec statement).states rest

theorem foldl_commit (store : Sqlite) (statements : List Statement) :
    statements.foldl Sqlite.commit store =
      ⟨statements.foldl Db.exec store.db, store.committed ++ store.db.states statements⟩ := by
  induction statements generalizing store with
  | nil => simp [Db.states]
  | cons statement rest ih => simp [ih, Sqlite.commit, Db.states]

theorem mem_states {db db' : Db} {statements : List Statement} :
    db' ∈ db.states statements ↔
      ∃ n < statements.length, db' = (statements.take (n + 1)).foldl Db.exec db := by
  induction statements generalizing db with
  | nil => simp [Db.states]
  | cons statement rest ih =>
    rw [Db.states, List.mem_cons, ih]
    constructor
    · rintro (rfl | ⟨n, hn, rfl⟩)
      · exact ⟨0, Nat.succ_pos _, rfl⟩
      · exact ⟨n + 1, Nat.succ_lt_succ hn, rfl⟩
    · rintro ⟨n, hn, rfl⟩
      cases n with
      | zero => exact Or.inl rfl
      | succ n => exact Or.inr ⟨n, Nat.lt_of_succ_lt_succ hn, rfl⟩

theorem mem_cons_states {db db' : Db} {statements : List Statement} :
    db' ∈ db :: db.states statements ↔ ∃ n, db' = (statements.take n).foldl Db.exec db := by
  rw [List.mem_cons, mem_states]
  constructor
  · rintro (rfl | ⟨n, _, rfl⟩)
    · exact ⟨0, rfl⟩
    · exact ⟨n + 1, rfl⟩
  · rintro ⟨n, rfl⟩
    cases n with
    | zero => exact Or.inl rfl
    | succ n =>
      rcases Nat.lt_or_ge n statements.length with hn | hn
      · exact Or.inr ⟨n, hn, rfl⟩
      · cases hlen : statements.length with
        | zero =>
          left
          rw [List.length_eq_zero_iff.mp hlen]
          rfl
        | succ m =>
          refine Or.inr ⟨m, Nat.lt_succ_self m, ?_⟩
          rw [List.take_of_length_le (by omega), List.take_of_length_le (by omega)]

def rowStatements (name : String) (version : Nat) (deltas : List MutationMac × List Bytes) :
    List Statement :=
  deltas.2.map (.deleteMac name) ++ deltas.1.map (.upsertMac name version)

theorem persist_sqlite {store after : Sqlite} {name : String} {result : PatchDecodeResult}
    (h : persist sqliteAppStateStore store name result = .ok after) :
    after = (Statement.upsertVersion name result.state ::
      rowStatements name result.state.version (computeMacDeltas result.mutations)).foldl
        Sqlite.commit store := by
  simp only [persist, sync_bind_ok] at h
  obtain ⟨store', hput, h⟩ := h
  have hstore' : store' = store.commit (.upsertVersion name result.state) := by
    simp only [sqliteAppStateStore] at hput
    split at hput
    · cases hput
    split at hput
    · cases hput
    cases hput
    rfl
  generalize computeMacDeltas result.mutations = deltas at h ⊢
  obtain ⟨added, removed⟩ := deltas
  have hdelete : (if removed = [] then store'
      else sqliteAppStateStore.deleteMutationMacs store' name removed) =
      (removed.map (.deleteMac name)).foldl Sqlite.commit store' := by
    rw [List.foldl_map]
    by_cases hremoved : removed = []
    · rw [if_pos hremoved, hremoved]
      rfl
    · rw [if_neg hremoved]
      rfl
  simp only [hdelete] at h
  rw [List.foldl_cons, rowStatements, List.foldl_append, ← hstore', List.foldl_map (l := added)]
  by_cases hadded : added = []
  · rw [if_pos hadded] at h
    cases h
    rw [hadded]
    rfl
  · rw [if_neg hadded] at h
    cases h
    rfl

end Statements

section Rows

/-- A row that an older version writes stays hidden behind the newer one. -/
def Hidden (version : Nat) (t : Bytes → Option (Nat × Bytes)) (k : Bytes) : Prop :=
  ∃ e, t k = some e ∧ version < e.1

instance (version : Nat) (t : Bytes → Option (Nat × Bytes)) (k : Bytes) :
    Decidable (Hidden version t k) :=
  match h : t k with
  | none => .isFalse fun ⟨_, he, _⟩ => by rw [h] at he; cases he
  | some e =>
    decidable_of_iff (version < e.1)
      ⟨fun hlt => ⟨e, h, hlt⟩, fun ⟨e', he', hlt⟩ => by rw [h] at he'; cases he'; exact hlt⟩

def putEdit (version : Nat) (t : Bytes → Option (Nat × Bytes)) (m : MutationMac) :
    Edit Bytes Bytes :=
  (m.indexMac, if Hidden version t m.indexMac then valueOf t m.indexMac else some m.valueMac)

theorem putNewest_hidden {version : Nat} {t : Bytes → Option (Nat × Bytes)} {m : MutationMac}
    (h : Hidden version t m.indexMac) : putNewest version t m = t := by
  obtain ⟨e, he, hlt⟩ := h
  rw [putNewest, he]
  simp only [if_neg (Nat.not_le.mpr hlt)]
  rw [← he]
  exact Function.update_eq_self _ _

theorem putNewest_not_hidden {version : Nat} {t : Bytes → Option (Nat × Bytes)} {m : MutationMac}
    (h : ¬ Hidden version t m.indexMac) :
    putNewest version t m = Function.update t m.indexMac (some (version, m.valueMac)) := by
  rw [putNewest]
  cases he : t m.indexMac with
  | none => rfl
  | some e =>
    have hle : e.1 ≤ version := Nat.not_lt.mp fun hlt => h ⟨e, he, hlt⟩
    simp only [if_pos hle]

theorem valueOf_putNewest (version : Nat) (t : Bytes → Option (Nat × Bytes)) (m : MutationMac) :
    valueOf (putNewest version t m) = edit (valueOf t) (putEdit version t m) := by
  by_cases h : Hidden version t m.indexMac
  · rw [putNewest_hidden h, edit, putEdit, if_pos h]
    exact (Function.update_eq_self _ _).symm
  · rw [putNewest_not_hidden h, edit, putEdit, if_neg h]
    funext k
    by_cases hk : k = m.indexMac
    · subst hk
      simp [valueOf]
    · simp [valueOf, Function.update_of_ne hk]

theorem putEdit_putNewest (version : Nat) (t : Bytes → Option (Nat × Bytes)) (m m' : MutationMac) :
    putEdit version (putNewest version t m) m' = putEdit version t m' := by
  by_cases h : Hidden version t m.indexMac
  · rw [putNewest_hidden h]
  · rw [putNewest_not_hidden h]
    by_cases hk : m'.indexMac = m.indexMac
    · have hnew : ¬ Hidden version
          (Function.update t m.indexMac (some (version, m.valueMac))) m'.indexMac := by
        rintro ⟨e, he, hlt⟩
        rw [hk, Function.update_self] at he
        cases he
        exact Nat.lt_irrefl _ hlt
      rw [← hk] at h
      rw [putEdit, putEdit, if_neg hnew, if_neg h]
    · have hsame : Hidden version (Function.update t m.indexMac (some (version, m.valueMac)))
          m'.indexMac ↔ Hidden version t m'.indexMac := by
        simp only [Hidden, Function.update_of_ne hk]
      simp only [putEdit, hsame, valueOf, Function.update_of_ne hk]

theorem valueOf_foldl_putNewest (version : Nat) (t : Bytes → Option (Nat × Bytes))
    (macs : List MutationMac) :
    valueOf (macs.foldl (putNewest version) t) =
      edits (valueOf t) (macs.map (putEdit version t)) := by
  induction macs generalizing t with
  | nil => rfl
  | cons m macs ih =>
    have hsame : macs.map (putEdit version (putNewest version t m)) = macs.map (putEdit version t) :=
      List.map_congr_left fun m' _ => putEdit_putNewest version t m m'
    rw [List.foldl_cons, ih, hsame, valueOf_putNewest]
    rfl

theorem edits_removes (t : Bytes → Option Bytes) (ks : List Bytes) :
    edits t (ks.map fun k => (k, none)) = fun k => if k ∈ ks then none else t k := by
  induction ks generalizing t with
  | nil => simp [edits]
  | cons k ks ih =>
    have htail : edits t ((k :: ks).map fun k => (k, none)) =
        edits (edit t (k, none)) (ks.map fun k => (k, none)) := rfl
    rw [htail, ih]
    funext k'
    by_cases hk : k' = k
    · simp [hk, edit]
    · simp [hk, edit]

/-- The edits of the MAC table, row by row. -/
def rowEdits (version : Nat) (t : Bytes → Option (Nat × Bytes))
    (deltas : List MutationMac × List Bytes) : List (Edit Bytes Bytes) :=
  deltas.2.map (fun k => (k, none)) ++
    deltas.1.map (putEdit version fun k => if k ∈ deltas.2 then none else t k)

theorem foldl_deletes (db : Db) (name : String) (ks : List Bytes) :
    ((ks.map (Statement.deleteMac name)).foldl Db.exec db).newest name =
        (fun k => if k ∈ ks then none else db.newest name k) ∧
      ((ks.map (Statement.deleteMac name)).foldl Db.exec db).versions = db.versions := by
  have hdelete := Sqlite.foldl_deleteMac name ⟨db, []⟩ ks
  have hcommit := foldl_commit ⟨db, []⟩ (ks.map (Statement.deleteMac name))
  rw [List.foldl_map] at hcommit
  rw [hcommit] at hdelete
  refine ⟨?_, hdelete.2⟩
  have hnewest := congrFun hdelete.1 name
  rwa [Function.update_self] at hnewest

theorem foldl_upserts (db : Db) (name : String) (version : Nat) (macs : List MutationMac) :
    ((macs.map (Statement.upsertMac name version)).foldl Db.exec db).newest name =
        macs.foldl (putNewest version) (db.newest name) ∧
      ((macs.map (Statement.upsertMac name version)).foldl Db.exec db).versions = db.versions := by
  have hupsert := Sqlite.foldl_upsertMac name version ⟨db, []⟩ macs
  have hcommit := foldl_commit ⟨db, []⟩ (macs.map (Statement.upsertMac name version))
  rw [List.foldl_map] at hcommit
  rw [hcommit] at hupsert
  refine ⟨?_, hupsert.2⟩
  have hnewest := congrFun hupsert.1 name
  rwa [Function.update_self] at hnewest

theorem valueOf_if_mem (t : Bytes → Option (Nat × Bytes)) (ks : List Bytes) :
    valueOf (fun k => if k ∈ ks then none else t k) =
      fun k => if k ∈ ks then none else valueOf t k := by
  funext k
  by_cases hk : k ∈ ks <;> simp [valueOf, hk]

/-- After any number of rows the table has seen as many edits. -/
theorem foldl_rows (db : Db) (name : String) (version : Nat)
    (deltas : List MutationMac × List Bytes) (n : Nat) :
    valueOf ((((rowStatements name version deltas).take n).foldl Db.exec db).newest name) =
        edits (valueOf (db.newest name)) ((rowEdits version (db.newest name) deltas).take n) ∧
      (((rowStatements name version deltas).take n).foldl Db.exec db).versions = db.versions := by
  obtain ⟨added, removed⟩ := deltas
  simp only [rowStatements, rowEdits, List.take_append, List.length_map, List.foldl_append,
    Tally.edits_append, ← List.map_take, edits_removes]
  obtain ⟨hdeletes, hversions⟩ := foldl_deletes db name (removed.take n)
  obtain ⟨hupserts, hversions'⟩ := foldl_upserts
    (((removed.take n).map (Statement.deleteMac name)).foldl Db.exec db) name version
    (added.take (n - removed.length))
  refine ⟨?_, hversions'.trans hversions⟩
  rw [hupserts, hdeletes, valueOf_foldl_putNewest, valueOf_if_mem]
  rcases Nat.lt_or_ge n removed.length with hn | hn
  · have hnone : n - removed.length = 0 := Nat.sub_eq_zero_of_le (Nat.le_of_lt hn)
    rw [hnone]
    rfl
  · rw [List.take_of_length_le hn]

end Rows

section Crash

variable {L : Libraries} {keyStore : AppStateKeyStore} {validateMacs : Bool}

/-- Nothing that the item writes moves the LT-hash: it adds as much as it takes out,
the indices it removes weigh nothing, and a value it stores, unless an entry of a
newer version hides it, weighs what the stored one does. -/
structure Still (L : Libraries) (step : Applied Sqlite) : Prop where
  hash : step.item.gain L (sqliteAppStateStore.getMutationMac step.before step.name) = 0
  removed : ∀ k ∈ (computeMacDeltas step.result.mutations).2,
    weight (ltWeight L) (sqliteAppStateStore.getMutationMac step.before step.name k) = 0
  added : ∀ m ∈ (computeMacDeltas step.result.mutations).1,
    m.indexMac ∈ (computeMacDeltas step.result.mutations).2 ∨
      (∀ e, step.before.db.newest step.name m.indexMac = some e → e.1 ≤ step.item.version) →
    ltWeight L m.valueMac =
      weight (ltWeight L) (sqliteAppStateStore.getMutationMac step.before step.name m.indexMac)

theorem rowEdits_weight {version : Nat} {t : Bytes → Option (Nat × Bytes)}
    {added : List MutationMac} {removed : List Bytes} :
    (∀ e ∈ rowEdits version t (added, removed),
      weight (ltWeight L) e.2 = weight (ltWeight L) (valueOf t e.1)) ↔
    (∀ k ∈ removed, weight (ltWeight L) (valueOf t k) = 0) ∧
      ∀ m ∈ added, m.indexMac ∈ removed ∨ (∀ e, t m.indexMac = some e → e.1 ≤ version) →
        ltWeight L m.valueMac = weight (ltWeight L) (valueOf t m.indexMac) := by
  have hhidden : ∀ k, Hidden version (fun k => if k ∈ removed then none else t k) k ↔
      ¬ (k ∈ removed ∨ ∀ e, t k = some e → e.1 ≤ version) := by
    intro k
    by_cases hk : k ∈ removed
    · simp [Hidden, hk]
    · simp [Hidden, hk]
  simp only [rowEdits, List.forall_mem_append, List.forall_mem_map]
  refine and_congr ⟨fun h k hk => (h k hk).symm, fun h k hk => (h k hk).symm⟩ ?_
  refine forall₂_congr fun m _ => ?_
  simp only [putEdit, hhidden]
  by_cases hm : m.indexMac ∈ removed ∨ ∀ e, t m.indexMac = some e → e.1 ≤ version
  · rw [if_neg (not_not.mpr hm)]
    exact ⟨fun h _ => h, fun h => h hm⟩
  · rw [if_pos hm, valueOf_if_mem]
    have hnot : m.indexMac ∉ removed := fun h => hm (Or.inl h)
    simp only [if_neg hnot]
    exact ⟨fun _ h => absurd h hm, fun _ => trivial⟩

theorem coherent_db {db : Db} {committed : List Db} {name : String} :
    Coherent sqliteAppStateStore L ⟨db, committed⟩ name ↔
      ((db.versions.get? name).getD {}).hash.length = 128 ∧
        Total (ltWeight L) (valueOf (db.newest name)) (lanes ((db.versions.get? name).getD {}).hash) :=
  coherent_iff

theorem total_takes_iff {t : Bytes → Option Bytes} {g g' : Lanes} (h : Total (ltWeight L) t g)
    {es : List (Edit Bytes Bytes)} :
    (∀ n, Total (ltWeight L) (edits t (es.take n)) g') ↔
      g' = g ∧ ∀ e ∈ es, weight (ltWeight L) e.2 = weight (ltWeight L) (t e.1) := by
  constructor
  · intro hall
    obtain rfl : g' = g := (hall 0).unique h
    refine ⟨rfl, (Tally.total_prefixes_iff h).mp fun es' hes' => ?_⟩
    rw [List.prefix_iff_eq_take.mp hes']
    exact hall _
  · rintro ⟨rfl, hweights⟩ n
    exact (Tally.total_prefixes_iff h).mpr hweights _ (List.take_prefix n es)

/-- The states between the statements of one item. -/
theorem step_coherent_iff {store : Sqlite} {name : String} {item : Item} {step : Applied Sqlite}
    (hstore : Coherent sqliteAppStateStore L store name)
    (h : applyItem sqliteAppStateStore L keyStore validateMacs store name
      (sqliteAppStateStore.getVersion store name) item = .ok step) :
    ∃ states, step.after.committed = store.committed ++ states ∧ step.after.db ∈ states ∧
      ((∀ db ∈ states, Coherent sqliteAppStateStore L ⟨db, []⟩ name) ↔ Still L step) := by
  obtain ⟨rfl, rfl, hcursor, rfl, hdecoded, hpersist⟩ := applyItem_spec h
  obtain ⟨hlen, htotal⟩ := coherent_iff.mp hstore
  have hafter := persist_sqlite hpersist
  rw [foldl_commit] at hafter
  generalize hdeltas : computeMacDeltas step.result.mutations = deltas at hafter
  obtain ⟨added, removed⟩ := deltas
  -- the database after the cursor is written, with the table as it was
  let db := step.before.db.exec (.upsertVersion step.name step.result.state)
  let rows := rowStatements step.name step.result.state.version (added, removed)
  refine ⟨db :: db.states rows, by rw [hafter]; rfl, ?_, ?_⟩
  · rw [mem_cons_states]
    refine ⟨rows.length, ?_⟩
    rw [hafter, List.take_of_length_le (Nat.le_refl _)]
    rfl
  · have hcoherent : ∀ n, Coherent sqliteAppStateStore L ⟨(rows.take n).foldl Db.exec db, []⟩
        step.name ↔ Total (ltWeight L)
          (edits (valueOf (step.before.db.newest step.name))
            ((rowEdits step.result.state.version (step.before.db.newest step.name)
              (added, removed)).take n)) (lanes step.result.state.hash) := by
      intro n
      obtain ⟨htable, hversions⟩ := foldl_rows db step.name step.result.state.version
        (added, removed) n
      have hcursor' : ((((rows.take n).foldl Db.exec db).versions.get? step.name).getD {}) =
          step.result.state := by
        rw [hversions]
        simp [db, Db.exec]
      rw [coherent_db, hcursor', htable]
      exact and_iff_right (hdecoded.length hlen)
    have hstates : (∀ d ∈ db :: db.states rows, Coherent sqliteAppStateStore L ⟨d, []⟩ step.name) ↔
        ∀ n, Coherent sqliteAppStateStore L ⟨(rows.take n).foldl Db.exec db, []⟩ step.name := by
      simp only [mem_cons_states]
      exact ⟨fun hall n => hall _ ⟨n, rfl⟩, fun hall d ⟨n, hn⟩ => hn ▸ hall n⟩
    have htable : sqliteAppStateStore.getMutationMac step.before step.name =
        valueOf (step.before.db.newest step.name) := rfl
    rw [htable] at htotal
    rw [hstates]
    simp only [hcoherent]
    rw [total_takes_iff htotal, rowEdits_weight, hdecoded.lanes, add_eq_left, hdecoded.version]
    constructor
    · rintro ⟨hgain, hremoved, hadded⟩
      refine ⟨hgain, ?_, ?_⟩
      · rw [hdeltas]
        exact hremoved
      · rw [hdeltas]
        exact hadded
    · rintro ⟨hgain, hremoved, hadded⟩
      rw [hdeltas] at hremoved hadded
      exact ⟨hgain, hremoved, hadded⟩

theorem applyItems_committed {name : String} {items : List Item} (store : Sqlite)
    (cursor : HashState) (mutations : List Mutation) :
    ∃ states, (applyItems sqliteAppStateStore L keyStore validateMacs name store cursor mutations
      items).store.committed = store.committed ++ states := by
  induction items generalizing store cursor mutations with
  | nil => exact ⟨[], (List.append_nil _).symm⟩
  | cons item rest ih =>
    rw [applyItems]
    cases happly : applyItem sqliteAppStateStore L keyStore validateMacs store name cursor item with
    | error e => exact ⟨[], (List.append_nil _).symm⟩
    | ok step =>
      obtain ⟨-, -, -, -, -, hpersist⟩ := applyItem_spec happly
      have hafter := persist_sqlite hpersist
      rw [foldl_commit] at hafter
      have hcommitted := congrArg Sqlite.committed hafter
      obtain ⟨states, hstates⟩ := ih step.after step.result.state
        (mutations ++ step.result.mutations)
      exact ⟨_, by rw [hstates, hcommitted, List.append_assoc]⟩

variable (keyStore validateMacs) in
theorem applyItems_crash {name : String} (items : List Item) {store : Sqlite}
    (mutations : List Mutation) (hstore : Coherent sqliteAppStateStore L store name) :
    ∃ states, (applyItems sqliteAppStateStore L keyStore validateMacs name store
        (sqliteAppStateStore.getVersion store name) mutations items).store.committed =
          store.committed ++ states ∧
      ((∀ db ∈ states, Coherent sqliteAppStateStore L ⟨db, []⟩ name) ↔
        ∀ step ∈ (applyItems sqliteAppStateStore L keyStore validateMacs name store
          (sqliteAppStateStore.getVersion store name) mutations items).applied, Still L step) := by
  induction items generalizing store mutations with
  | nil => exact ⟨[], (List.append_nil _).symm, by simp [applyItems]⟩
  | cons item rest ih =>
    rw [applyItems]
    cases happly : applyItem sqliteAppStateStore L keyStore validateMacs store name
        (sqliteAppStateStore.getVersion store name) item with
    | error e => exact ⟨[], (List.append_nil _).symm, by simp⟩
    | ok step =>
      obtain ⟨states, hcommitted, hlast, hiff⟩ := step_coherent_iff hstore happly
      simp only [applyItem_stored sqliteView happly]
      by_cases hstill : Still L step
      · have hafter : Coherent sqliteAppStateStore L step.after name := hiff.mpr hstill _ hlast
        obtain ⟨states', hcommitted', hiff'⟩ := ih
          (mutations ++ step.result.mutations) hafter
        refine ⟨states ++ states', ?_, ?_⟩
        · rw [hcommitted', hcommitted, List.append_assoc]
        · rw [List.forall_mem_append, List.forall_mem_cons, hiff, hiff']
      · have hgrows : ∃ states', (applyItems sqliteAppStateStore L keyStore validateMacs name
            step.after (sqliteAppStateStore.getVersion step.after name)
            (mutations ++ step.result.mutations) rest).store.committed =
              step.after.committed ++ states' := applyItems_committed _ _ _
        obtain ⟨states', hcommitted'⟩ := hgrows
        refine ⟨states ++ states', ?_, ?_⟩
        · rw [hcommitted', hcommitted, List.append_assoc]
        · constructor
          · intro hall
            rw [List.forall_mem_append] at hall
            exact absurd (hiff.mp hall.1) hstill
          · intro hall
            exact absurd (hall step List.mem_cons_self) hstill

theorem crash_safe_iff {L : Libraries} {db : Db} {c : Call}
    (h : Coherent sqliteAppStateStore L ⟨db, []⟩ c.patchList.name) :
    (∀ d ∈ db :: (c.run sqliteAppStateStore L ⟨db, []⟩).store.committed,
      Coherent sqliteAppStateStore L ⟨d, []⟩ c.patchList.name) ↔
    ∀ step ∈ (c.run sqliteAppStateStore L ⟨db, []⟩).applied, Still L step := by
  obtain ⟨states, hcommitted, hiff⟩ :=
    applyItems_crash c.keyStore c.validateMacs c.patchList.items [] h
  rw [List.forall_mem_cons, Call.run, applyPatchList, hcommitted, List.nil_append]
  exact (and_iff_right h).trans hiff

theorem coherent_new_db (name : String) : Coherent sqliteAppStateStore L ⟨{}, []⟩ name :=
  ⟨[], List.nodup_nil, fun k => by simp [sqliteAppStateStore, Db.newest, Db.rows, Db.newestRow,
    OrderedMap.empty], rfl⟩

/-- A patch that removes an index which is not stored. -/
def removeCall : Call := demoCall none [demoPatch 1 (demoHash []) [demoMutation .remove 1 10]]

theorem crash_safe_remove :
    (removeCall.run sqliteAppStateStore demoLibraries ⟨{}, []⟩).applied.length = 1 ∧
    ∀ d ∈ {} :: (removeCall.run sqliteAppStateStore demoLibraries ⟨{}, []⟩).store.committed,
      Coherent sqliteAppStateStore demoLibraries ⟨d, []⟩ demoName := by
  have hsteps : ∀ step ∈ (removeCall.run sqliteAppStateStore demoLibraries ⟨{}, []⟩).applied,
      step.item = .patch (demoPatch 1 (demoHash []) [demoMutation .remove 1 10]) ∧
        (computeMacDeltas step.result.mutations).1 = [] ∧
        (computeMacDeltas step.result.mutations).2 = [(demoMutation .remove 1 10).record.index] ∧
        sqliteAppStateStore.getMutationMac step.before step.name
          (demoMutation .remove 1 10).record.index = none := by
    decide +kernel
  refine ⟨by decide +kernel, (crash_safe_iff (coherent_new_db _)).mpr fun step hstep => ?_⟩
  obtain ⟨hitem, hadded, hremoved, hnone⟩ := hsteps step hstep
  refine ⟨?_, ?_, ?_⟩
  · have hedit : hashEdit (demoMutation .remove 1 10) =
        ((demoMutation .remove 1 10).record.index, none) := rfl
    rw [hitem, Item.gain]
    simp only [demoPatch, List.map_cons, List.map_nil, Tally.shift, hedit, hnone, weight, sub_self,
      add_zero]
  · rw [hremoved]
    intro k hk
    rw [List.mem_singleton.mp hk, hnone]
    rfl
  · rw [hadded]
    exact fun m hm => absurd hm List.not_mem_nil

/-- The cursor of the first patch is committed and the process ends before its row. -/
def setCall : Call :=
  demoCall none [demoPatch 1 (demoHash [demoMutation .set 1 10]) [demoMutation .set 1 10]]

theorem not_coherent_of_no_rows {db : Db} {name : String} (hrows : db.macs.entries = [])
    (hhash : ((db.versions.get? name).getD {}).hash ≠ List.replicate 128 0) :
    ¬ Coherent sqliteAppStateStore L ⟨db, []⟩ name := by
  rintro ⟨indices, -, hindices, hsum⟩
  have hnone : indices = [] := by
    rw [List.eq_nil_iff_forall_not_mem]
    intro k hk
    have hsome := (hindices k).mp hk
    simp [sqliteAppStateStore, Db.newest, Db.rows, hrows, Db.newestRow] at hsome
  rw [hnone] at hsum
  exact hhash hsum

theorem crash_loses_row :
    Coherent sqliteAppStateStore demoLibraries ⟨{}, []⟩ demoName ∧
    (setCall.run sqliteAppStateStore demoLibraries ⟨{}, []⟩).applied.length = 1 ∧
    ∃ d ∈ (setCall.run sqliteAppStateStore demoLibraries ⟨{}, []⟩).store.committed,
      ¬ Coherent sqliteAppStateStore demoLibraries ⟨d, []⟩ demoName := by
  refine ⟨coherent_new_db _, by decide +kernel, ?_⟩
  have hstate : ∃ d ∈ (setCall.run sqliteAppStateStore demoLibraries ⟨{}, []⟩).store.committed,
      d.macs.entries = [] ∧
        ((d.versions.get? demoName).getD {}).hash ≠ List.replicate 128 0 := by
    decide +kernel
  obtain ⟨d, hd, hrows, hhash⟩ := hstate
  exact ⟨d, hd, not_coherent_of_no_rows hrows hhash⟩

end Crash

end PyWhats.AppState
