import PyWhats.AppState
import PyWhats.Lib.OrderedMap

/-! The two stores of app state: `InMemoryAppStateStore`, and the SQLite tables of
`SqliteAppStateStore`, whose every statement is committed on its own. Both show,
for an index, the value MAC of its newest version. -/

namespace PyWhats.AppState

/-- What storing one MAC at a version does to the newest entries of a collection. -/
def putNewest (version : Nat) (t : Bytes → Option (Nat × Bytes)) (m : MutationMac) :
    Bytes → Option (Nat × Bytes) :=
  Function.update t m.indexMac
    (match t m.indexMac with
      | none => some (version, m.valueMac)
      | some e => if e.1 ≤ version then some (version, m.valueMac) else some e)

/-- The newest entries behind a store, and how the operations change them. -/
structure AppStateStore.View {σ : Type} (S : AppStateStore σ) where
  newest : σ → String → Bytes → Option (Nat × Bytes)
  getMutationMac_eq : ∀ s n k, S.getMutationMac s n k = (newest s n k).map Prod.snd
  getVersion_putVersion : ∀ {s s' n st}, S.putVersion s n st = .ok s' →
    S.getVersion s' = Function.update (S.getVersion s) n st
  newest_putVersion : ∀ {s s' n st}, S.putVersion s n st = .ok s' → newest s' = newest s
  getVersion_putMutationMacs : ∀ s n v macs,
    S.getVersion (S.putMutationMacs s n v macs) = S.getVersion s
  newest_putMutationMacs : ∀ s n v macs, newest (S.putMutationMacs s n v macs) =
    Function.update (newest s) n (macs.foldl (putNewest v) (newest s n))
  getVersion_deleteMutationMacs : ∀ s n ks,
    S.getVersion (S.deleteMutationMacs s n ks) = S.getVersion s
  newest_deleteMutationMacs : ∀ s n ks, newest (S.deleteMutationMacs s n ks) =
    Function.update (newest s) n (fun k => if k ∈ ks then none else newest s n k)
  getVersion_deleteVersion : ∀ s n,
    S.getVersion (S.deleteVersion s n) = Function.update (S.getVersion s) n {}
  newest_deleteVersion : ∀ s n,
    newest (S.deleteVersion s n) = Function.update (newest s) n (fun _ => none)

section InMemory

structure InMemory where
  versions : OrderedMap String HashState := .empty
  macs : OrderedMap (String × Bytes) (Nat × Bytes) := .empty

namespace InMemory

def putMac (name : String) (version : Nat) (store : InMemory) (mac : MutationMac) : InMemory :=
  let key := (name, mac.indexMac)
  match store.macs.get? key with
  | none => { store with macs := store.macs.set key (version, mac.valueMac) }
  | some existing =>
    if existing.1 ≤ version then { store with macs := store.macs.set key (version, mac.valueMac) }
    else store

def deleteMac (name : String) (store : InMemory) (indexMac : Bytes) : InMemory :=
  { store with macs := store.macs.erase (name, indexMac) }

end InMemory

def inMemoryAppStateStore : AppStateStore InMemory where
  getVersion store name := (store.versions.get? name).getD {}
  putVersion store name state := .ok { store with versions := store.versions.set name state }
  deleteVersion store name :=
    { versions := store.versions.erase name
      macs := store.macs.filterKeys (fun k => k.1 ≠ name) }
  getMutationMac store name indexMac := (store.macs.get? (name, indexMac)).map Prod.snd
  putMutationMacs store name version macs := macs.foldl (InMemory.putMac name version) store
  deleteMutationMacs store name indexMacs := indexMacs.foldl (InMemory.deleteMac name) store

namespace InMemory

def newest (store : InMemory) (name : String) (indexMac : Bytes) : Option (Nat × Bytes) :=
  store.macs.get? (name, indexMac)

theorem get?_putMac_ne {name : String} {version : Nat} {store : InMemory} {mac : MutationMac}
    {key : String × Bytes} (h : key ≠ (name, mac.indexMac)) :
    (putMac name version store mac).macs.get? key = store.macs.get? key := by
  simp only [putMac]
  split
  · exact OrderedMap.get?_set_ne _ _ h
  · split
    · exact OrderedMap.get?_set_ne _ _ h
    · rfl

theorem newest_putMac (name : String) (version : Nat) (store : InMemory) (mac : MutationMac) :
    (putMac name version store mac).newest =
      Function.update store.newest name (putNewest version (store.newest name) mac) := by
  funext n k
  by_cases hkey : (n, k) = (name, mac.indexMac)
  · obtain ⟨rfl, rfl⟩ := Prod.mk.inj hkey
    rw [Function.update_self, putNewest, Function.update_self]
    simp only [newest, putMac]
    cases hget : store.macs.get? (n, mac.indexMac) with
    | none => simp
    | some e => by_cases he : e.1 ≤ version <;> simp [he, hget]
  · have hsame : (putMac name version store mac).newest n k = store.newest n k := get?_putMac_ne hkey
    rw [hsame]
    by_cases hn : n = name
    · subst hn
      have hk : k ≠ mac.indexMac := fun h => hkey (by rw [h])
      rw [Function.update_self, putNewest, Function.update_of_ne hk]
    · rw [Function.update_of_ne hn]

theorem versions_putMac (name : String) (version : Nat) (store : InMemory) (mac : MutationMac) :
    (putMac name version store mac).versions = store.versions := by
  simp only [putMac]
  split
  · rfl
  · split <;> rfl

theorem foldl_putMac (name : String) (version : Nat) (store : InMemory) (macs : List MutationMac) :
    (macs.foldl (putMac name version) store).newest =
        Function.update store.newest name (macs.foldl (putNewest version) (store.newest name)) ∧
      (macs.foldl (putMac name version) store).versions = store.versions := by
  induction macs generalizing store with
  | nil => exact ⟨(Function.update_eq_self name store.newest).symm, rfl⟩
  | cons mac macs ih =>
    obtain ⟨hnewest, hversions⟩ := ih (putMac name version store mac)
    rw [List.foldl_cons, hnewest, hversions, newest_putMac, versions_putMac]
    simp only [Function.update_self, Function.update_idem, List.foldl_cons, and_self]

theorem foldl_deleteMac (name : String) (store : InMemory) (ks : List Bytes) :
    (ks.foldl (deleteMac name) store).newest = Function.update store.newest name
        (fun k => if k ∈ ks then none else store.newest name k) ∧
      (ks.foldl (deleteMac name) store).versions = store.versions := by
  induction ks generalizing store with
  | nil => exact ⟨by simp, rfl⟩
  | cons k ks ih =>
    obtain ⟨hnewest, hversions⟩ := ih (deleteMac name store k)
    refine ⟨?_, hversions⟩
    rw [List.foldl_cons, hnewest]
    funext n k'
    simp only [Function.update_apply, newest, deleteMac, OrderedMap.get?_erase, Prod.mk.injEq,
      List.mem_cons]
    by_cases hn : n = name
    · by_cases hk : k' = k <;> simp [hn, hk]
    · simp [hn, newest, OrderedMap.get?_erase]

end InMemory

def inMemoryView : inMemoryAppStateStore.View where
  newest := InMemory.newest
  getMutationMac_eq _ _ _ := rfl
  getVersion_putVersion h := by
    cases h
    funext n'
    simp only [inMemoryAppStateStore, OrderedMap.get?_set, Function.update_apply]
    split <;> rfl
  newest_putVersion h := by
    cases h
    rfl
  getVersion_putMutationMacs s n v macs := by
    funext n'
    simp only [inMemoryAppStateStore, (InMemory.foldl_putMac n v s macs).2]
  newest_putMutationMacs s n v macs := (InMemory.foldl_putMac n v s macs).1
  getVersion_deleteMutationMacs s n ks := by
    funext n'
    simp only [inMemoryAppStateStore, (InMemory.foldl_deleteMac n s ks).2]
  newest_deleteMutationMacs s n ks := (InMemory.foldl_deleteMac n s ks).1
  getVersion_deleteVersion s n := by
    funext n'
    simp only [inMemoryAppStateStore, OrderedMap.get?_erase, Function.update_apply]
    split <;> rfl
  newest_deleteVersion s n := by
    funext n' k
    simp only [InMemory.newest, inMemoryAppStateStore, OrderedMap.get?_filterKeys,
      Function.update_apply]
    by_cases h : n' = n <;> simp [h, InMemory.newest]

end InMemory

section Sqlite

/-- The tables `app_state_version` and `app_state_mutation_macs`, by primary key. -/
structure Db where
  versions : OrderedMap String HashState := .empty
  macs : OrderedMap (String × Nat × Bytes) Bytes := .empty

inductive Statement where
  | upsertVersion (name : String) (state : HashState)
  | deleteVersion (name : String)
  | deleteMacs (name : String)
  | upsertMac (name : String) (version : Nat) (mac : MutationMac)
  | deleteMac (name : String) (indexMac : Bytes)

namespace Db

def exec (db : Db) : Statement → Db
  | .upsertVersion name state => { db with versions := db.versions.set name state }
  | .deleteVersion name => { db with versions := db.versions.erase name }
  | .deleteMacs name => { db with macs := db.macs.filterKeys (fun k => k.1 ≠ name) }
  | .upsertMac name version mac =>
    { db with macs := db.macs.set (name, version, mac.indexMac) mac.valueMac }
  | .deleteMac name indexMac =>
    { db with macs := db.macs.filterKeys (fun k => ¬ (k.1 = name ∧ k.2.2 = indexMac)) }

/-- `ORDER BY version DESC LIMIT 1`. -/
def newestRow : List (Nat × Bytes) → Option (Nat × Bytes)
  | [] => none
  | row :: rest =>
    match newestRow rest with
    | none => some row
    | some best => if row.1 ≤ best.1 then some best else some row

def rows (db : Db) (name : String) (indexMac : Bytes) : List (Nat × Bytes) :=
  (db.macs.entries.filter (fun e => e.1.1 = name ∧ e.1.2.2 = indexMac)).map
    (fun e => (e.1.2.1, e.2))

def newest (db : Db) (name : String) (indexMac : Bytes) : Option (Nat × Bytes) :=
  newestRow (db.rows name indexMac)

end Db

/-- The database, and every state that a commit left on the way. -/
structure Sqlite where
  db : Db := {}
  committed : List Db := []

def Sqlite.commit (store : Sqlite) (statement : Statement) : Sqlite :=
  { db := store.db.exec statement
    committed := store.committed ++ [store.db.exec statement] }

def maxSqliteInteger : Nat := 9223372036854775807

def sqliteAppStateStore : AppStateStore Sqlite where
  getVersion store name := (store.db.versions.get? name).getD {}
  putVersion store name state :=
    if state.hash.length ≠ 128 then
      .error (.valueError ("app-state hash must be 128 bytes, got " ++ toString state.hash.length))
    else if state.version > maxSqliteInteger then .error .overflowError
    else .ok (store.commit (.upsertVersion name state))
  deleteVersion store name := (store.commit (.deleteVersion name)).commit (.deleteMacs name)
  getMutationMac store name indexMac := (store.db.newest name indexMac).map Prod.snd
  putMutationMacs store name version macs :=
    macs.foldl (fun store mac => store.commit (.upsertMac name version mac)) store
  deleteMutationMacs store name indexMacs :=
    indexMacs.foldl (fun store indexMac => store.commit (.deleteMac name indexMac)) store

namespace Db

theorem newestRow_eq_none {l : List (Nat × Bytes)} : newestRow l = none ↔ l = [] := by
  cases l with
  | nil => simp [newestRow]
  | cons row rest =>
    simp only [newestRow]
    split
    · simp
    · split <;> simp

theorem newestRow_spec {l : List (Nat × Bytes)} {best : Nat × Bytes} (h : newestRow l = some best) :
    best ∈ l ∧ ∀ row ∈ l, row.1 ≤ best.1 := by
  induction l generalizing best with
  | nil => cases h
  | cons row rest ih =>
    simp only [newestRow] at h
    split at h
    · rename_i hrest
      cases h
      rw [newestRow_eq_none.mp hrest]
      simp
    · rename_i best' hrest
      obtain ⟨hmem, hle⟩ := ih hrest
      split at h
      · rename_i hrow
        cases h
        refine ⟨List.mem_cons_of_mem _ hmem, fun row' hrow' => ?_⟩
        rcases List.mem_cons.mp hrow' with rfl | hrow'
        · exact hrow
        · exact hle row' hrow'
      · rename_i hrow
        cases h
        refine ⟨List.mem_cons_self, fun row' hrow' => ?_⟩
        rcases List.mem_cons.mp hrow' with rfl | hrow'
        · exact Nat.le_refl _
        · exact Nat.le_trans (hle row' hrow') (by omega)

theorem mem_rows {db : Db} {name : String} {k : Bytes} {v : Nat} {x : Bytes} :
    (v, x) ∈ db.rows name k ↔ db.macs.get? (name, v, k) = some x := by
  rw [OrderedMap.get?_eq_some_iff, rows, List.mem_map]
  constructor
  · rintro ⟨⟨⟨n, v', k'⟩, x'⟩, hmem, heq⟩
    obtain ⟨hentry, hkey⟩ := List.mem_filter.mp hmem
    simp only [decide_eq_true_eq] at hkey
    obtain ⟨rfl, rfl⟩ := hkey
    cases heq
    exact hentry
  · intro hmem
    exact ⟨((name, v, k), x), List.mem_filter.mpr ⟨hmem, by simp⟩, rfl⟩

/-- A row that no other row of the index is newer than. -/
theorem newest_eq_some {db : Db} {name : String} {k : Bytes} {v : Nat} {x : Bytes}
    (hget : db.macs.get? (name, v, k) = some x)
    (hmax : ∀ v' x', db.macs.get? (name, v', k) = some x' → v' ≤ v) :
    db.newest name k = some (v, x) := by
  rw [newest]
  cases hnew : newestRow (db.rows name k) with
  | none =>
    have hmem := mem_rows.mpr hget
    rw [newestRow_eq_none.mp hnew] at hmem
    cases hmem
  | some best =>
    obtain ⟨v', x'⟩ := best
    obtain ⟨hmem, hle⟩ := newestRow_spec hnew
    have hget' := mem_rows.mp hmem
    obtain rfl : v' = v := Nat.le_antisymm (hmax v' x' hget') (hle _ (mem_rows.mpr hget))
    rw [hget] at hget'
    cases hget'
    rfl

theorem newest_eq_none {db : Db} {name : String} {k : Bytes}
    (h : ∀ v, db.macs.get? (name, v, k) = none) : db.newest name k = none := by
  rw [newest, newestRow_eq_none, List.eq_nil_iff_forall_not_mem]
  rintro ⟨v, x⟩ hmem
  have hget := mem_rows.mp hmem
  rw [h v] at hget
  cases hget

theorem get?_of_newest {db : Db} {name : String} {k : Bytes} {e : Nat × Bytes}
    (h : db.newest name k = some e) : db.macs.get? (name, e.1, k) = some e.2 ∧
      ∀ v x, db.macs.get? (name, v, k) = some x → v ≤ e.1 := by
  obtain ⟨hmem, hle⟩ := newestRow_spec h
  exact ⟨mem_rows.mp hmem, fun v x hget => hle (v, x) (mem_rows.mpr hget)⟩

theorem get?_of_newest_none {db : Db} {name : String} {k : Bytes} (h : db.newest name k = none)
    (v : Nat) : db.macs.get? (name, v, k) = none := by
  rw [newest, newestRow_eq_none] at h
  cases hget : db.macs.get? (name, v, k) with
  | none => rfl
  | some x =>
    have hmem := mem_rows.mpr hget
    rw [h] at hmem
    cases hmem

/-- The newest row depends only on the rows of its index. -/
theorem newest_congr {db db' : Db} {name : String} {k : Bytes}
    (h : ∀ v, db'.macs.get? (name, v, k) = db.macs.get? (name, v, k)) :
    db'.newest name k = db.newest name k := by
  cases hnew : db.newest name k with
  | none => exact newest_eq_none fun v => (h v).trans (get?_of_newest_none hnew v)
  | some e =>
    obtain ⟨hget, hmax⟩ := get?_of_newest hnew
    exact newest_eq_some ((h e.1).trans hget) fun v x hx => hmax v x ((h v).symm.trans hx)

theorem newest_upsertMac (db : Db) (name : String) (version : Nat) (mac : MutationMac) :
    (db.exec (.upsertMac name version mac)).newest =
      Function.update db.newest name (putNewest version (db.newest name) mac) := by
  have hget : ∀ n v k, (db.exec (.upsertMac name version mac)).macs.get? (n, v, k) =
      if n = name ∧ v = version ∧ k = mac.indexMac then some mac.valueMac
      else db.macs.get? (n, v, k) := by
    intro n v k
    simp only [exec, OrderedMap.get?_set, Prod.mk.injEq]
  funext n k
  by_cases hkey : n = name ∧ k = mac.indexMac
  · obtain ⟨rfl, rfl⟩ := hkey
    rw [Function.update_self, putNewest, Function.update_self]
    cases hnew : db.newest n mac.indexMac with
    | none =>
      refine newest_eq_some (by rw [hget, if_pos ⟨rfl, rfl, rfl⟩]) fun v x hx => ?_
      rw [hget, get?_of_newest_none hnew] at hx
      by_cases hv : v = version
      · exact Nat.le_of_eq hv
      · rw [if_neg fun h => hv h.2.1] at hx
        cases hx
    | some e =>
      obtain ⟨hold, hmax⟩ := get?_of_newest hnew
      by_cases he : e.1 ≤ version
      · simp only [if_pos he]
        refine newest_eq_some (by rw [hget, if_pos ⟨rfl, rfl, rfl⟩]) fun v x hx => ?_
        by_cases hv : v = version
        · exact Nat.le_of_eq hv
        · rw [hget, if_neg fun h => hv h.2.1] at hx
          exact Nat.le_trans (hmax v x hx) he
      · simp only [if_neg he]
        refine newest_eq_some ?_ fun v x hx => ?_
        · rw [hget, if_neg fun h => he (Nat.le_of_eq h.2.1)]
          exact hold
        · by_cases hv : v = version
          · omega
          · rw [hget, if_neg fun h => hv h.2.1] at hx
            exact hmax v x hx
  · have hsame : (db.exec (.upsertMac name version mac)).newest n k = db.newest n k :=
      newest_congr fun v => by rw [hget, if_neg fun h => hkey ⟨h.1, h.2.2⟩]
    rw [hsame]
    by_cases hn : n = name
    · subst hn
      rw [Function.update_self, putNewest, Function.update_of_ne fun h => hkey ⟨rfl, h⟩]
    · rw [Function.update_of_ne hn]

theorem newest_deleteMac (db : Db) (name : String) (indexMac : Bytes) :
    (db.exec (.deleteMac name indexMac)).newest =
      Function.update db.newest name (Function.update (db.newest name) indexMac none) := by
  have hget : ∀ n v k, (db.exec (.deleteMac name indexMac)).macs.get? (n, v, k) =
      if n = name ∧ k = indexMac then none else db.macs.get? (n, v, k) := by
    intro n v k
    simp only [exec, OrderedMap.get?_filterKeys]
    by_cases hkey : n = name ∧ k = indexMac <;> simp [hkey]
  funext n k
  by_cases hkey : n = name ∧ k = indexMac
  · obtain ⟨rfl, rfl⟩ := hkey
    rw [Function.update_self, Function.update_self]
    exact newest_eq_none fun v => by rw [hget, if_pos ⟨rfl, rfl⟩]
  · have hsame : (db.exec (.deleteMac name indexMac)).newest n k = db.newest n k :=
      newest_congr fun v => by rw [hget, if_neg hkey]
    rw [hsame]
    by_cases hn : n = name
    · subst hn
      rw [Function.update_self, Function.update_of_ne fun h => hkey ⟨rfl, h⟩]
    · rw [Function.update_of_ne hn]

theorem newest_deleteMacs (db : Db) (name : String) :
    (db.exec (.deleteMacs name)).newest = Function.update db.newest name (fun _ => none) := by
  have hget : ∀ n v k, (db.exec (.deleteMacs name)).macs.get? (n, v, k) =
      if n = name then none else db.macs.get? (n, v, k) := by
    intro n v k
    simp only [exec, OrderedMap.get?_filterKeys]
    by_cases hn : n = name <;> simp [hn]
  funext n k
  by_cases hn : n = name
  · subst hn
    rw [Function.update_self]
    exact newest_eq_none fun v => by rw [hget, if_pos rfl]
  · rw [Function.update_of_ne hn]
    exact newest_congr fun v => by rw [hget, if_neg hn]

end Db

namespace Sqlite

theorem foldl_upsertMac (name : String) (version : Nat) (store : Sqlite)
    (macs : List MutationMac) :
    (macs.foldl (fun s mac => s.commit (.upsertMac name version mac)) store).db.newest =
        Function.update store.db.newest name
          (macs.foldl (putNewest version) (store.db.newest name)) ∧
      (macs.foldl (fun s mac => s.commit (.upsertMac name version mac)) store).db.versions =
        store.db.versions := by
  induction macs generalizing store with
  | nil => exact ⟨(Function.update_eq_self name store.db.newest).symm, rfl⟩
  | cons mac macs ih =>
    obtain ⟨hnewest, hversions⟩ := ih (store.commit (.upsertMac name version mac))
    refine ⟨?_, hversions⟩
    rw [List.foldl_cons, hnewest]
    simp only [commit, Db.newest_upsertMac, Function.update_self, Function.update_idem,
      List.foldl_cons]

theorem foldl_deleteMac (name : String) (store : Sqlite) (ks : List Bytes) :
    (ks.foldl (fun s k => s.commit (.deleteMac name k)) store).db.newest =
        Function.update store.db.newest name
          (fun k => if k ∈ ks then none else store.db.newest name k) ∧
      (ks.foldl (fun s k => s.commit (.deleteMac name k)) store).db.versions =
        store.db.versions := by
  induction ks generalizing store with
  | nil => exact ⟨by simp, rfl⟩
  | cons k ks ih =>
    obtain ⟨hnewest, hversions⟩ := ih (store.commit (.deleteMac name k))
    refine ⟨?_, hversions⟩
    rw [List.foldl_cons, hnewest]
    simp only [commit, Db.newest_deleteMac, Function.update_self, Function.update_idem]
    congr 1
    funext k'
    by_cases hk : k' = k
    · simp [hk]
    · simp [hk]

end Sqlite

def sqliteView : sqliteAppStateStore.View where
  newest store := store.db.newest
  getMutationMac_eq _ _ _ := rfl
  getVersion_putVersion h := by
    simp only [sqliteAppStateStore] at h
    split at h
    · cases h
    split at h
    · cases h
    cases h
    funext n'
    simp only [sqliteAppStateStore, Sqlite.commit, Db.exec, OrderedMap.get?_set,
      Function.update_apply]
    split <;> rfl
  newest_putVersion h := by
    simp only [sqliteAppStateStore] at h
    split at h
    · cases h
    split at h
    · cases h
    cases h
    rfl
  getVersion_putMutationMacs s n v macs := by
    funext n'
    simp only [sqliteAppStateStore, (Sqlite.foldl_upsertMac n v s macs).2]
  newest_putMutationMacs s n v macs := (Sqlite.foldl_upsertMac n v s macs).1
  getVersion_deleteMutationMacs s n ks := by
    funext n'
    simp only [sqliteAppStateStore, (Sqlite.foldl_deleteMac n s ks).2]
  newest_deleteMutationMacs s n ks := (Sqlite.foldl_deleteMac n s ks).1
  getVersion_deleteVersion s n := by
    funext n'
    simp only [sqliteAppStateStore, Sqlite.commit, Db.exec, OrderedMap.get?_erase,
      Function.update_apply]
    split <;> rfl
  newest_deleteVersion s n := Db.newest_deleteMacs _ n

end Sqlite

end PyWhats.AppState
