import Mathlib.Data.List.Basic
import Mathlib.Data.List.Nodup
import Mathlib.Data.List.Perm.Subperm

/-! Finite maps that remember insertion order, with the update rules of an
insertion-ordered dictionary: storing under a present key keeps its place,
storing under a new key appends, and the oldest entry can be dropped. -/

structure OrderedMap (κ ν : Type) where
  entries : List (κ × ν)
  nodup : (entries.map Prod.fst).Nodup

namespace OrderedMap

variable {κ ν : Type}

@[ext] theorem ext {m m' : OrderedMap κ ν} (h : m.entries = m'.entries) : m = m' := by
  cases m
  cases m'
  simpa using h

def empty : OrderedMap κ ν := ⟨[], List.nodup_nil⟩

instance : Inhabited (OrderedMap κ ν) := ⟨empty⟩

instance [DecidableEq κ] [DecidableEq ν] : DecidableEq (OrderedMap κ ν) :=
  fun _ _ => decidable_of_iff _ OrderedMap.ext_iff.symm

def size (m : OrderedMap κ ν) : Nat := m.entries.length

variable [DecidableEq κ]

def get? (m : OrderedMap κ ν) (k : κ) : Option ν :=
  (m.entries.find? (fun e => e.1 = k)).map Prod.snd

def contains (m : OrderedMap κ ν) (k : κ) : Bool := (m.get? k).isSome

theorem map_fst_replace (k : κ) (v : ν) (l : List (κ × ν)) :
    (l.map (fun e => if e.1 = k then (k, v) else e)).map Prod.fst = l.map Prod.fst := by
  rw [List.map_map]
  apply List.map_congr_left
  intro e _
  by_cases he : e.1 = k <;> simp [he]

def set (m : OrderedMap κ ν) (k : κ) (v : ν) : OrderedMap κ ν :=
  if h : k ∈ m.entries.map Prod.fst then
    ⟨m.entries.map (fun e => if e.1 = k then (k, v) else e), by
      rw [map_fst_replace]; exact m.nodup⟩
  else
    ⟨m.entries ++ [(k, v)], by
      rw [List.map_append, List.map_singleton]
      refine List.nodup_append.mpr ⟨m.nodup, List.nodup_singleton _, ?_⟩
      intro a ha b hb hab
      rw [hab, List.mem_singleton.mp hb] at ha
      exact h ha⟩

def erase (m : OrderedMap κ ν) (k : κ) : OrderedMap κ ν :=
  ⟨m.entries.filter (fun e => e.1 ≠ k), m.nodup.sublist (List.filter_sublist.map _)⟩

def filterKeys (m : OrderedMap κ ν) (p : κ → Bool) : OrderedMap κ ν :=
  ⟨m.entries.filter (fun e => p e.1), m.nodup.sublist (List.filter_sublist.map _)⟩

omit [DecidableEq κ] in
theorem nodup_tail (m : OrderedMap κ ν) : (m.entries.tail.map Prod.fst).Nodup :=
  m.nodup.sublist ((List.tail_sublist _).map _)

def dropOldest (m : OrderedMap κ ν) : OrderedMap κ ν := ⟨m.entries.tail, m.nodup_tail⟩

@[simp] theorem get?_empty (k : κ) : (empty : OrderedMap κ ν).get? k = none := rfl

theorem find?_replace (k k' : κ) (v : ν) (l : List (κ × ν)) :
    ((l.map (fun e => if e.1 = k then (k, v) else e)).find? (fun e => e.1 = k')).map Prod.snd =
      if k' = k then (if k ∈ l.map Prod.fst then some v else none)
      else (l.find? (fun e => e.1 = k')).map Prod.snd := by
  induction l with
  | nil => simp
  | cons e l ih =>
    by_cases he : e.1 = k
    · by_cases hk : k' = k
      · simp [he, hk]
      · have hk' : ¬ k = k' := fun h => hk h.symm
        simpa [he, hk, hk'] using ih
    · by_cases hk : k' = k
      · subst hk
        have hm : k' ∈ e.1 :: l.map Prod.fst ↔ k' ∈ l.map Prod.fst := by
          rw [List.mem_cons]
          exact or_iff_right (fun h => he h.symm)
        simpa only [List.map_cons, hm, he, if_false, List.find?_cons, decide_false] using ih
      · by_cases he' : e.1 = k'
        · have hk' : ¬ k' = k := hk
          simp [he', hk']
        · simpa [he, hk, he'] using ih

theorem find?_isNone_of_not_mem {k : κ} {l : List (κ × ν)} (h : k ∉ l.map Prod.fst) :
    l.find? (fun e => e.1 = k) = none := by
  apply List.find?_eq_none.mpr
  intro e he hek
  exact h (List.mem_map.mpr ⟨e, he, by simpa using hek⟩)

theorem get?_set (m : OrderedMap κ ν) (k k' : κ) (v : ν) :
    (m.set k v).get? k' = if k' = k then some v else m.get? k' := by
  by_cases hm : k ∈ m.entries.map Prod.fst
  · simp only [set, hm, dif_pos, get?, find?_replace, if_true]
  · simp only [set, hm, dif_neg, not_false_iff, get?, List.find?_append]
    by_cases hk : k' = k
    · subst hk
      simp [find?_isNone_of_not_mem hm]
    · have hk' : ¬ k = k' := fun h => hk h.symm
      simp [hk, hk']

@[simp] theorem get?_set_self (m : OrderedMap κ ν) (k : κ) (v : ν) :
    (m.set k v).get? k = some v := by simp [get?_set]

theorem get?_set_ne (m : OrderedMap κ ν) {k k' : κ} (v : ν) (h : k' ≠ k) :
    (m.set k v).get? k' = m.get? k' := by simp [get?_set, h]

theorem get?_erase (m : OrderedMap κ ν) (k k' : κ) :
    (m.erase k).get? k' = if k' = k then none else m.get? k' := by
  simp only [erase, get?, List.find?_filter]
  by_cases hk : k' = k
  · subst hk
    simp
  · have he : (fun e : κ × ν => decide (decide (e.1 ≠ k) = true ∧ decide (e.1 = k') = true)) =
        fun e => decide (e.1 = k') := by
      funext e
      by_cases he : e.1 = k' <;> simp [he, hk]
    simp only [hk, if_false]
    exact congrArg (fun p => (m.entries.find? p).map Prod.snd) he

@[simp] theorem get?_erase_self (m : OrderedMap κ ν) (k : κ) : (m.erase k).get? k = none := by
  simp [get?_erase]

theorem get?_erase_ne (m : OrderedMap κ ν) {k k' : κ} (h : k' ≠ k) :
    (m.erase k).get? k' = m.get? k' := by simp [get?_erase, h]

theorem get?_eq_some_iff {m : OrderedMap κ ν} {k : κ} {v : ν} :
    m.get? k = some v ↔ (k, v) ∈ m.entries := by
  obtain ⟨entries, hnodup⟩ := m
  simp only [get?]
  induction entries with
  | nil => simp
  | cons e l ih =>
    rw [List.map_cons, List.nodup_cons] at hnodup
    by_cases he : e.1 = k
    · have hnot : (k, v) ∉ l := fun h => hnodup.1 (he ▸ List.mem_map.mpr ⟨(k, v), h, rfl⟩)
      have hhead : (k, v) = e ↔ e.2 = v :=
        ⟨fun h => by rw [← h], fun h => Prod.ext he.symm h.symm⟩
      simp [he, hnot, hhead]
    · have hhead : (k, v) ≠ e := fun h => he (by rw [← h])
      simpa [he, hhead] using ih hnodup.2

theorem mem_keys_iff {m : OrderedMap κ ν} {k : κ} :
    k ∈ m.entries.map Prod.fst ↔ (m.get? k).isSome = true := by
  rw [Option.isSome_iff_exists, List.mem_map]
  constructor
  · rintro ⟨e, he, rfl⟩
    exact ⟨e.2, get?_eq_some_iff.mpr he⟩
  · rintro ⟨v, hv⟩
    exact ⟨(k, v), get?_eq_some_iff.mp hv, rfl⟩

theorem get?_filterKeys (m : OrderedMap κ ν) (p : κ → Bool) (k : κ) :
    (m.filterKeys p).get? k = if p k then m.get? k else none := by
  obtain ⟨entries, hnodup⟩ := m
  simp only [filterKeys, get?]
  clear hnodup
  induction entries with
  | nil => simp
  | cons e l ih =>
    by_cases he : e.1 = k
    · by_cases hp : p e.1 = true
      · simp [← he, hp]
      · rw [he] at hp
        simpa [he, hp] using ih
    · by_cases hp : p e.1 = true
      · simpa [he, hp] using ih
      · simpa [he, hp] using ih

theorem size_set_le (m : OrderedMap κ ν) (k : κ) (v : ν) : (m.set k v).size ≤ m.size + 1 := by
  by_cases hm : k ∈ m.entries.map Prod.fst
  · simp [set, hm, size]
  · simp [set, hm, size]

def values (m : OrderedMap κ ν) : List ν := m.entries.map Prod.snd

omit [DecidableEq κ] in
theorem nodup_entries (m : OrderedMap κ ν) : m.entries.Nodup := .of_map Prod.fst m.nodup

theorem nodup_cons_erase (m : OrderedMap κ ν) (k : κ) (v : ν) :
    ((k, v) :: (m.erase k).entries).Nodup := by
  refine List.nodup_cons.mpr ⟨fun h => ?_, nodup_entries _⟩
  rw [← get?_eq_some_iff, get?_erase_self] at h
  cases h

theorem entries_set_perm (m : OrderedMap κ ν) (k : κ) (v : ν) :
    (m.set k v).entries.Perm ((k, v) :: (m.erase k).entries) := by
  refine (List.perm_ext_iff_of_nodup (nodup_entries _) (m.nodup_cons_erase k v)).mpr fun e => ?_
  obtain ⟨k', v'⟩ := e
  rw [List.mem_cons, ← get?_eq_some_iff, ← get?_eq_some_iff, get?_set, get?_erase, Prod.mk.injEq]
  by_cases hk : k' = k
  · simp [hk, eq_comm]
  · simp [hk]

theorem entries_perm_erase {m : OrderedMap κ ν} {k : κ} {v : ν} (h : m.get? k = some v) :
    m.entries.Perm ((k, v) :: (m.erase k).entries) := by
  refine (List.perm_ext_iff_of_nodup (nodup_entries _) (m.nodup_cons_erase k v)).mpr fun e => ?_
  obtain ⟨k', v'⟩ := e
  rw [List.mem_cons, ← get?_eq_some_iff, ← get?_eq_some_iff, get?_erase, Prod.mk.injEq]
  by_cases hk : k' = k
  · simp [hk, h, eq_comm]
  · simp [hk]

theorem values_set_subperm (m : OrderedMap κ ν) (k : κ) (v : ν) :
    (m.set k v).values.Subperm (m.values ++ [v]) := by
  have hperm : (m.set k v).values.Perm (v :: (m.erase k).values) :=
    (m.entries_set_perm k v).map Prod.snd
  have hsub : (v :: (m.erase k).values).Sublist (v :: m.values) :=
    (List.filter_sublist.map _).cons_cons v
  exact (hperm.subperm.trans hsub.subperm).trans (List.perm_append_singleton v _).symm.subperm

theorem values_perm_erase {m : OrderedMap κ ν} {k : κ} {v : ν} (h : m.get? k = some v) :
    m.values.Perm (v :: (m.erase k).values) := (entries_perm_erase h).map Prod.snd

omit [DecidableEq κ] in
theorem values_dropOldest_sublist (m : OrderedMap κ ν) : m.dropOldest.values.Sublist m.values :=
  (List.tail_sublist _).map _

theorem eq_empty_of_get? {m : OrderedMap κ ν} (h : ∀ k, m.get? k = none) : m = empty := by
  obtain ⟨entries, hnodup⟩ := m
  cases entries with
  | nil => rfl
  | cons e rest =>
    have he := h e.1
    simp [get?] at he

end OrderedMap
