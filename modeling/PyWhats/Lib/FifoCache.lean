import PyWhats.Lib.OrderedMap

/-! The keys of a bounded cache in the order of their insertion. A run of cache events is
possible only if each evicted key is the earliest inserted of those present. -/

namespace FifoCache

variable {κ ν : Type} [DecidableEq κ]

inductive Event (κ : Type) where
  | insert (k : κ)
  | replace (k : κ)
  | remove (k : κ)
  | evict (k : κ)
  deriving DecidableEq

def step (queue : List κ) : Event κ → Option (List κ)
  | .insert k => if k ∈ queue then none else some (queue ++ [k])
  | .replace k => if k ∈ queue then some queue else none
  | .remove k => if k ∈ queue then some (queue.erase k) else none
  | .evict k => if queue.head? = some k then some queue.tail else none

def run : List κ → List (Event κ) → Option (List κ)
  | queue, [] => some queue
  | queue, e :: es => (step queue e).bind fun queue' => run queue' es

theorem run_append {queue queue' queue'' : List κ} {es es' : List (Event κ)}
    (h : run queue es = some queue') (h' : run queue' es' = some queue'') :
    run queue (es ++ es') = some queue'' := by
  induction es generalizing queue with
  | nil =>
    cases h
    exact h'
  | cons e es ih =>
    obtain ⟨q, hq, hrun⟩ := Option.bind_eq_some_iff.mp h
    exact Option.bind_eq_some_iff.mpr ⟨q, hq, ih hrun⟩

theorem run_split {queue queue' : List κ} {es es' : List (Event κ)}
    (h : run queue (es ++ es') = some queue') :
    ∃ q, run queue es = some q ∧ run q es' = some queue' := by
  induction es generalizing queue with
  | nil => exact ⟨queue, rfl, h⟩
  | cons e es ih =>
    obtain ⟨q, hq, hrun⟩ := Option.bind_eq_some_iff.mp h
    obtain ⟨q', hq', hrest⟩ := ih hrun
    exact ⟨q', Option.bind_eq_some_iff.mpr ⟨q, hq, hq'⟩, hrest⟩

/-- What is evicted is the earliest insertion that is left. -/
theorem evicted_earliest {queue queue' : List κ} {es es' : List (Event κ)} {k : κ}
    (h : run queue (es ++ .evict k :: es') = some queue') :
    ∃ rest, run queue es = some (k :: rest) := by
  obtain ⟨q, hq, hrest⟩ := run_split h
  obtain ⟨q', hstep, -⟩ := Option.bind_eq_some_iff.mp hrest
  have hhead : q.head? = some k := by
    by_contra hne
    rw [step, if_neg hne] at hstep
    cases hstep
  obtain ⟨rest, rfl⟩ := List.head?_eq_some_iff.mp hhead
  exact ⟨rest, hq⟩

/-- The keys of a dictionary, in the order of their insertion. -/
def keys (m : OrderedMap κ ν) : List κ := m.entries.map Prod.fst

theorem keys_set (m : OrderedMap κ ν) (k : κ) (v : ν) :
    keys (m.set k v) = if k ∈ keys m then keys m else keys m ++ [k] := by
  rw [keys, keys, OrderedMap.set]
  by_cases hmem : k ∈ m.entries.map Prod.fst
  · rw [dif_pos hmem, if_pos hmem]
    exact OrderedMap.map_fst_replace k v m.entries
  · rw [dif_neg hmem, if_neg hmem, List.map_append, List.map_singleton]

theorem keys_erase (m : OrderedMap κ ν) (k : κ) : keys (m.erase k) = (keys m).erase k := by
  rw [keys, keys, List.Nodup.erase_eq_filter m.nodup k, List.filter_map]
  refine congrArg (List.map Prod.fst) (List.filter_congr fun e _ => ?_)
  simp [bne, Bool.beq_eq_decide_eq]

theorem run_set (m : OrderedMap κ ν) (k : κ) (v : ν) :
    run (keys m) [if m.contains k then .replace k else .insert k] = some (keys (m.set k v)) := by
  have hmem : k ∈ keys m ↔ m.contains k = true := OrderedMap.mem_keys_iff
  rw [keys_set]
  by_cases hk : k ∈ keys m
  · simp [run, step, hk, hmem.mp hk]
  · have hnot : m.contains k = false := Bool.eq_false_iff.mpr fun h => hk (hmem.mpr h)
    simp [run, step, hk, hnot]

theorem run_erase {m : OrderedMap κ ν} {k : κ} (h : (m.get? k).isSome = true) :
    run (keys m) [.remove k] = some (keys (m.erase k)) := by
  have hk : k ∈ keys m := OrderedMap.mem_keys_iff.mpr h
  simp [run, step, hk, keys_erase]

theorem run_dropOldest {m : OrderedMap κ ν} {e : κ × ν} (h : m.entries.head? = some e) :
    run (keys m) [.evict e.1] = some (keys m.dropOldest) := by
  have hhead : (keys m).head? = some e.1 := by rw [keys, List.head?_map, h, Option.map_some]
  have htail : (keys m).tail = keys m.dropOldest := by rw [keys, ← List.map_tail]; rfl
  simp [run, step, hhead, htail]

end FifoCache
