import Mathlib.Data.List.Nodup
import Mathlib.Data.Set.Insert
import Mathlib.Logic.Function.Basic
import Mathlib.Logic.Relation

/-! Counters that are held under keys and named by tags. A counter is started under
a tag that was never used, and what a use of it logs is its tag and its value.
No entry is ever logged twice, however the counters are moved and replaced. -/

structure Counters (κ τ : Type) where
  held : κ → Option (τ × Nat)
  used : Set τ
  log : List (τ × Nat)

namespace Counters

variable {κ τ : Type}

/-- No two keys hold one tag, and a held counter is ahead of all it has logged. -/
structure Inv (c : Counters κ τ) : Prop where
  held_used : ∀ k t n, c.held k = some (t, n) → t ∈ c.used
  log_used : ∀ e ∈ c.log, e.1 ∈ c.used
  ahead : ∀ k t n, c.held k = some (t, n) → ∀ m, (t, m) ∈ c.log → m < n
  apart : ∀ k k' t n n', c.held k = some (t, n) → c.held k' = some (t, n') → k = k'
  nodup : c.log.Nodup

theorem inv_empty {used : Set τ} : Inv (⟨fun _ => none, used, []⟩ : Counters κ τ) where
  held_used _ _ _ h := nomatch h
  log_used _ h := nomatch h
  ahead _ _ _ h := nomatch h
  apart _ _ _ _ _ h := nomatch h
  nodup := List.nodup_nil

variable {c : Counters κ τ}

theorem Inv.widen (hc : c.Inv) (used : Set τ) (h : c.used ⊆ used) :
    Inv { c with used := used } :=
  { hc with
    held_used := fun k t n hk => h (hc.held_used k t n hk)
    log_used := fun e he => h (hc.log_used e he) }

/-- Replacing the counters by some of the old ones, none of them twice. -/
theorem Inv.rearrange {held : κ → Option (τ × Nat)} (hc : c.Inv) (source : κ → κ)
    (hheld : ∀ k t n, held k = some (t, n) → ∃ m, c.held (source k) = some (t, m) ∧ m ≤ n)
    (hinj : ∀ k k', (held k).isSome → (held k').isSome → source k = source k' → k = k') :
    Inv { c with held := held } where
  held_used k t n hk := by
    obtain ⟨m, hm, _⟩ := hheld k t n hk
    exact hc.held_used _ t m hm
  log_used := hc.log_used
  ahead k t n hk m hm := by
    obtain ⟨m', hm', hle⟩ := hheld k t n hk
    exact lt_of_lt_of_le (hc.ahead _ t m' hm' m hm) hle
  apart k k' t n n' hk hk' := by
    obtain ⟨m, hm, _⟩ := hheld k t n hk
    obtain ⟨m', hm', _⟩ := hheld k' t n' hk'
    exact hinj k k' (Option.isSome_of_eq_some hk) (Option.isSome_of_eq_some hk')
      (hc.apart _ _ t m m' hm hm')
  nodup := hc.nodup

variable [DecidableEq κ]

theorem update_some {held : κ → Option (τ × Nat)} {k k' : κ} {x : Option (τ × Nat)} {y : τ × Nat}
    (h : Function.update held k x k' = some y) :
    (k' = k ∧ x = some y) ∨ (k' ≠ k ∧ held k' = some y) := by
  by_cases hk : k' = k
  · subst hk
    exact .inl ⟨rfl, by rwa [Function.update_self] at h⟩
  · exact .inr ⟨hk, by rwa [Function.update_of_ne hk] at h⟩

theorem Inv.clear (hc : c.Inv) (k : κ) :
    Inv { c with held := Function.update c.held k none } := by
  refine hc.rearrange id (fun k' t n h => ?_) fun _ _ _ _ h => h
  rcases update_some h with ⟨_, hx⟩ | ⟨_, hx⟩
  · cases hx
  · exact ⟨n, hx, le_rfl⟩

theorem Inv.skip {k : κ} {t : τ} {n : Nat} (hc : c.Inv) (h : c.held k = some (t, n)) (m : Nat) :
    Inv { c with held := Function.update c.held k (some (t, n + m)) } := by
  refine hc.rearrange id (fun k' t' n' h' => ?_) fun _ _ _ _ h => h
  rcases update_some h' with ⟨rfl, hx⟩ | ⟨_, hx⟩
  · cases hx
    exact ⟨n, h, Nat.le_add_right n m⟩
  · exact ⟨n', hx, le_rfl⟩

theorem Inv.move (hc : c.Inv) (k k' : κ) :
    Inv { c with held := Function.update (Function.update c.held k' (c.held k)) k none } := by
  refine hc.rearrange (Function.update id k' k) (fun j t n h => ?_) fun j j' hj hj' h => ?_
  · rcases update_some h with ⟨_, hx⟩ | ⟨_, hx⟩
    · cases hx
    · rcases update_some hx with ⟨rfl, hx⟩ | ⟨hne, hx⟩
      · exact ⟨n, by rwa [Function.update_self], le_rfl⟩
      · exact ⟨n, by rwa [Function.update_of_ne hne], le_rfl⟩
  · have hheld : ∀ i, (Function.update (Function.update c.held k' (c.held k)) k none i).isSome →
        i ≠ k := by
      rintro i hi rfl
      simp at hi
    by_cases hjk : j = k' <;> by_cases hjk' : j' = k'
    · rw [hjk, hjk']
    · rw [hjk, Function.update_self, Function.update_of_ne hjk'] at h
      exact absurd h.symm (hheld j' hj')
    · rw [hjk', Function.update_self, Function.update_of_ne hjk] at h
      exact absurd h (hheld j hj)
    · rwa [Function.update_of_ne hjk, Function.update_of_ne hjk'] at h

theorem Inv.start (hc : c.Inv) (k : κ) {t : τ} (n : Nat) (h : t ∉ c.used) :
    Inv { c with held := Function.update c.held k (some (t, n)), used := insert t c.used } := by
  have hold : ∀ {j t' n'}, c.held j = some (t', n') → t' ≠ t := by
    rintro j t' n' hj rfl
    exact h (hc.held_used j _ n' hj)
  refine ⟨fun j t' n' hj => ?_, fun e he => Set.mem_insert_of_mem _ (hc.log_used e he),
    fun j t' n' hj m hm => ?_, fun j j' t' n' n'' hj hj' => ?_, hc.nodup⟩
  · rcases update_some hj with ⟨_, hx⟩ | ⟨_, hx⟩
    · cases hx
      exact Set.mem_insert _ _
    · exact Set.mem_insert_of_mem _ (hc.held_used j t' n' hx)
  · rcases update_some hj with ⟨_, hx⟩ | ⟨_, hx⟩
    · cases hx
      exact absurd (hc.log_used _ hm) h
    · exact hc.ahead j t' n' hx m hm
  · rcases update_some hj with ⟨hjk, hx⟩ | ⟨_, hx⟩ <;>
      rcases update_some hj' with ⟨hjk', hx'⟩ | ⟨_, hx'⟩
    · rw [hjk, hjk']
    · cases hx
      exact absurd rfl (hold hx')
    · cases hx'
      exact absurd rfl (hold hx)
    · exact hc.apart j j' t' n' n'' hx hx'

theorem Inv.use {k : κ} {t : τ} {n : Nat} (hc : c.Inv) (h : c.held k = some (t, n)) :
    Inv { c with
      held := Function.update c.held k (some (t, n + 1))
      log := c.log ++ [(t, n)] } := by
  have hskip := hc.skip h 1
  refine ⟨hskip.held_used, fun e he => ?_, fun j t' n' hj m hm => ?_, hskip.apart, ?_⟩
  · rcases List.mem_append.mp he with he | he
    · exact hc.log_used e he
    · rw [List.mem_singleton.mp he]
      exact hc.held_used k t n h
  · rcases List.mem_append.mp hm with hm | hm
    · exact hskip.ahead j t' n' hj m hm
    · cases List.mem_singleton.mp hm
      rcases update_some hj with ⟨_, hx⟩ | ⟨hne, hx⟩
      · cases hx
        exact Nat.lt_succ_self n
      · exact absurd (hc.apart j k t n' n hx h) hne
  · refine List.nodup_append.mpr ⟨hc.nodup, List.nodup_singleton _, fun a ha b hb hab => ?_⟩
    rw [List.mem_singleton.mp hb] at hab
    subst hab
    exact lt_irrefl n (hc.ahead k t n h n ha)

inductive Step (c : Counters κ τ) : Counters κ τ → Prop
  | widen {used : Set τ} (h : c.used ⊆ used) : Step c { c with used := used }
  | start (k : κ) {t : τ} (n : Nat) (h : t ∉ c.used) :
      Step c { c with held := Function.update c.held k (some (t, n)), used := insert t c.used }
  | clear (k : κ) : Step c { c with held := Function.update c.held k none }
  | skip {k : κ} {t : τ} {n : Nat} (h : c.held k = some (t, n)) (m : Nat) :
      Step c { c with held := Function.update c.held k (some (t, n + m)) }
  | use {k : κ} {t : τ} {n : Nat} (h : c.held k = some (t, n)) :
      Step c { c with
        held := Function.update c.held k (some (t, n + 1))
        log := c.log ++ [(t, n)] }
  | move (k k' : κ) :
      Step c { c with held := Function.update (Function.update c.held k' (c.held k)) k none }

theorem Step.then_widen {c' : Counters κ τ} {used : Set τ} (h : Step c c') (hu : c'.used ⊆ used) :
    Relation.ReflTransGen Step c { c' with used := used } :=
  (Relation.ReflTransGen.single h).tail (.widen hu)

theorem Step.inv {c' : Counters κ τ} (h : Step c c') (hc : c.Inv) : c'.Inv := by
  cases h with
  | widen h => exact hc.widen _ h
  | start k n h => exact hc.start k n h
  | clear k => exact hc.clear k
  | skip h m => exact hc.skip h m
  | use h => exact hc.use h
  | move k k' => exact hc.move k k'

/-- A counter that is used `count` times in a row. -/
theorem steps_uses {k : κ} {t : τ} {n : Nat} (h : c.held k = some (t, n)) (count : Nat) :
    Relation.ReflTransGen Step c { c with
      held := Function.update c.held k (some (t, n + count))
      log := c.log ++ (List.range count).map fun i => (t, n + i) } := by
  induction count with
  | zero =>
    have hsame : Function.update c.held k (some (t, n + 0)) = c.held := by
      rw [Nat.add_zero, ← h, Function.update_eq_self]
    rw [hsame, List.range_zero, List.map_nil, List.append_nil]
  | succ count ih =>
    refine ih.tail ?_
    have hstep := Step.use (c := { c with
      held := Function.update c.held k (some (t, n + count))
      log := c.log ++ (List.range count).map fun i => (t, n + i) }) (Function.update_self k _ _)
    simpa only [Function.update_idem, List.append_assoc, List.range_succ, List.map_append,
      List.map_singleton, Nat.add_assoc] using hstep

theorem inv_of_steps {c' : Counters κ τ} (h : Relation.ReflTransGen Step c c') (hc : c.Inv) :
    c'.Inv := by
  induction h with
  | refl => exact hc
  | tail _ hstep ih => exact hstep.inv ih

end Counters
