import Mathlib.Data.List.Nodup
import Mathlib.Data.List.Perm.Subperm
import Mathlib.Logic.Function.Basic

/-! Keys for one use each. Every slot holds a ring of keys that were made and not
used yet; using a key takes it off its ring for good. As long as no key is made
twice, none is used twice, however rings are emptied, moved and replaced. -/

theorem nodup_of_subperm {α : Type} {l l' : List α} (h : l.Subperm l') (hl : l'.Nodup) :
    l.Nodup := by
  obtain ⟨l₁, hperm, hsub⟩ := h
  exact hperm.nodup_iff.mp (hl.sublist hsub)

theorem map_subperm {α β : Type} (f : α → β) {l l' : List α} (h : l.Subperm l') :
    (l.map f).Subperm (l'.map f) := by
  obtain ⟨l₁, hperm, hsub⟩ := h
  exact ⟨l₁.map f, hperm.map f, hsub.map f⟩

/-- If `f` tells apart whatever `g` tells apart, it has no duplicates either. -/
theorem nodup_map_of_nodup_map {α β γ : Type} {l : List α} {f : α → β} {g : α → γ}
    (h : (l.map g).Nodup) (himp : ∀ a ∈ l, ∀ b ∈ l, f a = f b → g a = g b) : (l.map f).Nodup := by
  refine List.pairwise_map.mpr ((List.pairwise_map.mp h).imp_of_mem ?_)
  exact fun ha hb hne hf => hne (himp _ ha _ hb hf)

structure Keyrings (κ ν : Type) where
  ring : κ → List ν
  made : List ν
  used : List ν

namespace Keyrings

variable {κ ν : Type}

/-- A key is on one ring at most, and on none once it was used. -/
structure Inv (c : Keyrings κ ν) : Prop where
  ring_made : ∀ k, ∀ v ∈ c.ring k, v ∈ c.made
  used_made : ∀ v ∈ c.used, v ∈ c.made
  ring_nodup : ∀ k, (c.ring k).Nodup
  ring_unused : ∀ k, ∀ v ∈ c.ring k, v ∉ c.used
  apart : ∀ k k' v, v ∈ c.ring k → v ∈ c.ring k' → k = k'
  used_nodup : c.used.Nodup

variable {c : Keyrings κ ν}

/-- Rings may lose keys and change places, as long as no ring is at two places. -/
theorem Inv.rearrange {ring : κ → List ν} (hc : c.Inv) (source : κ → κ)
    (hring : ∀ k, (ring k).Sublist (c.ring (source k)))
    (hinj : ∀ k k', ring k ≠ [] → ring k' ≠ [] → source k = source k' → k = k') :
    Inv { c with ring := ring } where
  ring_made k v hv := hc.ring_made _ v ((hring k).subset hv)
  used_made := hc.used_made
  ring_nodup k := (hc.ring_nodup _).sublist (hring k)
  ring_unused k v hv := hc.ring_unused _ v ((hring k).subset hv)
  apart k k' v hv hv' := by
    refine hinj k k' (List.ne_nil_of_mem hv) (List.ne_nil_of_mem hv') ?_
    exact hc.apart _ _ v ((hring k).subset hv) ((hring k').subset hv')
  used_nodup := hc.used_nodup

variable [DecidableEq κ]

theorem Inv.clear (hc : c.Inv) (k : κ) :
    Inv { c with ring := Function.update c.ring k [] } := by
  refine hc.rearrange id (fun k' => ?_) fun _ _ _ _ h => h
  by_cases hk : k' = k
  · subst hk
    rw [Function.update_self]
    exact List.nil_sublist _
  · rw [Function.update_of_ne hk]
    exact List.Sublist.refl _

theorem Inv.move (hc : c.Inv) (k k' : κ) :
    Inv { c with ring := Function.update (Function.update c.ring k' (c.ring k)) k [] } := by
  have hsource : ∀ j, j ≠ k → Function.update (Function.update c.ring k' (c.ring k)) k [] j =
      c.ring (Function.update id k' k j) := by
    intro j hj
    rw [Function.update_of_ne hj]
    by_cases hjk : j = k'
    · subst hjk
      rw [Function.update_self, Function.update_self]
    · rw [Function.update_of_ne hjk, Function.update_of_ne hjk]
      rfl
  have hfull : ∀ j, Function.update (Function.update c.ring k' (c.ring k)) k [] j ≠ [] → j ≠ k := by
    rintro j hj rfl
    rw [Function.update_self] at hj
    exact hj rfl
  refine hc.rearrange (Function.update id k' k) (fun j => ?_) fun j j' hj hj' h => ?_
  · by_cases hj : j = k
    · subst hj
      rw [Function.update_self]
      exact List.nil_sublist _
    · rw [hsource j hj]
  · have hj := hfull j hj
    have hj' := hfull j' hj'
    by_cases hjk : j = k' <;> by_cases hjk' : j' = k'
    · rw [hjk, hjk']
    · rw [hjk, Function.update_self, Function.update_of_ne hjk'] at h
      exact absurd h.symm hj'
    · rw [hjk', Function.update_self, Function.update_of_ne hjk] at h
      exact absurd h hj
    · rwa [Function.update_of_ne hjk, Function.update_of_ne hjk'] at h

theorem mem_update {ring : κ → List ν} {k j : κ} {keys : List ν} {x : ν}
    (h : x ∈ Function.update ring k keys j) : (j = k ∧ x ∈ keys) ∨ (j ≠ k ∧ x ∈ ring j) := by
  by_cases hj : j = k
  · subst hj
    exact .inl ⟨rfl, by rwa [Function.update_self] at h⟩
  · exact .inr ⟨hj, by rwa [Function.update_of_ne hj] at h⟩

/-- New keys are made, one key is used and some of the others stay on the ring. -/
theorem Inv.use (hc : c.Inv) (k : κ) {v : ν} {ring new : List ν}
    (h : (v :: ring).Subperm (c.ring k ++ new)) (hmade : (c.made ++ new).Nodup) :
    Inv ⟨Function.update c.ring k ring, c.made ++ new, c.used ++ [v]⟩ := by
  obtain ⟨_, hnew, hdisjoint⟩ := List.nodup_append.mp hmade
  have hfresh : ∀ x ∈ new, x ∉ c.made := fun x hx hx' => hdisjoint x hx' x hx rfl
  have hboth : (c.ring k ++ new).Nodup := by
    refine List.nodup_append.mpr ⟨hc.ring_nodup k, hnew, fun a ha b hb hab => ?_⟩
    exact hfresh b hb (hab ▸ hc.ring_made k a ha)
  have hnodup := List.nodup_cons.mp (nodup_of_subperm h hboth)
  have hfrom : ∀ x ∈ v :: ring, x ∈ c.ring k ∨ x ∈ new := fun x hx =>
    List.mem_append.mp (h.subset hx)
  have hunused : ∀ x ∈ v :: ring, x ∉ c.used := fun x hx hx' =>
    (hfrom x hx).elim (fun hk => hc.ring_unused k x hk hx') fun hn => hfresh x hn (hc.used_made x hx')
  have hother : ∀ j, j ≠ k → ∀ x ∈ v :: ring, x ∉ c.ring j := fun j hj x hx hx' =>
    (hfrom x hx).elim (fun hk => hj (hc.apart j k x hx' hk)) fun hn => hfresh x hn (hc.ring_made j x hx')
  have hmem : ∀ x ∈ v :: ring, x ∈ c.made ++ new := fun x hx =>
    List.mem_append.mpr ((hfrom x hx).imp_left (hc.ring_made k x))
  refine ⟨fun j x hx => ?_, fun x hx => ?_, fun j => ?_, fun j x hx => ?_, fun j j' x hx hx' => ?_, ?_⟩
  · rcases mem_update hx with ⟨_, hx⟩ | ⟨_, hx⟩
    · exact hmem x (List.mem_cons_of_mem _ hx)
    · exact List.mem_append_left _ (hc.ring_made j x hx)
  · rcases List.mem_append.mp hx with hx | hx
    · exact List.mem_append_left _ (hc.used_made x hx)
    · rw [List.mem_singleton.mp hx]
      exact hmem v List.mem_cons_self
  · by_cases hj : j = k
    · subst hj
      simpa only [Function.update_self] using hnodup.2
    · simpa only [Function.update_of_ne hj] using hc.ring_nodup j
  · rw [List.mem_append, List.mem_singleton, not_or]
    rcases mem_update hx with ⟨_, hkeys⟩ | ⟨hj, hring⟩
    · refine ⟨hunused x (List.mem_cons_of_mem _ hkeys), ?_⟩
      rintro rfl
      exact hnodup.1 hkeys
    · refine ⟨hc.ring_unused j x hring, ?_⟩
      rintro rfl
      exact hother j hj x List.mem_cons_self hring
  · rcases mem_update hx with ⟨hj, hx⟩ | ⟨hj, hx⟩ <;>
      rcases mem_update hx' with ⟨hj', hx'⟩ | ⟨hj', hx'⟩
    · rw [hj, hj']
    · exact absurd hx' (hother j' hj' x (List.mem_cons_of_mem _ hx))
    · exact absurd hx (hother j hj x (List.mem_cons_of_mem _ hx'))
    · exact hc.apart j j' x hx hx'
  · refine List.nodup_append.mpr ⟨hc.used_nodup, List.nodup_singleton _, fun a ha b hb hab => ?_⟩
    rw [List.mem_singleton.mp hb] at hab
    exact hunused v List.mem_cons_self (hab ▸ ha)

end Keyrings
