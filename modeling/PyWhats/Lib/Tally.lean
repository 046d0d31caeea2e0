import Mathlib.Algebra.BigOperators.Group.Finset.Basic
import Mathlib.Data.Finset.Basic
import Mathlib.Logic.Function.Basic
import Mathlib.Tactic.Abel

/-! Totals of finite tables. Every entry of a table has a weight in a commutative
group; the total moves by the difference of two weights when an entry is set,
replaced or removed, whatever the order of the edits. -/

namespace Tally

variable {κ ν G : Type} [AddCommGroup G] {w : ν → G} {t : κ → Option ν} {g g' : G}

def weight (w : ν → G) : Option ν → G
  | none => 0
  | some v => w v

/-- The table is finite and `g` is the sum of the weights of its entries. -/
def Total (w : ν → G) (t : κ → Option ν) (g : G) : Prop :=
  ∃ s : Finset κ, (∀ k, (t k).isSome = true → k ∈ s) ∧ g = ∑ k ∈ s, weight w (t k)

theorem weight_eq_zero_of_not_isSome {k : κ} (h : ¬ (t k).isSome = true) : weight w (t k) = 0 := by
  cases hk : t k with
  | none => rfl
  | some v => exact absurd (by rw [hk]; rfl) h

theorem sum_eq_of_subset {s s' : Finset κ} (hs : ∀ k, (t k).isSome = true → k ∈ s)
    (hsub : s ⊆ s') : ∑ k ∈ s', weight w (t k) = ∑ k ∈ s, weight w (t k) := by
  symm
  apply Finset.sum_subset hsub
  intro k _ hk
  exact weight_eq_zero_of_not_isSome fun h => hk (hs k h)

variable [DecidableEq κ]

theorem Total.unique (h : Total w t g) (h' : Total w t g') : g = g' := by
  obtain ⟨s, hs, rfl⟩ := h
  obtain ⟨s', hs', rfl⟩ := h'
  rw [← sum_eq_of_subset hs Finset.subset_union_left,
    ← sum_eq_of_subset hs' (show s' ⊆ s ∪ s' from Finset.subset_union_right)]

theorem Total.update (h : Total w t g) (k : κ) (o : Option ν) :
    Total w (Function.update t k o) (g + (weight w o - weight w (t k))) := by
  obtain ⟨s, hs, rfl⟩ := h
  have hs' : ∀ k', (t k').isSome = true → k' ∈ insert k s :=
    fun k' hk' => Finset.mem_insert_of_mem (hs k' hk')
  refine ⟨insert k s, fun k' hk' => ?_, ?_⟩
  · by_cases hkk : k' = k
    · rw [hkk]
      exact Finset.mem_insert_self k s
    · rw [Function.update_of_ne hkk] at hk'
      exact hs' k' hk'
  · have hmem := Finset.mem_insert_self k s
    have hrest : ∑ k' ∈ (insert k s).erase k, weight w (Function.update t k o k') =
        ∑ k' ∈ (insert k s).erase k, weight w (t k') := by
      apply Finset.sum_congr rfl
      intro k' hk'
      rw [Function.update_of_ne (Finset.ne_of_mem_erase hk')]
    rw [← sum_eq_of_subset hs (Finset.subset_insert k s), ← Finset.add_sum_erase _ _ hmem,
      ← Finset.add_sum_erase (insert k s) (fun k' => weight w (Function.update t k o k')) hmem,
      hrest, Function.update_self]
    abel

omit [DecidableEq κ] in
/-- A table that is listed without repetition has the total of the list. -/
theorem total_of_list {ks : List κ} (hnodup : ks.Nodup) (hks : ∀ k, k ∈ ks ↔ (t k).isSome = true) :
    Total w t ((ks.filterMap t).map w).sum := by
  refine ⟨⟨ks, hnodup⟩, fun k hk => (hks k).mpr hk, ?_⟩
  have hsum : ∀ l : List κ, ((l.filterMap t).map w).sum = (l.map fun k => weight w (t k)).sum := by
    intro l
    induction l with
    | nil => rfl
    | cons k l ih =>
      cases hk : t k with
      | none => simp [hk, ih, weight]
      | some v => simp [hk, ih, weight]
  rw [hsum]
  rfl

omit [DecidableEq κ] in
theorem Total.exists_list (h : Total w t g) : ∃ ks : List κ, ks.Nodup ∧
    ∀ k, k ∈ ks ↔ (t k).isSome = true := by
  obtain ⟨s, hs, -⟩ := h
  refine ⟨(s.filter fun k => (t k).isSome = true).toList, Finset.nodup_toList _, fun k => ?_⟩
  rw [Finset.mem_toList, Finset.mem_filter]
  exact ⟨fun hk => hk.2, fun hk => ⟨hs k hk, hk⟩⟩

section Edits

/-- An edit sets an entry, or removes it. -/
abbrev Edit (κ ν : Type) := κ × Option ν

def edit (t : κ → Option ν) (e : Edit κ ν) : κ → Option ν := Function.update t e.1 e.2

def edits (t : κ → Option ν) (es : List (Edit κ ν)) : κ → Option ν := es.foldl edit t

/-- By how much a list of edits moves the total. -/
def shift (w : ν → G) : (κ → Option ν) → List (Edit κ ν) → G
  | _, [] => 0
  | t, e :: es => (weight w e.2 - weight w (t e.1)) + shift w (edit t e) es

theorem Total.edits (h : Total w t g) (es : List (Edit κ ν)) :
    Total w (edits t es) (g + shift w t es) := by
  induction es generalizing t g with
  | nil =>
    rw [shift, add_zero]
    exact h
  | cons e es ih =>
    have hnext := ih (h.update e.1 e.2)
    rw [add_assoc] at hnext
    exact hnext

theorem edits_append (es es' : List (Edit κ ν)) : edits t (es ++ es') = edits (edits t es) es' :=
  List.foldl_append

theorem edits_of_not_mem {es : List (Edit κ ν)} {k : κ} (h : k ∉ es.map Prod.fst) :
    edits t es k = t k := by
  induction es generalizing t with
  | nil => rfl
  | cons e es ih =>
    rw [List.map_cons, List.mem_cons, not_or] at h
    have htail : edits (edit t e) es k = edit t e k := ih h.2
    have hhead : edit t e k = t k := Function.update_of_ne h.1 _ _
    exact htail.trans hhead

/-- The total stays where it is at every point of a list of edits exactly when no
edit changes the weight of its entry. -/
theorem total_prefixes_iff (h : Total w t g) {es : List (Edit κ ν)} :
    (∀ es', es' <+: es → Total w (edits t es') g) ↔ ∀ e ∈ es, weight w e.2 = weight w (t e.1) := by
  induction es generalizing t with
  | nil =>
    constructor
    · exact fun _ _ he => absurd he List.not_mem_nil
    · intro _ es' hes'
      rw [List.prefix_nil.mp hes']
      exact h
  | cons e es ih =>
    have hhead : Total w (edit t e) g ↔ weight w e.2 = weight w (t e.1) := by
      constructor
      · intro he
        have hshift := he.unique (h.update e.1 e.2)
        exact sub_eq_zero.mp (left_eq_add.mp hshift)
      · intro he
        have hupdate := h.update e.1 e.2
        rwa [he, sub_self, add_zero] at hupdate
    have hsame : weight w e.2 = weight w (t e.1) → ∀ k, weight w (edit t e k) = weight w (t k) := by
      intro he k
      by_cases hk : k = e.1
      · rw [hk, edit, Function.update_self, he]
      · rw [edit, Function.update_of_ne hk]
    rw [List.forall_mem_cons]
    constructor
    · intro hall
      have hfirst := hhead.mp (hall [e] (List.prefix_cons_iff.mpr (.inr ⟨[], rfl, List.nil_prefix⟩)))
      refine ⟨hfirst, fun e' he' => ?_⟩
      rw [← hsame hfirst]
      refine (ih (hhead.mpr hfirst)).mp (fun es' hes' => ?_) e' he'
      exact hall (e :: es') (List.prefix_cons_iff.mpr (.inr ⟨es', rfl, hes'⟩))
    · rintro ⟨hfirst, hrest⟩ es' hes'
      rcases List.prefix_cons_iff.mp hes' with rfl | ⟨es'', rfl, hes''⟩
      · exact h
      · refine (ih (hhead.mpr hfirst)).mpr (fun e' he' => ?_) es'' hes''
        rw [hsame hfirst]
        exact hrest e' he'

end Edits

end Tally
