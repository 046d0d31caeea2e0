import Mathlib.Data.List.Induction
import Mathlib.Data.PEquiv
import Mathlib.Tactic.Tauto

/-! Matchings between two types that grow by one pair at a time: a new pair dissolves the pairs
that its two sides were in. What a history of pairs leaves is read off the history. -/

namespace Matching

variable {α β : Type*} [DecidableEq α] [DecidableEq β]

/-- One direction of the matching when `a` is paired with `b`. -/
def repoint (f : α → Option β) (a : α) (b : β) (x : α) : Option β :=
  if x = a then some b else if f x = some b then none else f x

theorem repoint_iff {f : α → Option β} {a x : α} {b y : β} :
    repoint f a b x = some y ↔ (x = a ∧ y = b) ∨ (x ≠ a ∧ y ≠ b ∧ f x = some y) := by
  rw [repoint]
  by_cases hx : x = a
  · rw [if_pos hx, Option.some.injEq]
    exact ⟨fun h => Or.inl ⟨hx, h.symm⟩, fun h => h.elim (fun h => h.2.symm) fun h => absurd hx h.1⟩
  · rw [if_neg hx]
    by_cases hgone : f x = some b
    · rw [if_pos hgone, hgone, Option.some.injEq]
      refine iff_of_false (fun h => by cases h) ?_
      rintro (h | ⟨_, hy, h⟩)
      · exact hx h.1
      · exact hy h.symm
    · rw [if_neg hgone]
      constructor
      · intro h
        refine Or.inr ⟨hx, ?_, h⟩
        rintro rfl
        exact hgone h
      · rintro (h | h)
        · exact absurd h.1 hx
        · exact h.2.2

def pair (f : α ≃. β) (a : α) (b : β) : α ≃. β where
  toFun := repoint f a b
  invFun := repoint f.symm b a
  inv x y := by
    have hinv : f.symm y = some x ↔ f x = some y := f.inv x y
    rw [repoint_iff, repoint_iff, hinv]
    tauto

theorem pair_iff {f : α ≃. β} {a x : α} {b y : β} :
    pair f a b x = some y ↔ (x = a ∧ y = b) ∨ (x ≠ a ∧ y ≠ b ∧ f x = some y) := repoint_iff

def pairAll (pairs : List (α × β)) : α ≃. β := pairs.foldl (fun f q => pair f q.1 q.2) ⊥

/-- After its last occurrence neither side of the pair is paired with another partner. -/
def Stands (pairs : List (α × β)) (a : α) (b : β) : Prop :=
  ∃ before later, pairs = before ++ (a, b) :: later ∧ (a, b) ∉ later ∧
    ∀ q ∈ later, ¬ (q.1 = a ∧ q.2 ≠ b) ∧ ¬ (q.2 = b ∧ q.1 ≠ a)

omit [DecidableEq α] [DecidableEq β] in
theorem stands_append_singleton {pairs : List (α × β)} {a x : α} {b y : β} :
    Stands (pairs ++ [(a, b)]) x y ↔ (x = a ∧ y = b) ∨ (x ≠ a ∧ y ≠ b ∧ Stands pairs x y) := by
  constructor
  · rintro ⟨before, later, hsplit, hlast, hother⟩
    rcases List.eq_nil_or_concat later with rfl | ⟨later, q, rfl⟩
    · obtain ⟨_, hq⟩ := List.append_inj' hsplit rfl
      have hq := (List.cons.inj hq).1
      exact Or.inl ⟨(Prod.mk.inj hq).1.symm, (Prod.mk.inj hq).2.symm⟩
    · rw [List.concat_eq_append] at hsplit hlast hother
      rw [← List.cons_append, ← List.append_assoc] at hsplit
      obtain ⟨hpairs, hq⟩ := List.append_inj' hsplit rfl
      have hq := (List.cons.inj hq).1
      subst hq
      obtain ⟨hfst, hsnd⟩ := hother (a, b) (by simp)
      have hne : (x, y) ≠ (a, b) := by
        intro h
        exact hlast (by simp [h])
      refine Or.inr ⟨?_, ?_, before, later, hpairs, ?_, ?_⟩
      · rintro rfl
        exact hfst ⟨rfl, fun h => hne (congrArg (Prod.mk x) h.symm)⟩
      · rintro rfl
        exact hsnd ⟨rfl, fun h => hne (congrArg (·, y) h.symm)⟩
      · intro hmem
        exact hlast (List.mem_append_left _ hmem)
      · intro q hq
        exact hother q (List.mem_append_left _ hq)
  · rintro (⟨rfl, rfl⟩ | ⟨hx, hy, before, later, rfl, hlast, hother⟩)
    · exact ⟨pairs, [], rfl, List.not_mem_nil, fun q hq => absurd hq List.not_mem_nil⟩
    · refine ⟨before, later ++ [(a, b)], by simp, ?_, ?_⟩
      · rw [List.mem_append, List.mem_singleton]
        rintro (h | h)
        · exact hlast h
        · exact hx (Prod.mk.inj h).1
      · intro q hq
        rw [List.mem_append, List.mem_singleton] at hq
        rcases hq with hq | rfl
        · exact hother q hq
        · exact ⟨fun h => hx h.1.symm, fun h => hy h.1.symm⟩

theorem pairAll_append_singleton (pairs : List (α × β)) (a : α) (b : β) :
    pairAll (pairs ++ [(a, b)]) = pair (pairAll pairs) a b := by
  rw [pairAll, List.foldl_append]
  rfl

theorem pairAll_iff (pairs : List (α × β)) (a : α) (b : β) :
    pairAll pairs a = some b ↔ Stands pairs a b := by
  induction pairs using List.reverseRecOn with
  | nil =>
    refine iff_of_false (fun h => by cases h) ?_
    rintro ⟨before, later, hsplit, _⟩
    simp at hsplit
  | append_singleton pairs q ih =>
    rw [pairAll_append_singleton, pair_iff, stands_append_singleton, ih]

end Matching
