import Mathlib.Data.List.Basic

/-! Lists that hand out their positions as names: entries are added at the end and replaced in
place. -/

namespace Registry

variable {α : Type} {l : List α} {a b : α} {i j : Nat}

theorem get_set (hi : l[i]? = some a) : (l.set i b)[j]? = if i = j then some b else l[j]? := by
  have hlt : i < l.length := (List.getElem?_eq_some_iff.mp hi).1
  simp only [List.getElem?_set, hlt, if_true]

theorem get_add (h : (l ++ [a])[j]? = some b) : l[j]? = some b ∨ (j = l.length ∧ b = a) := by
  by_cases hlt : j < l.length
  · rw [List.getElem?_append_left hlt] at h
    exact Or.inl h
  · have hlen := (List.getElem?_eq_some_iff.mp h).1
    rw [List.length_append, List.length_singleton] at hlen
    have hj : j = l.length := by omega
    rw [hj, List.getElem?_concat_length] at h
    exact Or.inr ⟨hj, (Option.some.inj h).symm⟩

end Registry
