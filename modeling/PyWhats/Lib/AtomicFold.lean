/-! A loop over a list in a monad whose exceptions keep the state: where a body that
raises has written nothing, a loop that raises leaves what the items before it left. -/

namespace AtomicFold

variable {ε σ α β : Type}

/-- Whatever raises here raises before it writes. -/
def KeepsOnError (act : EStateM ε σ β) : Prop :=
  ∀ {s s' : σ} {e : ε}, act s = .error e s' → s' = s

theorem foldlM_cons_run (f : β → α → EStateM ε σ β) (b : β) (a : α) (l : List α) (s : σ) :
    (a :: l).foldlM f b s =
      match f b a s with
      | .ok b' s' => l.foldlM f b' s'
      | .error e s' => .error e s' := by
  rw [List.foldlM_cons]
  simp only [bind, EStateM.bind]
  cases f b a s <;> rfl

theorem foldlM_error_iff {f : β → α → EStateM ε σ β} (hf : ∀ b a, KeepsOnError (f b a))
    {l : List α} {b : β} {s after : σ} {e : ε} :
    l.foldlM f b s = .error e after ↔
      ∃ k a b', l[k]? = some a ∧ (l.take k).foldlM f b s = .ok b' after ∧
        f b' a after = .error e after := by
  induction l generalizing b s with
  | nil =>
    constructor
    · intro h
      cases h
    · rintro ⟨k, a, b', ha, _⟩
      simp at ha
  | cons x l ih =>
    rw [foldlM_cons_run]
    constructor
    · intro h
      cases hx : f b x s with
      | error e' s' =>
        simp only [hx] at h
        cases h
        have hsame := hf b x hx
        subst hsame
        exact ⟨0, x, b, rfl, rfl, hx⟩
      | ok b' s' =>
        simp only [hx] at h
        obtain ⟨k, a, b'', ha, hrun, hfail⟩ := ih.mp h
        refine ⟨k + 1, a, b'', ha, ?_, hfail⟩
        rw [List.take_succ_cons, foldlM_cons_run, hx]
        exact hrun
    · rintro ⟨k, a, b'', ha, hrun, hfail⟩
      cases k with
      | zero =>
        cases hrun
        cases ha
        simp only [hfail]
      | succ k =>
        rw [List.take_succ_cons, foldlM_cons_run] at hrun
        cases hx : f b x s with
        | error e' s' => simp [hx] at hrun
        | ok b' s' =>
          simp only [hx] at hrun ⊢
          exact ih.mpr ⟨k, a, b'', ha, hrun, hfail⟩

end AtomicFold
