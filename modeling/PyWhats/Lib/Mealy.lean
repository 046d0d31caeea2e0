import Mathlib.Data.List.Basic

/-! Machines that answer every input, and a machine that answers as another one does:
a relation between their states that every step keeps while the answers agree. -/

abbrev Mealy (σ ι ο : Type) := σ → ι → σ × ο

namespace Mealy

variable {σ τ ι ο : Type}

def answers (M : Mealy σ ι ο) : σ → List ι → List ο
  | _, [] => []
  | s, i :: inputs => (M s i).2 :: answers M (M s i).1 inputs

/-- On inputs from `ok`, related states answer alike and stay related. -/
def Simulates (M : Mealy σ ι ο) (N : Mealy τ ι ο) (ok : ι → Prop) (R : σ → τ → Prop) : Prop :=
  ∀ ⦃s t⦄, R s t → ∀ i, ok i → (M s i).2 = (N t i).2 ∧ R (M s i).1 (N t i).1

variable {M : Mealy σ ι ο} {N : Mealy τ ι ο} {ok : ι → Prop} {R : σ → τ → Prop}

theorem Simulates.answers_eq (h : Simulates M N ok R) {s : σ} {t : τ} (hR : R s t)
    {inputs : List ι} (hok : ∀ i ∈ inputs, ok i) : M.answers s inputs = N.answers t inputs := by
  induction inputs generalizing s t with
  | nil => rfl
  | cons i inputs ih =>
    obtain ⟨hanswer, hnext⟩ := h hR i (hok i List.mem_cons_self)
    rw [answers, answers, hanswer, ih hnext fun j hj => hok j (List.mem_cons_of_mem _ hj)]

end Mealy
