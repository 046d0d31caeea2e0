import Mathlib.Init

/-! Stateful computations that log events beside what they do. Erasing the log gives back
the computation, and a property of the log is proved along its steps. -/

def Logged (ω σ ε α : Type) : Type := σ → List ω × EStateM.Result ε σ α

namespace Logged

variable {ω σ ε α β : Type}

def bind (p : Logged ω σ ε α) (f : α → Logged ω σ ε β) : Logged ω σ ε β := fun s =>
  match p s with
  | (log, .ok a t) => (log ++ (f a t).1, (f a t).2)
  | (log, .error e t) => (log, .error e t)

instance : Monad (Logged ω σ ε) where
  pure a := fun s => ([], .ok a s)
  bind := bind

def lift (p : EStateM ε σ α) : Logged ω σ ε α := fun s => ([], p s)

def emit (log : List ω) : Logged ω σ ε Unit := fun s => (log, .ok () s)

def erase (p : Logged ω σ ε α) : EStateM ε σ α := fun s => (p s).2

@[simp] theorem erase_pure (a : α) : (pure a : Logged ω σ ε α).erase = pure a := rfl

@[simp] theorem erase_lift (p : EStateM ε σ α) : (lift p : Logged ω σ ε α).erase = p := rfl

@[simp] theorem erase_emit (log : List ω) : (emit log : Logged ω σ ε Unit).erase = pure () := rfl

@[simp] theorem erase_bind (p : Logged ω σ ε α) (f : α → Logged ω σ ε β) :
    (p >>= f).erase = p.erase >>= fun a => (f a).erase := by
  funext s
  change (bind p f s).2 = EStateM.bind p.erase (fun a => (f a).erase) s
  rw [bind, EStateM.bind, erase]
  rcases p s with ⟨log, a | e⟩ <;> rfl

/-- Started in `s`, the log and the result are as `Post` says. -/
def Ends (p : Logged ω σ ε α) (s : σ) (Post : List ω → EStateM.Result ε σ α → Prop) : Prop :=
  Post (p s).1 (p s).2

variable {Post : List ω → EStateM.Result ε σ α → Prop} {s : σ}

theorem Ends.mono {Post' : List ω → EStateM.Result ε σ α → Prop} {p : Logged ω σ ε α}
    (hp : p.Ends s Post) (h : ∀ log r, Post log r → Post' log r) : p.Ends s Post' := h _ _ hp

theorem Ends.bind {p : Logged ω σ ε α} {f : α → Logged ω σ ε β}
    {Post' : List ω → EStateM.Result ε σ β → Prop} (hp : p.Ends s Post)
    (hok : ∀ log a t, Post log (.ok a t) → (f a).Ends t fun log' => Post' (log ++ log'))
    (herr : ∀ log e t, Post log (.error e t) → Post' log (.error e t)) :
    (p >>= f).Ends s Post' := by
  change Post' (Logged.bind p f s).1 (Logged.bind p f s).2
  rw [Logged.bind]
  rw [Ends] at hp
  rcases hrun : p s with ⟨log, a | e⟩
  · rw [hrun] at hp
    exact hok _ _ _ hp
  · rw [hrun] at hp
    exact herr _ _ _ hp

theorem Ends.get_bind {f : σ → Logged ω σ ε α} (h : (f s).Ends s Post) :
    (lift get >>= f).Ends s Post := h

end Logged
