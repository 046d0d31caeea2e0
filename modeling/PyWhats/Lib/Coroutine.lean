import Mathlib.Logic.Relation

/-! Cooperative tasks over a shared state. A task runs without interruption up to
its next `await`; other tasks run while it waits. The rules below reduce a
property of every reachable state of a machine of tasks to one proof per task:
between two awaits it only takes steps of a given relation. -/

/-- A task: it has ended, it changes the shared state and goes on with the state
it found, or it waits for the answer to a request. -/
inductive Co (σ : Type) {Q : Type} (R : Q → Type) (ε α : Type) : Type where
  | ret (r : Except ε α)
  | act (f : σ → σ) (k : σ → Co σ R ε α)
  | await (q : Q) (k : Except ε (R q) → Co σ R ε α)

namespace Co

variable {σ Q : Type} {R : Q → Type} {ε α β : Type}

def bind (f : α → Co σ R ε β) : Co σ R ε α → Co σ R ε β
  | .ret (.ok a) => f a
  | .ret (.error e) => .ret (.error e)
  | .act g k => .act g (fun s => (k s).bind f)
  | .await q k => .await q (fun r => (k r).bind f)

def tryCatch : Co σ R ε α → (ε → Co σ R ε α) → Co σ R ε α
  | .ret (.ok a), _ => .ret (.ok a)
  | .ret (.error e), h => h e
  | .act g k, h => .act g (fun s => (k s).tryCatch h)
  | .await q k, h => .await q (fun r => (k r).tryCatch h)

def tryFinally : Co σ R ε α → Co σ R ε Unit → Co σ R ε α
  | .ret r, fin => fin.bind (fun _ => .ret r)
  | .act g k, fin => .act g (fun s => (k s).tryFinally fin)
  | .await q k, fin => .await q (fun r => (k r).tryFinally fin)

instance : Monad (Co σ R ε) where
  pure a := .ret (.ok a)
  bind p f := p.bind f

theorem bind_pure_right (p : Co σ R ε α) : p.bind (fun a => .ret (.ok a)) = p := by
  induction p with
  | ret r => cases r <;> rfl
  | act f k ih => exact congrArg (Co.act f) (funext ih)
  | await q k ih => exact congrArg (Co.await q) (funext ih)

theorem bind_bind {γ : Type} (p : Co σ R ε α) (f : α → Co σ R ε β) (g : β → Co σ R ε γ) :
    (p.bind f).bind g = p.bind (fun a => (f a).bind g) := by
  induction p with
  | ret r => cases r <;> rfl
  | act h k ih => exact congrArg (Co.act h) (funext ih)
  | await q k ih => exact congrArg (Co.await q) (funext ih)

instance : LawfulMonad (Co σ R ε) :=
  LawfulMonad.mk' _ bind_pure_right (fun _ _ => rfl) bind_bind

def raise (e : ε) : Co σ R ε α := .ret (.error e)

def get : Co σ R ε σ := .act id (fun s => .ret (.ok s))

def modify (f : σ → σ) : Co σ R ε Unit := .act f (fun _ => .ret (.ok ()))

def wait (q : Q) : Co σ R ε (R q) := .await q .ret

def lift (r : Except ε α) : Co σ R ε α := .ret r

inductive Stop (σ : Type) {Q : Type} (R : Q → Type) (ε α : Type) where
  | done (r : Except ε α)
  | waits (q : Q) (k : Except ε (R q) → Co σ R ε α)

def Stop.ok? : Stop σ R ε α → Option α
  | .done (.ok a) => some a
  | _ => none

def run : Co σ R ε α → σ → σ × Stop σ R ε α
  | .ret r, s => (s, .done r)
  | .act f k, s => (k s).run (f s)
  | .await q k, s => (s, .waits q k)

def Mid : Co σ R ε α → σ → σ → Prop
  | .ret _, s, t => t = s
  | .act f k, s, t => t = s ∨ (k s).Mid (f s) t
  | .await _ _, s, t => t = s

/-- The task ends with `r` in state `t` if nothing else runs, for some answers. -/
inductive Completes : Co σ R ε α → σ → Except ε α → σ → Prop
  | ret {r : Except ε α} {s : σ} : Completes (.ret r) s r s
  | act {f : σ → σ} {k : σ → Co σ R ε α} {s t : σ} {r : Except ε α}
      (h : Completes (k s) (f s) r t) : Completes (.act f k) s r t
  | await {q : Q} {k : Except ε (R q) → Co σ R ε α} {s t : σ} {r : Except ε α}
      (answer : Except ε (R q)) (h : Completes (k answer) s r t) : Completes (.await q k) s r t

def finish (answer : σ → (q : Q) → Except ε (R q)) : Co σ R ε α → σ → Except ε α × σ
  | .ret r, s => (r, s)
  | .act f k, s => (k s).finish answer (f s)
  | .await q k, s => (k (answer s q)).finish answer s

theorem completes_finish (answer : σ → (q : Q) → Except ε (R q)) (p : Co σ R ε α) (s : σ) :
    Completes p s (p.finish answer s).1 (p.finish answer s).2 := by
  induction p generalizing s with
  | ret r => exact .ret
  | act f k ih => exact .act (ih s (f s))
  | await q k ih => exact .await (answer s q) (ih _ s)

theorem completes_ret {r r' : Except ε α} {s t : σ}
    (h : Completes (.ret r' : Co σ R ε α) s r t) : t = s := by
  cases h
  rfl

theorem completes_modify {f : σ → σ} {r : Except ε Unit} {s t : σ}
    (h : Completes (modify f : Co σ R ε Unit) s r t) : t = f s := by
  cases h with
  | act h => exact completes_ret h

theorem completes_get_bind {f : σ → Co σ R ε α} {r : Except ε α} {s t : σ}
    (h : Completes (get >>= f) s r t) : Completes (f s) s r t := by
  cases h with
  | act h => exact h

section Run

theorem run_bind_ok {p : Co σ R ε α} {f : α → Co σ R ε β} {s t : σ} {a : α}
    (h : p.run s = (t, .done (.ok a))) : (p >>= f).run s = (f a).run t := by
  induction p generalizing s with
  | ret r =>
    cases h
    rfl
  | act g k ih => exact ih s h
  | await q k => cases h

theorem run_bind_error {p : Co σ R ε α} {f : α → Co σ R ε β} {s t : σ} {e : ε}
    (h : p.run s = (t, .done (.error e))) : (p >>= f).run s = (t, .done (.error e)) := by
  induction p generalizing s with
  | ret r =>
    cases h
    rfl
  | act g k ih => exact ih s h
  | await q k => cases h

theorem run_bind_inv {p : Co σ R ε α} {f : α → Co σ R ε β} {s t : σ} {b : β}
    (h : (p >>= f).run s = (t, .done (.ok b))) :
    ∃ a s', p.run s = (s', .done (.ok a)) ∧ (f a).run s' = (t, .done (.ok b)) := by
  induction p generalizing s with
  | ret r =>
    cases r with
    | ok a => exact ⟨a, s, rfl, h⟩
    | error e => cases h
  | act g k ih => exact ih s h
  | await q k => cases h

theorem run_bind_waits {p : Co σ R ε α} {f : α → Co σ R ε β} {s t : σ} {q : Q}
    {k : Except ε (R q) → Co σ R ε α} (h : p.run s = (t, .waits q k)) :
    (p >>= f).run s = (t, .waits q fun r => (k r).bind f) := by
  induction p generalizing s with
  | ret r => cases h
  | act g k ih => exact ih s h
  | await q k =>
    cases h
    rfl

theorem run_tryCatch_waits {p : Co σ R ε α} {h : ε → Co σ R ε α} {s t : σ} {q : Q}
    {k : Except ε (R q) → Co σ R ε α} (hp : p.run s = (t, .waits q k)) :
    (p.tryCatch h).run s = (t, .waits q fun r => (k r).tryCatch h) := by
  induction p generalizing s with
  | ret r => cases hp
  | act g k ih => exact ih s hp
  | await q k =>
    cases hp
    rfl

theorem run_tryFinally_waits {p : Co σ R ε α} {fin : Co σ R ε Unit} {s t : σ} {q : Q}
    {k : Except ε (R q) → Co σ R ε α} (hp : p.run s = (t, .waits q k)) :
    (p.tryFinally fin).run s = (t, .waits q fun r => (k r).tryFinally fin) := by
  induction p generalizing s with
  | ret r => cases hp
  | act g k ih => exact ih s hp
  | await q k =>
    cases hp
    rfl

theorem run_get_bind {f : σ → Co σ R ε α} {s : σ} :
    ((get : Co σ R ε σ) >>= f).run s = (f s).run s := rfl

theorem run_lift_bind {x : Except ε α} {f : α → Co σ R ε β} {s : σ} {a : α} (h : x = .ok a) :
    ((lift x : Co σ R ε α) >>= f).run s = (f a).run s := by
  rw [h]
  rfl

theorem run_done_inj {p : Co σ R ε α} {s t t' : σ} {r r' : Except ε α}
    (h : p.run s = (t, .done r)) (h' : p.run s = (t', .done r')) : t = t' ∧ r = r' := by
  rw [h] at h'
  cases h'
  exact ⟨rfl, rfl⟩

theorem run_getD {p : Co σ R ε α} {s : σ} (d : α) (h : (p.run s).2.ok?.isSome = true) :
    p.run s = ((p.run s).1, .done (.ok ((p.run s).2.ok?.getD d))) := by
  refine Prod.ext rfl ?_
  generalize (p.run s).2 = stop at h ⊢
  unfold Stop.ok? at h ⊢
  split at h
  · rfl
  · cases h

theorem run_tryCatch_ok {p : Co σ R ε α} {h : ε → Co σ R ε α} {s t : σ} {a : α}
    (hp : p.run s = (t, .done (.ok a))) : (p.tryCatch h).run s = (t, .done (.ok a)) := by
  induction p generalizing s with
  | ret r =>
    cases hp
    rfl
  | act g k ih => exact ih s hp
  | await q k => cases hp

theorem run_tryCatch_error {p : Co σ R ε α} {h : ε → Co σ R ε α} {s t : σ} {e : ε}
    (hp : p.run s = (t, .done (.error e))) : (p.tryCatch h).run s = (h e).run t := by
  induction p generalizing s with
  | ret r =>
    cases hp
    rfl
  | act g k ih => exact ih s hp
  | await q k => cases hp

def attempt (p : Co σ R ε α) : Co σ R ε (Except ε α) :=
  tryCatch (do return .ok (← p)) (fun e => return .error e)

theorem run_attempt {p : Co σ R ε α} {s t : σ} {r : Except ε α} (h : p.run s = (t, .done r)) :
    p.attempt.run s = (t, .done (.ok r)) := by
  cases r with
  | ok a => exact run_tryCatch_ok (run_bind_ok h)
  | error e => exact run_tryCatch_error (run_bind_error h)

theorem run_attempt_inv {p : Co σ R ε α} {s t : σ} {r : Except ε α}
    (h : p.attempt.run s = (t, .done (.ok r))) : p.run s = (t, .done r) := by
  induction p generalizing s with
  | ret r' => cases r' <;> cases h <;> rfl
  | act g k ih => exact ih s h
  | await q k => cases h

end Run

/-- The task only waits: it leaves the state to the others. -/
def Silent : Co σ R ε α → Prop
  | .ret _ => True
  | .act _ _ => False
  | .await _ k => ∀ r, (k r).Silent

theorem silent_lift (r : Except ε α) : (lift r : Co σ R ε α).Silent := trivial

theorem silent_wait (q : Q) : (wait q : Co σ R ε (R q)).Silent := fun _ => trivial

theorem silent_bind {p : Co σ R ε α} {f : α → Co σ R ε β} (hp : p.Silent)
    (hf : ∀ a, (f a).Silent) : (p >>= f).Silent := by
  induction p with
  | ret r =>
    cases r with
    | ok a => exact hf a
    | error e => trivial
  | act g k => exact hp.elim
  | await q k ih => exact fun r => ih r (hp r)

theorem silent_tryCatch {p : Co σ R ε α} {h : ε → Co σ R ε α} (hp : p.Silent)
    (hh : ∀ e, (h e).Silent) : (p.tryCatch h).Silent := by
  induction p with
  | ret r =>
    cases r with
    | ok a => trivial
    | error e => exact hh e
  | act g k => exact hp.elim
  | await q k ih => exact fun r => ih r (hp r)

section Safe

variable (Step Part : σ → σ → Prop) (Waits : Q → Prop)

/-- A state in the middle of a burst: some steps, perhaps followed by a part of
one more. -/
def Amid (s₀ s : σ) : Prop := ∃ s₁, Relation.ReflTransGen Step s₀ s₁ ∧ (s = s₁ ∨ Part s₁ s)

/-- Every burst of the task is a sequence of steps, whatever the others do while
it waits, it only waits for what `Waits` allows, and it ends as `Post` says.
The burst under way began in `s₀` and has come to `s`. -/
def Safe (Post : Except ε α → σ → Prop) : Co σ R ε α → σ → σ → Prop
  | .ret r, s₀, s => Relation.ReflTransGen Step s₀ s ∧ Post r s
  | .act f k, s₀, s => Amid Step Part s₀ (f s) ∧ (k s).Safe Post s₀ (f s)
  | .await q k, s₀, s => Waits q ∧ Relation.ReflTransGen Step s₀ s ∧
      ∀ r s', Relation.ReflTransGen Step s s' → (k r).Safe Post s' s'

variable {Step Part : σ → σ → Prop} {Waits : Q → Prop}

theorem Amid.of_steps {s₀ s : σ} (h : Relation.ReflTransGen Step s₀ s) : Amid Step Part s₀ s :=
  ⟨s, h, .inl rfl⟩

theorem Amid.trans {s₀ s₁ s : σ} (h : Relation.ReflTransGen Step s₀ s₁)
    (h' : Amid Step Part s₁ s) : Amid Step Part s₀ s := by
  obtain ⟨t, ht, hp⟩ := h'
  exact ⟨t, h.trans ht, hp⟩

namespace Safe

variable {Post Post' : Except ε α → σ → Prop} {s₀ s₁ s : σ}

theorem trans {p : Co σ R ε α} (h : Relation.ReflTransGen Step s₀ s₁)
    (hp : p.Safe Step Part Waits Post s₁ s) : p.Safe Step Part Waits Post s₀ s := by
  induction p generalizing s with
  | ret r => exact ⟨h.trans hp.1, hp.2⟩
  | act f k ih => exact ⟨hp.1.trans h, ih _ hp.2⟩
  | await q k ih => exact ⟨hp.1, h.trans hp.2.1, hp.2.2⟩

theorem mono {p : Co σ R ε α} (hp : p.Safe Step Part Waits Post s₀ s)
    (h : ∀ r t, Post r t → Post' r t) : p.Safe Step Part Waits Post' s₀ s := by
  induction p generalizing s₀ s with
  | ret r => exact ⟨hp.1, h _ _ hp.2⟩
  | act f k ih => exact ⟨hp.1, ih _ hp.2⟩
  | await q k ih => exact ⟨hp.1, hp.2.1, fun r s' hs => ih r (hp.2.2 r s' hs)⟩

theorem reaches {p : Co σ R ε α} (hp : p.Safe Step Part Waits Post s₀ s) :
    p.Safe Step Part Waits (fun r t => Post r t ∧ Relation.ReflTransGen Step s₀ t) s₀ s := by
  induction p generalizing s₀ s with
  | ret r => exact ⟨hp.1, hp.2, hp.1⟩
  | act f k ih => exact ⟨hp.1, ih _ hp.2⟩
  | await q k ih =>
    refine ⟨hp.1, hp.2.1, fun r s' hs => (ih r (hp.2.2 r s' hs)).mono fun r' t ht => ?_⟩
    exact ⟨ht.1, (hp.2.1.trans hs).trans ht.2⟩

theorem bind {p : Co σ R ε α} {f : α → Co σ R ε β} {Post' : Except ε β → σ → Prop}
    (hp : p.Safe Step Part Waits Post s₀ s)
    (hok : ∀ a t, Post (.ok a) t → (f a).Safe Step Part Waits Post' t t)
    (herr : ∀ e t, Post (.error e) t → Post' (.error e) t) :
    (p.bind f).Safe Step Part Waits Post' s₀ s := by
  induction p generalizing s₀ s with
  | ret r =>
    cases r with
    | ok a => exact (hok a s hp.2).trans hp.1
    | error e => exact ⟨hp.1, herr e s hp.2⟩
  | act g k ih => exact ⟨hp.1, ih _ hp.2⟩
  | await q k ih => exact ⟨hp.1, hp.2.1, fun r s' hs => ih r (hp.2.2 r s' hs)⟩

theorem pure {a : α} (h : Post (.ok a) s) :
    (Pure.pure a : Co σ R ε α).Safe Step Part Waits Post s s := ⟨.refl, h⟩

theorem raise {e : ε} (h : Post (.error e) s) :
    (Co.raise e : Co σ R ε α).Safe Step Part Waits Post s s := ⟨.refl, h⟩

theorem lift {r : Except ε α} (h : Post r s) :
    (Co.lift r : Co σ R ε α).Safe Step Part Waits Post s s := ⟨.refl, h⟩

theorem get_bind {f : σ → Co σ R ε α} (h : (f s).Safe Step Part Waits Post s s) :
    (Co.get >>= f).Safe Step Part Waits Post s s := ⟨.of_steps .refl, h⟩

theorem modify_bind {g : σ → σ} {f : Unit → Co σ R ε α} (hstep : Step s (g s))
    (h : (f ()).Safe Step Part Waits Post (g s) (g s)) :
    (Co.modify g >>= f).Safe Step Part Waits Post s s :=
  ⟨.of_steps (.single hstep), h.trans (.single hstep)⟩

theorem modify {g : σ → σ} {Post : Except ε Unit → σ → Prop} (hstep : Step s (g s))
    (h : Post (.ok ()) (g s)) :
    (Co.modify g : Co σ R ε Unit).Safe Step Part Waits Post s s :=
  ⟨.of_steps (.single hstep), .single hstep, h⟩

theorem wait {q : Q} {Post : Except ε (R q) → σ → Prop} (hq : Waits q)
    (h : ∀ r s', Relation.ReflTransGen Step s s' → Post r s') :
    (Co.wait q : Co σ R ε (R q)).Safe Step Part Waits Post s s :=
  ⟨hq, .refl, fun r s' hs => ⟨.refl, h r s' hs⟩⟩

theorem seq {p : Co σ R ε α} {f : α → Co σ R ε β} {Post' : Except ε β → σ → Prop}
    (hp : p.Safe Step Part Waits Post s₀ s)
    (hok : ∀ a t, Post (.ok a) t → (f a).Safe Step Part Waits Post' t t)
    (herr : ∀ e t, Post (.error e) t → Post' (.error e) t) :
    (p >>= f).Safe Step Part Waits Post' s₀ s := hp.bind hok herr

theorem tryCatch {p : Co σ R ε α} {h : ε → Co σ R ε α}
    (hp : p.Safe Step Part Waits Post s₀ s)
    (hok : ∀ a t, Post (.ok a) t → Post' (.ok a) t)
    (herr : ∀ e t, Post (.error e) t → (h e).Safe Step Part Waits Post' t t) :
    (p.tryCatch h).Safe Step Part Waits Post' s₀ s := by
  induction p generalizing s₀ s with
  | ret r =>
    cases r with
    | ok a => exact ⟨hp.1, hok a s hp.2⟩
    | error e => exact (herr e s hp.2).trans hp.1
  | act g k ih => exact ⟨hp.1, ih _ hp.2⟩
  | await q k ih => exact ⟨hp.1, hp.2.1, fun r s' hs => ih r (hp.2.2 r s' hs)⟩

theorem tryFinally {p : Co σ R ε α} {fin : Co σ R ε Unit}
    (hp : p.Safe Step Part Waits Post s₀ s)
    (hfin : ∀ r t, Post r t → fin.Safe Step Part Waits
      (fun r' t' => match r' with
        | .ok _ => Post' r t'
        | .error e => Post' (.error e) t') t t) :
    (p.tryFinally fin).Safe Step Part Waits Post' s₀ s := by
  induction p generalizing s₀ s with
  | ret r =>
    refine ((hfin r s hp.2).bind (fun _ t ht => ?_) fun _ _ ht => ht).trans hp.1
    exact ⟨.refl, ht⟩
  | act g k ih => exact ⟨hp.1, ih _ hp.2⟩
  | await q k ih => exact ⟨hp.1, hp.2.1, fun r s' hs => ih r (hp.2.2 r s' hs)⟩

theorem completes {p : Co σ R ε α} {r : Except ε α} {t : σ}
    (hp : p.Safe Step Part Waits Post s₀ s) (h : Completes p s r t) :
    Relation.ReflTransGen Step s₀ t ∧ Post r t := by
  induction h generalizing s₀ with
  | ret => exact hp
  | act _ ih => exact ih hp.2
  | await answer _ ih =>
    obtain ⟨hsteps, hpost⟩ := ih (hp.2.2 answer _ .refl)
    exact ⟨hp.2.1.trans hsteps, hpost⟩

theorem mid {p : Co σ R ε α} {t : σ} (hp : p.Safe Step Part Waits Post s₀ s)
    (hs : Amid Step Part s₀ s) (h : p.Mid s t) : Amid Step Part s₀ t := by
  induction p generalizing s with
  | ret r => exact h ▸ hs
  | act f k ih =>
    rcases h with rfl | h
    · exact hs
    · exact ih _ hp.2 hp.1 h
  | await q k ih => exact h ▸ hs

theorem run {p : Co σ R ε α} (hp : p.Safe Step Part Waits Post s₀ s) :
    Relation.ReflTransGen Step s₀ (p.run s).1 ∧
      match (p.run s).2 with
      | .done r => Post r (p.run s).1
      | .waits q k => Waits q ∧ ∀ r s', Relation.ReflTransGen Step (p.run s).1 s' →
          (k r).Safe Step Part Waits Post s' s' := by
  induction p generalizing s with
  | ret r => exact hp
  | act f k ih => exact ih _ hp.2
  | await q k ih => exact ⟨hp.2.1, hp.1, hp.2.2⟩

end Safe

/-- Between two waits the task only takes steps, wherever it starts. -/
def Stepwise (Step : σ → σ → Prop) (p : Co σ R ε α) : Prop :=
  ∀ s, p.Safe Step (fun _ _ => False) (fun _ => True) (fun _ _ => True) s s

namespace Stepwise

variable {Step : σ → σ → Prop}

theorem ret (r : Except ε α) : (Co.ret r : Co σ R ε α).Stepwise Step := fun _ => ⟨.refl, trivial⟩

theorem wait (q : Q) : (Co.wait q : Co σ R ε (R q)).Stepwise Step :=
  fun _ => Safe.wait trivial fun _ _ _ => trivial

theorem of_silent {p : Co σ R ε α} (hp : p.Silent) : p.Stepwise Step := by
  induction p with
  | ret r => exact ret r
  | act f k => exact hp.elim
  | await q k ih => exact fun s => ⟨trivial, .refl, fun r s' _ => ih r (hp r) s'⟩

theorem act {f : σ → σ} {k : σ → Co σ R ε α} (hstep : ∀ s, Step s (f s))
    (hk : ∀ s, (k s).Stepwise Step) : (Co.act f k).Stepwise Step :=
  fun s => ⟨.of_steps (.single (hstep s)), (hk s (f s)).trans (.single (hstep s))⟩

theorem modify {f : σ → σ} (hstep : ∀ s, Step s (f s)) :
    (Co.modify f : Co σ R ε Unit).Stepwise Step := act hstep fun _ => ret _

theorem get_bind {f : σ → Co σ R ε α} (h : ∀ s, (f s).Stepwise Step) :
    (Co.get >>= f).Stepwise Step := fun s => Safe.get_bind (h s s)

theorem bind {p : Co σ R ε α} {f : α → Co σ R ε β} (hp : p.Stepwise Step)
    (hf : ∀ a, (f a).Stepwise Step) : (p >>= f).Stepwise Step :=
  fun s => (hp s).seq (fun a t _ => hf a t) fun _ _ _ => trivial

theorem tryCatch {p : Co σ R ε α} {h : ε → Co σ R ε α} (hp : p.Stepwise Step)
    (hh : ∀ e, (h e).Stepwise Step) : (p.tryCatch h).Stepwise Step :=
  fun s => (hp s).tryCatch (fun _ _ _ => trivial) fun e t _ => hh e t

end Stepwise

end Safe

section Amidst

variable (Env : σ → σ → Prop)

/-- The task ends with `r` in state `t` for some answers, when others change the
state as `Env` allows while it waits. -/
inductive EndsAmidst : Co σ R ε α → σ → Except ε α → σ → Prop
  | ret {r : Except ε α} {s : σ} : EndsAmidst (.ret r) s r s
  | act {f : σ → σ} {k : σ → Co σ R ε α} {s t : σ} {r : Except ε α}
      (h : EndsAmidst (k s) (f s) r t) : EndsAmidst (.act f k) s r t
  | await {q : Q} {k : Except ε (R q) → Co σ R ε α} {s s' t : σ} {r : Except ε α}
      (answer : Except ε (R q)) (henv : Env s s') (h : EndsAmidst (k answer) s' r t) :
      EndsAmidst (.await q k) s r t

/-- However the task ends, it ends as `Post` says. -/
def Ensures (Post : Except ε α → σ → Prop) : Co σ R ε α → σ → Prop
  | .ret r, s => Post r s
  | .act f k, s => (k s).Ensures Post (f s)
  | .await _ k, s => ∀ r s', Env s s' → (k r).Ensures Post s'

variable {Env : σ → σ → Prop} {Post : Except ε α → σ → Prop}

theorem endsAmidst_finish (henv : ∀ s, Env s s) (answer : σ → (q : Q) → Except ε (R q))
    (p : Co σ R ε α) (s : σ) : EndsAmidst Env p s (p.finish answer s).1 (p.finish answer s).2 := by
  induction p generalizing s with
  | ret r => exact .ret
  | act f k ih => exact .act (ih s (f s))
  | await q k ih => exact .await (answer s q) (henv s) (ih _ s)

namespace Ensures

theorem ends {p : Co σ R ε α} {s t : σ} {r : Except ε α} (hp : p.Ensures Env Post s)
    (h : EndsAmidst Env p s r t) : Post r t := by
  induction h with
  | ret => exact hp
  | act _ ih => exact ih hp
  | await answer henv _ ih => exact ih (hp answer _ henv)

theorem of_ends {p : Co σ R ε α} {s : σ} (h : ∀ r t, EndsAmidst Env p s r t → Post r t) :
    p.Ensures Env Post s := by
  induction p generalizing s with
  | ret r => exact h r s .ret
  | act f k ih => exact ih s fun r t hends => h r t (.act hends)
  | await q k ih => exact fun r s' henv => ih r fun r' t hends => h r' t (.await r henv hends)

theorem mono {Post' : Except ε α → σ → Prop} {p : Co σ R ε α} {s : σ}
    (hp : p.Ensures Env Post s) (h : ∀ r t, Post r t → Post' r t) : p.Ensures Env Post' s := by
  induction p generalizing s with
  | ret r => exact h r s hp
  | act f k ih => exact ih s hp
  | await q k ih => exact fun r s' henv => ih r (hp r s' henv)

theorem bind {p : Co σ R ε α} {f : α → Co σ R ε β} {Post' : Except ε β → σ → Prop} {s : σ}
    (hp : p.Ensures Env Post s) (hok : ∀ a t, Post (.ok a) t → (f a).Ensures Env Post' t)
    (herr : ∀ e t, Post (.error e) t → Post' (.error e) t) : (p >>= f).Ensures Env Post' s := by
  induction p generalizing s with
  | ret r =>
    cases r with
    | ok a => exact hok a s hp
    | error e => exact herr e s hp
  | act g k ih => exact ih s hp
  | await q k ih => exact fun r s' henv => ih r (hp r s' henv)

theorem get_bind {f : σ → Co σ R ε α} {s : σ} (h : (f s).Ensures Env Post s) :
    (get >>= f).Ensures Env Post s := h

theorem of_done {p : Co σ R ε α} {s t : σ} {r : Except ε α} (hrun : p.run s = (t, .done r))
    (h : Post r t) : p.Ensures Env Post s := by
  induction p generalizing s with
  | ret r =>
    cases hrun
    exact h
  | act f k ih => exact ih s hrun
  | await q k => cases hrun

theorem run_bind {p : Co σ R ε α} {f : α → Co σ R ε β} {Post : Except ε β → σ → Prop} {s t : σ}
    {a : α} (hrun : p.run s = (t, .done (.ok a))) (h : (f a).Ensures Env Post t) :
    (p >>= f).Ensures Env Post s := by
  induction p generalizing s with
  | ret r =>
    cases hrun
    exact h
  | act f k ih => exact ih s hrun
  | await q k => cases hrun

theorem of_silent {p : Co σ R ε α} {s : σ} (hp : p.Silent)
    (h : ∀ r t, Relation.ReflTransGen Env s t → Post r t) : p.Ensures Env Post s := by
  induction p generalizing s with
  | ret r => exact h r s .refl
  | act f k => exact hp.elim
  | await q k ih => exact fun r s' henv => ih r (hp r) fun r' t ht => h r' t (.head henv ht)

theorem tryCatch {p : Co σ R ε α} {h : ε → Co σ R ε α} {Post' : Except ε α → σ → Prop} {s : σ}
    (hp : p.Ensures Env Post s) (hok : ∀ a t, Post (.ok a) t → Post' (.ok a) t)
    (herr : ∀ e t, Post (.error e) t → (h e).Ensures Env Post' t) :
    (p.tryCatch h).Ensures Env Post' s := by
  induction p generalizing s with
  | ret r =>
    cases r with
    | ok a => exact hok a s hp
    | error e => exact herr e s hp
  | act g k ih => exact ih s hp
  | await q k ih => exact fun r s' henv => ih r (hp r s' henv)

theorem tryFinally {p : Co σ R ε α} {fin : Co σ R ε Unit} {Post' : Except ε α → σ → Prop} {s : σ}
    (hp : p.Ensures Env Post s) (hfin : ∀ r t, Post r t → fin.Ensures Env (fun r' t' =>
      match r' with
      | .ok _ => Post' r t'
      | .error e => Post' (.error e) t') t) : (p.tryFinally fin).Ensures Env Post' s := by
  induction p generalizing s with
  | ret r =>
    refine bind (hfin r s hp) (fun _ _ h => h) fun _ _ h => h
  | act g k ih => exact ih s hp
  | await q k ih => exact fun r s' henv => ih r (hp r s' henv)

end Ensures

/-- In some run amidst the others the task itself takes the state from `t` to `t'`. -/
inductive ActsAmidst (Env : σ → σ → Prop) : Co σ R ε α → σ → σ → σ → Prop
  | here {f : σ → σ} {k : σ → Co σ R ε α} {s : σ} : ActsAmidst Env (.act f k) s s (f s)
  | act {f : σ → σ} {k : σ → Co σ R ε α} {s t t' : σ}
      (h : ActsAmidst Env (k s) (f s) t t') : ActsAmidst Env (.act f k) s t t'
  | await {q : Q} {k : Except ε (R q) → Co σ R ε α} {s s' t t' : σ}
      (answer : Except ε (R q)) (henv : Env s s') (h : ActsAmidst Env (k answer) s' t t') :
      ActsAmidst Env (.await q k) s t t'

section Inversion

variable {p : Co σ R ε α} {f : α → Co σ R ε β} {s t t' : σ}

theorem EndsAmidst.of_run {r : Except ε α} (h : p.run s = (t, .done r)) :
    EndsAmidst Env p s r t := by
  induction p generalizing s with
  | ret r =>
    cases h
    exact .ret
  | act g k ih => exact .act (ih s h)
  | await q k => cases h

theorem EndsAmidst.bind_inv {b : β} (h : EndsAmidst Env (p >>= f) s (.ok b) t) :
    ∃ a u, EndsAmidst Env p s (.ok a) u ∧ EndsAmidst Env (f a) u (.ok b) t := by
  induction p generalizing s with
  | ret r =>
    cases r with
    | ok a => exact ⟨a, s, .ret, h⟩
    | error e => cases h
  | act g k ih =>
    cases h with
    | act h =>
      obtain ⟨a, u, hp, hf⟩ := ih s h
      exact ⟨a, u, .act hp, hf⟩
  | await q k ih =>
    cases h with
    | await answer henv h =>
      obtain ⟨a, u, hp, hf⟩ := ih answer h
      exact ⟨a, u, .await answer henv hp, hf⟩

theorem ActsAmidst.bind_inv (h : ActsAmidst Env (p >>= f) s t t') :
    ActsAmidst Env p s t t' ∨
      ∃ a u, EndsAmidst Env p s (.ok a) u ∧ ActsAmidst Env (f a) u t t' := by
  induction p generalizing s with
  | ret r =>
    cases r with
    | ok a => exact .inr ⟨a, s, .ret, h⟩
    | error e => cases h
  | act g k ih =>
    cases h with
    | here => exact .inl .here
    | act h =>
      rcases ih s h with hp | ⟨a, u, hp, hf⟩
      · exact .inl (.act hp)
      · exact .inr ⟨a, u, .act hp, hf⟩
  | await q k ih =>
    cases h with
    | await answer henv h =>
      rcases ih answer h with hp | ⟨a, u, hp, hf⟩
      · exact .inl (.await answer henv hp)
      · exact .inr ⟨a, u, .await answer henv hp, hf⟩

theorem ActsAmidst.tryCatch_inv {handler : ε → Co σ R ε α}
    (h : ActsAmidst Env (p.tryCatch handler) s t t') :
    ActsAmidst Env p s t t' ∨
      ∃ e u, EndsAmidst Env p s (.error e) u ∧ ActsAmidst Env (handler e) u t t' := by
  induction p generalizing s with
  | ret r =>
    cases r with
    | ok a => cases h
    | error e => exact .inr ⟨e, s, .ret, h⟩
  | act g k ih =>
    cases h with
    | here => exact .inl .here
    | act h =>
      rcases ih s h with hp | ⟨e, u, hp, hh⟩
      · exact .inl (.act hp)
      · exact .inr ⟨e, u, .act hp, hh⟩
  | await q k ih =>
    cases h with
    | await answer henv h =>
      rcases ih answer h with hp | ⟨e, u, hp, hh⟩
      · exact .inl (.await answer henv hp)
      · exact .inr ⟨e, u, .await answer henv hp, hh⟩

theorem ActsAmidst.bind_left (h : ActsAmidst Env p s t t') : ActsAmidst Env (p >>= f) s t t' := by
  induction h with
  | here => exact .here
  | act _ ih => exact .act ih
  | await answer henv _ ih => exact .await answer henv ih

theorem ActsAmidst.bind_right {a : α} {u : σ} (hp : EndsAmidst Env p s (.ok a) u)
    (hf : ActsAmidst Env (f a) u t t') : ActsAmidst Env (p >>= f) s t t' := by
  induction p generalizing s with
  | ret r =>
    cases hp
    exact hf
  | act g k ih =>
    cases hp with
    | act hp => exact .act (ih s hp)
  | await q k ih =>
    cases hp with
    | await answer henv hp => exact .await answer henv (ih answer hp)

theorem ActsAmidst.tryCatch {handler : ε → Co σ R ε α} (h : ActsAmidst Env p s t t') :
    ActsAmidst Env (p.tryCatch handler) s t t' := by
  induction h with
  | here => exact .here
  | act _ ih => exact .act ih
  | await answer henv _ ih => exact .await answer henv ih

/-- What a run brings about, one of its actions brings about. -/
theorem exists_actsAmidst (Env : σ → σ → Prop) {I : σ → Prop} (hs : ¬ I s) (h : I (p.run s).1) :
    ∃ t t', ActsAmidst Env p s t t' ∧ ¬ I t ∧ I t' := by
  induction p generalizing s with
  | ret r => exact absurd h hs
  | act g k ih =>
    by_cases hg : I (g s)
    · exact ⟨s, g s, .here, hs, hg⟩
    · obtain ⟨t, t', hacts, ht⟩ := ih s hg h
      exact ⟨t, t', .act hacts, ht⟩
  | await q k ih => exact absurd h hs

end Inversion

/-- Whatever the state, the actions of the task are of the given kind. -/
def Each (A : σ → σ → Prop) : Co σ R ε α → Prop
  | .ret _ => True
  | .act f k => (∀ s, A s (f s)) ∧ ∀ s, (k s).Each A
  | .await _ k => ∀ r, (k r).Each A

namespace Each

variable {A : σ → σ → Prop} {p : Co σ R ε α}

theorem acts (hp : p.Each A) {s t t' : σ} (h : ActsAmidst Env p s t t') : A t t' := by
  induction h with
  | here => exact hp.1 _
  | act _ ih => exact ih (hp.2 _)
  | await answer henv _ ih => exact ih (hp answer)

theorem bind {f : α → Co σ R ε β} (hp : p.Each A) (hf : ∀ a, (f a).Each A) :
    (p >>= f).Each A := by
  induction p with
  | ret r =>
    cases r with
    | ok a => exact hf a
    | error e => trivial
  | act g k ih => exact ⟨hp.1, fun s => ih s (hp.2 s)⟩
  | await q k ih => exact fun r => ih r (hp r)

theorem ret (r : Except ε α) : (Co.ret r : Co σ R ε α).Each A := trivial

theorem lift (r : Except ε α) : (Co.lift r : Co σ R ε α).Each A := trivial

theorem wait (q : Q) : (Co.wait q : Co σ R ε (R q)).Each A := fun _ => trivial

theorem modify {f : σ → σ} (h : ∀ s, A s (f s)) : (Co.modify f : Co σ R ε Unit).Each A :=
  ⟨h, fun _ => trivial⟩

theorem get_bind {f : σ → Co σ R ε α} (h : ∀ s, A s s) (hf : ∀ s, (f s).Each A) :
    (Co.get >>= f).Each A := ⟨h, hf⟩

theorem of_silent (hp : p.Silent) : p.Each A := by
  induction p with
  | ret r => trivial
  | act f k => exact hp.elim
  | await q k ih => exact fun r => ih r (hp r)

theorem mono {B : σ → σ → Prop} (hp : p.Each A) (h : ∀ s t, A s t → B s t) : p.Each B := by
  induction p with
  | ret r => trivial
  | act f k ih => exact ⟨fun s => h _ _ (hp.1 s), fun s => ih s (hp.2 s)⟩
  | await q k ih => exact fun r => ih r (hp r)

theorem tryCatch {h : ε → Co σ R ε α} (hp : p.Each A) (hh : ∀ e, (h e).Each A) :
    (p.tryCatch h).Each A := by
  induction p with
  | ret r =>
    cases r with
    | ok a => trivial
    | error e => exact hh e
  | act f k ih => exact ⟨hp.1, fun s => ih s (hp.2 s)⟩
  | await q k ih => exact fun r => ih r (hp r)

theorem tryFinally {fin : Co σ R ε Unit} (hp : p.Each A) (hfin : fin.Each A) :
    (p.tryFinally fin).Each A := by
  induction p with
  | ret r => exact hfin.bind fun _ => trivial
  | act f k ih => exact ⟨hp.1, fun s => ih s (hp.2 s)⟩
  | await q k ih => exact fun r => ih r (hp r)

theorem run (hp : p.Each A) (s : σ) : Relation.ReflTransGen A s (p.run s).1 := by
  induction p generalizing s with
  | ret r => exact .refl
  | act f k ih => exact .head (hp.1 s) (ih s (hp.2 s) (f s))
  | await q k => exact .refl

theorem ensures (hp : p.Each A) (s : σ) :
    p.Ensures A (fun _ t => Relation.ReflTransGen A s t) s := by
  induction p generalizing s with
  | ret r => exact .refl
  | act f k ih => exact (ih s (hp.2 s) (f s)).mono fun _ _ h => .head (hp.1 s) h
  | await q k ih => exact fun r s' henv => (ih r (hp r) s').mono fun _ _ h => .head henv h

theorem run_waits (hp : p.Each A) {s t : σ} {q : Q} {k : Except ε (R q) → Co σ R ε α}
    (h : p.run s = (t, .waits q k)) (r : Except ε (R q)) : (k r).Each A := by
  induction p generalizing s with
  | ret r => cases h
  | act f k ih => exact ih s (hp.2 s) h
  | await q k =>
    cases h
    exact hp r

end Each

/-- However the task is answered, it never makes a request of the kind `bad`. -/
def Avoids (bad : Q → Prop) : Co σ R ε α → Prop
  | .ret _ => True
  | .act _ k => ∀ s, (k s).Avoids bad
  | .await q k => ¬ bad q ∧ ∀ r, (k r).Avoids bad

theorem Avoids.run_waits {bad : Q → Prop} {p : Co σ R ε α} (hp : p.Avoids bad) {s t : σ} {q : Q}
    {k : Except ε (R q) → Co σ R ε α} (h : p.run s = (t, .waits q k)) :
    ¬ bad q ∧ ∀ r, (k r).Avoids bad := by
  induction p generalizing s with
  | ret r => cases h
  | act f k ih => exact ih s (hp s) h
  | await q k =>
    cases h
    exact hp

end Amidst

end Co

structure Suspended (σ : Type) {Q : Type} (R : Q → Type) (ε : Type) where
  request : Q
  resume : Except ε (R request) → Co σ R ε Unit

def Co.Stop.suspended {σ Q : Type} {R : Q → Type} {ε : Type} :
    Co.Stop σ R ε Unit → Option (Suspended σ R ε)
  | .done _ => none
  | .waits q k => some ⟨q, k⟩

/-- A shared state, any number of tasks that wait, and one serial loop that takes
its next item only when the last one is finished. -/
structure Machine (σ : Type) {Q : Type} (R : Q → Type) (ε : Type) where
  state : σ
  tasks : List (Suspended σ R ε)
  loop : Option (Suspended σ R ε)

namespace Machine

variable {σ Q : Type} {R : Q → Type} {ε : Type}

/-- The programs a machine may start, in the state it is in, and the answers the
outside may give. -/
structure Interface (σ : Type) {Q : Type} (R : Q → Type) (ε : Type) where
  Task : σ → Co σ R ε Unit → Prop
  Item : σ → Co σ R ε Unit → Prop
  Answer : σ → (q : Q) → Except ε (R q) → Prop

variable (I : Interface σ R ε)

inductive Step : Machine σ R ε → Machine σ R ε → Prop
  | spawn {m : Machine σ R ε} (p : Co σ R ε Unit) (hp : I.Task m.state p) :
      Step m { m with
        state := (p.run m.state).1
        tasks := m.tasks ++ (p.run m.state).2.suspended.toList }
  | resume {m : Machine σ R ε} {pre post : List (Suspended σ R ε)} {t : Suspended σ R ε}
      (r : Except ε (R t.request)) (ht : m.tasks = pre ++ t :: post)
      (hr : I.Answer m.state t.request r) :
      Step m { m with
        state := ((t.resume r).run m.state).1
        tasks := pre ++ post ++ ((t.resume r).run m.state).2.suspended.toList }
  | item {m : Machine σ R ε} (p : Co σ R ε Unit) (hidle : m.loop = none)
      (hp : I.Item m.state p) :
      Step m { m with
        state := (p.run m.state).1
        loop := (p.run m.state).2.suspended }
  | goOn {m : Machine σ R ε} {t : Suspended σ R ε} (r : Except ε (R t.request))
      (ht : m.loop = some t) (hr : I.Answer m.state t.request r) :
      Step m { m with
        state := ((t.resume r).run m.state).1
        loop := ((t.resume r).run m.state).2.suspended }

inductive Crash : Machine σ R ε → σ → Prop
  | idle {m : Machine σ R ε} : Crash m m.state
  | spawn {m : Machine σ R ε} {p : Co σ R ε Unit} {t : σ} (hp : I.Task m.state p)
      (h : p.Mid m.state t) : Crash m t
  | resume {m : Machine σ R ε} {t : Suspended σ R ε} {t' : σ} (r : Except ε (R t.request))
      (ht : t ∈ m.tasks) (hr : I.Answer m.state t.request r)
      (h : (t.resume r).Mid m.state t') : Crash m t'
  | item {m : Machine σ R ε} {p : Co σ R ε Unit} {t : σ} (hidle : m.loop = none)
      (hp : I.Item m.state p) (h : p.Mid m.state t) : Crash m t
  | goOn {m : Machine σ R ε} {t : Suspended σ R ε} {t' : σ} (r : Except ε (R t.request))
      (ht : m.loop = some t) (hr : I.Answer m.state t.request r)
      (h : (t.resume r).Mid m.state t') : Crash m t'

def idle (s : σ) : Machine σ R ε := ⟨s, [], none⟩

/-- A machine that may also stop at any point and start again from `reboot`. -/
inductive Life (reboot : σ → σ) : Machine σ R ε → Machine σ R ε → Prop
  | step {m m' : Machine σ R ε} (h : Step I m m') : Life reboot m m'
  | restart {m : Machine σ R ε} {t : σ} (h : Crash I m t) : Life reboot m (idle (reboot t))

inductive Turn (σ : Type) {Q : Type} (R : Q → Type) (ε : Type) where
  | spawn (p : Co σ R ε Unit)
  | resume
  | item (p : Co σ R ε Unit)
  | goOn

/-- Take a turn, with the answers as the state has them. A turn that cannot be taken
is passed. -/
def turn (answer : σ → (q : Q) → Except ε (R q)) (m : Machine σ R ε) :
    Turn σ R ε → Machine σ R ε
  | .spawn p =>
    let out := p.run m.state
    { m with state := out.1, tasks := m.tasks ++ out.2.suspended.toList }
  | .resume =>
    match m.tasks with
    | [] => m
    | t :: ts =>
      let out := (t.resume (answer m.state t.request)).run m.state
      { m with state := out.1, tasks := ts ++ out.2.suspended.toList }
  | .item p =>
    match m.loop with
    | some _ => m
    | none =>
      let out := p.run m.state
      { m with state := out.1, loop := out.2.suspended }
  | .goOn =>
    match m.loop with
    | none => m
    | some t =>
      let out := (t.resume (answer m.state t.request)).run m.state
      { m with state := out.1, loop := out.2.suspended }

def turns (answer : σ → (q : Q) → Except ε (R q)) (m : Machine σ R ε) (ts : List (Turn σ R ε)) :
    Machine σ R ε := ts.foldl (turn answer) m

def Turn.Allowed : Turn σ R ε → Prop
  | .spawn p => ∀ s, I.Task s p
  | .item p => ∀ s, I.Item s p
  | .resume => True
  | .goOn => True

theorem turn_run {answer : σ → (q : Q) → Except ε (R q)} (hanswer : ∀ s q, I.Answer s q (answer s q))
    (m : Machine σ R ε) {t : Turn σ R ε} (ht : t.Allowed I) :
    Relation.ReflTransGen (Step I) m (m.turn answer t) := by
  cases t with
  | spawn p => exact .single (.spawn p (ht _))
  | resume =>
    rw [turn]
    split
    · exact .refl
    · rename_i t ts hts
      have hsplit : m.tasks = [] ++ t :: ts := hts
      exact .single (.resume _ hsplit (hanswer _ _))
  | item p =>
    rw [turn]
    split
    · exact .refl
    · rename_i hidle
      exact .single (.item p hidle (ht _))
  | goOn =>
    rw [turn]
    split
    · exact .refl
    · rename_i t hloop
      exact .single (.goOn _ hloop (hanswer _ _))

theorem turns_run {answer : σ → (q : Q) → Except ε (R q)} (hanswer : ∀ s q, I.Answer s q (answer s q))
    (m : Machine σ R ε) {ts : List (Turn σ R ε)} (hts : ∀ t ∈ ts, t.Allowed I) :
    Relation.ReflTransGen (Step I) m (m.turns answer ts) := by
  induction ts generalizing m with
  | nil => exact .refl
  | cons t ts ih =>
    refine (turn_run I hanswer m (hts t List.mem_cons_self)).trans ?_
    exact ih _ fun t' ht' => hts t' (List.mem_cons_of_mem _ ht')

section Sound

variable {I} {Trans Part : σ → σ → Prop} {Waits Waits' : Q → Prop}

def Ready (Trans Part : σ → σ → Prop) (Waits : Q → Prop) (s : σ) (t : Suspended σ R ε) : Prop :=
  Waits t.request ∧ ∀ r s', Relation.ReflTransGen Trans s s' →
    (t.resume r).Safe Trans Part Waits (fun _ _ => True) s' s'

theorem Ready.later {s s' : σ} {t : Suspended σ R ε} (h : Ready Trans Part Waits s t)
    (hs : Relation.ReflTransGen Trans s s') : Ready Trans Part Waits s' t :=
  ⟨h.1, fun r _ h' => h.2 r _ (hs.trans h')⟩

theorem ready_run {p : Co σ R ε Unit} {s : σ} {t : Suspended σ R ε}
    (hp : p.Safe Trans Part Waits (fun _ _ => True) s s)
    (ht : (p.run s).2.suspended = some t) : Ready Trans Part Waits (p.run s).1 t := by
  have h := hp.run.2
  cases hstop : (p.run s).2 with
  | done r => simp [hstop, Co.Stop.suspended] at ht
  | waits q k =>
    rw [hstop] at h ht
    cases ht
    exact h

structure AllReady (Trans Part : σ → σ → Prop) (Waits Waits' : Q → Prop)
    (m : Machine σ R ε) : Prop where
  tasks : ∀ t ∈ m.tasks, Ready Trans Part Waits m.state t
  loop : ∀ t, m.loop = some t → Ready Trans Part Waits' m.state t

structure SafeInterface (I : Interface σ R ε) (Trans Part : σ → σ → Prop)
    (Waits Waits' : Q → Prop) : Prop where
  task : ∀ s p, I.Task s p → p.Safe Trans Part Waits (fun _ _ => True) s s
  item : ∀ s p, I.Item s p → p.Safe Trans Part Waits' (fun _ _ => True) s s

theorem allReady_idle (s : σ) : AllReady Trans Part Waits Waits' (idle s : Machine σ R ε) :=
  ⟨fun _ h => absurd h List.not_mem_nil, fun _ h => nomatch h⟩

theorem AllReady.tasks_run {m : Machine σ R ε} {p : Co σ R ε Unit} {ts : List (Suspended σ R ε)}
    (h : AllReady Trans Part Waits Waits' m)
    (hp : p.Safe Trans Part Waits (fun _ _ => True) m.state m.state) (hts : ts ⊆ m.tasks) :
    AllReady Trans Part Waits Waits' { m with
      state := (p.run m.state).1
      tasks := ts ++ (p.run m.state).2.suspended.toList } := by
  refine ⟨fun t ht => ?_, fun t ht => (h.loop t ht).later hp.run.1⟩
  rcases List.mem_append.mp ht with ht | ht
  · exact (h.tasks t (hts ht)).later hp.run.1
  · exact ready_run hp (Option.mem_toList.mp ht)

theorem AllReady.loop_run {m : Machine σ R ε} {p : Co σ R ε Unit}
    (h : AllReady Trans Part Waits Waits' m)
    (hp : p.Safe Trans Part Waits' (fun _ _ => True) m.state m.state) :
    AllReady Trans Part Waits Waits' { m with
      state := (p.run m.state).1
      loop := (p.run m.state).2.suspended } :=
  ⟨fun t ht => (h.tasks t ht).later hp.run.1, fun _ ht => ready_run hp ht⟩

theorem Step.sound {m m' : Machine σ R ε} (hI : SafeInterface I Trans Part Waits Waits')
    (hm : AllReady Trans Part Waits Waits' m) (h : Step I m m') :
    AllReady Trans Part Waits Waits' m' ∧ Relation.ReflTransGen Trans m.state m'.state := by
  cases h with
  | spawn p hp =>
    have hs := hI.task _ p hp
    exact ⟨hm.tasks_run hs (List.Subset.refl _), hs.run.1⟩
  | resume r ht hr =>
    have hs := (hm.tasks _ (by simp [ht])).2 r _ .refl
    refine ⟨hm.tasks_run hs ?_, hs.run.1⟩
    intro x hx
    rw [ht]
    rcases List.mem_append.mp hx with hx | hx
    · exact List.mem_append_left _ hx
    · exact List.mem_append_right _ (List.mem_cons_of_mem _ hx)
  | item p _ hp =>
    have hs := hI.item _ p hp
    exact ⟨hm.loop_run hs, hs.run.1⟩
  | goOn r ht hr =>
    have hs := (hm.loop _ ht).2 r _ .refl
    exact ⟨hm.loop_run hs, hs.run.1⟩

theorem run_sound {m₀ m : Machine σ R ε} (hI : SafeInterface I Trans Part Waits Waits')
    (hm : AllReady Trans Part Waits Waits' m₀) (h : Relation.ReflTransGen (Step I) m₀ m) :
    AllReady Trans Part Waits Waits' m ∧ Relation.ReflTransGen Trans m₀.state m.state := by
  induction h with
  | refl => exact ⟨hm, .refl⟩
  | tail _ hstep ih =>
    obtain ⟨hready, hsteps⟩ := hstep.sound hI ih.1
    exact ⟨hready, ih.2.trans hsteps⟩

theorem Crash.sound {m : Machine σ R ε} {t : σ} (hI : SafeInterface I Trans Part Waits Waits')
    (hm : AllReady Trans Part Waits Waits' m) (h : Crash I m t) :
    Co.Amid Trans Part m.state t := by
  have hrefl : Co.Amid Trans Part m.state m.state := .of_steps .refl
  cases h with
  | idle => exact hrefl
  | spawn hp h => exact (hI.task _ _ hp).mid hrefl h
  | resume r ht hr h => exact ((hm.tasks _ ht).2 r _ .refl).mid hrefl h
  | item _ hp h => exact (hI.item _ _ hp).mid hrefl h
  | goOn r ht hr h => exact ((hm.loop _ ht).2 r _ .refl).mid hrefl h

def Lives (Trans Part : σ → σ → Prop) (reboot : σ → σ) (s s' : σ) : Prop :=
  Trans s s' ∨ ∃ t, (t = s ∨ Part s t) ∧ s' = reboot t

theorem life_sound {reboot : σ → σ} {m₀ m : Machine σ R ε}
    (hI : SafeInterface I Trans Part Waits Waits') (hm : AllReady Trans Part Waits Waits' m₀)
    (h : Relation.ReflTransGen (Life I reboot) m₀ m) :
    AllReady Trans Part Waits Waits' m ∧
      Relation.ReflTransGen (Lives Trans Part reboot) m₀.state m.state := by
  induction h with
  | refl => exact ⟨hm, .refl⟩
  | tail _ hstep ih =>
    cases hstep with
    | step h =>
      obtain ⟨hready, hsteps⟩ := h.sound hI ih.1
      exact ⟨hready, ih.2.trans (Relation.ReflTransGen.mono (fun _ _ => Or.inl) _ _ hsteps)⟩
    | restart h =>
      obtain ⟨s₁, hsteps, hpart⟩ := h.sound hI ih.1
      refine ⟨allReady_idle _, (ih.2.trans ?_).tail (.inr ⟨_, hpart, rfl⟩)⟩
      exact Relation.ReflTransGen.mono (fun _ _ => Or.inl) _ _ hsteps

end Sound

end Machine
