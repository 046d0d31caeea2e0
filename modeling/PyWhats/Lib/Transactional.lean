import Mathlib.Logic.Basic

/-! One connection to a database file: statements that may fail, scripts of
statements, and a crash between any two of them. A script is described by what it
makes of the file when it returns, when it raises and when it is cut off. -/

namespace Transactional

variable {T ε α β : Type}

/-- The committed file and, inside a transaction, what would be committed. -/
structure Db (T : Type) where
  file : T
  pending : Option T := none

def Db.tables (db : Db T) : T := db.pending.getD db.file

def Db.store (db : Db T) (t : T) : Db T :=
  match db.pending with
  | none => ⟨t, none⟩
  | some _ => ⟨db.file, some t⟩

@[simp] theorem Db.tables_idle (t : T) : (⟨t, none⟩ : Db T).tables = t := rfl

@[simp] theorem Db.tables_pending (t u : T) : (⟨t, some u⟩ : Db T).tables = u := rfl

@[simp] theorem Db.store_idle (t u : T) : (⟨t, none⟩ : Db T).store u = ⟨u, none⟩ := rfl

@[simp] theorem Db.store_pending (t u v : T) : (⟨t, some u⟩ : Db T).store v = ⟨t, some v⟩ := rfl

inductive Statement (T ε : Type) where
  | update (f : T → Except ε T)
  | start
  | commit
  | rollback

/-- What a statement answers and leaves, where `refused` is the error of a transaction
statement out of place. Any statement but a rollback may also fail for an outside
reason, which sometimes ends the transaction as well. -/
inductive Exec (refused : ε) : Db T → Statement T ε → Except ε T → Db T → Prop
  | update {db : Db T} {f : T → Except ε T} {t : T} :
      f db.tables = .ok t → Exec refused db (.update f) (.ok t) (db.store t)
  | updateError {db : Db T} {f : T → Except ε T} {e : ε} :
      f db.tables = .error e → Exec refused db (.update f) (.error e) db
  | start {t : T} : Exec refused ⟨t, none⟩ .start (.ok t) ⟨t, some t⟩
  | startRefused {t u : T} : Exec refused ⟨t, some u⟩ .start (.error refused) ⟨t, some u⟩
  | commit {t u : T} : Exec refused ⟨t, some u⟩ .commit (.ok u) ⟨u, none⟩
  | commitRefused {t : T} : Exec refused ⟨t, none⟩ .commit (.error refused) ⟨t, none⟩
  | rollback {t u : T} : Exec refused ⟨t, some u⟩ .rollback (.ok t) ⟨t, none⟩
  | rollbackRefused {t : T} : Exec refused ⟨t, none⟩ .rollback (.error refused) ⟨t, none⟩
  | fault {db : Db T} {s : Statement T ε} (e : ε) :
      s ≠ .rollback → Exec refused db s (.error e) db
  | spoiled {db : Db T} {s : Statement T ε} (e : ε) :
      s ≠ .rollback → Exec refused db s (.error e) ⟨db.file, none⟩

inductive Script (T ε α : Type) where
  | ret (r : Except ε α)
  | exec (s : Statement T ε) (next : Except ε T → Script T ε α)

namespace Script

protected def bind : Script T ε α → (α → Script T ε β) → Script T ε β
  | ret (.ok a), f => f a
  | ret (.error e), _ => ret (.error e)
  | exec s next, f => exec s fun r => (next r).bind f

instance : Monad (Script T ε) where
  pure a := ret (.ok a)
  bind := Script.bind

def raise (e : ε) : Script T ε α := ret (.error e)

def tryCatch : Script T ε α → (ε → Script T ε α) → Script T ε α
  | ret (.ok a), _ => ret (.ok a)
  | ret (.error e), handler => handler e
  | exec s next, handler => exec s fun r => (next r).tryCatch handler

def statement (s : Statement T ε) : Script T ε T := exec s ret

/-- A query: it reads what this connection sees. -/
def select : Script T ε T := statement (.update .ok)

def write (f : T → Except ε T) : Script T ε Unit :=
  exec (.update f) fun r => ret (r.map fun _ => ())

def transaction (body : Script T ε α) : Script T ε α := do
  let _ ← statement .start
  tryCatch (do let a ← body; let _ ← statement .commit; return a) fun e => do
    let _ ← statement .rollback
    raise e

/-- What the script does to the tables of an open transaction when nothing fails
from outside. -/
def within (refused : ε) : Script T ε α → T → Except ε (α × T)
  | ret r, t => r.map (·, t)
  | exec (.update f) next, t =>
    match f t with
    | .ok u => (next (.ok u)).within refused u
    | .error e => (next (.error e)).within refused t
  | exec _ next, t => (next (.error refused)).within refused t

/-- The script catches no error and closes no transaction that was open before it. -/
inductive Plain : Script T ε α → Prop
  | ret (r : Except ε α) : Plain (ret r)
  | update (f : T → Except ε T) {next : Except ε T → Script T ε α} :
      (∀ t, Plain (next (.ok t))) → (∀ e, next (.error e) = .ret (.error e)) →
      Plain (exec (.update f) next)
  | start {next : Except ε T → Script T ε α} :
      (∀ e, next (.error e) = .ret (.error e)) → Plain (exec .start next)

end Script

inductive Outcome (ε α : Type) where
  | ended (r : Except ε α)
  | crashed

/-- A run of a script up to its end or to a crash. -/
inductive Run (refused : ε) : Db T → Script T ε α → Outcome ε α → Db T → Prop
  | ret {db : Db T} (r : Except ε α) : Run refused db (.ret r) (.ended r) db
  | crash {db : Db T} {p : Script T ε α} : Run refused db p .crashed db
  | exec {db db' db'' : Db T} {s : Statement T ε} {r : Except ε T}
      {next : Except ε T → Script T ε α} {o : Outcome ε α} :
      Exec refused db s r db' → Run refused db' (next r) o db'' →
      Run refused db (.exec s next) o db''

section Plain

variable {refused : ε} {db db' : Db T} {p : Script T ε α} {o : Outcome ε α}

theorem Script.Plain.bind {f : α → Script T ε β} (h : p.Plain) (hf : ∀ a, (f a).Plain) :
    (p.bind f).Plain := by
  induction h with
  | ret r =>
    cases r with
    | ok a => exact hf a
    | error e => exact .ret _
  | update g _ herror ih =>
    exact .update g ih fun e => by rw [herror e, Script.bind]
  | start herror => exact .start fun e => by rw [herror e, Script.bind]

theorem Script.plain_write (f : T → Except ε T) : (Script.write f : Script T ε Unit).Plain :=
  .update f (fun _ => .ret _) fun _ => rfl

theorem Script.plain_select : (Script.select : Script T ε T).Plain :=
  .update _ (fun _ => .ret _) fun _ => rfl

theorem Script.within_bind (p : Script T ε α) (f : α → Script T ε β) (t : T) :
    (p.bind f).within refused t =
      (p.within refused t).bind fun r => (f r.1).within refused r.2 := by
  induction p generalizing t with
  | ret r => cases r <;> rfl
  | exec s next ih =>
    cases s with
    | update g =>
      cases hg : g t with
      | ok u => simp only [Script.bind, Script.within, hg, ih]
      | error e => simp only [Script.bind, Script.within, hg, ih]
    | start | commit | rollback => simp only [Script.bind, Script.within, ih]

theorem Script.within_bind_ok {f : α → Script T ε β} {a : α} {t u : T}
    (h : p.within refused t = .ok (a, u)) :
    (p.bind f).within refused t = (f a).within refused u := by
  rw [within_bind, h]
  rfl

theorem Script.within_bind_inv {f : α → Script T ε β} {b : β} {t u : T}
    (h : (p.bind f).within refused t = .ok (b, u)) :
    ∃ a v, p.within refused t = .ok (a, v) ∧ (f a).within refused v = .ok (b, u) := by
  cases hp : p.within refused t with
  | error e =>
    rw [within_bind, hp] at h
    cases h
  | ok r => exact ⟨r.1, r.2, rfl, (within_bind_ok hp).symm.trans h⟩

theorem Script.within_write (f : T → Except ε T) (t : T) :
    (Script.write f).within refused t = (f t).map fun u => ((), u) := by
  cases hf : f t <;> simp only [Script.write, Script.within, hf] <;> rfl

theorem Run.ret_inv {r : Except ε α} (h : Run refused db (.ret r) o db') :
    db' = db ∧ (o = .ended r ∨ o = .crashed) := by
  cases h with
  | ret => exact ⟨rfl, Or.inl rfl⟩
  | crash => exact ⟨rfl, Or.inr rfl⟩

/-- A raised error as the rest of a run. -/
theorem Run.raised_inv {e : ε} (h : Run refused db (.ret (.error e) : Script T ε α) o db') :
    db' = db ∧ ∀ a, o ≠ .ended (.ok a) := by
  obtain ⟨rfl, rfl | rfl⟩ := h.ret_inv
  · exact ⟨rfl, fun a ha => by cases ha⟩
  · exact ⟨rfl, fun a ha => by cases ha⟩

/-- Inside a transaction a plain script does not reach the file, and what it returns
and leaves to be committed is its effect. -/
theorem Script.Plain.run (h : p.Plain) {file t : T} (hrun : Run refused ⟨file, some t⟩ p o db') :
    db'.file = file ∧ ∀ a, o = .ended (.ok a) →
      ∃ t', db' = ⟨file, some t'⟩ ∧ p.within refused t = .ok (a, t') := by
  induction h generalizing t with
  | ret r =>
    obtain ⟨rfl, ho | ho⟩ := hrun.ret_inv
    · refine ⟨rfl, fun a ha => ⟨t, rfl, ?_⟩⟩
      rw [ho] at ha
      cases ha
      rfl
    · refine ⟨rfl, fun a ha => ?_⟩
      rw [ho] at ha
      cases ha
  | update f _ herror ih =>
    cases hrun with
    | crash => exact ⟨rfl, fun a ha => by cases ha⟩
    | exec hexec hrest =>
      cases hexec with
      | update hf =>
        have hwithin := ih _ hrest
        simp only [Db.tables_pending] at hf
        simpa only [Script.within, hf] using hwithin
      | updateError hf =>
        rw [herror] at hrest
        obtain ⟨rfl, hne⟩ := hrest.raised_inv
        exact ⟨rfl, fun a ha => absurd ha (hne a)⟩
      | fault e _ | spoiled e _ =>
        rw [herror] at hrest
        obtain ⟨rfl, hne⟩ := hrest.raised_inv
        exact ⟨rfl, fun a ha => absurd ha (hne a)⟩
  | start herror =>
    cases hrun with
    | crash => exact ⟨rfl, fun a ha => by cases ha⟩
    | exec hexec hrest =>
      cases hexec with
      | startRefused | fault | spoiled =>
        rw [herror] at hrest
        obtain ⟨rfl, hne⟩ := hrest.raised_inv
        exact ⟨rfl, fun a ha => absurd ha (hne a)⟩

end Plain

section Inversion

variable {refused : ε} {db db' : Db T} {p : Script T ε α}

theorem Run.bind_inv {f : α → Script T ε β} {o : Outcome ε β} (h : Run refused db (p.bind f) o db') :
    (Run refused db p .crashed db' ∧ o = .crashed) ∨
      (∃ e, Run refused db p (.ended (.error e)) db' ∧ o = .ended (.error e)) ∨
      ∃ a db₁, Run refused db p (.ended (.ok a)) db₁ ∧ Run refused db₁ (f a) o db' := by
  induction p generalizing db with
  | ret r =>
    cases r with
    | ok a => exact Or.inr (Or.inr ⟨a, db, .ret _, h⟩)
    | error e =>
      obtain ⟨rfl, rfl | rfl⟩ := h.ret_inv
      · exact Or.inr (Or.inl ⟨e, .ret _, rfl⟩)
      · exact Or.inl ⟨.crash, rfl⟩
  | exec s next ih =>
    cases h with
    | crash => exact Or.inl ⟨.crash, rfl⟩
    | exec hexec hrest =>
      rcases ih _ hrest with ⟨hrun, ho⟩ | ⟨e, hrun, ho⟩ | ⟨a, db₁, hrun, hrest⟩
      · exact Or.inl ⟨.exec hexec hrun, ho⟩
      · exact Or.inr (Or.inl ⟨e, .exec hexec hrun, ho⟩)
      · exact Or.inr (Or.inr ⟨a, db₁, .exec hexec hrun, hrest⟩)

theorem Run.tryCatch_inv {handler : ε → Script T ε α} {o : Outcome ε α}
    (h : Run refused db (p.tryCatch handler) o db') :
    (Run refused db p .crashed db' ∧ o = .crashed) ∨
      (∃ a, Run refused db p (.ended (.ok a)) db' ∧ o = .ended (.ok a)) ∨
      ∃ e db₁, Run refused db p (.ended (.error e)) db₁ ∧ Run refused db₁ (handler e) o db' := by
  induction p generalizing db with
  | ret r =>
    cases r with
    | ok a =>
      obtain ⟨rfl, rfl | rfl⟩ := h.ret_inv
      · exact Or.inr (Or.inl ⟨a, .ret _, rfl⟩)
      · exact Or.inl ⟨.crash, rfl⟩
    | error e => exact Or.inr (Or.inr ⟨e, db, .ret _, h⟩)
  | exec s next ih =>
    cases h with
    | crash => exact Or.inl ⟨.crash, rfl⟩
    | exec hexec hrest =>
      rcases ih _ hrest with ⟨hrun, ho⟩ | ⟨a, hrun, ho⟩ | ⟨e, db₁, hrun, hrest⟩
      · exact Or.inl ⟨.exec hexec hrun, ho⟩
      · exact Or.inr (Or.inl ⟨a, .exec hexec hrun, ho⟩)
      · exact Or.inr (Or.inr ⟨e, db₁, .exec hexec hrun, hrest⟩)

/-- A commit, and nothing after it. -/
theorem Run.commit_inv {a : α} {t u : T} {o : Outcome ε α}
    (h : Run refused ⟨t, some u⟩ ((Script.statement .commit).bind fun _ => .ret (.ok a)) o db') :
    (db' = ⟨u, none⟩ ∧ (o = .ended (.ok a) ∨ o = .crashed)) ∨
      (db'.file = t ∧ (o = .crashed ∨ ∃ e, o = .ended (.error e))) := by
  cases h with
  | crash => exact Or.inr ⟨rfl, Or.inl rfl⟩
  | exec hexec hrest =>
    cases hexec with
    | commit => exact Or.inl (Run.ret_inv hrest)
    | fault e _ | spoiled e _ =>
      obtain ⟨rfl, ho⟩ := Run.ret_inv hrest
      refine Or.inr ⟨rfl, ?_⟩
      rcases ho with ho | ho
      · exact Or.inr ⟨e, ho⟩
      · exact Or.inl ho

/-- Whatever a rollback meets, the file stays and the error goes on. -/
theorem Run.rollback_inv {e : ε} {o : Outcome ε α}
    (h : Run refused db ((Script.statement .rollback).bind fun _ => Script.raise e) o db') :
    db'.file = db.file ∧ (o = .crashed ∨ (db'.pending = none ∧ ∃ e', o = .ended (.error e'))) := by
  cases h with
  | crash => exact ⟨rfl, Or.inl rfl⟩
  | exec hexec hrest =>
    cases hexec with
    | rollback | rollbackRefused =>
      obtain ⟨rfl, ho⟩ := Run.ret_inv hrest
      refine ⟨rfl, ?_⟩
      rcases ho with ho | ho
      · exact Or.inr ⟨rfl, _, ho⟩
      · exact Or.inl ho
    | fault e h | spoiled e h => exact absurd rfl h

theorem Run.transaction_inv {t : T} {o : Outcome ε α} (hp : p.Plain)
    (h : Run refused ⟨t, none⟩ (Script.transaction p) o db') :
    (∃ a u, p.within refused t = .ok (a, u) ∧ db' = ⟨u, none⟩ ∧
        (o = .ended (.ok a) ∨ o = .crashed)) ∨
      (db'.file = t ∧ (o = .crashed ∨ (db'.pending = none ∧ ∃ e, o = .ended (.error e)))) := by
  have hafter : ∀ {db₁ : Db T} {e : ε}, db₁.file = t →
      Run refused db₁ ((Script.statement .rollback).bind fun _ => Script.raise e) o db' →
      db'.file = t ∧ (o = .crashed ∨ (db'.pending = none ∧ ∃ e, o = .ended (.error e))) := by
    intro db₁ e hfile hrun
    obtain ⟨hkept, ho⟩ := hrun.rollback_inv
    exact ⟨hkept.trans hfile, ho⟩
  cases h with
  | crash => exact Or.inr ⟨rfl, Or.inl rfl⟩
  | exec hexec hrest =>
    cases hexec with
    | fault e _ | spoiled e _ =>
      obtain ⟨rfl, ho | ho⟩ := hrest.ret_inv
      · exact Or.inr ⟨rfl, Or.inr ⟨rfl, e, ho⟩⟩
      · exact Or.inr ⟨rfl, Or.inl ho⟩
    | start =>
      rcases Run.tryCatch_inv hrest with ⟨hbody, ho⟩ | ⟨a, hbody, ho⟩ | ⟨e, db₁, hbody, hroll⟩
      · rcases hbody.bind_inv with ⟨hrun, _⟩ | ⟨e, _, he⟩ | ⟨a, db₁, hrun, hcommit⟩
        · exact Or.inr ⟨(hp.run hrun).1, Or.inl ho⟩
        · cases he
        · obtain ⟨u, rfl, hwithin⟩ := (hp.run hrun).2 a rfl
          rcases hcommit.commit_inv with ⟨hdb, _⟩ | ⟨hfile, _⟩
          · exact Or.inl ⟨a, u, hwithin, hdb, Or.inr ho⟩
          · exact Or.inr ⟨hfile, Or.inl ho⟩
      · rcases hbody.bind_inv with ⟨_, he⟩ | ⟨e, _, he⟩ | ⟨a', db₁, hrun, hcommit⟩
        · cases he
        · cases he
        · obtain ⟨u, rfl, hwithin⟩ := (hp.run hrun).2 a' rfl
          rcases hcommit.commit_inv with ⟨hdb, ha | ha⟩ | ⟨_, ha | ⟨e, ha⟩⟩
          · cases ha
            exact Or.inl ⟨a, u, hwithin, hdb, Or.inl ho⟩
          · cases ha
          · cases ha
          · cases ha
      · refine Or.inr (hafter ?_ hroll)
        rcases hbody.bind_inv with ⟨_, he⟩ | ⟨e', hrun, _⟩ | ⟨a, db₂, hrun, hcommit⟩
        · cases he
        · exact (hp.run hrun).1
        · obtain ⟨u, rfl, _⟩ := (hp.run hrun).2 a rfl
          rcases hcommit.commit_inv with ⟨_, ha | ha⟩ | ⟨hfile, _⟩
          · cases ha
          · cases ha
          · exact hfile

end Inversion

section Perform

/-- The run in which nothing fails from outside. -/
def Script.perform (refused : ε) : Script T ε α → Db T → Except ε α × Db T
  | ret r, db => (r, db)
  | exec (.update f) next, db =>
    match f db.tables with
    | .ok t => (next (.ok t)).perform refused (db.store t)
    | .error e => (next (.error e)).perform refused db
  | exec .start next, db =>
    match db.pending with
    | none => (next (.ok db.file)).perform refused ⟨db.file, some db.file⟩
    | some _ => (next (.error refused)).perform refused db
  | exec .commit next, db =>
    match db.pending with
    | none => (next (.error refused)).perform refused db
    | some t => (next (.ok t)).perform refused ⟨t, none⟩
  | exec .rollback next, db =>
    match db.pending with
    | none => (next (.error refused)).perform refused db
    | some _ => (next (.ok db.file)).perform refused ⟨db.file, none⟩

variable {refused : ε} {p : Script T ε α}

theorem Script.run_perform (p : Script T ε α) (db : Db T) :
    Run refused db p (.ended (p.perform refused db).1) (p.perform refused db).2 := by
  induction p generalizing db with
  | ret r => exact .ret r
  | exec s next ih =>
    obtain ⟨file, pending⟩ := db
    cases s with
    | update f =>
      rw [Script.perform]
      cases hf : f (Db.tables ⟨file, pending⟩) with
      | ok t => exact .exec (.update hf) (ih _ _)
      | error e => exact .exec (.updateError hf) (ih _ _)
    | start =>
      cases pending with
      | none => exact .exec .start (ih _ _)
      | some t => exact .exec .startRefused (ih _ _)
    | commit =>
      cases pending with
      | none => exact .exec .commitRefused (ih _ _)
      | some t => exact .exec .commit (ih _ _)
    | rollback =>
      cases pending with
      | none => exact .exec .rollbackRefused (ih _ _)
      | some t => exact .exec .rollback (ih _ _)

theorem Script.perform_bind_ok {f : α → Script T ε β} {a : α} {db db' : Db T}
    (h : p.perform refused db = (.ok a, db')) :
    (p.bind f).perform refused db = (f a).perform refused db' := by
  induction p generalizing db with
  | ret r =>
    cases h
    rfl
  | exec s next ih =>
    obtain ⟨file, pending⟩ := db
    cases s with
    | update g =>
      simp only [Script.bind, Script.perform] at h ⊢
      cases hg : g (Db.tables ⟨file, pending⟩) with
      | ok t =>
        rw [hg] at h
        exact ih _ h
      | error e =>
        rw [hg] at h
        exact ih _ h
    | start | commit | rollback => cases pending <;> exact ih _ h

theorem Script.perform_tryCatch_ok {handler : ε → Script T ε α} {a : α} {db db' : Db T}
    (h : p.perform refused db = (.ok a, db')) :
    (p.tryCatch handler).perform refused db = (.ok a, db') := by
  induction p generalizing db with
  | ret r =>
    cases h
    rfl
  | exec s next ih =>
    obtain ⟨file, pending⟩ := db
    cases s with
    | update g =>
      simp only [Script.tryCatch, Script.perform] at h ⊢
      cases hg : g (Db.tables ⟨file, pending⟩) with
      | ok t =>
        rw [hg] at h
        exact ih _ h
      | error e =>
        rw [hg] at h
        exact ih _ h
    | start | commit | rollback => cases pending <;> exact ih _ h

theorem Script.Plain.perform (hp : p.Plain) {file t u : T} {a : α}
    (h : p.within refused t = .ok (a, u)) :
    p.perform refused ⟨file, some t⟩ = (.ok a, ⟨file, some u⟩) := by
  induction hp generalizing t with
  | ret r =>
    cases r with
    | ok b =>
      cases h
      rfl
    | error e => cases h
  | @update f next _ herror ih =>
    rw [Script.within] at h
    rw [Script.perform, Db.tables_pending]
    cases hf : f t with
    | ok v =>
      rw [hf] at h
      exact ih _ h
    | error e =>
      simp only [hf, herror] at h
      cases h
  | @start next herror =>
    rw [Script.within, herror] at h
    · cases h
    · intro f hf
      cases hf

theorem Script.perform_transaction (hp : p.Plain) {t u : T} {a : α}
    (h : p.within refused t = .ok (a, u)) :
    (Script.transaction p).perform refused ⟨t, none⟩ = (.ok a, ⟨u, none⟩) := by
  have hbody : (p.bind fun a => (Script.statement .commit).bind fun _ => .ret (.ok a)).perform
      refused ⟨t, some t⟩ = (.ok a, ⟨u, none⟩) := perform_bind_ok (hp.perform h)
  exact perform_tryCatch_ok hbody

end Perform

section Specs

variable {refused : ε} {p : Script T ε α} {P E C : T → Prop} {Q : α → T → Prop}

/-- From a file with `P` and no open transaction: what is returned and the file then
are as in `Q`, the file is as in `E` after an error and as in `C` after a crash. No
transaction is open at the end. -/
def Meets (refused : ε) (P : T → Prop) (p : Script T ε α) (Q : α → T → Prop) (E C : T → Prop) :
    Prop :=
  ∀ (t : T) (o : Outcome ε α) (db : Db T), P t → Run refused ⟨t, none⟩ p o db →
    match o with
    | .ended (.ok a) => db.pending = none ∧ Q a db.file
    | .ended (.error _) => db.pending = none ∧ E db.file
    | .crashed => C db.file

theorem Meets.bind {f : α → Script T ε β} {R : β → T → Prop} (hp : Meets refused P p Q E C)
    (hf : ∀ a, Meets refused (Q a) (f a) R E C) : Meets refused P (p.bind f) R E C := by
  intro t o db ht hrun
  rcases hrun.bind_inv with ⟨hp₁, rfl⟩ | ⟨e, hp₁, rfl⟩ | ⟨a, ⟨file, pending⟩, hp₁, hrest⟩
  · exact hp t .crashed db ht hp₁
  · exact hp t (.ended (.error e)) db ht hp₁
  · obtain ⟨rfl, ha⟩ := hp t (.ended (.ok a)) _ ht hp₁
    exact hf a file o db ha hrest

theorem Meets.mono {P' E' C' : T → Prop} {Q' : α → T → Prop} (hp : Meets refused P p Q E C)
    (hP : ∀ t, P' t → P t) (hQ : ∀ a t, Q a t → Q' a t) (hE : ∀ t, E t → E' t)
    (hC : ∀ t, C t → C' t) : Meets refused P' p Q' E' C' := by
  intro t o db ht hrun
  have h := hp t o db (hP t ht) hrun
  cases o with
  | ended r =>
    cases r with
    | ok a => exact ⟨h.1, hQ a _ h.2⟩
    | error e => exact ⟨h.1, hE _ h.2⟩
  | crashed => exact hC _ h

theorem meets_ret {a : α} (h : ∀ t, P t → Q a t ∧ C t) : Meets refused P (.ret (.ok a)) Q E C := by
  intro t o db ht hrun
  obtain ⟨rfl, rfl | rfl⟩ := hrun.ret_inv
  · exact ⟨rfl, (h t ht).1⟩
  · exact (h t ht).2

theorem meets_raise {e : ε} (h : ∀ t, P t → E t ∧ C t) :
    Meets refused P (Script.raise e : Script T ε α) Q E C := by
  intro t o db ht hrun
  obtain ⟨rfl, rfl | rfl⟩ := hrun.ret_inv
  · exact ⟨rfl, (h t ht).1⟩
  · exact (h t ht).2

/-- A statement outside a transaction is a transaction of its own. -/
theorem meets_update {f : T → Except ε T} {next : Except ε T → Script T ε α}
    (hkeep : ∀ t, P t → E t ∧ C t) (hraise : ∀ e, next (.error e) = .ret (.error e))
    (hok : ∀ t u, P t → f t = .ok u → Meets refused (· = u) (next (.ok u)) Q E C) :
    Meets refused P (.exec (.update f) next) Q E C := by
  intro t o db ht hrun
  cases hrun with
  | crash => exact (hkeep t ht).2
  | exec hexec hrest =>
    cases hexec with
    | update hf => exact hok _ _ ht hf _ _ _ rfl hrest
    | updateError | fault | spoiled =>
      rw [hraise] at hrest
      exact meets_raise hkeep _ _ _ ht hrest

theorem meets_write {f : T → Except ε T} {Q : Unit → T → Prop}
    (hkeep : ∀ t, P t → E t ∧ C t) (hok : ∀ t u, P t → f t = .ok u → Q () u ∧ C u) :
    Meets refused P (Script.write f) Q E C := by
  refine meets_update hkeep (fun _ => rfl) fun t u ht hf => meets_ret ?_
  rintro _ rfl
  exact hok t _ ht hf

/-- All or nothing: the file is the old one unless the whole body went through. -/
theorem meets_transaction (hp : p.Plain) (hkeep : ∀ t, P t → E t ∧ C t)
    (hok : ∀ t a u, P t → p.within refused t = .ok (a, u) → Q a u ∧ C u) :
    Meets refused P (Script.transaction p) Q E C := by
  intro t o db ht hrun
  rcases hrun.transaction_inv hp with ⟨a, u, hwithin, rfl, rfl | rfl⟩ |
      ⟨rfl, rfl | ⟨hidle, e, rfl⟩⟩
  · exact ⟨rfl, (hok t a u ht hwithin).1⟩
  · exact (hok t a u ht hwithin).2
  · exact (hkeep _ ht).2
  · exact ⟨hidle, (hkeep _ ht).1⟩

end Specs

section Lives

variable {refused : ε} {jobs : Script T ε α → Prop} {I : T → Prop}

/-- The states of a connection over which jobs run one after the other; after a crash
the file is opened again. -/
inductive Life (refused : ε) (jobs : Script T ε α → Prop) (t : T) : Db T → Prop
  | opened : Life refused jobs t ⟨t, none⟩
  | ended {db db' : Db T} {p : Script T ε α} {r : Except ε α} : Life refused jobs t db → jobs p →
      Run refused db p (.ended r) db' → Life refused jobs t db'
  | reopened {db db' : Db T} {p : Script T ε α} : Life refused jobs t db → jobs p →
      Run refused db p .crashed db' → Life refused jobs t ⟨db'.file, none⟩

theorem Life.keeps {t : T} {db : Db T} (hlife : Life refused jobs t db) (ht : I t)
    (hjobs : ∀ p, jobs p → Meets refused I p (fun _ => I) I I) : db.pending = none ∧ I db.file := by
  induction hlife with
  | opened => exact ⟨rfl, ht⟩
  | @ended db db' p r _ hp hrun ih =>
    obtain ⟨file, pending⟩ := db
    obtain ⟨rfl, hfile⟩ := ih
    have h := hjobs p hp file (.ended r) db' hfile hrun
    cases r with
    | ok a => exact h
    | error e => exact h
  | @reopened db db' p _ hp hrun ih =>
    obtain ⟨file, pending⟩ := db
    obtain ⟨rfl, hfile⟩ := ih
    exact ⟨rfl, hjobs p hp file .crashed db' hfile hrun⟩

end Lives

end Transactional
