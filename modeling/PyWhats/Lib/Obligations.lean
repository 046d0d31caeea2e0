import PyWhats.Lib.Conversation

/-! Keys that a state holds and that some task must give up: a task owes a key when it
cannot end while the key is held. If every task takes on what it acquires, all keys
of a machine are owed by tasks that wait. -/

namespace Co

variable {σ Q : Type} {R : Q → Type} {ε α β κ : Type}

section Owes

variable (Inv : σ → Prop) (Answer : σ → (q : Q) → Except ε (R q) → Prop) (Held : σ → κ → Prop)

/-- While the key is held the task goes on, or ends as `E` allows. -/
def Owes (key : κ) (E : Except ε α → Prop) : Co σ R ε α → σ → Prop
  | .ret r, _ => E r
  | .act f k, s => Held (f s) key → (k s).Owes key E (f s)
  | .await q k, _ => ∀ s r, Inv s → Answer s q r → Held s key → (k r).Owes key E s

/-- The task keeps the invariant and owes each key it acquires, up to those that it
leaves to what comes after it. -/
def Keeps (Leaves : Except ε α → κ → Prop) : Co σ R ε α → σ → Prop
  | .ret _, _ => True
  | .act f k, s => Inv s → Inv (f s) ∧
      (∀ key, Held (f s) key → ¬ Held s key →
        (k s).Owes Inv Answer Held key (fun r => Leaves r key) (f s)) ∧ (k s).Keeps Leaves (f s)
  | .await _ k, _ => ∀ s r, (k r).Keeps Leaves s

def Tidy (p : Co σ R ε α) : Prop := ∀ s, p.Keeps Inv Answer Held (fun _ _ => False) s

variable {Inv Answer Held} {key : κ} {E : Except ε α → Prop} {p : Co σ R ε α} {s : σ}

theorem owes_any (h : ∀ r, E r) : p.Owes Inv Answer Held key E s := by
  induction p generalizing s with
  | ret r => exact h r
  | act f k ih => exact fun _ => ih s
  | await q k ih => exact fun _ r _ _ _ => ih r

theorem owes_modify {f : σ → σ} {E : Except ε Unit → Prop} (h : ¬ Held (f s) key) :
    (Co.modify f : Co σ R ε Unit).Owes Inv Answer Held key E s :=
  fun hheld => (h hheld).elim

theorem owes_wait {q : Q} {E : Except ε (R q) → Prop}
    (h : ∀ s r, Inv s → Answer s q r → Held s key → E r) :
    (Co.wait q : Co σ R ε (R q)).Owes Inv Answer Held key E s := h

theorem Owes.bind {f : α → Co σ R ε β} {E' : Except ε β → Prop}
    (hp : p.Owes Inv Answer Held key E s)
    (hok : ∀ a s, E (.ok a) → (f a).Owes Inv Answer Held key E' s)
    (herror : ∀ e, E (.error e) → E' (.error e)) :
    (p >>= f).Owes Inv Answer Held key E' s := by
  induction p generalizing s with
  | ret r =>
    cases r with
    | ok a => exact hok a s hp
    | error e => exact herror e hp
  | act g k ih => exact fun hheld => ih s (hp hheld)
  | await q k ih => exact fun s r hinv hr hheld => ih r (hp s r hinv hr hheld)

theorem Owes.tryCatch {handler : ε → Co σ R ε α} {E' : Except ε α → Prop}
    (hp : p.Owes Inv Answer Held key E s) (hok : ∀ a, E (.ok a) → E' (.ok a))
    (herror : ∀ e s, E (.error e) → (handler e).Owes Inv Answer Held key E' s) :
    (p.tryCatch handler).Owes Inv Answer Held key E' s := by
  induction p generalizing s with
  | ret r =>
    cases r with
    | ok a => exact hok a hp
    | error e => exact herror e s hp
  | act g k ih => exact fun hheld => ih s (hp hheld)
  | await q k ih => exact fun s r hinv hr hheld => ih r (hp s r hinv hr hheld)

/-- What the `finally` block gives up is owed all the time. -/
theorem owes_tryFinally {fin : Co σ R ε Unit}
    (hfin : ∀ s, fin.Owes Inv Answer Held key (fun _ => False) s) :
    (p.tryFinally fin).Owes Inv Answer Held key E s := by
  induction p generalizing s with
  | ret r =>
    have hbind : (fin >>= fun _ => Co.ret r).Owes Inv Answer Held key E s :=
      (hfin s).bind (fun _ _ h => h.elim) fun _ h => h.elim
    exact hbind
  | act g k ih => exact fun _ => ih s
  | await q k ih => exact fun _ r _ _ _ => ih r

theorem Owes.tryFinally {fin : Co σ R ε Unit}
    (hp : p.Owes Inv Answer Held key (fun _ => False) s) :
    (p.tryFinally fin).Owes Inv Answer Held key E s := by
  induction p generalizing s with
  | ret r => exact hp.elim
  | act g k ih => exact fun hheld => ih s (hp hheld)
  | await q k ih => exact fun s r hinv hr hheld => ih r (hp s r hinv hr hheld)

theorem keeps_of_mute {A : σ → σ → Prop} {Leaves : Except ε α → κ → Prop} (hp : p.Mute A)
    (h : ∀ s t, A s t → Inv s → Inv t ∧ ∀ key, Held t key → Held s key) :
    p.Keeps Inv Answer Held Leaves s := by
  induction p generalizing s with
  | ret r => trivial
  | act f k ih =>
    intro hinv
    obtain ⟨hinv', hheld⟩ := h s _ (hp s).1 hinv
    exact ⟨hinv', fun key hnew hnot => (hnot (hheld key hnew)).elim, ih s (hp s).2⟩
  | await q k => exact hp.elim

theorem tidy_wait (q : Q) : (Co.wait q : Co σ R ε (R q)).Tidy Inv Answer Held :=
  fun _ _ _ => trivial

theorem tidy_ret (r : Except ε α) : (Co.ret r : Co σ R ε α).Tidy Inv Answer Held :=
  fun _ => trivial

theorem tidy_ite {c : Prop} [Decidable c] {p' : Co σ R ε α} (hp : p.Tidy Inv Answer Held)
    (hp' : p'.Tidy Inv Answer Held) : (if c then p else p').Tidy Inv Answer Held := by
  split
  · exact hp
  · exact hp'

theorem Keeps.bind {f : α → Co σ R ε β} {Leaves : Except ε α → κ → Prop}
    {Leaves' : Except ε β → κ → Prop} (hp : p.Keeps Inv Answer Held Leaves s)
    (hf : ∀ a s, (f a).Keeps Inv Answer Held Leaves' s)
    (hok : ∀ a key s, Leaves (.ok a) key →
      (f a).Owes Inv Answer Held key (fun r => Leaves' r key) s)
    (herror : ∀ e key, Leaves (.error e) key → Leaves' (.error e) key) :
    (p >>= f).Keeps Inv Answer Held Leaves' s := by
  induction p generalizing s with
  | ret r =>
    cases r with
    | ok a => exact hf a s
    | error e => trivial
  | act g k ih =>
    intro hinv
    obtain ⟨hinv', hnew, hrest⟩ := hp hinv
    refine ⟨hinv', fun key hheld hnot => ?_, ih s hrest⟩
    exact (hnew key hheld hnot).bind (fun a => hok a key) fun e => herror e key
  | await q k ih => exact fun s r => ih r (hp s r)

theorem Tidy.bind {f : α → Co σ R ε β} (hp : p.Tidy Inv Answer Held)
    (hf : ∀ a, (f a).Tidy Inv Answer Held) : (p >>= f).Tidy Inv Answer Held :=
  fun s => (hp s).bind hf (fun _ _ _ h => h.elim) fun _ _ h => h

theorem Keeps.get_bind {f : σ → Co σ R ε α} {Leaves : Except ε α → κ → Prop}
    (hf : (f s).Keeps Inv Answer Held Leaves s) :
    (Co.get >>= f).Keeps Inv Answer Held Leaves s :=
  fun hinv => ⟨hinv, fun _ hheld hnot => (hnot hheld).elim, hf⟩

theorem Tidy.get_bind {f : σ → Co σ R ε α} (hf : ∀ s, (f s).Tidy Inv Answer Held) :
    (Co.get >>= f).Tidy Inv Answer Held := fun s => Keeps.get_bind (hf s s)

theorem Tidy.tryCatch {handler : ε → Co σ R ε α} (hp : p.Tidy Inv Answer Held)
    (hh : ∀ e, (handler e).Tidy Inv Answer Held) :
    (p.tryCatch handler).Tidy Inv Answer Held := by
  intro s
  have hkeeps := hp s
  clear hp
  induction p generalizing s with
  | ret r =>
    cases r with
    | ok a => trivial
    | error e => exact hh e s
  | act g k ih =>
    intro hinv
    obtain ⟨hinv', hnew, hrest⟩ := hkeeps hinv
    refine ⟨hinv', fun key hheld hnot => ?_, ih s _ hrest⟩
    exact (hnew key hheld hnot).tryCatch (fun _ h => h) fun _ _ h => h.elim
  | await q k ih => exact fun s r => ih r s (hkeeps s r)

theorem Tidy.tryFinally {fin : Co σ R ε Unit} (hp : p.Tidy Inv Answer Held)
    (hfin : fin.Tidy Inv Answer Held) : (p.tryFinally fin).Tidy Inv Answer Held := by
  intro s
  have hkeeps := hp s
  clear hp
  induction p generalizing s with
  | ret r => exact hfin.bind (fun _ => tidy_ret r) s
  | act g k ih =>
    intro hinv
    obtain ⟨hinv', hnew, hrest⟩ := hkeeps hinv
    refine ⟨hinv', fun key hheld hnot => ?_, ih s _ hrest⟩
    exact (hnew key hheld hnot).tryFinally
  | await q k ih => exact fun s r => ih r s (hkeeps s r)

/-- After a burst, what is held is owed by the rest of the task or by others. -/
theorem Keeps.run {Leaves : Except ε α → κ → Prop} (hp : p.Keeps Inv Answer Held Leaves s)
    (hinv : Inv s) : Inv (p.run s).1 ∧
      (p.run s).2.rest.Keeps Inv Answer Held Leaves (p.run s).1 ∧
      ∀ (key : κ) (others : Prop),
        (Held s key → p.Owes Inv Answer Held key (fun r => Leaves r key) s ∨ others) →
        Held (p.run s).1 key →
        (p.run s).2.rest.Owes Inv Answer Held key (fun r => Leaves r key) (p.run s).1 ∨ others := by
  induction p generalizing s with
  | ret r => exact ⟨hinv, trivial, fun key others howed hheld => howed hheld⟩
  | act f k ih =>
    obtain ⟨hinv', hnew, hrest⟩ := hp hinv
    obtain ⟨hinv'', hrest', hruns⟩ := ih s hrest hinv'
    refine ⟨hinv'', hrest', fun key others howed hheld => hruns key others (fun hmid => ?_) hheld⟩
    by_cases hbefore : Held s key
    · exact (howed hbefore).imp (fun h => h hmid) id
    · exact Or.inl (hnew key hmid hbefore)
  | await q k ih => exact ⟨hinv, hp, fun key others howed hheld => howed hheld⟩

end Owes

end Co

namespace Machine

variable {σ Q : Type} {R : Q → Type} {ε κ : Type}

def waiting (m : Machine σ R ε) : List (Suspended σ R ε) := m.tasks ++ m.loop.toList

section Accounted

variable (I : Interface σ R ε) (Inv : σ → Prop) (Held : σ → κ → Prop)

/-- The task goes on while it holds the key. -/
def Owed (t : Suspended σ R ε) (key : κ) : Prop :=
  ∀ s r, Inv s → I.Answer s t.request r → Held s key →
    (t.resume r).Owes Inv I.Answer Held key (fun _ => False) s

structure Accounted (m : Machine σ R ε) : Prop where
  inv : Inv m.state
  tidy : ∀ t ∈ m.waiting, ∀ s r, (t.resume r).Keeps Inv I.Answer Held (fun _ _ => False) s
  owed : ∀ key, Held m.state key → ∃ t ∈ m.waiting, Owed I Inv Held t key

variable {I Inv Held} {m : Machine σ R ε}

/-- One burst: of a new task, or of a task that waited. -/
theorem Accounted.burst (hm : Accounted I Inv Held m) {p : Co σ R ε Unit}
    (others : List (Suspended σ R ε)) (hp : p.Keeps Inv I.Answer Held (fun _ _ => False) m.state)
    (hsub : others ⊆ m.waiting)
    (howed : ∀ t ∈ m.waiting, t ∈ others ∨ ∀ key, Held m.state key → Owed I Inv Held t key →
      p.Owes Inv I.Answer Held key (fun _ => False) m.state)
    {m' : Machine σ R ε} (hstate : m'.state = (p.run m.state).1)
    (hwaiting : ∀ t, t ∈ m'.waiting ↔ t ∈ others ∨ (p.run m.state).2.suspended = some t) :
    Accounted I Inv Held m' := by
  obtain ⟨hinv, hrest, hruns⟩ := hp.run hm.inv
  refine ⟨hstate ▸ hinv, fun t ht => ?_, fun key hheld => ?_⟩
  · rcases (hwaiting t).mp ht with ht | ht
    · exact hm.tidy t (hsub ht)
    · rw [suspended_rest ht] at hrest
      exact hrest
  · have howned : Held m.state key → p.Owes Inv I.Answer Held key (fun _ => False) m.state ∨
        ∃ t ∈ others, Owed I Inv Held t key := by
      intro hbefore
      obtain ⟨t, ht, htowes⟩ := hm.owed key hbefore
      rcases howed t ht with hother | hself
      · exact Or.inr ⟨t, hother, htowes⟩
      · exact Or.inl (hself key hbefore htowes)
    rcases hruns key _ howned (hstate ▸ hheld) with hself | ⟨t, ht, htowes⟩
    · cases hstop : (p.run m.state).2 with
      | done r =>
        rw [hstop] at hself
        exact hself.elim
      | waits q k =>
        rw [hstop] at hself
        exact ⟨⟨q, k⟩, (hwaiting _).mpr (Or.inr (by rw [hstop]; rfl)), hself⟩
    · exact ⟨t, (hwaiting t).mpr (Or.inl ht), htowes⟩

theorem Accounted.step (htask : ∀ s p, I.Task s p → p.Tidy Inv I.Answer Held)
    (hitem : ∀ s p, I.Item s p → p.Tidy Inv I.Answer Held) {m' : Machine σ R ε}
    (hm : Accounted I Inv Held m) (h : Step I m m') : Accounted I Inv Held m' := by
  cases h with
  | spawn p hp =>
    refine hm.burst m.waiting (htask _ p hp _) (List.Subset.refl _) (fun t ht => Or.inl ht) rfl fun t => ?_
    simp only [waiting, List.mem_append, Option.mem_toList]
    grind
  | @resume pre post t r ht hr =>
    refine hm.burst (pre ++ post ++ m.loop.toList) (hm.tidy t (by simp [waiting, ht]) _ r)
      (fun x hx => ?_) (fun x hx => ?_) rfl fun x => ?_
    · simp only [waiting, ht, List.mem_append, List.mem_cons] at hx ⊢
      grind
    · simp only [waiting, ht, List.mem_append, List.mem_cons] at hx ⊢
      by_cases hxt : x = t
      · subst hxt
        exact Or.inr fun key hheld howes => howes m.state r hm.inv hr hheld
      · grind
    · simp only [waiting, List.mem_append, Option.mem_toList]
      grind
  | item p hidle hp =>
    refine hm.burst m.tasks (hitem _ p hp _) (fun t ht => List.mem_append_left _ ht)
      (fun t ht => ?_) rfl fun t => ?_
    · rw [waiting, hidle, Option.toList_none, List.append_nil] at ht
      exact Or.inl ht
    · simp only [waiting, List.mem_append, Option.mem_toList]
  | @goOn t r ht hr =>
    refine hm.burst m.tasks (hm.tidy t (by simp [waiting, ht]) _ r)
      (fun x hx => List.mem_append_left _ hx) (fun x hx => ?_) rfl fun x => ?_
    · simp only [waiting, ht, Option.toList_some, List.mem_append, List.mem_singleton] at hx
      rcases hx with hx | rfl
      · exact Or.inl hx
      · exact Or.inr fun key hheld howes => howes m.state r hm.inv hr hheld
    · simp only [waiting, List.mem_append, Option.mem_toList]

theorem Accounted.life {reboot : σ → σ} (htask : ∀ s p, I.Task s p → p.Tidy Inv I.Answer Held)
    (hitem : ∀ s p, I.Item s p → p.Tidy Inv I.Answer Held)
    (hboot : ∀ s, Accounted I Inv Held (idle (reboot s))) {m' : Machine σ R ε}
    (hm : Accounted I Inv Held m) (h : Relation.ReflTransGen (Life I reboot) m m') :
    Accounted I Inv Held m' := by
  induction h with
  | refl => exact hm
  | tail _ hstep ih =>
    cases hstep with
    | step h => exact ih.step htask hitem h
    | restart h => exact hboot _

end Accounted

end Machine
