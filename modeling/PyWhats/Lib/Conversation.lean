import PyWhats.Lib.Coroutine

/-! What a task says: the requests it makes, in order, each with the answer it got. A
protocol allows the next request and the end by what was said so far, whatever the
shared state is, so a task that follows it does so in every run of a machine. -/

namespace Co

variable {σ Q : Type} {R : Q → Type} {ε α β : Type}

abbrev Exchange {Q : Type} (R : Q → Type) (ε : Type) := (q : Q) × Except ε (R q)

/-- After these exchanges `p` has come to `rest`, in some states in between. -/
inductive Path : Co σ R ε α → List (Exchange R ε) → Co σ R ε α → Prop
  | refl (p : Co σ R ε α) : Path p [] p
  | act {f : σ → σ} {k : σ → Co σ R ε α} {said : List (Exchange R ε)} {rest : Co σ R ε α} (s : σ) :
      Path (k s) said rest → Path (.act f k) said rest
  | await {q : Q} {k : Except ε (R q) → Co σ R ε α} {said : List (Exchange R ε)}
      {rest : Co σ R ε α} (r : Except ε (R q)) :
      Path (k r) said rest → Path (.await q k) (⟨q, r⟩ :: said) rest

theorem Path.trans {p q rest : Co σ R ε α} {said said' : List (Exchange R ε)}
    (h : Path p said q) (h' : Path q said' rest) : Path p (said ++ said') rest := by
  induction h with
  | refl p => exact h'
  | act s _ ih => exact .act s (ih h')
  | await r _ ih => exact .await r (ih h')

theorem Path.act_inv {f : σ → σ} {k : σ → Co σ R ε α} {said : List (Exchange R ε)}
    {rest : Co σ R ε α} (h : Path (.act f k) said rest) :
    rest = .act f k ∨ ∃ s, Path (k s) said rest := by
  cases h with
  | refl => exact Or.inl rfl
  | act s h => exact Or.inr ⟨s, h⟩

def Stop.rest : Stop σ R ε α → Co σ R ε α
  | .done r => .ret r
  | .waits q k => .await q k

theorem path_run (p : Co σ R ε α) (s : σ) : Path p [] (p.run s).2.rest := by
  induction p generalizing s with
  | ret r => exact .refl _
  | act f k ih => exact .act s (ih s (f s))
  | await q k => exact .refl _

/-- What the task says, and how it ends, when the others answer and leave the state so. -/
def talk (answer : σ → (q : Q) → Except ε (R q) × σ) : Co σ R ε α → σ →
    List (Exchange R ε) × Except ε α
  | .ret r, _ => ([], r)
  | .act f k, s => (k s).talk answer (f s)
  | .await q k, s =>
    let later := (k (answer s q).1).talk answer (answer s q).2
    (⟨q, (answer s q).1⟩ :: later.1, later.2)

theorem path_talk (answer : σ → (q : Q) → Except ε (R q) × σ) (p : Co σ R ε α) (s : σ) :
    Path p (p.talk answer s).1 (.ret (p.talk answer s).2) := by
  induction p generalizing s with
  | ret r => exact .refl _
  | act f k ih => exact .act s (ih s (f s))
  | await q k ih => exact .await _ (ih _ _)

/-- The same from the first request on, which the task comes to in the state it finds. -/
theorem path_talk_run (answer : σ → (q : Q) → Except ε (R q) × σ) (p : Co σ R ε α) (s : σ) :
    Path (p.run s).2.rest (p.talk answer s).1 (.ret (p.talk answer s).2) := by
  induction p generalizing s with
  | ret r => exact .refl _
  | act f k ih => exact ih s (f s)
  | await q k => exact .await _ (path_talk answer _ _)

theorem Path.asked {p rest : Co σ R ε α} {said said' : List (Exchange R ε)} {x : Exchange R ε}
    (h : Path p (said ++ x :: said') rest) : ∃ k, Path p said (.await x.1 k) := by
  generalize hall : said ++ x :: said' = all at h
  induction h generalizing said with
  | refl p => simp at hall
  | act s _ ih =>
    obtain ⟨k, hk⟩ := ih hall
    exact ⟨k, .act s hk⟩
  | await r hrest ih =>
    cases said with
    | nil =>
      cases hall
      exact ⟨_, .refl _⟩
    | cons y said =>
      obtain ⟨hy, hall⟩ := List.cons.inj hall
      obtain ⟨k, hk⟩ := ih hall
      exact ⟨k, hy ▸ .await r hk⟩

/-- After `said`, the task makes only requests that `Asks` allows and ends only as `E`
allows. -/
def Follows (Asks : List (Exchange R ε) → Q → Prop)
    (E : List (Exchange R ε) → Except ε α → Prop) :
    Co σ R ε α → List (Exchange R ε) → Prop
  | .ret r, said => E said r
  | .act _ k, said => ∀ s, (k s).Follows Asks E said
  | .await q k, said => Asks said q ∧ ∀ r, (k r).Follows Asks E (said ++ [⟨q, r⟩])

section Follows

variable {Asks Asks' : List (Exchange R ε) → Q → Prop}
  {E E' : List (Exchange R ε) → Except ε α → Prop}
  {F : List (Exchange R ε) → Except ε β → Prop} {said said' : List (Exchange R ε)}
  {p rest : Co σ R ε α}

theorem Follows.path (h : p.Follows Asks E said) (hpath : Path p said' rest) :
    rest.Follows Asks E (said ++ said') := by
  induction hpath generalizing said with
  | refl p => simpa using h
  | act s _ ih => exact ih (h s)
  | @await q k said' rest r _ ih =>
    have hrest := ih (h.2 r)
    rwa [List.append_assoc, List.singleton_append] at hrest

theorem Follows.run (h : p.Follows Asks E said) (s : σ) :
    (p.run s).2.rest.Follows Asks E said := by
  have hrest := h.path (path_run p s)
  rwa [List.append_nil] at hrest

theorem Follows.mono (h : p.Follows Asks E said)
    (hasks : ∀ said q, Asks said q → Asks' said q)
    (hends : ∀ said r, E said r → E' said r) : p.Follows Asks' E' said := by
  induction p generalizing said with
  | ret r => exact hends said r h
  | act f k ih => exact fun s => ih s (h s)
  | await q k ih => exact ⟨hasks said q h.1, fun r => ih r (h.2 r)⟩

theorem Follows.bind {f : α → Co σ R ε β} (h : p.Follows Asks E said)
    (hok : ∀ said a, E said (.ok a) → (f a).Follows Asks F said)
    (herror : ∀ said e, E said (.error e) → F said (.error e)) :
    (p >>= f).Follows Asks F said := by
  induction p generalizing said with
  | ret r =>
    cases r with
    | ok a => exact hok said a h
    | error e => exact herror said e h
  | act g k ih => exact fun s => ih s (h s)
  | await q k ih => exact ⟨h.1, fun r => ih r (h.2 r)⟩

theorem follows_lift_bind {r : Except ε α} {f : α → Co σ R ε β}
    (hok : ∀ a, r = .ok a → (f a).Follows Asks F said)
    (herror : ∀ e, r = .error e → F said (.error e)) :
    (Co.lift r >>= f).Follows Asks F said := by
  cases r with
  | ok a => exact hok a rfl
  | error e => exact herror e rfl

theorem Follows.tryCatch {handler : ε → Co σ R ε α} (h : p.Follows Asks E said)
    (hok : ∀ said a, E said (.ok a) → E' said (.ok a))
    (herror : ∀ said e, E said (.error e) → (handler e).Follows Asks E' said) :
    (p.tryCatch handler).Follows Asks E' said := by
  induction p generalizing said with
  | ret r =>
    cases r with
    | ok a => exact hok said a h
    | error e => exact herror said e h
  | act g k ih => exact fun s => ih s (h s)
  | await q k ih => exact ⟨h.1, fun r => ih r (h.2 r)⟩

theorem Follows.tryFinally {fin : Co σ R ε Unit} (h : p.Follows Asks E said)
    (hfin : ∀ said r, E said r → (fin.bind fun _ => .ret r).Follows Asks E' said) :
    (p.tryFinally fin).Follows Asks E' said := by
  induction p generalizing said with
  | ret r => exact hfin said r h
  | act g k ih => exact fun s => ih s (h s)
  | await q k ih => exact ⟨h.1, fun r => ih r (h.2 r)⟩

/-- What was said stays said. -/
theorem Follows.onward (h : p.Follows Asks E said) (hsaid : said' <+: said) :
    p.Follows (fun said q => Asks said q ∧ said' <+: said)
      (fun said r => E said r ∧ said' <+: said) said := by
  induction p generalizing said with
  | ret r => exact ⟨h, hsaid⟩
  | act f k ih => exact fun s => ih s (h s) hsaid
  | await q k ih =>
    exact ⟨⟨h.1, hsaid⟩, fun r => ih r (h.2 r) (hsaid.trans (List.prefix_append _ _))⟩

theorem follows_ret {r : Except ε α} (h : E said r) :
    (Co.ret r : Co σ R ε α).Follows Asks E said := h

end Follows

/-- A task that makes no request, with actions of the given kind. -/
def Mute (A : σ → σ → Prop) : Co σ R ε α → Prop
  | .ret _ => True
  | .act f k => ∀ s, A s (f s) ∧ (k s).Mute A
  | .await _ _ => False

namespace Mute

variable {A : σ → σ → Prop} {p : Co σ R ε α}

theorem lift (r : Except ε α) : (Co.lift r : Co σ R ε α).Mute A := trivial

theorem modify {f : σ → σ} (h : ∀ s, A s (f s)) : (Co.modify f : Co σ R ε Unit).Mute A :=
  fun s => ⟨h s, trivial⟩

theorem bind {f : α → Co σ R ε β} (hp : p.Mute A) (hf : ∀ a, (f a).Mute A) :
    (p >>= f).Mute A := by
  induction p with
  | ret r =>
    cases r with
    | ok a => exact hf a
    | error e => trivial
  | act g k ih => exact fun s => ⟨(hp s).1, ih s (hp s).2⟩
  | await q k => exact hp.elim

theorem get_bind {f : σ → Co σ R ε α} (h : ∀ s, A s s) (hf : ∀ s, (f s).Mute A) :
    (Co.get >>= f).Mute A := fun s => ⟨h s, hf s⟩

theorem tryCatch {handler : ε → Co σ R ε α} (hp : p.Mute A) (hh : ∀ e, (handler e).Mute A) :
    (p.tryCatch handler).Mute A := by
  induction p with
  | ret r =>
    cases r with
    | ok a => trivial
    | error e => exact hh e
  | act g k ih => exact fun s => ⟨(hp s).1, ih s (hp s).2⟩
  | await q k => exact hp.elim

theorem follows {Asks : List (Exchange R ε) → Q → Prop}
    {E : List (Exchange R ε) → Except ε α → Prop} {said : List (Exchange R ε)} (hp : p.Mute A)
    (h : ∀ r, E said r) : p.Follows Asks E said := by
  induction p with
  | ret r => exact h r
  | act f k ih => exact fun s => ih s (hp s).2
  | await q k => exact hp.elim

theorem bind_follows {f : α → Co σ R ε β} {Asks : List (Exchange R ε) → Q → Prop}
    {E : List (Exchange R ε) → Except ε β → Prop} {said : List (Exchange R ε)} (hp : p.Mute A)
    (hf : ∀ a, (f a).Follows Asks E said) (herror : ∀ e, E said (.error e)) :
    (p >>= f).Follows Asks E said := by
  induction p with
  | ret r =>
    cases r with
    | ok a => exact hf a
    | error e => exact herror e
  | act g k ih => exact fun s => ih s (hp s).2
  | await q k => exact hp.elim

end Mute

section Avoids

variable {bad : Q → Prop} {p : Co σ R ε α}

theorem Mute.avoids {A : σ → σ → Prop} (hp : p.Mute A) : p.Avoids bad := by
  induction p with
  | ret r => trivial
  | act f k ih => exact fun s => ih s (hp s).2
  | await q k => exact hp.elim

theorem Avoids.bind {f : α → Co σ R ε β} (hp : p.Avoids bad) (hf : ∀ a, (f a).Avoids bad) :
    (p >>= f).Avoids bad := by
  induction p with
  | ret r =>
    cases r with
    | ok a => exact hf a
    | error e => trivial
  | act g k ih => exact fun s => ih s (hp s)
  | await q k ih => exact ⟨hp.1, fun r => ih r (hp.2 r)⟩

theorem Avoids.tryFinally {fin : Co σ R ε Unit} (hp : p.Avoids bad) (hfin : fin.Avoids bad) :
    (p.tryFinally fin).Avoids bad := by
  induction p with
  | ret r => exact hfin.bind (f := fun _ => Co.ret r) fun _ => trivial
  | act g k ih => exact fun s => ih s (hp s)
  | await q k ih => exact ⟨hp.1, fun r => ih r (hp.2 r)⟩

theorem avoids_wait {q : Q} (h : ¬ bad q) : (Co.wait q : Co σ R ε (R q)).Avoids bad :=
  ⟨h, fun _ => trivial⟩

/-- What only the avoided requests change is as before. -/
theorem Avoids.follows {K : List (Exchange R ε) → Prop}
    {Asks : List (Exchange R ε) → Q → Prop} {E : List (Exchange R ε) → Except ε α → Prop}
    {said : List (Exchange R ε)} (hp : p.Avoids bad) (hsaid : K said)
    (hkeeps : ∀ said q r, ¬ bad q → K said → K (said ++ [⟨q, r⟩]))
    (hasks : ∀ said q, ¬ bad q → K said → Asks said q)
    (hends : ∀ said r, K said → E said r) : p.Follows Asks E said := by
  induction p generalizing said with
  | ret r => exact hends said r hsaid
  | act f k ih => exact fun s => ih s (hp s) hsaid
  | await q k ih =>
    exact ⟨hasks said q hp.1 hsaid, fun r => ih r (hp.2 r) (hkeeps said q r hp.1 hsaid)⟩

end Avoids

section Speaks

def asked (said : List (Exchange R ε)) : List Q := said.map Sigma.fst

/-- The request a task waits for. -/
def pending : Co σ R ε α → List Q
  | .await q _ => [q]
  | _ => []

/-- The requests that the task makes, unless it raises before it is through, are one of
the lists in `L`. -/
def Speaks (L : List Q → Prop) (p : Co σ R ε α) : Prop :=
  ∀ said, p.Follows (fun said' q => ∃ l, L l ∧ asked said' ++ [q] <+: asked said ++ l)
    (fun said' r => ∃ l, L l ∧ asked said' <+: asked said ++ l ∧
      ∀ a, r = .ok a → asked said' = asked said ++ l) said

/-- The task makes the requests of `l`, however it ends. -/
def Tells (l : List Q) (p : Co σ R ε α) : Prop :=
  ∀ said, p.Follows (fun said' q => asked said' ++ [q] <+: asked said ++ l)
    (fun said' _ => asked said' = asked said ++ l) said

variable {L L' : List Q → Prop} {l l' : List Q} {A : σ → σ → Prop} {p : Co σ R ε α}

theorem asked_append (said said' : List (Exchange R ε)) :
    asked (said ++ said') = asked said ++ asked said' := List.map_append

theorem Tells.speaks (h : p.Tells l) (hl : L l) : p.Speaks L := fun said =>
  (h said).mono (fun _ _ hq => ⟨l, hl, hq⟩) fun _ _ hr =>
    ⟨l, hl, by simp [hr], fun _ _ => hr⟩

theorem Mute.tells (hp : p.Mute A) : p.Tells [] := fun _ => hp.follows fun _ => (List.append_nil _).symm

theorem tells_ret (r : Except ε α) : (Co.ret r : Co σ R ε α).Tells [] := fun _ =>
  (List.append_nil _).symm

theorem tells_wait (q : Q) : (Co.wait q : Co σ R ε (R q)).Tells [q] := fun said =>
  ⟨List.prefix_refl _, fun _ => asked_append said _⟩

theorem speaks_raise (e : ε) (hl : L l) : (Co.raise e : Co σ R ε α).Speaks L := fun _ =>
  ⟨l, hl, List.prefix_append _ _, fun _ h => by cases h⟩

theorem Speaks.mono (hp : p.Speaks L) (h : ∀ l, L l → L' l) : p.Speaks L' := fun said =>
  (hp said).mono (fun _ _ ⟨l, hl, hq⟩ => ⟨l, h l hl, hq⟩) fun _ _ ⟨l, hl, hr⟩ => ⟨l, h l hl, hr⟩

/-- One list after the other. -/
def Joined (L L' : List Q → Prop) (l : List Q) : Prop := ∃ l₁ l₂, L l₁ ∧ L' l₂ ∧ l = l₁ ++ l₂

theorem Speaks.bind {f : α → Co σ R ε β} (hp : p.Speaks L) (hf : ∀ a, (f a).Speaks L')
    (hl' : L' l') : (p >>= f).Speaks (Joined L L') := by
  intro said
  have hlonger : ∀ {said' : List (Exchange R ε)} {t l : List Q}, L l →
      asked said' ++ t <+: asked said ++ l →
      ∃ l, Joined L L' l ∧ asked said' ++ t <+: asked said ++ l := by
    intro said' t l hl hprefix
    refine ⟨l ++ l', ⟨l, l', hl, hl', rfl⟩, ?_⟩
    rw [← List.append_assoc]
    exact hprefix.trans (List.prefix_append _ _)
  refine ((hp said).mono (fun _ q ⟨l, hl, hq⟩ => hlonger hl hq) fun _ _ h => h).bind
    (fun said' a ⟨l, hl, _, hall⟩ => ?_) fun said' e ⟨l, hl, hprefix, _⟩ => ?_
  · have hjoin : ∀ {l₂ : List Q}, asked said' ++ l₂ = asked said ++ (l ++ l₂) := by
      intro l₂
      rw [hall a rfl, List.append_assoc]
    refine (hf a said').mono (fun _ q ⟨l₂, hl₂, hq⟩ => ?_) fun _ r ⟨l₂, hl₂, hr, hdone⟩ => ?_
    · exact ⟨l ++ l₂, ⟨l, l₂, hl, hl₂, rfl⟩, hjoin ▸ hq⟩
    · exact ⟨l ++ l₂, ⟨l, l₂, hl, hl₂, rfl⟩, hjoin ▸ hr, fun b hb => hjoin ▸ hdone b hb⟩
  · obtain ⟨l₂, hl₂, hq⟩ := hlonger (t := []) hl (by simpa using hprefix)
    exact ⟨l₂, hl₂, by simpa using hq, fun _ h => by cases h⟩

theorem Speaks.get_bind {f : σ → Co σ R ε α} (hf : ∀ s, (f s).Speaks L) :
    (Co.get >>= f).Speaks L := fun said s => hf s said

theorem speaks_lift_bind {r : Except ε β} {f : β → Co σ R ε α}
    (hok : ∀ b, r = .ok b → (f b).Speaks L) (hl : L l) : (Co.lift r >>= f).Speaks L := by
  cases r with
  | ok b => exact hok b rfl
  | error e => exact speaks_raise e hl

theorem Speaks.tryFinally {fin : Co σ R ε Unit} (hp : p.Speaks L) (hfin : fin.Mute A) :
    (p.tryFinally fin).Speaks L := by
  intro said
  refine (hp said).tryFinally fun said' r hr => ?_
  have herror : ∀ e : ε, ∃ l, L l ∧ asked said' <+: asked said ++ l ∧
      ∀ a, (Except.error e : Except ε α) = .ok a → asked said' = asked said ++ l := by
    intro e
    obtain ⟨l, hl, hprefix, -⟩ := hr
    exact ⟨l, hl, hprefix, fun _ h => by cases h⟩
  exact hfin.bind_follows (fun _ => hr) herror

/-- A handler that says nothing may end the task anywhere in between. -/
theorem Speaks.tryCatch {handler : ε → Co σ R ε α} (hp : p.Speaks L)
    (hclosed : ∀ l l', L l → l' <+: l → L l') (hh : ∀ e, (handler e).Mute A) :
    (p.tryCatch handler).Speaks L := by
  intro said
  have honward := (hp said).onward (List.prefix_refl said)
  refine (honward.mono (fun _ _ h => h.1) fun _ _ h => h).tryCatch (fun _ _ h => h.1) ?_
  rintro said' e ⟨⟨l, hl, hprefix, -⟩, more, rfl⟩
  rw [asked_append] at hprefix
  have hmore : L (asked more) := hclosed l _ hl ((List.prefix_append_right_inj _).mp hprefix)
  exact (hh e).follows fun r =>
    ⟨asked more, hmore, (asked_append said more).symm ▸ List.prefix_refl _,
      fun _ _ => asked_append said more⟩

theorem Tells.bind_speaks {f : α → Co σ R ε β} (hp : p.Tells l) (hf : ∀ a, (f a).Speaks (· = l')) :
    (p >>= f).Speaks (· = l ++ l') := by
  refine (Speaks.bind (L := (· = l)) (hp.speaks rfl) hf rfl).mono ?_
  rintro _ ⟨_, _, rfl, rfl, rfl⟩
  rfl

theorem Mute.bind_speaks {f : α → Co σ R ε β} (hp : p.Mute A) (hf : ∀ a, (f a).Speaks L)
    (hl : L l) : (p >>= f).Speaks L := by
  refine (Speaks.bind (L := (· = [])) (hp.tells.speaks rfl) hf hl).mono ?_
  rintro _ ⟨_, l₂, rfl, hl₂, rfl⟩
  exact hl₂

theorem Tells.tryCatch {handler : ε → Co σ R ε α} (hp : p.Tells l) (hh : ∀ e, (handler e).Mute A) :
    (p.tryCatch handler).Tells l := fun said =>
  (hp said).tryCatch (fun _ _ h => h) fun _ e he => (hh e).follows fun _ => he

theorem speaks_stop {said : List (Exchange R ε)} {stop : Stop σ R ε α} (hp : p.Speaks L)
    (hpath : Path p said stop.rest) :
    ∃ l, L l ∧ asked said ++ stop.rest.pending <+: l ∧
      ∀ a, stop.rest = .ret (.ok a) → asked said ++ stop.rest.pending = l := by
  have h := (hp []).path hpath
  cases stop with
  | done r =>
    obtain ⟨l, hl, hprefix, hall⟩ := h
    refine ⟨l, hl, by simpa [Stop.rest, pending, asked] using hprefix, fun a ha => ?_⟩
    have hr : r = .ok a := by
      cases ha
      rfl
    simpa [Stop.rest, pending, asked] using hall a hr
  | waits q k =>
    obtain ⟨⟨l, hl, hprefix⟩, -⟩ := h
    exact ⟨l, hl, by simpa [Stop.rest, pending, asked] using hprefix, fun a ha => by cases ha⟩

end Speaks

end Co

namespace Machine

variable {σ Q : Type} {R : Q → Type} {ε : Type} (I : Interface σ R ε)

/-- An item of the loop, what it said and what is left of it. -/
structure Talk (σ : Type) {Q : Type} (R : Q → Type) (ε : Type) where
  item : Co σ R ε Unit
  said : List (Co.Exchange R ε)
  rest : Co σ R ε Unit

/-- The runs of a machine, with the talks of its loop in order. -/
inductive Serves (s : σ) : Machine σ R ε → List (Talk σ R ε) → Prop
  | idle : Serves s (idle s) []
  | spawn {m : Machine σ R ε} {talks : List (Talk σ R ε)} (h : Serves s m talks)
      (p : Co σ R ε Unit) (hp : I.Task m.state p) :
      Serves s { m with
        state := (p.run m.state).1
        tasks := m.tasks ++ (p.run m.state).2.suspended.toList } talks
  | resume {m : Machine σ R ε} {talks : List (Talk σ R ε)} {pre post : List (Suspended σ R ε)}
      {t : Suspended σ R ε} (h : Serves s m talks) (r : Except ε (R t.request))
      (ht : m.tasks = pre ++ t :: post) (hr : I.Answer m.state t.request r) :
      Serves s { m with
        state := ((t.resume r).run m.state).1
        tasks := pre ++ post ++ ((t.resume r).run m.state).2.suspended.toList } talks
  | item {m : Machine σ R ε} {talks : List (Talk σ R ε)} (h : Serves s m talks)
      (p : Co σ R ε Unit) (hidle : m.loop = none) (hp : I.Item m.state p) :
      Serves s { m with
        state := (p.run m.state).1
        loop := (p.run m.state).2.suspended } (talks ++ [⟨p, [], (p.run m.state).2.rest⟩])
  | goOn {m : Machine σ R ε} {talks : List (Talk σ R ε)} {talk : Talk σ R ε}
      {t : Suspended σ R ε} (h : Serves s m (talks ++ [talk])) (r : Except ε (R t.request))
      (ht : m.loop = some t) (hr : I.Answer m.state t.request r) :
      Serves s { m with
        state := ((t.resume r).run m.state).1
        loop := ((t.resume r).run m.state).2.suspended }
        (talks ++ [⟨talk.item, talk.said ++ [⟨t.request, r⟩], ((t.resume r).run m.state).2.rest⟩])

variable {I} {s : σ} {m : Machine σ R ε} {talks : List (Talk σ R ε)}

theorem suspended_rest {stop : Co.Stop σ R ε Unit} {t : Suspended σ R ε}
    (h : stop.suspended = some t) : stop.rest = .await t.request t.resume := by
  cases stop with
  | done r => cases h
  | waits q k =>
    cases h
    rfl

/-- Every talk is a path of its item, and the loop waits where the last one stopped. -/
structure Serving (I : Interface σ R ε) (m : Machine σ R ε) (talks : List (Talk σ R ε)) :
    Prop where
  paths : ∀ talk ∈ talks, (∃ s, I.Item s talk.item) ∧ Co.Path talk.item talk.said talk.rest ∧
    ∃ stop : Co.Stop σ R ε Unit, talk.rest = stop.rest
  waits : ∀ t, m.loop = some t →
    ∃ earlier talk, talks = earlier ++ [talk] ∧ talk.rest = .await t.request t.resume

theorem Serves.serving (h : Serves I s m talks) : Serving I m talks := by
  induction h with
  | idle => exact ⟨fun _ h => absurd h List.not_mem_nil, fun _ h => by cases h⟩
  | spawn _ p hp ih => exact ⟨ih.paths, ih.waits⟩
  | resume _ r ht hr ih => exact ⟨ih.paths, ih.waits⟩
  | @item m talks h p hidle hp ih =>
    refine ⟨fun talk htalk => ?_, fun t ht => ⟨talks, _, rfl, suspended_rest ht⟩⟩
    rcases List.mem_append.mp htalk with htalk | htalk
    · exact ih.paths talk htalk
    · rw [List.mem_singleton.mp htalk]
      exact ⟨⟨m.state, hp⟩, Co.path_run p m.state, _, rfl⟩
  | @goOn m talks talk t h r ht hr ih =>
    refine ⟨fun talk' htalk => ?_, fun t' ht' => ⟨talks, _, rfl, suspended_rest ht'⟩⟩
    rcases List.mem_append.mp htalk with htalk | htalk
    · exact ih.paths talk' (List.mem_append_left _ htalk)
    · rw [List.mem_singleton.mp htalk]
      obtain ⟨hitem, hpath, -⟩ := ih.paths talk (by simp)
      obtain ⟨earlier, last, heq, hrest⟩ := ih.waits t ht
      obtain ⟨-, hlast⟩ := List.append_inj' heq rfl
      cases hlast
      rw [hrest] at hpath
      exact ⟨hitem, hpath.trans (.await r (Co.path_run _ _)), _, rfl⟩

/-- The talks leave nothing out: every run has them. -/
theorem exists_serves (h : Relation.ReflTransGen (Step I) (idle s) m) :
    ∃ talks, Serves I s m talks := by
  induction h with
  | refl => exact ⟨[], .idle⟩
  | tail _ hstep ih =>
    obtain ⟨talks, hserves⟩ := ih
    cases hstep with
    | spawn p hp => exact ⟨talks, hserves.spawn p hp⟩
    | resume r ht hr => exact ⟨talks, hserves.resume r ht hr⟩
    | item p hidle hp => exact ⟨_, hserves.item p hidle hp⟩
    | goOn r ht hr =>
      obtain ⟨earlier, talk, rfl, -⟩ := hserves.serving.waits _ ht
      exact ⟨_, hserves.goOn r ht hr⟩

def Talk.requests (talk : Talk σ R ε) : List Q := Co.asked talk.said ++ talk.rest.pending

theorem Serves.speaks {L : List Q → Prop} (h : Serves I s m talks) {talk : Talk σ R ε}
    (htalk : talk ∈ talks) (hitem : talk.item.Speaks L) :
    ∃ l, L l ∧ talk.requests <+: l ∧ (talk.rest = .ret (.ok ()) → talk.requests = l) := by
  obtain ⟨-, hpath, stop, hstop⟩ := h.serving.paths talk htalk
  rw [hstop] at hpath
  obtain ⟨l, hl, hprefix, hall⟩ := Co.speaks_stop hitem hpath
  rw [Talk.requests, hstop]
  exact ⟨l, hl, hprefix, hall ()⟩

end Machine
