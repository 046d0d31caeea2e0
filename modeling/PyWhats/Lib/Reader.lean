import Mathlib.Algebra.GroupWithZero.Nat
import Mathlib.Data.List.Forall2

/-! Readers that consume a list of tokens from the front, and what it means that a
reader accepts the text of a value: it returns the value and leaves what follows; or that
it refuses a text, whatever follows. -/

abbrev Reader (τ ε α : Type) := StateT (List τ) (Except ε) α

namespace Reader

variable {τ ε α β : Type}

def next (e : ε) : Reader τ ε τ
  | [] => .error e
  | t :: ts => .ok (t, ts)

def take (e : ε) (n : Nat) : Reader τ ε (List τ) := fun ts =>
  if ts.length < n then .error e else .ok (ts.take n, ts.drop n)

def times (p : Reader τ ε α) : Nat → Reader τ ε (List α)
  | 0 => pure []
  | n + 1 => do
    let a ← p
    let as ← times p n
    return a :: as

def Reads (p : Reader τ ε α) (ts : List τ) (a : α) : Prop :=
  ∀ rest, p (ts ++ rest) = .ok (a, rest)

theorem Reads.pure (a : α) : Reads (Pure.pure a : Reader τ ε α) [] a := fun _ => rfl

theorem Reads.bind {p : Reader τ ε α} {f : α → Reader τ ε β} {ts us : List τ} {a : α} {b : β}
    (hp : Reads p ts a) (hf : Reads (f a) us b) : Reads (p >>= f) (ts ++ us) b := by
  intro rest
  have hrun : (p >>= f) (ts ++ us ++ rest) = (p (ts ++ us ++ rest)).bind fun r => f r.1 r.2 := rfl
  rw [hrun, List.append_assoc, hp (us ++ rest)]
  exact hf rest

theorem Reads.map {p : Reader τ ε α} {f : α → β} {ts : List τ} {a : α} (hp : Reads p ts a) :
    Reads (p >>= fun a => Pure.pure (f a)) ts (f a) := by
  have h := Reads.bind (f := fun a => (Pure.pure (f a) : Reader τ ε β)) hp (Reads.pure (f a))
  rwa [List.append_nil] at h

theorem Reads.next (e : ε) (t : τ) : Reads (Reader.next e) [t] t := fun _ => rfl

theorem Reads.next_bind {e : ε} {t : τ} {f : τ → Reader τ ε β} {ts : List τ} {b : β}
    (hf : Reads (f t) ts b) : Reads (Reader.next e >>= f) (t :: ts) b :=
  (Reads.next e t).bind hf

theorem Reads.take (e : ε) (ts : List τ) : Reads (Reader.take e ts.length) ts ts := by
  intro rest
  have hlen : ¬ (ts ++ rest).length < ts.length := by
    rw [List.length_append]
    omega
  simp only [Reader.take, if_neg hlen, List.take_left', List.drop_left']

theorem Reads.lift {x : Except ε α} {a : α} (h : x = .ok a) :
    Reads (StateT.lift x : Reader τ ε α) [] a := by
  intro rest
  subst h
  rfl

theorem Reads.times {p : Reader τ ε α} {tss : List (List τ)} {as : List α}
    (h : List.Forall₂ (Reads p) tss as) : Reads (p.times as.length) tss.flatten as := by
  induction h with
  | nil => exact Reads.pure []
  | cons ha _ ih => exact ha.bind ih.map

def Refuses (p : Reader τ ε α) (ts : List τ) : Prop := ∀ rest, ∃ e, p (ts ++ rest) = .error e

/-- The reader returns a value with the property where `ok` holds, and refuses elsewhere. -/
structure ReadsIff (ok : Prop) (p : Reader τ ε α) (ts : List τ) (Post : α → Prop) : Prop where
  reads : ok → ∃ a, Reads p ts a ∧ Post a
  refuses : ¬ ok → Refuses p ts

theorem Refuses.bind {p : Reader τ ε α} {ts : List τ} (hp : Refuses p ts)
    (f : α → Reader τ ε β) (us : List τ) : Refuses (p >>= f) (ts ++ us) := by
  intro rest
  have hrun : (p >>= f) (ts ++ us ++ rest) = (p (ts ++ us ++ rest)).bind fun r => f r.1 r.2 := rfl
  obtain ⟨e, he⟩ := hp (us ++ rest)
  rw [hrun, List.append_assoc, he]
  exact ⟨e, rfl⟩

theorem Reads.bind_refuses {p : Reader τ ε α} {f : α → Reader τ ε β} {ts us : List τ} {a : α}
    (hp : Reads p ts a) (hf : Refuses (f a) us) : Refuses (p >>= f) (ts ++ us) := by
  intro rest
  have hrun : (p >>= f) (ts ++ us ++ rest) = (p (ts ++ us ++ rest)).bind fun r => f r.1 r.2 := rfl
  rw [hrun, List.append_assoc, hp (us ++ rest)]
  exact hf rest

theorem Refuses.lift {x : Except ε α} {e : ε} (h : x = .error e) :
    Refuses (StateT.lift x : Reader τ ε α) [] := by
  intro rest
  subst h
  exact ⟨e, rfl⟩

section ReadsIff

variable {ok ok' : Prop} {p : Reader τ ε α} {f : α → Reader τ ε β} {ts us : List τ}
  {Post : α → Prop} {Post' : β → Prop}

theorem Reads.readsIff {a : α} (h : Reads p ts a) (ha : Post a) (hok : ok) :
    ReadsIff ok p ts Post := ⟨fun _ => ⟨a, h, ha⟩, fun hnot => absurd hok hnot⟩

theorem Refuses.readsIff (h : Refuses p ts) (hok : ¬ ok) : ReadsIff ok p ts Post :=
  ⟨fun hyes => absurd hyes hok, fun _ => h⟩

theorem ReadsIff.congr (h : ReadsIff ok p ts Post) (hiff : ok ↔ ok') : ReadsIff ok' p ts Post :=
  ⟨fun hok => h.reads (hiff.mpr hok), fun hnot => h.refuses fun hok => hnot (hiff.mp hok)⟩

theorem ReadsIff.weaken {Post' : α → Prop} (h : ReadsIff ok p ts Post)
    (hpost : ∀ a, Post a → Post' a) : ReadsIff ok p ts Post' := by
  refine ⟨fun hok => ?_, h.refuses⟩
  obtain ⟨a, ha, hp⟩ := h.reads hok
  exact ⟨a, ha, hpost a hp⟩

/-- One reader after the other: what follows is read only where the first returns. -/
theorem ReadsIff.bind (hp : ReadsIff ok p ts Post)
    (hf : ∀ a, Post a → ReadsIff ok' (f a) us Post') :
    ReadsIff (ok ∧ ok') (p >>= f) (ts ++ us) Post' where
  reads := by
    rintro ⟨hok, hok'⟩
    obtain ⟨a, ha, hpost⟩ := hp.reads hok
    obtain ⟨b, hb, hpost'⟩ := (hf a hpost).reads hok'
    exact ⟨b, ha.bind hb, hpost'⟩
  refuses := by
    intro hnot
    by_cases hok : ok
    · obtain ⟨a, ha, hpost⟩ := hp.reads hok
      exact ha.bind_refuses ((hf a hpost).refuses fun hok' => hnot ⟨hok, hok'⟩)
    · exact (hp.refuses hok).bind f us

theorem Reads.bind_readsIff {a : α} (hp : Reads p ts a) (hf : ReadsIff ok' (f a) us Post') :
    ReadsIff ok' (p >>= f) (ts ++ us) Post' where
  reads := by
    intro hok
    obtain ⟨b, hb, hpost⟩ := hf.reads hok
    exact ⟨b, hp.bind hb, hpost⟩
  refuses := fun hnot => hp.bind_refuses (hf.refuses hnot)

theorem ReadsIff.map {g : α → β} (hp : ReadsIff ok p ts fun a => Post' (g a)) :
    ReadsIff ok (p >>= fun a => Pure.pure (g a)) ts Post' where
  reads := by
    intro hok
    obtain ⟨a, ha, hpost⟩ := hp.reads hok
    exact ⟨g a, ha.map, hpost⟩
  refuses := by
    intro hnot
    have h := (hp.refuses hnot).bind (fun a => (Pure.pure (g a) : Reader τ ε β)) []
    rwa [List.append_nil] at h

theorem ReadsIff.next_bind {e : ε} {t : τ} {g : τ → Reader τ ε β}
    (hg : ReadsIff ok (g t) ts Post') : ReadsIff ok (Reader.next e >>= g) (t :: ts) Post' :=
  (Reads.next e t).bind_readsIff hg

end ReadsIff

section Consumes

/-- What the reader returns costs it at least `cost` tokens, and depends on nothing after
those that it takes. -/
def Consumes (cost : α → Nat) (p : Reader τ ε α) : Prop :=
  ∀ ts a rest, p ts = .ok (a, rest) →
    ∃ taken, ts = taken ++ rest ∧ cost a ≤ taken.length ∧ Reads p taken a

variable {cost : α → Nat} {p : Reader τ ε α} {f : α → Reader τ ε β}

theorem bind_ok {ts rest : List τ} {b : β} (h : (p >>= f) ts = .ok (b, rest)) :
    ∃ a mid, p ts = .ok (a, mid) ∧ f a mid = .ok (b, rest) := by
  have hrun : (p >>= f) ts = (p ts).bind fun r => f r.1 r.2 := rfl
  rw [hrun] at h
  cases hp : p ts with
  | error e =>
    rw [hp] at h
    cases h
  | ok r =>
    rw [hp] at h
    exact ⟨r.1, r.2, rfl, h⟩

theorem Consumes.pure {a : α} (h : cost a = 0) :
    Consumes cost (Pure.pure a : Reader τ ε α) := by
  intro ts b rest hrun
  cases hrun
  exact ⟨[], rfl, Nat.le_of_eq h, Reads.pure _⟩

theorem Consumes.lift {x : Except ε α} (h : ∀ a, x = .ok a → cost a = 0) :
    Consumes cost (StateT.lift x : Reader τ ε α) := by
  intro ts a rest hrun
  cases hx : x with
  | error e =>
    rw [hx] at hrun
    cases hrun
  | ok b =>
    rw [hx] at hrun
    cases hrun
    exact ⟨[], rfl, Nat.le_of_eq (h _ hx), Reads.lift rfl⟩

theorem Consumes.next (e : ε) : Consumes (fun _ => 1) (Reader.next e : Reader τ ε τ) := by
  intro ts a rest hrun
  cases ts with
  | nil => cases hrun
  | cons t ts =>
    cases hrun
    exact ⟨[a], rfl, Nat.le_refl 1, Reads.next e a⟩

theorem Consumes.take (e : ε) (n : Nat) : Consumes (fun _ => n) (Reader.take e n : Reader τ ε _) := by
  intro ts a rest hrun
  rw [Reader.take] at hrun
  by_cases hshort : ts.length < n
  · rw [if_pos hshort] at hrun
    cases hrun
  · rw [if_neg hshort] at hrun
    cases hrun
    have hlength : (ts.take n).length = n := List.length_take_of_le (Nat.not_lt.mp hshort)
    have hreads := Reads.take e (ts.take n)
    rw [hlength] at hreads
    exact ⟨ts.take n, (List.take_append_drop n ts).symm, Nat.le_of_eq hlength.symm, hreads⟩

theorem Consumes.mono {cost' : α → Nat} (h : Consumes cost p) (hle : ∀ a, cost' a ≤ cost a) :
    Consumes cost' p := by
  intro ts a rest hrun
  obtain ⟨taken, hts, hcost, hreads⟩ := h ts a rest hrun
  exact ⟨taken, hts, Nat.le_trans (hle a) hcost, hreads⟩

/-- What the first reader has paid for is taken off the price of the rest. -/
theorem Consumes.bind {cost' : β → Nat} (hp : Consumes cost p)
    (hf : ∀ a, Consumes (fun b => cost' b - cost a) (f a)) : Consumes cost' (p >>= f) := by
  intro ts b rest hrun
  obtain ⟨a, mid, ha, hb⟩ := bind_ok hrun
  obtain ⟨taken, hts, hcost, hreads⟩ := hp ts a mid ha
  obtain ⟨taken', hmid, hcost', hreads'⟩ := hf a mid b rest hb
  refine ⟨taken ++ taken', ?_, ?_, hreads.bind hreads'⟩
  · rw [hts, hmid, List.append_assoc]
  · simp only [List.length_append] at hcost' ⊢
    omega

theorem Consumes.map {cost' : β → Nat} {g : α → β} (hp : Consumes cost p)
    (hle : ∀ a, cost' (g a) ≤ cost a) :
    Consumes cost' (p >>= fun a => (Pure.pure (g a) : Reader τ ε β)) :=
  hp.bind fun a ts b rest hrun => by
    cases hrun
    exact ⟨[], rfl, by have := hle a; simp only [List.length_nil]; omega, Reads.pure _⟩

theorem Consumes.times (hp : Consumes cost p) (n : Nat) :
    Consumes (fun as => (as.map cost).sum) (p.times n) := by
  induction n with
  | zero => exact Consumes.pure rfl
  | succ n ih =>
    refine hp.bind fun a => ih.map fun as => ?_
    simp only [List.map_cons, List.sum_cons]
    omega

end Consumes

section AgreesTo

/-- The readers do the same on every list of at most `n` tokens. -/
def AgreesTo (n : Nat) (p q : Reader τ ε α) : Prop := ∀ ts, ts.length ≤ n → p ts = q ts

variable {n : Nat} {cost : α → Nat} {p q : Reader τ ε α} {f g : α → Reader τ ε β}

theorem AgreesTo.refl (n : Nat) (p : Reader τ ε α) : AgreesTo n p p := fun _ _ => rfl

/-- A first reader that takes `k` tokens leaves a shorter list to the rest. -/
theorem AgreesTo.bind_taking {k : Nat} (h : AgreesTo (n + k) p q) (hp : Consumes (fun _ => k) p)
    (hf : ∀ a, AgreesTo n (f a) (g a)) : AgreesTo (n + k) (p >>= f) (q >>= g) := by
  intro ts hts
  have hrun : (p >>= f) ts = (p ts).bind fun r => f r.1 r.2 := rfl
  have hrun' : (q >>= g) ts = (q ts).bind fun r => g r.1 r.2 := rfl
  rw [hrun, hrun', ← h ts hts]
  cases hread : p ts with
  | error e => rfl
  | ok r =>
    obtain ⟨taken, hsplit, hcost, -⟩ := hp ts r.1 r.2 hread
    refine hf r.1 r.2 ?_
    simp only [hsplit, List.length_append] at hts hcost
    omega

theorem AgreesTo.bind (h : AgreesTo n p q) (hp : Consumes cost p)
    (hf : ∀ a, AgreesTo n (f a) (g a)) : AgreesTo n (p >>= f) (q >>= g) :=
  AgreesTo.bind_taking (k := 0) h (hp.mono fun _ => Nat.zero_le _) hf

theorem AgreesTo.times (h : AgreesTo n p q) (hp : Consumes cost p) (k : Nat) :
    AgreesTo n (p.times k) (q.times k) := by
  induction k with
  | zero => exact AgreesTo.refl n _
  | succ k ih => exact h.bind hp fun a => ih.bind (hp.times k) fun as => AgreesTo.refl n _

end AgreesTo

end Reader
