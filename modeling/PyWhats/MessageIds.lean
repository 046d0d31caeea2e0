import Mathlib.Data.Finset.Basic
import Mathlib.Data.List.OfFn
import Mathlib.Data.List.Infix
import Mathlib.Order.Basic
import PyWhats.AppState

/-! Message ids. The clock is read before the lock is taken, so the readings need not be in
the order of the calls. An id comes back only after its hour has been seen to pass, or after
as many others as the ring holds; with readings in order the ring answers exactly as a search
through everything issued would. -/

namespace PyWhats.MessageIds

def idBytes : Nat := 8

def dedupeMax : Nat := 4096

def attempts : Nat := 16

/-- What `secrets.token_bytes(_ID_BYTES)` returns. -/
abbrev Token := { b : Bytes // b.length = idBytes }

def upper (s : String) : String := String.ofList (s.toList.map Char.toUpper)

def Token.id (token : Token) : String := upper (AppState.hex token.1)

structure Ring (α : Type) where
  recent : List (String × α)
  recentSet : Finset String

def Ring.empty {α : Type} : Ring α := ⟨[], ∅⟩

/-- One call: its clock reading and what the generator would draw. -/
structure Call (α : Type) where
  now : α
  draws : Fin attempts → Token

/-- The clock reading and the answer of each call, in the order of the lock. -/
abbrev History (α : Type) := List (α × Except PyError String)

section

variable {α : Type} (expired : α → α → Bool)

/-- `expired now t` is `now - t > _DEDUPE_TTL_SECONDS`. -/
def sweepExpired (now : α) : List (String × α) → Finset String → Ring α
  | [], recentSet => ⟨[], recentSet⟩
  | (id, t) :: recent, recentSet =>
    if expired now t then sweepExpired now recent (recentSet.erase id)
    else ⟨(id, t) :: recent, recentSet⟩

def Ring.dropOldest (ring : Ring α) : Ring α :=
  match ring.recent with
  | [] => ring
  | (oldestId, _) :: recent => ⟨recent, ring.recentSet.erase oldestId⟩

def Ring.remember (ring : Ring α) (candidate : String) (now : α) : Ring α :=
  let ring' : Ring α := ⟨ring.recent ++ [(candidate, now)], insert candidate ring.recentSet⟩
  if dedupeMax < ring'.recent.length then ring'.dropOldest else ring'

def exhausted : PyError :=
  .runtimeError "failed to generate a unique message id after 16 attempts"

def draw (now : α) (ring : Ring α) : List Token → Except PyError String × Ring α
  | [] => (.error exhausted, ring)
  | token :: tokens =>
    if token.id ∈ ring.recentSet then draw now ring tokens
    else (.ok token.id, ring.remember token.id now)

def Ring.swept (ring : Ring α) (now : α) : Ring α :=
  sweepExpired expired now ring.recent ring.recentSet

def newMessageId (call : Call α) (ring : Ring α) : Except PyError String × Ring α :=
  draw call.now (ring.swept expired call.now) (List.ofFn call.draws)

def run (ring : Ring α) : List (Call α) → History α × Ring α
  | [] => ([], ring)
  | call :: calls =>
    let (answer, ring') := newMessageId expired call ring
    let (history, ring'') := run ring' calls
    ((call.now, answer) :: history, ring'')

def issues (history : History α) : List (String × α) :=
  history.filterMap fun e => e.2.toOption.map (·, e.1)

end

section Globals

variable {α : Type} {expired : α → α → Bool} {ring : Ring α} {now t : α} {id : String}
  {recent : List (String × α)} {recentSet : Finset String}

/-- The two globals agree: the set has the ids of the ring, none of them twice. -/
structure Ring.Agrees (ring : Ring α) : Prop where
  mem_iff : ∀ id, id ∈ ring.recentSet ↔ id ∈ ring.recent.map Prod.fst
  nodup : (ring.recent.map Prod.fst).Nodup

theorem Ring.Agrees.popleft (h : Ring.Agrees ⟨(id, t) :: recent, recentSet⟩) :
    Ring.Agrees ⟨recent, recentSet.erase id⟩ := by
  have hnodup := List.nodup_cons.mp h.nodup
  constructor
  · intro other
    have hmem := h.mem_iff other
    simp only [List.map_cons, List.mem_cons] at hmem
    show other ∈ recentSet.erase id ↔ other ∈ recent.map Prod.fst
    rw [Finset.mem_erase, hmem]
    constructor
    · intro hor
      exact hor.2.resolve_left hor.1
    · intro hin
      have hne : other ≠ id := by
        intro heq
        exact hnodup.1 (heq ▸ hin)
      exact ⟨hne, Or.inr hin⟩
  · exact hnodup.2

theorem sweepExpired_agrees (h : Ring.Agrees ⟨recent, recentSet⟩) :
    (sweepExpired expired now recent recentSet).Agrees := by
  induction recent generalizing recentSet with
  | nil => exact h
  | cons e recent ih =>
    obtain ⟨id, t⟩ := e
    by_cases hexp : expired now t = true
    · simp only [sweepExpired, hexp, if_true]
      exact ih h.popleft
    · rw [sweepExpired, if_neg hexp]
      exact h

theorem Ring.Agrees.swept (h : ring.Agrees) : (ring.swept expired now).Agrees :=
  sweepExpired_agrees h

theorem Ring.swept_recent :
    (ring.swept expired now).recent = ring.recent.dropWhile fun e => expired now e.2 := by
  have hgen : ∀ (recent : List (String × α)) (recentSet : Finset String),
      (sweepExpired expired now recent recentSet).recent =
        recent.dropWhile fun e => expired now e.2 := by
    intro recent
    induction recent with
    | nil => simp [sweepExpired]
    | cons e recent ih =>
      intro recentSet
      by_cases hexp : expired now e.2 = true
      · simp [sweepExpired, hexp, ih]
      · simp [sweepExpired, hexp]
  exact hgen ring.recent ring.recentSet

theorem Ring.dropOldest_recent : ring.dropOldest.recent = ring.recent.tail := by
  unfold Ring.dropOldest
  split
  · simp [*]
  · simp [*]

theorem Ring.Agrees.dropOldest (h : ring.Agrees) : ring.dropOldest.Agrees := by
  obtain ⟨recent, recentSet⟩ := ring
  cases recent with
  | nil => exact h
  | cons e recent => exact h.popleft

theorem Ring.remember_recent : (ring.remember id now).recent =
    if dedupeMax ≤ ring.recent.length then (ring.recent ++ [(id, now)]).tail
    else ring.recent ++ [(id, now)] := by
  have hlen : dedupeMax < (ring.recent ++ [(id, now)]).length ↔ dedupeMax ≤ ring.recent.length := by
    rw [List.length_append, List.length_singleton]
    omega
  by_cases h : dedupeMax ≤ ring.recent.length
  · simp only [Ring.remember, hlen, h, if_true, Ring.dropOldest_recent]
  · simp only [Ring.remember, hlen, h, if_false]

theorem Ring.Agrees.remember (h : ring.Agrees) (hid : id ∉ ring.recentSet) :
    (ring.remember id now).Agrees := by
  have hfresh : id ∉ ring.recent.map Prod.fst := fun hin => hid ((h.mem_iff id).mpr hin)
  have happend : Ring.Agrees ⟨ring.recent ++ [(id, now)], insert id ring.recentSet⟩ := by
    constructor
    · intro other
      simp [h.mem_iff, or_comm]
    · have hnodup := h.nodup
      simp only [List.map_append, List.map_cons, List.map_nil]
      exact List.nodup_append.mpr ⟨hnodup, by simp, by
        intro x hx y hy heq
        rw [List.mem_singleton] at hy
        exact hfresh (hy ▸ heq ▸ hx)⟩
  unfold Ring.remember
  by_cases hlen : dedupeMax < (ring.recent ++ [(id, now)]).length
  · simp only [hlen, if_true]
    exact happend.dropOldest
  · simp only [hlen, if_false]
    exact happend

theorem Ring.remember_bounded (h : ring.recent.length ≤ dedupeMax) :
    (ring.remember id now).recent.length ≤ dedupeMax := by
  rw [Ring.remember_recent]
  by_cases hfull : dedupeMax ≤ ring.recent.length
  · simp [hfull, h]
  · simp only [hfull, if_false, List.length_append, List.length_singleton]
    omega

/-- What a call's draws come to against the ring it has swept. -/
theorem draw_cases (now : α) (ring : Ring α) (tokens : List Token) :
    (draw now ring tokens = (.error exhausted, ring) ∧
      ∀ token ∈ tokens, token.id ∈ ring.recentSet) ∨
    ∃ before token after, tokens = before ++ token :: after ∧
      (∀ earlier ∈ before, earlier.id ∈ ring.recentSet) ∧ token.id ∉ ring.recentSet ∧
      draw now ring tokens = (.ok token.id, ring.remember token.id now) := by
  induction tokens with
  | nil => exact Or.inl ⟨rfl, by simp⟩
  | cons token tokens ih =>
    by_cases hin : token.id ∈ ring.recentSet
    · have hstep : draw now ring (token :: tokens) = draw now ring tokens := by
        simp only [draw, hin, if_true]
      rw [hstep]
      rcases ih with ⟨hraise, hall⟩ | ⟨before, chosen, after, htokens, hbefore, hfresh, hdraw⟩
      · exact Or.inl ⟨hraise, by simpa [hin] using hall⟩
      · exact Or.inr ⟨token :: before, chosen, after, by simp [htokens],
          by simpa [hin] using hbefore, hfresh, hdraw⟩
    · exact Or.inr ⟨[], token, tokens, rfl, by simp, hin, by simp only [draw, hin, if_false]⟩

end Globals

section Window

variable {ε : Type} {x : ε} {l recent : List ε}

theorem suffix_dropWhile {p : ε → Bool} (h : x :: l <:+ recent) (hp : p x = false) :
    x :: l <:+ recent.dropWhile p := by
  obtain ⟨front, rfl⟩ := h
  induction front with
  | nil => simp [hp]
  | cons y front ih =>
    by_cases hy : p y = true
    · simpa [hy] using ih
    · simp only [List.cons_append, List.dropWhile_cons, hy]
      exact ⟨y :: front, by simp⟩

theorem suffix_tail (h : x :: l <:+ recent) : x :: l <:+ recent.tail ∨ recent = x :: l := by
  obtain ⟨front, rfl⟩ := h
  cases front with
  | nil => exact Or.inr rfl
  | cons y front => exact Or.inl ⟨front, rfl⟩

end Window

section Runs

variable {α : Type} {expired : α → α → Bool} {ring : Ring α} {now t : α} {id : String}
  {history post : History α} {calls : List (Call α)}

@[simp] theorem issues_nil : issues ([] : History α) = [] := rfl

@[simp] theorem issues_append : issues (history ++ post) = issues history ++ issues post :=
  List.filterMap_append

@[simp] theorem issues_ok : issues ((now, .ok id) :: post) = (id, now) :: issues post := rfl

@[simp] theorem issues_error {e : PyError} : issues ((now, .error e) :: post) = issues post := rfl

theorem issues_times : ((issues history).map Prod.snd).Sublist (history.map Prod.fst) := by
  induction history with
  | nil => simp
  | cons e history ih =>
    obtain ⟨t, answer⟩ := e
    cases answer with
    | error _ => simpa using ih.cons t
    | ok id => simpa using ih

theorem issues_split {l l' : List (String × α)} {t : α} (h : issues history = l ++ (id, t) :: l') :
    ∃ pre post, history = pre ++ (t, .ok id) :: post ∧ issues post = l' := by
  obtain ⟨pre, rest, rfl, -, hrest⟩ := List.filterMap_eq_append_iff.mp h
  obtain ⟨skipped, e, post, rfl, -, he, hpost⟩ := List.filterMap_eq_cons_iff.mp hrest
  obtain ⟨t', answer⟩ := e
  cases answer with
  | error _ => cases he
  | ok id' =>
    cases he
    exact ⟨pre ++ skipped, post, by simp, hpost⟩

theorem run_append (ring : Ring α) (calls calls' : List (Call α)) :
    run expired ring (calls ++ calls') =
      ((run expired ring calls).1 ++ (run expired (run expired ring calls).2 calls').1,
        (run expired (run expired ring calls).2 calls').2) := by
  induction calls generalizing ring with
  | nil => rfl
  | cons call calls ih => simp only [List.cons_append, run, ih]

theorem mem_run {e : α × Except PyError String} (he : e ∈ (run expired ring calls).1) :
    ∃ call ∈ calls, call.now = e.1 := by
  induction calls generalizing ring with
  | nil => simp [run] at he
  | cons call calls ih =>
    simp only [run, List.mem_cons] at he
    rcases he with rfl | he
    · exact ⟨call, List.mem_cons_self, rfl⟩
    · obtain ⟨call', hmem, hnow⟩ := ih he
      exact ⟨call', List.mem_cons_of_mem call hmem, hnow⟩

/-- What the ring has of the run so far: the latest ids, and each id issued is still there
with all that followed it, unless its hour was seen to pass or the ring has overflowed. -/
structure Inv (expired : α → α → Bool) (history : History α) (ring : Ring α) : Prop where
  agrees : ring.Agrees
  bounded : ring.recent.length ≤ dedupeMax
  latest : ring.recent <:+ issues history
  kept : ∀ {pre : History α} {t : α} {id : String} {post : History α},
    history = pre ++ (t, .ok id) :: post →
    (∃ e ∈ post, expired e.1 t = true) ∨ dedupeMax ≤ (issues post).length ∨
      (id, t) :: issues post <:+ ring.recent

theorem inv_empty : Inv expired [] (Ring.empty : Ring α) := by
  constructor
  · constructor <;> simp [Ring.empty]
  · simp [Ring.empty]
  · simp [Ring.empty]
  · intro pre t id post h
    simp at h

theorem Ring.swept_suffix : (ring.swept expired now).recent <:+ ring.recent := by
  rw [Ring.swept_recent]
  exact List.dropWhile_suffix _

theorem Ring.remember_suffix :
    (ring.remember id now).recent <:+ ring.recent ++ [(id, now)] := by
  rw [Ring.remember_recent]
  by_cases hfull : dedupeMax ≤ ring.recent.length
  · simp only [hfull, if_true]
    exact List.tail_suffix _
  · simp only [hfull, if_false]
    exact List.suffix_refl _

theorem Ring.remember_keeps {x : String × α} {l : List (String × α)}
    (h : x :: l <:+ ring.recent ++ [(id, now)]) :
    dedupeMax ≤ l.length ∨ x :: l <:+ (ring.remember id now).recent := by
  rw [Ring.remember_recent]
  by_cases hfull : dedupeMax ≤ ring.recent.length
  · simp only [hfull, if_true]
    rcases suffix_tail h with htail | hall
    · exact Or.inr htail
    · have hlen := congrArg List.length hall
      simp only [List.length_append, List.length_cons, List.length_nil] at hlen
      exact Or.inl (by omega)
  · simp only [hfull, if_false]
    exact Or.inr h

theorem Inv.step (h : Inv expired history ring) (call : Call α) :
    Inv expired (history ++ [(call.now, (newMessageId expired call ring).1)])
      (newMessageId expired call ring).2 := by
  have hswept : (ring.swept expired call.now).recent <:+ issues history :=
    Ring.swept_suffix.trans h.latest
  have hbounded : (ring.swept expired call.now).recent.length ≤ dedupeMax :=
    Ring.swept_suffix.length_le.trans h.bounded
  have hlast : ∀ {pre post : History α} {t : α} {id : String} {answer : Except PyError String},
      history ++ [(call.now, answer)] = pre ++ (t, .ok id) :: post →
      (post = [] ∧ t = call.now ∧ answer = .ok id) ∨
        ∃ post', post = post' ++ [(call.now, answer)] ∧
          ((∃ e ∈ post, expired e.1 t = true) ∨ dedupeMax ≤ (issues post').length ∨
            (id, t) :: issues post' <:+ (ring.swept expired call.now).recent) := by
    intro pre post t id answer heq
    rcases List.eq_nil_or_concat post with rfl | ⟨post', e, rfl⟩
    · have hsingle := (List.append_inj' heq rfl).2
      simp only [List.cons.injEq, Prod.mk.injEq, and_true] at hsingle
      exact Or.inl ⟨rfl, hsingle.1.symm, hsingle.2⟩
    · rw [List.concat_eq_append, ← List.cons_append, ← List.append_assoc] at heq
      obtain ⟨hhistory, hend⟩ := List.append_inj' heq rfl
      simp only [List.cons.injEq, and_true] at hend
      subst hend
      refine Or.inr ⟨post', List.concat_eq_append, ?_⟩
      rcases h.kept hhistory with ⟨e, he, hexp⟩ | hfull | hsuffix
      · exact Or.inl ⟨e, by simp [he], hexp⟩
      · exact Or.inr (Or.inl hfull)
      · by_cases hexp : expired call.now t = true
        · exact Or.inl ⟨(call.now, answer), by simp, hexp⟩
        · rw [Ring.swept_recent]
          exact Or.inr (Or.inr (suffix_dropWhile hsuffix (by simpa using hexp)))
  unfold newMessageId
  rcases draw_cases call.now (ring.swept expired call.now) (List.ofFn call.draws) with
    ⟨hdraw, -⟩ | ⟨before, token, after, -, -, hfresh, hdraw⟩
  · rw [hdraw]
    refine ⟨h.agrees.swept, hbounded, ?_, ?_⟩
    · simpa using hswept
    · intro pre t id post heq
      rcases hlast heq with ⟨-, -, hanswer⟩ | ⟨post', rfl, hor⟩
      · cases hanswer
      · simpa using hor
  · rw [hdraw]
    refine ⟨h.agrees.swept.remember hfresh, Ring.remember_bounded hbounded, ?_, ?_⟩
    · obtain ⟨front, hfront⟩ := hswept
      refine Ring.remember_suffix.trans ⟨front, ?_⟩
      rw [issues_append, issues_ok, issues_nil, ← hfront, List.append_assoc]
    · intro pre t id post heq
      rcases hlast heq with
        ⟨rfl, rfl, hanswer⟩ | ⟨post', rfl, hexp | hfull | ⟨front, hfront⟩⟩
      · cases hanswer
        exact Or.inr (Ring.remember_keeps ⟨_, rfl⟩)
      · exact Or.inl hexp
      · refine Or.inr (Or.inl ?_)
        rw [issues_append, List.length_append]
        omega
      · refine Or.inr (Ring.remember_keeps ⟨front, ?_⟩)
        rw [issues_append, issues_ok, issues_nil, ← hfront]
        simp

theorem Inv.run (h : Inv expired history ring) :
    Inv expired (history ++ (run expired ring calls).1) (run expired ring calls).2 := by
  induction calls generalizing history ring with
  | nil => simpa [MessageIds.run] using h
  | cons call calls ih =>
    have hrest := ih (h.step call)
    simpa only [MessageIds.run, List.append_assoc, List.singleton_append] using hrest

end Runs

section Distinct

variable {α : Type} {expired : α → α → Bool} {before between : List (Call α)}
  {first second : Call α} {id : String}

/-- The answer to a call that follows others in the life of the process. -/
def answer (expired : α → α → Bool) (before : List (Call α)) (call : Call α) :
    Except PyError String :=
  (newMessageId expired call (run expired .empty before).2).1

def issuedIn (expired : α → α → Bool) (before between : List (Call α)) : List (String × α) :=
  issues (run expired (run expired .empty before).2 between).1

theorem run_snoc (before : List (Call α)) (call : Call α) :
    run expired .empty (before ++ [call]) =
      ((run expired .empty before).1 ++ [(call.now, answer expired before call)],
        (newMessageId expired call (run expired .empty before).2).2) := by
  rw [run_append]
  rfl

theorem answered_fresh {ring : Ring α} {call : Call α}
    (h : (newMessageId expired call ring).1 = .ok id) :
    id ∉ (ring.swept expired call.now).recentSet := by
  unfold newMessageId at h
  rcases draw_cases call.now (ring.swept expired call.now) (List.ofFn call.draws) with
    ⟨hdraw, -⟩ | ⟨_, token, _, -, -, hfresh, hdraw⟩
  · rw [hdraw] at h
    cases h
  · rw [hdraw] at h
    cases h
    exact hfresh

theorem message_ids_distinct (hfirst : answer expired before first = .ok id)
    (hsecond : answer expired (before ++ first :: between) second = .ok id) :
    (∃ call ∈ between ++ [second], expired call.now first.now = true) ∨
      dedupeMax ≤ (issuedIn expired (before ++ [first]) between).length := by
  have hinv : Inv expired (run expired .empty (before ++ first :: between)).1
      (run expired .empty (before ++ first :: between)).2 := inv_empty.run
  have hhistory : (run expired .empty (before ++ first :: between)).1 =
      (run expired .empty before).1 ++ (first.now, .ok id) ::
        (run expired (run expired .empty (before ++ [first])).2 between).1 := by
    rw [List.append_cons before first between, run_append, run_snoc, hfirst]
    simp
  have hfresh := answered_fresh hsecond
  rcases hinv.kept hhistory with ⟨e, he, hexp⟩ | hfull | hsuffix
  · obtain ⟨call, hmem, hnow⟩ := mem_run he
    exact Or.inl ⟨call, List.mem_append_left _ hmem, hnow ▸ hexp⟩
  · exact Or.inr hfull
  · by_cases hexp : expired second.now first.now = true
    · exact Or.inl ⟨second, by simp, hexp⟩
    · have hstill := suffix_dropWhile (p := fun e => expired second.now e.2) hsuffix
        (by simpa using hexp)
      rw [← Ring.swept_recent] at hstill
      have hmem := List.mem_map_of_mem (f := Prod.fst) (hstill.subset List.mem_cons_self)
      exact absurd ((hinv.agrees.swept.mem_iff id).mpr hmem) hfresh

def demoToken (b : UInt8) : Token := ⟨List.replicate idBytes b, List.length_replicate⟩

def demoCall (now : Nat) (b : UInt8) : Call Nat := ⟨now, fun _ => demoToken b⟩

def demoExpired (now t : Nat) : Bool := 3600 < now - t

/-- The generator repeats itself after more than an hour. -/
theorem message_ids_distinct_repeated :
    (∃ call ∈ [demoCall 20 8] ++ [demoCall 3701 7], demoExpired call.now 100 = true) ∨
      dedupeMax ≤ (issuedIn demoExpired ([] ++ [demoCall 100 7]) [demoCall 20 8]).length := by
  have hfirst : answer demoExpired [] (demoCall 100 7) = .ok "0707070707070707" := by
    decide +kernel
  have hsecond : answer demoExpired ([] ++ demoCall 100 7 :: [demoCall 20 8]) (demoCall 3701 7) =
      .ok "0707070707070707" := by
    decide +kernel
  exact message_ids_distinct hfirst hsecond

end Distinct

section Ordered

variable {α : Type} (expired : α → α → Bool)

/-- The ids of the last hour among the latest that were issued. -/
def recently (now : α) (issued : List (String × α)) : List String :=
  ((issued.drop (issued.length - dedupeMax)).filter fun e => !expired now e.2).map Prod.fst

def firstFresh (known : List String) (tokens : List Token) : Except PyError String :=
  match tokens.find? fun token => token.id ∉ known with
  | some token => .ok token.id
  | none => .error exhausted

def freshId (call : Call α) (issued : List (String × α)) : Except PyError String :=
  firstFresh (recently expired call.now issued) (List.ofFn call.draws)

/-- The generator without a ring: each draw is looked up among everything issued so far. -/
def search (issued : List (String × α)) : List (Call α) → History α
  | [] => []
  | call :: calls =>
    let answer := freshId expired call issued
    (call.now, answer) :: search (issued ++ issues [(call.now, answer)]) calls

/-- What an hour's passing has of the order of the clock readings. -/
def Ages [LE α] : Prop := ∀ ⦃now now' t t' : α⦄, now ≤ now' → t' ≤ t →
  expired now t = true → expired now' t' = true

variable {expired} {ring : Ring α} {now : α}

theorem draw_firstFresh {known : List String} (hmem : ∀ id, id ∈ ring.recentSet ↔ id ∈ known)
    (tokens : List Token) : (draw now ring tokens).1 = firstFresh known tokens := by
  induction tokens with
  | nil => rfl
  | cons token tokens ih =>
    by_cases hin : token.id ∈ known
    · have hset := (hmem token.id).mpr hin
      simp only [draw, hset, if_true, ih, firstFresh, List.find?_cons, hin, not_true_eq_false,
        decide_false]
    · have hset : token.id ∉ ring.recentSet := fun h => hin ((hmem token.id).mp h)
      simp only [draw, hset, if_false, firstFresh, List.find?_cons, hin, not_false_eq_true,
        decide_true]

variable [Preorder α] {call : Call α} {id : String}
  {history : History α} {calls : List (Call α)}

theorem dropWhile_fresh (hages : Ages expired) {recent : List (String × α)} {e : String × α}
    (hsorted : (recent.map Prod.snd).Pairwise (· ≤ ·))
    (he : e ∈ recent.dropWhile fun e => expired now e.2) : expired now e.2 = false := by
  induction recent with
  | nil => simp at he
  | cons x recent ih =>
    rw [List.map_cons, List.pairwise_cons] at hsorted
    by_cases hx : expired now x.2 = true
    · rw [List.dropWhile_cons, if_pos hx] at he
      exact ih hsorted.2 he
    · rw [List.dropWhile_cons, if_neg hx] at he
      rcases List.mem_cons.mp he with rfl | he
      · simpa using hx
      · by_contra hexp
        have hle := hsorted.1 e.2 (List.mem_map_of_mem he)
        exact hx (hages le_rfl hle (by simpa using hexp))

theorem Inv.mem_swept (h : Inv expired history ring) (hages : Ages expired)
    (hpast : ∀ e ∈ history, e.1 ≤ now) (hsorted : (history.map Prod.fst).Pairwise (· ≤ ·)) :
    id ∈ (ring.swept expired now).recentSet ↔ id ∈ recently expired now (issues history) := by
  rw [h.agrees.swept.mem_iff, recently, Ring.swept_recent]
  simp only [List.mem_map, List.mem_filter, Bool.not_eq_true']
  constructor
  · rintro ⟨e, he, rfl⟩
    obtain ⟨front, hfront⟩ := h.latest
    have htimes : (ring.recent.map Prod.snd).Pairwise (· ≤ ·) :=
      (hsorted.sublist issues_times).sublist (h.latest.sublist.map Prod.snd)
    have hle : (issues history).length - dedupeMax ≤ front.length := by
      have hlen := congrArg List.length hfront
      have hbounded := h.bounded
      rw [List.length_append] at hlen
      omega
    have hin : e ∈ (issues history).drop ((issues history).length - dedupeMax) := by
      rw [← hfront] at hle ⊢
      rw [List.drop_append_of_le_length hle]
      exact List.mem_append_right _ ((List.dropWhile_sublist _).subset he)
    exact ⟨e, ⟨hin, dropWhile_fresh hages htimes he⟩, rfl⟩
  · rintro ⟨⟨id, t⟩, ⟨he, hexp⟩, rfl⟩
    obtain ⟨l, l', hsplit⟩ := List.append_of_mem he
    have hwhole : issues history =
        (issues history).take ((issues history).length - dedupeMax) ++ l ++ (id, t) :: l' := by
      rw [List.append_assoc, ← hsplit, List.take_append_drop]
    have hshort : l'.length < dedupeMax := by
      have hlen := congrArg List.length hsplit
      rw [List.length_drop, List.length_append, List.length_cons] at hlen
      omega
    obtain ⟨pre, post, hhistory, hpost⟩ := issues_split hwhole
    rcases h.kept hhistory with ⟨e, hlater, hpassed⟩ | hfull | hsuffix
    · have hle : e.1 ≤ now := hpast e (by simp [hhistory, hlater])
      rw [hages hle le_rfl hpassed] at hexp
      cases hexp
    · rw [hpost] at hfull
      omega
    · have hstill := suffix_dropWhile (p := fun e => expired now e.2) hsuffix hexp
      exact ⟨(id, t), hstill.subset List.mem_cons_self, rfl⟩

theorem Inv.answer (h : Inv expired history ring) (hages : Ages expired)
    (hpast : ∀ e ∈ history, e.1 ≤ call.now)
    (hsorted : (history.map Prod.fst).Pairwise (· ≤ ·)) :
    (newMessageId expired call ring).1 = freshId expired call (issues history) :=
  draw_firstFresh (fun _ => h.mem_swept hages hpast hsorted) (List.ofFn call.draws)

theorem Inv.search (h : Inv expired history ring) (hages : Ages expired)
    (hsorted : (history.map Prod.fst ++ calls.map Call.now).Pairwise (· ≤ ·)) :
    (MessageIds.run expired ring calls).1 = search expired (issues history) calls := by
  induction calls generalizing history ring with
  | nil => rfl
  | cons call calls ih =>
    have hpast : ∀ e ∈ history, e.1 ≤ call.now := by
      intro e he
      exact (List.pairwise_append.mp hsorted).2.2 e.1 (List.mem_map_of_mem he) call.now (by simp)
    have hanswer := h.answer hages hpast (List.pairwise_append.mp hsorted).1
    have hrest := ih (h.step call) (by simpa using hsorted)
    simp only [MessageIds.run, MessageIds.search, hrest, issues_append, hanswer]

/-- Called with readings that do not decrease, the ring answers as if nothing were forgotten. -/
theorem message_ids_searched (hages : Ages expired)
    (hsorted : (calls.map Call.now).Pairwise (· ≤ ·)) :
    (run expired .empty calls).1 = search expired [] calls :=
  inv_empty.search hages (by simpa using hsorted)

theorem message_ids_searched_repeated :
    (run demoExpired .empty [demoCall 100 7, demoCall 100 7, demoCall 3701 7]).1 =
      search demoExpired [] [demoCall 100 7, demoCall 100 7, demoCall 3701 7] :=
  message_ids_searched (by
    intro now now' t t' hnow ht h
    simp only [demoExpired, decide_eq_true_eq] at h ⊢
    omega) (by decide)

end Ordered

end PyWhats.MessageIds
