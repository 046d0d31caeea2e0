import Mathlib.Data.List.Basic
import Mathlib.Data.List.Infix
import PyWhats.Lib.Registry

/-! The ping loop of the activator (`start_ping_loop`, `stop`, `_app_ping_loop`). Any number of
`<success>` stanzas may start it, it may be stopped at any point, and each ping may be answered
or fail. At most one loop runs; it gives the peer up exactly when its last pings have failed in
the number set, and after a stop nothing more is sent. -/

namespace PyWhats.Keepalive

/-- Where a task of `_app_ping_loop` waits, with its count of failures. -/
inductive Stage where
  | created
  | sleeping (failures : Nat)
  | pinging (failures : Nat)
  | done

structure Loop where
  stage : Stage
  cancelled : Bool

inductive Entry where
  | ping (loop : Nat)
  | answered (loop : Nat)
  | failed (loop : Nat)
  | fatal (loop : Nat)
  | stopped

/-- The tasks that were created, the last of them `_ping_task`, and what they did. -/
structure Activator where
  maxPingFailures : Int
  closed : Bool
  loops : List Loop
  log : List Entry

def Activator.new (maxPingFailures : Int) : Activator := ⟨maxPingFailures, false, [], []⟩

def Activator.pingTask (s : Activator) : Option Loop := s.loops.getLast?

def Loop.isDone (loop : Loop) : Bool :=
  match loop.stage with
  | .done => true
  | _ => false

def Activator.startPingLoop (s : Activator) : Activator :=
  if s.pingTask.any fun task => !task.isDone then s
  else { s with loops := s.loops ++ [⟨.created, false⟩] }

/-- `task.cancel()`: the task ends at its next turn. -/
def Activator.cancelTask (s : Activator) (i : Nat) : Activator :=
  { s with loops := s.loops.modify i fun task => { task with cancelled := true } }

def Activator.stop (s : Activator) : Activator :=
  { s.cancelTask (s.loops.length - 1) with closed := true, log := s.log ++ [.stopped] }

/-- `while not self._closed: await asyncio.sleep(interval)`. -/
def Activator.again (s : Activator) (failures : Nat) : Stage :=
  if s.closed then .done else .sleeping failures

/-- What a task does from one await to the next; the flag says how the ping it waited for
ended. -/
def Activator.advance (s : Activator) (i : Nat) (answered : Bool) : Stage → Stage × List Entry
  | .created => (s.again 0, [])
  | .sleeping failures => if s.closed then (.done, []) else (.pinging failures, [.ping i])
  | .pinging failures =>
    if answered then (s.again 0, [.answered i])
    else if s.maxPingFailures ≤ failures + 1 then (.done, [.failed i, .fatal i])
    else (s.again (failures + 1), [.failed i])
  | .done => (.done, [])

def Activator.resume (s : Activator) (i : Nat) (answered : Bool) : Activator :=
  match s.loops[i]? with
  | none => s
  | some task =>
    if task.cancelled then { s with loops := s.loops.set i { task with stage := .done } }
    else
      let (stage, entries) := s.advance i answered task.stage
      { s with loops := s.loops.set i { task with stage := stage }, log := s.log ++ entries }

/-- A task may also be cancelled from outside, as when the event loop shuts down. -/
inductive Event where
  | start
  | stop
  | cancel (loop : Nat)
  | resume (loop : Nat) (answered : Bool)

def Activator.step (s : Activator) : Event → Activator
  | .start => s.startPingLoop
  | .stop => s.stop
  | .cancel i => s.cancelTask i
  | .resume i answered => s.resume i answered

def Activator.run (s : Activator) (events : List Event) : Activator := events.foldl Activator.step s

def Entry.loop? : Entry → Option Nat
  | .ping i | .answered i | .failed i | .fatal i => some i
  | .stopped => none

def Entry.outcome? (i : Nat) : Entry → Option Bool
  | .answered j => if j = i then some true else none
  | .failed j => if j = i then some false else none
  | _ => none

/-- How the pings of a loop ended. -/
def outcomes (i : Nat) (log : List Entry) : List Bool := log.filterMap (Entry.outcome? i)

/-- How many of the latest outcomes are failures, one after the other. -/
def failing (l : List Bool) : Nat := (l.reverse.takeWhile fun answered => !answered).length

/-- After how many failures in a row the peer is presumed dead. -/
def limit (maxPingFailures : Int) : Nat := max 1 maxPingFailures.toNat

section

variable {s : Activator} {i : Nat} {log : List Entry}

theorem outcomes_append (log' : List Entry) :
    outcomes i (log ++ log') = outcomes i log ++ outcomes i log' := List.filterMap_append

theorem failing_failed (l : List Bool) : failing (l ++ [false]) = failing l + 1 := by
  simp [failing]

theorem failing_answered (l : List Bool) : failing (l ++ [true]) = 0 := by
  simp [failing]

theorem limit_reached {maxPingFailures : Int} {failures : Nat}
    (h : failures < limit maxPingFailures) :
    maxPingFailures ≤ failures + 1 ↔ failures + 1 = limit maxPingFailures := by
  unfold limit at *
  omega

/-- What the log says of a loop at each of its stages. -/
def Loop.Fits (maxPingFailures : Int) (log : List Entry) (i : Nat) (loop : Loop) : Prop :=
  match loop.stage with
  | .created => ∀ e ∈ log, e.loop? ≠ some i
  | .sleeping failures | .pinging failures =>
    failing (outcomes i log) = failures ∧ failures < limit maxPingFailures ∧ .fatal i ∉ log
  | .done => .fatal i ∈ log ↔ failing (outcomes i log) = limit maxPingFailures

structure Inv (s : Activator) : Prop where
  fits : ∀ {i : Nat} {loop : Loop}, s.loops[i]? = some loop →
    loop.Fits s.maxPingFailures s.log i
  known : ∀ e ∈ s.log, ∀ i, e.loop? = some i → i < s.loops.length
  last : ∀ {i : Nat} {loop : Loop}, s.loops[i]? = some loop → loop.stage ≠ .done →
    i + 1 = s.loops.length
  closing : s.closed = true → ∀ loop ∈ s.loops,
    loop.stage = .done ∨ loop.stage = .created ∨ loop.cancelled = true

theorem outcomes_others {new : List Entry} (h : ∀ e ∈ new, e.loop? ≠ some i) :
    outcomes i new = [] := by
  rw [outcomes, List.filterMap_eq_nil_iff]
  intro e he
  have hne := h e he
  cases e with
  | answered j | failed j =>
    have hij : j ≠ i := fun hij => hne (congrArg some hij)
    simp [Entry.outcome?, hij]
  | ping j | fatal j | stopped => rfl

theorem Loop.Fits.append {max : Int} {loop : Loop} {new : List Entry} (h : loop.Fits max log i)
    (hnew : ∀ e ∈ new, e.loop? ≠ some i) : loop.Fits max (log ++ new) i := by
  have houtcomes : outcomes i (log ++ new) = outcomes i log := by
    rw [outcomes_append, outcomes_others hnew, List.append_nil]
  have hfatal : Entry.fatal i ∈ log ++ new ↔ .fatal i ∈ log := by
    rw [List.mem_append]
    constructor
    · intro hor
      exact hor.resolve_right fun hin => hnew _ hin rfl
    · exact Or.inl
  obtain ⟨stage, cancelled⟩ := loop
  cases stage with
  | created =>
    intro e he
    rcases List.mem_append.mp he with he | he
    · exact h e he
    · exact hnew e he
  | sleeping failures | pinging failures | done =>
    simpa only [Loop.Fits, houtcomes, hfatal] using h

theorem limit_pos (max : Int) : 0 < limit max := by
  unfold limit
  omega

/-- A task that ends without another ping leaves the balance as it was. -/
theorem Loop.Fits.balance {max : Int} {loop : Loop} (h : loop.Fits max log i) :
    .fatal i ∈ log ↔ failing (outcomes i log) = limit max := by
  obtain ⟨stage, cancelled⟩ := loop
  cases stage with
  | created =>
    have hnone : outcomes i log = [] := outcomes_others h
    have hfatal : Entry.fatal i ∉ log := fun hin => h _ hin rfl
    have hpos := limit_pos max
    simp only [hfatal, hnone, failing, List.reverse_nil, List.takeWhile_nil, List.length_nil,
      false_iff]
    omega
  | sleeping failures | pinging failures =>
    obtain ⟨hfailing, hlt, hfatal⟩ := h
    simp only [hfatal, hfailing, false_iff]
    omega
  | done => exact h

theorem fits_again {failures : Nat} {cancelled : Bool}
    (hfailing : failing (outcomes i log) = failures) (hlt : failures < limit s.maxPingFailures)
    (hfatal : .fatal i ∉ log) :
    Loop.Fits s.maxPingFailures log i ⟨s.again failures, cancelled⟩ := by
  unfold Activator.again
  by_cases hclosed : s.closed = true
  · have hnot : ¬ failing (outcomes i log) = limit s.maxPingFailures := by omega
    rw [if_pos hclosed]
    exact iff_of_false hfatal hnot
  · rw [if_neg hclosed]
    exact ⟨hfailing, hlt, hfatal⟩

theorem again_closed {failures : Nat} (h : s.closed = true) : s.again failures = .done := by
  unfold Activator.again
  rw [if_pos h]

theorem advance_fits {answered : Bool} {loop : Loop} (h : loop.Fits s.maxPingFailures log i) :
    Loop.Fits s.maxPingFailures (log ++ (s.advance i answered loop.stage).2) i
      ⟨(s.advance i answered loop.stage).1, loop.cancelled⟩ := by
  obtain ⟨stage, cancelled⟩ := loop
  cases stage with
  | created =>
    have hnone : outcomes i log = [] := outcomes_others h
    have hfatal : Entry.fatal i ∉ log := fun hin => h _ hin rfl
    simp only [Activator.advance, List.append_nil]
    exact fits_again (by simp [hnone, failing]) (limit_pos _) hfatal
  | sleeping failures =>
    obtain ⟨hfailing, hlt, hfatal⟩ := h
    simp only [Activator.advance]
    by_cases hclosed : s.closed = true
    · have hnot : ¬ failing (outcomes i log) = limit s.maxPingFailures := by omega
      rw [if_pos hclosed, List.append_nil]
      exact iff_of_false hfatal hnot
    · rw [if_neg hclosed]
      refine ⟨?_, hlt, by simpa using hfatal⟩
      rw [outcomes_append, show outcomes i [Entry.ping i] = [] from rfl, List.append_nil, hfailing]
  | pinging failures =>
    obtain ⟨hfailing, hlt, hfatal⟩ := h
    have hfailed : failing (outcomes i (log ++ [.failed i])) = failures + 1 := by
      have hone : outcomes i [.failed i] = [false] := by simp [outcomes, Entry.outcome?]
      rw [outcomes_append, hone, failing_failed, hfailing]
    simp only [Activator.advance]
    cases answered with
    | true =>
      rw [if_pos rfl]
      refine fits_again ?_ (limit_pos _) (by simpa using hfatal)
      have hone : outcomes i [.answered i] = [true] := by simp [outcomes, Entry.outcome?]
      rw [outcomes_append, hone, failing_answered]
    | false =>
      rw [if_neg Bool.false_ne_true]
      by_cases hreached : s.maxPingFailures ≤ failures + 1
      · rw [if_pos hreached]
        have hlimit := (limit_reached hlt).mp hreached
        have hnone : outcomes i [.fatal i] = [] := rfl
        have hboth : failing (outcomes i (log ++ [.failed i, .fatal i])) =
            limit s.maxPingFailures := by
          rw [List.append_cons, outcomes_append, hnone, List.append_nil, hfailed, hlimit]
        exact iff_of_true (by simp) hboth
      · rw [if_neg hreached]
        have hnot : failures + 1 ≠ limit s.maxPingFailures := fun h =>
          hreached ((limit_reached hlt).mpr h)
        exact fits_again hfailed (by omega) (by simpa using hfatal)
  | done => simpa only [Activator.advance, List.append_nil] using h

theorem advance_own {answered : Bool} {stage : Stage} :
    ∀ e ∈ (s.advance i answered stage).2, e.loop? = some i := by
  intro e he
  cases stage <;> simp only [Activator.advance] at he
  · cases he
  · split at he <;> simp_all [Entry.loop?]
  · split at he
    · simp_all [Entry.loop?]
    · split at he
      · simp only [List.mem_cons, List.not_mem_nil, or_false] at he
        rcases he with rfl | rfl <;> rfl
      · simp_all [Entry.loop?]
  · cases he

theorem inv_new (max : Int) : Inv (Activator.new max) := by
  constructor <;> simp [Activator.new]

theorem Inv.start (h : Inv s) : Inv s.startPingLoop := by
  unfold Activator.startPingLoop
  by_cases hrunning : (s.pingTask.any fun task => !task.isDone) = true
  · rw [if_pos hrunning]
    exact h
  · rw [if_neg hrunning]
    have hdone : ∀ {j : Nat} {loop : Loop}, s.loops[j]? = some loop → loop.stage = .done := by
      intro j loop hj
      by_contra hstage
      have hlast := h.last hj hstage
      have htask : s.pingTask = some loop := by
        rw [Activator.pingTask, List.getLast?_eq_getElem?, ← hlast, Nat.add_sub_cancel, hj]
      refine hrunning ?_
      obtain ⟨stage, cancelled⟩ := loop
      cases stage <;> simp_all [Loop.isDone]
    constructor
    · intro j loop hj
      rcases Registry.get_add hj with hold | ⟨rfl, rfl⟩
      · exact h.fits hold
      · intro e he heq
        exact Nat.lt_irrefl _ (h.known e he _ heq)
    · intro e he j heq
      have hlt := h.known e he j heq
      rw [List.length_append, List.length_singleton]
      omega
    · intro j loop hj hstage
      rcases Registry.get_add hj with hold | ⟨rfl, -⟩
      · exact absurd (hdone hold) hstage
      · rw [List.length_append, List.length_singleton]
    · intro hclosed loop hloop
      rcases List.mem_append.mp hloop with hold | hnew
      · exact h.closing hclosed loop hold
      · rw [List.mem_singleton.mp hnew]
        exact Or.inr (Or.inl rfl)

theorem cancelTask_get {j : Nat} {loop : Loop} (hj : (s.cancelTask i).loops[j]? = some loop) :
    ∃ before, s.loops[j]? = some before ∧ loop.stage = before.stage ∧
      (before.cancelled = true ∨ i = j → loop.cancelled = true) := by
  simp only [Activator.cancelTask, List.getElem?_modify] at hj
  obtain ⟨before, hbefore, rfl⟩ := Option.map_eq_some_iff.mp hj
  by_cases hij : i = j
  · simp [hbefore, hij]
  · simp [hbefore, hij]

theorem Loop.Fits.of_stage {max : Int} {loop before : Loop} (h : before.Fits max log i)
    (hstage : loop.stage = before.stage) : loop.Fits max log i := by
  unfold Loop.Fits at h ⊢
  rw [hstage]
  exact h

theorem Inv.cancelTask (h : Inv s) (k : Nat) : Inv (s.cancelTask k) := by
  have hlen : (s.cancelTask k).loops.length = s.loops.length := by simp [Activator.cancelTask]
  constructor
  · intro j loop hj
    obtain ⟨before, hbefore, hstage, -⟩ := cancelTask_get hj
    exact (h.fits hbefore).of_stage hstage
  · intro e he j heq
    rw [hlen]
    exact h.known e he j heq
  · intro j loop hj hstage
    obtain ⟨before, hbefore, hsame, -⟩ := cancelTask_get hj
    rw [hlen]
    exact h.last hbefore (hsame ▸ hstage)
  · intro hclosed loop hloop
    obtain ⟨j, hj⟩ := List.mem_iff_getElem?.mp hloop
    obtain ⟨before, hbefore, hsame, hcancelled⟩ := cancelTask_get hj
    rcases h.closing hclosed before (List.mem_of_getElem? hbefore) with hdone | hnew | hcancel
    · exact Or.inl (hsame.trans hdone)
    · exact Or.inr (Or.inl (hsame.trans hnew))
    · exact Or.inr (Or.inr (hcancelled (Or.inl hcancel)))

theorem Inv.stop (h : Inv s) : Inv s.stop := by
  have hcancel := h.cancelTask (s.loops.length - 1)
  constructor
  · intro j loop hj
    exact (hcancel.fits hj).append (by simp [Entry.loop?])
  · intro e he j heq
    rcases List.mem_append.mp he with he | he
    · exact hcancel.known e he j heq
    · rw [List.mem_singleton.mp he] at heq
      cases heq
  · exact hcancel.last
  · intro _ loop hloop
    obtain ⟨j, hj⟩ := List.mem_iff_getElem?.mp hloop
    obtain ⟨before, hbefore, hsame, hcancelled⟩ := cancelTask_get hj
    by_cases hdone : before.stage = .done
    · exact Or.inl (hsame.trans hdone)
    · have hlast := h.last hbefore hdone
      exact Or.inr (Or.inr (hcancelled (Or.inr (by omega))))

/-- One task moves on, and the log says only of this task what it has done. -/
theorem Inv.set (h : Inv s) {loop loop' : Loop} {new : List Entry} (hi : s.loops[i]? = some loop)
    (hfits : loop'.Fits s.maxPingFailures (s.log ++ new) i)
    (hown : ∀ e ∈ new, e.loop? = some i) (hstage : loop'.stage ≠ .done → loop.stage ≠ .done)
    (hclosing : s.closed = true →
      loop'.stage = .done ∨ loop'.stage = .created ∨ loop'.cancelled = true) :
    Inv { s with loops := s.loops.set i loop', log := s.log ++ new } := by
  have hcases : ∀ {j : Nat} {other : Loop}, (s.loops.set i loop')[j]? = some other →
      (i = j ∧ other = loop') ∨ (i ≠ j ∧ s.loops[j]? = some other) := by
    intro j other hj
    rw [Registry.get_set hi] at hj
    by_cases hij : i = j
    · rw [if_pos hij] at hj
      cases hj
      exact Or.inl ⟨hij, rfl⟩
    · rw [if_neg hij] at hj
      exact Or.inr ⟨hij, hj⟩
  constructor
  · intro j other hj
    rcases hcases hj with ⟨rfl, rfl⟩ | ⟨hij, hold⟩
    · exact hfits
    · refine (h.fits hold).append fun e he heq => ?_
      exact hij (Option.some.inj ((hown e he).symm.trans heq))
  · intro e he j heq
    rw [List.length_set]
    rcases List.mem_append.mp he with he | he
    · exact h.known e he j heq
    · rw [hown e he] at heq
      cases heq
      exact (List.getElem?_eq_some_iff.mp hi).1
  · intro j other hj hnot
    rw [List.length_set]
    rcases hcases hj with ⟨rfl, rfl⟩ | ⟨-, hold⟩
    · exact h.last hi (hstage hnot)
    · exact h.last hold hnot
  · intro hclosed other hother
    rcases List.mem_or_eq_of_mem_set hother with hold | rfl
    · exact h.closing hclosed other hold
    · exact hclosing hclosed

theorem Inv.resume (h : Inv s) (i : Nat) (answered : Bool) : Inv (s.resume i answered) := by
  unfold Activator.resume
  cases hi : s.loops[i]? with
  | none => exact h
  | some task =>
    dsimp only
    by_cases hcancelled : task.cancelled = true
    · rw [if_pos hcancelled]
      have hfits : Loop.Fits s.maxPingFailures (s.log ++ []) i { task with stage := .done } := by
        rw [List.append_nil]
        exact (h.fits hi).balance
      have hset := h.set hi hfits (by simp) (fun hnot => absurd rfl hnot) (fun _ => Or.inl rfl)
      simpa only [List.append_nil] using hset
    · rw [if_neg hcancelled]
      refine h.set hi (advance_fits (h.fits hi)) advance_own ?_ ?_
      · intro hnot hdone
        rw [hdone] at hnot
        exact hnot rfl
      · intro hclosed
        rcases h.closing hclosed task (List.mem_of_getElem? hi) with hdone | hcreated | hcancel
        · exact Or.inl (by rw [hdone]; rfl)
        · exact Or.inl (by rw [hcreated]; exact again_closed hclosed)
        · exact absurd hcancel hcancelled

theorem Inv.step (h : Inv s) (e : Event) : Inv (s.step e) := by
  cases e with
  | start => exact h.start
  | stop => exact h.stop
  | cancel i => exact h.cancelTask i
  | resume i answered => exact h.resume i answered

theorem Inv.run (h : Inv s) (events : List Event) : Inv (s.run events) := by
  induction events generalizing s with
  | nil => exact h
  | cons e events ih => exact ih (h.step e)

/-- What a run adds to the log: nothing but stops once the activator is closed, and nothing of
a task that has given the peer up. -/
def Grows (s s' : Activator) : Prop :=
  (s.closed = true → s'.closed = true) ∧ ∃ new, s'.log = s.log ++ new ∧
    (s.closed = true → ∀ e ∈ new, e = .stopped) ∧
    ∀ e ∈ new, ∀ i, e.loop? = some i → .fatal i ∉ s.log

theorem Grows.of_log {s' : Activator} (hclosed : s'.closed = s.closed) (hlog : s'.log = s.log) :
    Grows s s' :=
  ⟨fun h => hclosed.trans h, [], by simp [hlog], by simp, by simp⟩

theorem Grows.trans {s₁ s₂ s₃ : Activator} (h : Grows s₁ s₂) (h' : Grows s₂ s₃) : Grows s₁ s₃ := by
  obtain ⟨hclosed, new, hlog, hquiet, hover⟩ := h
  obtain ⟨hclosed', new', hlog', hquiet', hover'⟩ := h'
  refine ⟨fun hc => hclosed' (hclosed hc), new ++ new', ?_, ?_, ?_⟩
  · rw [hlog', hlog, List.append_assoc]
  · intro hc e he
    rcases List.mem_append.mp he with he | he
    · exact hquiet hc e he
    · exact hquiet' (hclosed hc) e he
  · intro e he i hi
    rcases List.mem_append.mp he with he | he
    · exact hover e he i hi
    · have hnot := hover' e he i hi
      rw [hlog] at hnot
      exact fun hin => hnot (List.mem_append_left _ hin)

theorem Inv.grows_resume (h : Inv s) (i : Nat) (answered : Bool) :
    Grows s (s.resume i answered) := by
  unfold Activator.resume
  cases hi : s.loops[i]? with
  | none => exact Grows.of_log rfl rfl
  | some task =>
    dsimp only
    by_cases hcancelled : task.cancelled = true
    · rw [if_pos hcancelled]
      exact Grows.of_log rfl rfl
    · rw [if_neg hcancelled]
      refine ⟨id, (s.advance i answered task.stage).2, rfl, ?_, ?_⟩
      · intro hclosed e he
        rcases h.closing hclosed task (List.mem_of_getElem? hi) with hdone | hcreated | hcancel
        · rw [hdone] at he
          cases he
        · rw [hcreated] at he
          cases he
        · exact absurd hcancel hcancelled
      · intro e he j hj hfatal
        have hij : i = j := Option.some.inj ((advance_own e he).symm.trans hj)
        subst hij
        have hfits := h.fits hi
        obtain ⟨stage, cancelled⟩ := task
        cases stage with
        | created => cases he
        | sleeping failures | pinging failures => exact hfits.2.2 hfatal
        | done => cases he

theorem Inv.grows_run (h : Inv s) (events : List Event) : Grows s (s.run events) := by
  induction events generalizing s with
  | nil => exact Grows.of_log rfl rfl
  | cons e events ih =>
    have hstep : Grows s (s.step e) := by
      cases e with
      | start =>
        simp only [Activator.step, Activator.startPingLoop]
        split
        · exact Grows.of_log rfl rfl
        · exact Grows.of_log rfl rfl
      | stop => exact ⟨fun _ => rfl, [.stopped], rfl, by simp, by simp [Entry.loop?]⟩
      | cancel i => exact Grows.of_log rfl rfl
      | resume i answered => exact h.grows_resume i answered
    exact hstep.trans (ih (h.step e))

theorem Inv.fatal_iff (h : Inv s) (i : Nat) :
    .fatal i ∈ s.log ↔ failing (outcomes i s.log) = limit s.maxPingFailures := by
  cases hi : s.loops[i]? with
  | some loop => exact (h.fits hi).balance
  | none =>
    have hunknown : ∀ e ∈ s.log, e.loop? ≠ some i := by
      intro e he heq
      have hlt := h.known e he i heq
      rw [List.getElem?_eq_none_iff] at hi
      omega
    have hfits : Loop.Fits s.maxPingFailures s.log i ⟨.created, false⟩ := hunknown
    exact hfits.balance

theorem run_maxPingFailures (events : List Event) :
    (s.run events).maxPingFailures = s.maxPingFailures := by
  induction events generalizing s with
  | nil => rfl
  | cons e events ih =>
    have hstep : (s.step e).maxPingFailures = s.maxPingFailures := by
      cases e with
      | start =>
        simp only [Activator.step, Activator.startPingLoop]
        split <;> rfl
      | stop => rfl
      | cancel i => rfl
      | resume i answered =>
        simp only [Activator.step, Activator.resume]
        split
        · rfl
        · split <;> rfl
    exact (ih (s := s.step e)).trans hstep

/-- At every point of every run at most one ping loop is alive, and a loop has presumed the peer
dead exactly when its latest pings have failed as often as the limit says; it does nothing more
from then on, and nothing at all is sent or presumed after a stop. -/
theorem keepalive_presumes (maxPingFailures : Int) (events later : List Event) :
    let s := (Activator.new maxPingFailures).run events
    (∀ (i j : Nat) (a b : Loop), s.loops[i]? = some a → s.loops[j]? = some b →
      a.stage ≠ .done → b.stage ≠ .done → i = j) ∧
    (∀ i, .fatal i ∈ s.log ↔ failing (outcomes i s.log) = limit maxPingFailures) ∧
    ∃ new, (s.run later).log = s.log ++ new ∧ (s.closed = true → ∀ e ∈ new, e = .stopped) ∧
      ∀ e ∈ new, ∀ i, e.loop? = some i → .fatal i ∉ s.log := by
  intro s
  have h : Inv s := (inv_new maxPingFailures).run events
  refine ⟨?_, ?_, (h.grows_run later).2⟩
  · intro i j a b hi hj ha hb
    have hlast := h.last hi ha
    have hlast' := h.last hj hb
    omega
  · intro i
    have hiff := h.fatal_iff i
    rwa [show s.maxPingFailures = maxPingFailures from run_maxPingFailures events] at hiff

end

end PyWhats.Keepalive
