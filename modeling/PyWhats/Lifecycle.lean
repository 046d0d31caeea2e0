import Mathlib.Data.List.Basic

/-! The life of a `Client` (`client.py`): sessions that `_run_login` establishes, their
background task, `disconnect` and `wait_closed`. A step runs up to the next await. -/

namespace PyWhats.Lifecycle

inductive ClientEvent where
  | connected
  | disconnected
  deriving DecidableEq

/-- Where the login and the background task of a session stand: the handlers of
`connected` run, the task is created and not yet run, it runs, it runs the handlers of
`disconnected`, it is done. -/
inductive Phase where
  | greeting
  | created
  | running
  | emitting
  | done
  deriving DecidableEq

structure Session where
  phase : Phase := .greeting
  cancelled : Bool := false
  deriving DecidableEq

/-- Where a call of `disconnect` stands: it awaits the cancelled background task, it is
about to take the socket, or it awaits the close of the socket. -/
inductive CallPhase where
  | joining (task : Nat)
  | closing
  | socketClosing
  deriving DecidableEq

structure Call where
  session : Nat
  phase : CallPhase
  deriving DecidableEq

/-- The fields of the client that the two teardown paths look at, with its sessions by
number, the calls of `disconnect` in progress and, for each call of `wait_closed` that
waits, the sessions that were established when it was made. `log` holds the events,
`live` the sessions that have not ended and `early` those that some `wait_closed` call
did not wait for. -/
structure ClientState where
  connected : Bool := false
  bgTask : Option Nat := none
  sock : Bool := false
  receiver : Bool := false
  closed : Bool := false
  sessions : List Session := []
  calls : List Call := []
  waits : List (List Nat) := []
  log : List ClientEvent := []
  live : List Nat := []
  early : List Nat := []
  deriving DecidableEq

namespace ClientState

/-- `_run_login` after the handshake, up to the handlers of `connected`. -/
def establish (s : ClientState) : ClientState :=
  { s with
    connected := true
    sock := true
    receiver := true
    sessions := s.sessions ++ [{}]
    log := s.log ++ [.connected]
    live := s.live ++ [s.sessions.length] }

def spawn (s : ClientState) (n : Nat) : Option ClientState :=
  match s.sessions[n]? with
  | some ⟨.greeting, _⟩ =>
    some { s with sessions := s.sessions.set n ⟨.created, false⟩, bgTask := some n }
  | _ => none

/-- The first step of the background task, which a cancellation in time prevents. -/
def taskStarts (s : ClientState) (n : Nat) : Option ClientState :=
  match s.sessions[n]? with
  | some ⟨.created, true⟩ => some { s with sessions := s.sessions.set n ⟨.done, true⟩ }
  | some ⟨.created, false⟩ =>
    if s.receiver then some { s with sessions := s.sessions.set n ⟨.running, false⟩ }
    else some { s with sessions := s.sessions.set n ⟨.done, false⟩ }
  | _ => none

/-- The `finally` of the background task: after a close by the peer or the keepalive, an
error of the receiver, or a cancellation. -/
def taskEnds (s : ClientState) (n : Nat) : Option ClientState :=
  match s.sessions[n]? with
  | some ⟨.running, cancelled⟩ =>
    some { s with
      sessions := s.sessions.set n ⟨.emitting, cancelled⟩
      connected := false
      closed := true
      log := s.log ++ [.disconnected]
      live := s.live.filter (· ≠ n) }
  | _ => none

def taskReturns (s : ClientState) (n : Nat) : Option ClientState :=
  match s.sessions[n]? with
  | some ⟨.emitting, cancelled⟩ => some { s with sessions := s.sessions.set n ⟨.done, cancelled⟩ }
  | _ => none

def already (s : ClientState) : Bool := !s.connected && s.bgTask.isNone && !s.sock

/-- Cancels the background task unless it is done, and returns what to await. -/
def cancelTask (s : ClientState) : List Session × CallPhase :=
  match s.bgTask with
  | none => (s.sessions, .closing)
  | some task =>
    match s.sessions[task]? with
    | some session =>
      if session.phase = .done then (s.sessions, .closing)
      else (s.sessions.set task ⟨session.phase, true⟩, .joining task)
    | none => (s.sessions, .closing)

/-- `disconnect` up to its first await; with nothing to close it has none. -/
def disconnect (s : ClientState) : ClientState :=
  if s.already then { s with receiver := false, closed := true }
  else
    { s with
      connected := false
      bgTask := none
      sessions := s.cancelTask.1
      calls := s.calls ++ [⟨s.sessions.length - 1, s.cancelTask.2⟩] }

/-- A call of `disconnect` goes on after its await. -/
def proceed (s : ClientState) (call : Call) : Option ClientState :=
  match call.phase with
  | .joining task =>
    if (s.sessions[task]?).any (fun x => x.phase = .done) then
      some { s with calls := (s.calls.erase call) ++ [{ call with phase := .closing }] }
    else none
  | .closing =>
    some { s with
      sock := false
      calls := (s.calls.erase call) ++ [{ call with phase := .socketClosing }] }
  | .socketClosing =>
    some { s with
      receiver := false
      closed := true
      calls := s.calls.erase call
      log := s.log ++ [.disconnected]
      live := s.live.filter (· ≠ call.session) }

def waitClosed (s : ClientState) : ClientState :=
  if s.closed then { s with early := s.early ++ s.live }
  else { s with waits := s.waits ++ [s.live] }

def waitReturns (s : ClientState) (wait : List Nat) : Option ClientState :=
  if s.closed ∧ wait ∈ s.waits then
    some { s with
      waits := s.waits.erase wait
      early := s.early ++ wait.filter (· ∈ s.live) }
  else none

inductive Act where
  | establish
  | spawn (n : Nat)
  | taskStarts (n : Nat)
  | taskEnds (n : Nat)
  | taskReturns (n : Nat)
  | disconnect
  | proceed (call : Call)
  | waitClosed
  | waitReturns (wait : List Nat)

def step (s : ClientState) : Act → Option ClientState
  | .establish => some s.establish
  | .spawn n => s.spawn n
  | .taskStarts n => s.taskStarts n
  | .taskEnds n => s.taskEnds n
  | .taskReturns n => s.taskReturns n
  | .disconnect => some s.disconnect
  | .proceed call => if call ∈ s.calls then s.proceed call else none
  | .waitClosed => some s.waitClosed
  | .waitReturns wait => s.waitReturns wait

def run (s : ClientState) : List Act → Option ClientState
  | [] => some s
  | act :: acts => (s.step act).bind fun s => run s acts

end ClientState

section Property

/-- What is emitted in a session: the events up to the next `connected`. -/
def inSession (events : List ClientEvent) : List ClientEvent := events.takeWhile (· ≠ .connected)

/-- Every `connected` is followed by one `disconnected` before the next one, but for
the session that is still established, and no `wait_closed` call returned before the
sessions that were established at its start had ended. -/
structure EndsOnce (s : ClientState) : Prop where
  events : ∀ before after, s.log = before ++ .connected :: after →
    (inSession after).count .disconnected = if s.live ≠ [] ∧ .connected ∉ after then 0 else 1
  first : s.log.head? ≠ some .disconnected
  waits : s.early = []

/-- Whether the log has an open session; `none` for a log that is not a sequence of
sessions. -/
def statusStep : Option Bool → ClientEvent → Option Bool
  | some false, .connected => some true
  | some true, .disconnected => some false
  | _, _ => none

def status (log : List ClientEvent) : Option Bool := log.foldl statusStep (some false)

end Property

open ClientState

section Condition

/-- A session is established, and `disconnect` may be closing it. -/
def busy (s : ClientState) : Bool := s.connected || !s.calls.isEmpty

/-- Nothing of the session is left but the handlers of `disconnected`. -/
def finished (session : Session) : Bool := session.phase = .done || session.phase = .emitting

/-- The condition on a step: a login completes after the sessions before it have ended
and their background tasks cannot begin any more; `disconnect` finds nothing to close, and
then nobody waits for another call of it, or a session whose background task has not
begun to run and no other call; the task does not begin to run while `disconnect` closes
the session; and `wait_closed` is called in a session before the first end of a session. -/
def Allowed (s : ClientState) : Act → Prop
  | .establish => busy s = false ∧ s.sessions.all finished
  | .taskStarts n => s.sessions[n]? = some ⟨.created, false⟩ → s.receiver → s.calls = []
  | .disconnect => s.already ∧ (s.calls = [] ∨ s.waits = []) ∨
      s.connected ∧ s.calls = [] ∧ ∀ session ∈ s.sessions, session.phase ≠ .running
  | .waitClosed => busy s → s.closed = false
  | _ => True

instance (s : ClientState) : (act : Act) → Decidable (Allowed s act)
  | .establish => inferInstanceAs (Decidable (busy s = false ∧ s.sessions.all finished))
  | .taskStarts n => inferInstanceAs (Decidable
      (s.sessions[n]? = some ⟨.created, false⟩ → s.receiver → s.calls = []))
  | .disconnect => inferInstanceAs (Decidable (s.already ∧ (s.calls = [] ∨ s.waits = []) ∨
      s.connected ∧ s.calls = [] ∧ ∀ session ∈ s.sessions, session.phase ≠ .running))
  | .waitClosed => inferInstanceAs (Decidable (busy s → s.closed = false))
  | .spawn _ | .taskEnds _ | .taskReturns _ | .proceed _ | .waitReturns _ =>
    inferInstanceAs (Decidable True)

def AllowedRun (s : ClientState) : List Act → Prop
  | [] => True
  | act :: acts => Allowed s act ∧
    match step s act with
    | some s' => AllowedRun s' acts
    | none => True

end Condition

section Log

theorem status_append (log : List ClientEvent) (e : ClientEvent) :
    status (log ++ [e]) = statusStep (status log) e := by
  simp only [status, List.foldl_append, List.foldl_cons, List.foldl_nil]

theorem foldl_statusStep_none (log : List ClientEvent) : log.foldl statusStep none = none := by
  induction log with
  | nil => rfl
  | cons e log ih => simpa only [List.foldl_cons, statusStep] using ih

theorem count_disconnected {after : List ClientEvent} {live : Bool}
    (h : after.foldl statusStep (some true) = some live) :
    (inSession after).count .disconnected =
      if live = true ∧ .connected ∉ after then 0 else 1 := by
  cases after with
  | nil =>
    cases h
    rfl
  | cons e after =>
    cases e with
    | connected => simp [statusStep, foldl_statusStep_none] at h
    | disconnected =>
      cases after with
      | nil =>
        cases h
        rfl
      | cons e after =>
        cases e with
        | connected => simp [inSession]
        | disconnected => simp [statusStep, foldl_statusStep_none] at h

/-- A log that is a sequence of sessions has one `disconnected` for each `connected`. -/
theorem count_of_status {log before after : List ClientEvent} {live : Bool}
    (h : status log = some live) (hlog : log = before ++ .connected :: after) :
    (inSession after).count .disconnected =
      if live = true ∧ .connected ∉ after then 0 else 1 := by
  rw [hlog, status, List.foldl_append, List.foldl_cons] at h
  cases hbefore : before.foldl statusStep (some false) with
  | none => simp [hbefore, statusStep, foldl_statusStep_none] at h
  | some open_ =>
    cases open_ with
    | true => simp [hbefore, statusStep, foldl_statusStep_none] at h
    | false =>
      rw [hbefore] at h
      exact count_disconnected h

theorem head_of_status {log : List ClientEvent} {live : Bool} (h : status log = some live) :
    log.head? ≠ some .disconnected := by
  cases log with
  | nil => simp
  | cons e log =>
    cases e with
    | connected => simp
    | disconnected => simp [status, statusStep, foldl_statusStep_none] at h

end Log

section Invariant

def last (s : ClientState) : Nat := s.sessions.length - 1

def Up (s : ClientState) : Prop :=
  s.connected = true ∧ s.calls = [] ∧ s.sessions ≠ [] ∧ s.live = [last s]

def Closing (s : ClientState) : Prop :=
  s.connected = false ∧ (∃ phase, s.calls = [⟨last s, phase⟩]) ∧ s.sessions ≠ [] ∧
    s.live = [last s]

def Down (s : ClientState) : Prop := s.connected = false ∧ s.calls = [] ∧ s.live = []

def Fits (s : ClientState) (n : Nat) (session : Session) : Prop :=
  match session.phase with
  | .greeting => Down s → s.receiver = false
  | .created => session.cancelled = false → s.bgTask = some n ∧ (Down s → s.receiver = false)
  | .running => Up s
  | .emitting | .done => True

structure Inv (s : ClientState) : Prop where
  mode : Up s ∨ Closing s ∨ Down s
  log : status s.log = some (!s.live.isEmpty)
  last : ∀ n session, s.sessions[n]? = some session → finished session = false →
    n + 1 = s.sessions.length
  fits : ∀ n session, s.sessions[n]? = some session → Fits s n session
  waits : ∀ wait ∈ s.waits, ∀ n ∈ wait, n < s.sessions.length ∧ (s.closed = true → n ∉ s.live)
  early : s.early = []

theorem inv_new : Inv {} where
  mode := Or.inr (Or.inr ⟨rfl, rfl, rfl⟩)
  log := rfl
  last n session h := by simp at h
  fits n session h := by simp at h
  waits wait h := by simp at h
  early := rfl

theorem Inv.endsOnce {s : ClientState} (h : Inv s) : EndsOnce s where
  events before after hlog := by
    have hcount := count_of_status h.log hlog
    rw [hcount]
    cases s.live <;> simp
  first := head_of_status h.log
  waits := h.early

variable {s s' : ClientState}

theorem Inv.down (h : Inv s) (hbusy : busy s = false) : Down s := by
  simp only [busy, Bool.or_eq_false_iff, Bool.not_eq_false'] at hbusy
  rcases h.mode with hup | hclosing | hdown
  · rw [hup.1] at hbusy
    cases hbusy.1
  · obtain ⟨phase, hcalls⟩ := hclosing.2.1
    rw [hcalls] at hbusy
    cases hbusy.2
  · exact hdown

theorem Inv.closing (h : Inv s) {call : Call} (hcall : call ∈ s.calls) : Closing s := by
  rcases h.mode with hup | hclosing | hdown
  · rw [hup.2.1] at hcall
    cases hcall
  · exact hclosing
  · rw [hdown.2.1] at hcall
    cases hcall

theorem Inv.live_lt (h : Inv s) {n : Nat} (hn : n ∈ s.live) : n < s.sessions.length := by
  have hlast : s.sessions ≠ [] → s.live = [Lifecycle.last s] → n < s.sessions.length := by
    intro hne hlive
    rw [hlive, List.mem_singleton] at hn
    have hpos := List.length_pos_iff.mpr hne
    rw [hn, Lifecycle.last]
    omega
  rcases h.mode with ⟨-, -, hne, hlive⟩ | ⟨-, -, hne, hlive⟩ | ⟨-, -, hlive⟩
  · exact hlast hne hlive
  · exact hlast hne hlive
  · rw [hlive] at hn
    cases hn

theorem getElem?_snoc {sessions : List Session} {x y : Session} {n : Nat}
    (h : (sessions ++ [x])[n]? = some y) :
    sessions[n]? = some y ∨ n = sessions.length ∧ y = x := by
  rw [List.getElem?_append] at h
  split at h
  · exact Or.inl h
  · have hn : n - sessions.length = 0 := by
      by_contra hne
      rw [List.getElem?_eq_none (by simp; omega)] at h
      cases h
    rw [hn] at h
    cases h
    exact Or.inr ⟨by omega, rfl⟩

theorem getElem?_set {sessions : List Session} {x y : Session} {n i : Nat}
    (h : (sessions.set n x)[i]? = some y) : i = n ∧ y = x ∨ i ≠ n ∧ sessions[i]? = some y := by
  by_cases hi : i = n
  · subst hi
    have hlt : i < sessions.length := by
      have hlt := (List.getElem?_eq_some_iff.mp h).1
      simpa using hlt
    rw [List.getElem?_set_self hlt] at h
    cases h
    exact Or.inl ⟨rfl, rfl⟩
  · rw [List.getElem?_set_ne (Ne.symm hi)] at h
    exact Or.inr ⟨hi, h⟩

theorem fits_of_finished {n : Nat} {session : Session} (h : finished session = true) :
    Fits s n session := by
  rcases session with ⟨phase, cancelled⟩
  cases phase <;> simp [finished, Fits] at h ⊢

theorem Inv.establish (h : Inv s) (hallowed : Allowed s .establish) : Inv s.establish := by
  obtain ⟨hbusy, hdone⟩ := hallowed
  obtain ⟨-, hcalls, hlive⟩ := h.down hbusy
  have hlog := h.log
  rw [hlive] at hlog
  have hold : ∀ (n : Nat) (session : Session), s.sessions[n]? = some session →
      finished session = true := by
    intro n session hn
    exact List.all_eq_true.mp hdone session (List.mem_of_getElem? hn)
  have hup : Up s.establish := by
    simp [Up, ClientState.establish, Lifecycle.last, hlive, hcalls]
  refine ⟨Or.inl hup, ?_, ?_, ?_, ?_, h.early⟩
  · simp only [ClientState.establish, hlive, status_append, hlog]
    rfl
  · intro n session hn hopen
    rcases getElem?_snoc hn with hn | ⟨rfl, -⟩
    · cases (hold n session hn).symm.trans hopen
    · simp [ClientState.establish]
  · intro n session hn
    rcases getElem?_snoc hn with hn | ⟨-, rfl⟩
    · exact fits_of_finished (hold n session hn)
    · intro hdown
      cases hup.1.symm.trans hdown.1
  · intro wait hwait n hn
    have hlt := (h.waits wait hwait n hn).1
    refine ⟨by simp [ClientState.establish]; omega, fun _ => ?_⟩
    simp only [ClientState.establish, hlive, List.nil_append, List.mem_singleton]
    omega

theorem Inv.set (h : Inv s) {n : Nat} {x y : Session} (hx : s.sessions[n]? = some x)
    (hopen : finished x = false) (hy : Fits s' n y) (hs' : s'.sessions = s.sessions.set n y) :
    (∀ i session, s'.sessions[i]? = some session → finished session = false →
      i + 1 = s'.sessions.length) ∧
    ∀ i session, s'.sessions[i]? = some session → Fits s' i session := by
  have hlast := h.last n x hx hopen
  constructor
  · intro i session hi hne
    rw [hs'] at hi ⊢
    rw [List.length_set]
    rcases getElem?_set hi with ⟨rfl, -⟩ | ⟨-, hi⟩
    · exact hlast
    · exact h.last i session hi hne
  · intro i session hi
    rw [hs'] at hi
    rcases getElem?_set hi with ⟨rfl, rfl⟩ | ⟨hne, hi⟩
    · exact hy
    · refine fits_of_finished ?_
      by_contra hdone
      have hlast' := h.last i session hi (by simpa using hdone)
      omega

theorem Inv.move (h : Inv s) {n : Nat} {x y : Session} {bgTask : Option Nat}
    (hx : s.sessions[n]? = some x) (hopen : finished x = false)
    (hy : Fits { s with sessions := s.sessions.set n y, bgTask := bgTask } n y) :
    Inv { s with sessions := s.sessions.set n y, bgTask := bgTask } := by
  obtain ⟨hlast, hfits⟩ := h.set hx hopen hy rfl
  have hsame : (s.sessions.set n y = []) = (s.sessions = []) := by simp
  refine ⟨?_, h.log, hlast, hfits, ?_, h.early⟩
  · simpa only [Up, Closing, Down, Lifecycle.last, List.length_set, ne_eq, hsame] using h.mode
  · intro wait hwait i hi
    simpa using h.waits wait hwait i hi

theorem Inv.spawn (h : Inv s) {n : Nat} (hstep : s.spawn n = some s') : Inv s' := by
  unfold ClientState.spawn at hstep
  split at hstep
  · rename_i cancelled hn
    cases hstep
    have hfits := h.fits n _ hn
    exact h.move (y := ⟨.created, false⟩) hn rfl fun _ => ⟨rfl, hfits⟩
  · cases hstep

theorem Inv.taskStarts (h : Inv s) {n : Nat} (hallowed : Allowed s (.taskStarts n))
    (hstep : s.taskStarts n = some s') : Inv s' := by
  unfold ClientState.taskStarts at hstep
  split at hstep
  · rename_i hn
    cases hstep
    exact h.move hn rfl trivial
  · rename_i hn
    obtain ⟨-, hdown⟩ := h.fits n _ hn rfl
    split at hstep
    · rename_i hreceiver
      cases hstep
      refine h.move hn rfl ?_
      rcases h.mode with hup | ⟨-, ⟨phase, hcalls⟩, -⟩ | hdown'
      · simpa [Fits, Up, Lifecycle.last] using hup
      · cases hcalls.symm.trans (hallowed hn hreceiver)
      · cases hreceiver.symm.trans (hdown hdown')
    · cases hstep
      exact h.move hn rfl trivial
  · cases hstep

theorem Inv.taskEnds (h : Inv s) {n : Nat} (hstep : s.taskEnds n = some s') : Inv s' := by
  unfold ClientState.taskEnds at hstep
  split at hstep
  · rename_i cancelled hn
    cases hstep
    obtain ⟨-, hcalls, -, hlive⟩ : Up s := h.fits n _ hn
    have hindex := h.last n _ hn rfl
    have hln : s.live = [n] := by
      rw [hlive, Lifecycle.last]
      congr 1
      omega
    have hends : s.live.filter (· ≠ n) = [] := by simp [hln]
    have hlog := h.log
    rw [hln] at hlog
    refine ⟨Or.inr (Or.inr ⟨rfl, hcalls, hends⟩), ?_, ?_, ?_, ?_, h.early⟩
    · simp only [status_append, hlog, hends]
      rfl
    · exact (h.set (y := ⟨.emitting, cancelled⟩) hn rfl (fits_of_finished rfl) rfl).1
    · exact (h.set (y := ⟨.emitting, cancelled⟩) hn rfl (fits_of_finished rfl) rfl).2
    · intro wait hwait i hi
      have hlt := (h.waits wait hwait i hi).1
      refine ⟨by simpa using hlt, fun _ => ?_⟩
      simp only [hends]
      exact List.not_mem_nil
  · cases hstep

theorem Inv.taskReturns (h : Inv s) {n : Nat} (hstep : s.taskReturns n = some s') : Inv s' := by
  unfold ClientState.taskReturns at hstep
  split at hstep
  · rename_i cancelled hn
    cases hstep
    have hsame : (s.sessions.set n ⟨.done, cancelled⟩ = []) = (s.sessions = []) := by simp
    refine ⟨?_, h.log, ?_, ?_, ?_, h.early⟩
    · simpa only [Up, Closing, Down, Lifecycle.last, List.length_set, ne_eq, hsame] using h.mode
    · intro i session hi hopen
      rcases getElem?_set hi with ⟨-, rfl⟩ | ⟨-, hi⟩
      · cases hopen
      · simpa using h.last i session hi hopen
    · intro i session hi
      rcases getElem?_set hi with ⟨-, rfl⟩ | ⟨-, hi⟩
      · trivial
      · have hfits := h.fits i session hi
        simpa only [Fits, Up, Closing, Down, Lifecycle.last, List.length_set, ne_eq, hsame]
          using hfits
    · intro wait hwait i hi
      simpa using h.waits wait hwait i hi
  · cases hstep

/-- `disconnect` with nothing to close. -/
theorem Inv.alreadyClosed (h : Inv s) (hwaits : ∀ wait ∈ s.waits, ∀ n ∈ wait, n ∉ s.live) :
    Inv { s with receiver := false, closed := true } := by
  refine ⟨h.mode, h.log, h.last, ?_, ?_, h.early⟩
  · intro n session hn
    have hfits := h.fits n session hn
    unfold Fits at hfits ⊢
    split at hfits
    · intro _
      rfl
    · intro hcancelled
      exact ⟨(hfits hcancelled).1, fun _ => rfl⟩
    · exact hfits
    · trivial
    · trivial
  · intro wait hwait n hn
    exact ⟨(h.waits wait hwait n hn).1, fun _ => hwaits wait hwait n hn⟩

theorem cancelTask_length (s : ClientState) : s.cancelTask.1.length = s.sessions.length := by
  unfold cancelTask
  split
  · rfl
  · split
    · split
      · rfl
      · exact List.length_set
    · rfl

/-- After the cancellation, the background task is done or marked as cancelled. -/
theorem cancelTask_get {n : Nat} {session : Session}
    (hn : s.cancelTask.1[n]? = some session) :
    ∃ old, s.sessions[n]? = some old ∧ session.phase = old.phase ∧
      (s.bgTask = some n → session.phase ≠ .done → session.cancelled = true) ∧
      (s.bgTask ≠ some n → session = old) := by
  unfold cancelTask at hn
  cases hbg : s.bgTask with
  | none =>
    rw [hbg] at hn
    exact ⟨session, hn, rfl, by simp, fun _ => rfl⟩
  | some task =>
    cases htask : s.sessions[task]? with
    | none =>
      simp only [hbg, htask] at hn
      refine ⟨session, hn, rfl, ?_, fun _ => rfl⟩
      intro heq
      cases heq
      rw [htask] at hn
      cases hn
    | some old =>
      simp only [hbg, htask] at hn
      split at hn
      · rename_i hdone
        refine ⟨session, hn, rfl, ?_, fun _ => rfl⟩
        intro heq hne
        cases heq
        rw [htask] at hn
        cases hn
        exact absurd hdone hne
      · rcases getElem?_set hn with ⟨rfl, rfl⟩ | ⟨hne, hn⟩
        · exact ⟨old, htask, rfl, fun _ _ => rfl, fun hne => absurd rfl hne⟩
        · refine ⟨session, hn, rfl, ?_, fun _ => rfl⟩
          intro heq
          cases heq
          exact absurd rfl hne

/-- `disconnect` in a session whose background task has not begun to run. -/
theorem Inv.beginsClosing (h : Inv s) (hup : Up s)
    (hquiet : ∀ session ∈ s.sessions, session.phase ≠ .running) :
    Inv { s with
      connected := false, bgTask := none, sessions := s.cancelTask.1,
      calls := s.calls ++ [⟨s.sessions.length - 1, s.cancelTask.2⟩] } := by
  obtain ⟨-, hcalls, hne, hlive⟩ := hup
  have hlength := cancelTask_length s
  have hclosing : Closing { s with
      connected := false, bgTask := none, sessions := s.cancelTask.1,
      calls := s.calls ++ [⟨s.sessions.length - 1, s.cancelTask.2⟩] } := by
    refine ⟨rfl, ⟨s.cancelTask.2, ?_⟩, ?_, ?_⟩
    · simp [hcalls, Lifecycle.last, hlength]
    · rw [← List.length_pos_iff] at hne ⊢
      exact hlength ▸ hne
    · simpa [Lifecycle.last, hlength] using hlive
  refine ⟨Or.inr (Or.inl hclosing), h.log, ?_, ?_, ?_, h.early⟩
  · intro n session hn hopen
    obtain ⟨old, hold, hphase, -⟩ := cancelTask_get hn
    have hindex := h.last n old hold (by simpa only [finished, hphase] using hopen)
    exact hindex.trans hlength.symm
  · intro n session hn
    obtain ⟨old, hold, hphase, htask, hother⟩ := cancelTask_get hn
    have hfits := h.fits n old hold
    unfold Fits
    split
    · intro hdown
      exact absurd (hdown.2.1.symm.trans hclosing.2.1.choose_spec) (by simp)
    · rename_i hcreated
      intro hcancelled
      have hbg : s.bgTask = some n := by
        by_contra hbg
        have hsame := hother hbg
        subst hsame
        unfold Fits at hfits
        rw [hcreated] at hfits
        exact hbg (hfits hcancelled).1
      rw [htask hbg (by simp [hcreated])] at hcancelled
      cases hcancelled
    · rename_i hrunning
      exact absurd (hphase.symm.trans hrunning) (hquiet old (List.mem_of_getElem? hold))
    · trivial
    · trivial
  · intro wait hwait n hn
    exact ⟨hlength ▸ (h.waits wait hwait n hn).1, (h.waits wait hwait n hn).2⟩

theorem Inv.disconnect (h : Inv s) (hallowed : Allowed s .disconnect) : Inv s.disconnect := by
  unfold ClientState.disconnect
  rcases hallowed with ⟨halready, hnobody⟩ | ⟨hconnected, hcalls, hquiet⟩
  · rw [if_pos halready]
    refine h.alreadyClosed ?_
    intro wait hwait n hn
    rcases hnobody with hcalls | hwaits
    · have hdown : Down s := by
        simp only [already, Bool.and_eq_true, Bool.not_eq_true'] at halready
        exact h.down (by simp [busy, halready.1.1, hcalls])
      rw [hdown.2.2]
      exact List.not_mem_nil
    · rw [hwaits] at hwait
      cases hwait
  · have hopen : ¬s.already = true := by simp [already, hconnected]
    rw [if_neg hopen]
    have hup : Up s := by
      rcases h.mode with hup | hclosing | hdown
      · exact hup
      · cases hconnected.symm.trans hclosing.1
      · cases hconnected.symm.trans hdown.1
    exact h.beginsClosing hup hquiet

/-- The call of `disconnect` that is under way goes on to its next await. -/
theorem Inv.awaits (h : Inv s) {call : Call} (hcall : call ∈ s.calls) {phase : CallPhase}
    {sock : Bool} :
    Inv { s with sock := sock, calls := s.calls.erase call ++ [{ call with phase := phase }] } := by
  have hclosing : Closing s := h.closing hcall
  obtain ⟨hconnected, ⟨old, hcalls⟩, hne, hlive⟩ := hclosing
  have hcalls' : s.calls.erase call ++ [{ call with phase := phase }] =
      [⟨Lifecycle.last s, phase⟩] := by
    rw [hcalls, List.mem_singleton] at hcall
    simp [hcalls, hcall]
  rw [hcalls']
  refine ⟨Or.inr (Or.inl ⟨hconnected, ⟨phase, rfl⟩, hne, hlive⟩), h.log, h.last, ?_, h.waits,
    h.early⟩
  intro n session hn
  have hfits := h.fits n session hn
  unfold Fits at hfits ⊢
  split at hfits
  · intro hdown
    cases hdown.2.1
  · intro hcancelled
    refine ⟨(hfits hcancelled).1, fun hdown => ?_⟩
    cases hdown.2.1
  · cases hconnected.symm.trans hfits.1
  · trivial
  · trivial

theorem Inv.closed (h : Inv s) {call : Call} (hcall : call ∈ s.calls) :
    Inv { s with
      receiver := false, closed := true, calls := s.calls.erase call
      log := s.log ++ [.disconnected], live := s.live.filter (· ≠ call.session) } := by
  have hclosing : Closing s := h.closing hcall
  obtain ⟨hconnected, ⟨old, hcalls⟩, hne, hlive⟩ := hclosing
  rw [hcalls, List.mem_singleton] at hcall
  have hcalls' : s.calls.erase call = [] := by simp [hcalls, hcall]
  have hends : s.live.filter (· ≠ call.session) = [] := by simp [hlive, hcall]
  have hlog := h.log
  rw [hlive] at hlog
  rw [hcalls', hends]
  refine ⟨Or.inr (Or.inr ⟨hconnected, rfl, rfl⟩), ?_, h.last, ?_, ?_, h.early⟩
  · simp only [status_append, hlog]
    rfl
  · intro n session hn
    have hfits := h.fits n session hn
    unfold Fits at hfits ⊢
    split at hfits
    · intro _
      rfl
    · intro hcancelled
      exact ⟨(hfits hcancelled).1, fun _ => rfl⟩
    · cases hconnected.symm.trans hfits.1
    · trivial
    · trivial
  · intro wait hwait n hn
    exact ⟨(h.waits wait hwait n hn).1, fun _ => List.not_mem_nil⟩

theorem Inv.proceed (h : Inv s) {call : Call} (hcall : call ∈ s.calls)
    (hstep : s.proceed call = some s') : Inv s' := by
  unfold ClientState.proceed at hstep
  split at hstep
  · split at hstep
    · cases hstep
      exact h.awaits hcall
    · cases hstep
  · cases hstep
    exact h.awaits hcall
  · cases hstep
    exact h.closed hcall

theorem Inv.waitClosed (h : Inv s) (hallowed : Allowed s .waitClosed) : Inv s.waitClosed := by
  unfold ClientState.waitClosed
  split
  · rename_i hclosed
    have hdown : Down s := by
      refine h.down ?_
      by_contra hbusy
      cases hclosed.symm.trans (hallowed (by simpa using hbusy))
    exact ⟨h.mode, h.log, h.last, h.fits, h.waits, by simp [h.early, hdown.2.2]⟩
  · rename_i hopen
    refine ⟨h.mode, h.log, h.last, h.fits, ?_, h.early⟩
    intro wait hwait n hn
    rcases List.mem_append.mp hwait with hwait | hwait
    · exact h.waits wait hwait n hn
    · rw [List.mem_singleton.mp hwait] at hn
      exact ⟨h.live_lt hn, fun hclosed => absurd hclosed hopen⟩

theorem Inv.waitReturns (h : Inv s) {wait : List Nat} (hstep : s.waitReturns wait = some s') :
    Inv s' := by
  unfold ClientState.waitReturns at hstep
  split at hstep
  · rename_i hwait
    cases hstep
    have hended : wait.filter (· ∈ s.live) = [] := by
      rw [List.filter_eq_nil_iff]
      intro n hn
      simpa using (h.waits wait hwait.2 n hn).2 hwait.1
    refine ⟨h.mode, h.log, h.last, h.fits, ?_, by simp [h.early, hended]⟩
    intro other hother
    exact h.waits other (List.mem_of_mem_erase hother)
  · cases hstep

theorem Inv.step (h : Inv s) {act : Act} (hallowed : Allowed s act)
    (hstep : step s act = some s') : Inv s' := by
  cases act with
  | establish =>
    cases hstep
    exact h.establish hallowed
  | spawn n => exact h.spawn hstep
  | taskStarts n => exact h.taskStarts hallowed hstep
  | taskEnds n => exact h.taskEnds hstep
  | taskReturns n => exact h.taskReturns hstep
  | disconnect =>
    cases hstep
    exact h.disconnect hallowed
  | proceed call =>
    simp only [ClientState.step] at hstep
    split at hstep
    · rename_i hcall
      exact h.proceed hcall hstep
    · cases hstep
  | waitClosed =>
    cases hstep
    exact h.waitClosed hallowed
  | waitReturns wait => exact h.waitReturns hstep

theorem Inv.run {acts : List Act} (h : Inv s) (hallowed : AllowedRun s acts)
    (hrun : run s acts = some s') : Inv s' := by
  induction acts generalizing s with
  | nil =>
    cases hrun
    exact h
  | cons act acts ih =>
    obtain ⟨hact, hacts⟩ := hallowed
    rw [ClientState.run, Option.bind_eq_some_iff] at hrun
    obtain ⟨next, hnext, hrun⟩ := hrun
    rw [hnext] at hacts
    exact ih (h.step hact hnext) hacts hrun

end Invariant

/-- In every run of logins, peer closes, fatal closes and calls of `disconnect` and
`wait_closed` that keep to the condition, every session ends with one `disconnected`, and
no `wait_closed` call returns before the end of its session. -/
theorem sessions_end_once {acts : List Act} {s : ClientState} (hallowed : AllowedRun {} acts)
    (hrun : run {} acts = some s) : EndsOnce s :=
  (inv_new.run hallowed hrun).endsOnce

/-- A session that the peer closes, one that a handler of `disconnected` establishes and
`disconnect` closes while the handlers of `connected` run, and a third one. -/
def threeSessions : List Act :=
  [.establish, .waitClosed, .spawn 0, .taskStarts 0, .taskEnds 0, .waitReturns [0],
    .establish, .taskReturns 0, .disconnect, .proceed ⟨1, .closing⟩,
    .proceed ⟨1, .socketClosing⟩, .spawn 1, .taskStarts 1, .establish]

def thirdSession : ClientState :=
  { connected := true
    bgTask := some 1
    sock := true
    receiver := true
    closed := true
    sessions := [⟨.done, false⟩, ⟨.done, false⟩, ⟨.greeting, false⟩]
    log := [.connected, .disconnected, .connected, .disconnected, .connected]
    live := [2] }

theorem sessions_end_once_three :
    run {} threeSessions = some thirdSession ∧ EndsOnce thirdSession := by
  have hrun : run {} threeSessions = some thirdSession := by decide
  refine ⟨hrun, sessions_end_once ?_ hrun⟩
  exact ⟨by decide, by decide, by decide, by decide, by decide, by decide, by decide, by decide,
    by decide, by decide, by decide, by decide, by decide, by decide, trivial⟩

/-- A client that `disconnect` closed while the receiver ran. -/
def closedTwice : ClientState :=
  { closed := true
    sessions := [⟨.done, true⟩]
    log := [.connected, .disconnected, .disconnected] }

/-- A client whose second session is established, after one that the peer closed. -/
def notWaited : ClientState :=
  { connected := true
    bgTask := some 0
    sock := true
    receiver := true
    closed := true
    sessions := [⟨.done, false⟩, ⟨.greeting, false⟩]
    log := [.connected, .disconnected, .connected]
    live := [1]
    early := [1] }

/-- A `disconnect` while the receiver runs is announced twice, and `wait_closed` in the
session after a reconnect returns at once. -/
theorem disconnect_announced_twice :
    run {} [.establish, .spawn 0, .taskStarts 0, .disconnect, .taskEnds 0, .taskReturns 0,
        .proceed ⟨0, .joining 0⟩, .proceed ⟨0, .closing⟩, .proceed ⟨0, .socketClosing⟩] =
        some closedTwice ∧ ¬EndsOnce closedTwice ∧
      run {} [.establish, .spawn 0, .taskStarts 0, .taskEnds 0, .taskReturns 0, .establish,
        .waitClosed] = some notWaited ∧ ¬EndsOnce notWaited := by
  refine ⟨by decide, fun h => ?_, by decide, fun h => ?_⟩
  · have hcount := h.events [] [.disconnected, .disconnected] rfl
    simp [inSession, closedTwice] at hcount
  · have hearly := h.waits
    simp [notWaited] at hearly

end PyWhats.Lifecycle
