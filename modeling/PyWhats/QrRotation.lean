import PyWhats.Pairing

/-! The tasks that rotate the QR codes while a pairing runs (`pairing.py`). `Pairer.run`
starts one for each pair-device iq with several refs and keeps the handle of the last
one only. Only current codes are shown when each older task has made its last callback
by the time the next pair-device iq is processed. -/

namespace PyWhats.Pairing

/-- A task of `_rotate_qr`, for the pair-device iq of number `iq`. -/
structure Rotation where
  iq : Nat
  task : Option (Suspended PairState PairRequest.Reply PyError)

/-- A run of `Pairer.run` with the tasks it created. `handle` is the index of the task
that the variable `qr_task` holds, `shown` counts the pair-device iqs that were
processed. -/
structure PairRun where
  state : PairState
  main : Co.Stop PairState PairRequest.Reply PyError (Option PairResult)
  rotations : List Rotation := []
  handle : Option Nat := none
  shown : Nat := 0

abbrev Answers := (q : PairRequest) → Except PyError q.Reply

inductive Move where
  | main (answers : Answers)
  | rotation (i : Nat) (answers : Answers)

section Moves

variable {α : Type}

def isQr : PairRequest → Bool
  | .onQr _ => true
  | _ => false

def isJoin : PairRequest → Bool
  | .joinQr => true
  | _ => false

def shows : Co.Stop PairState PairRequest.Reply PyError α → Bool
  | .done _ => false
  | .waits q _ => isQr q

/-- The first code of a pair-device iq was taken by the handler, or the handler raised an
`Exception`: the loop goes on. -/
def accepted : (q : PairRequest) → Except PyError q.Reply → Bool
  | .onQr _, .ok _ => true
  | .onQr _, .error e => e.isException
  | _, _ => false

/-- Whether `create_task` is called before the next await. -/
def creates : PairM α → PairState → Bool
  | .ret _, _ => false
  -- the one assignment that makes the handle run is that of the new task
  | .act f k, s =>
    decide ((f { s with qrTask := none }).qrTask = some .running) || creates (k s) (f s)
  | .await _ _, _ => false

def lastRefs (env : PairEnv) (s : PairState) : List String :=
  match s.received.getLast? with
  | none => []
  | some frame =>
    match Binary.decode env.z frame >>= extractPairDeviceRefs with
    | .ok refs => refs
    | .error _ => []

namespace PairRun

variable (env : PairEnv) (pairer : Pairer) (m : PairRun)

def ended : Bool :=
  match m.main with
  | .done _ => true
  | .waits _ _ => false

/-- The task that `qr_task` holds is not done. -/
def handleRuns : Bool :=
  match m.handle.bind (m.rotations[·]?) with
  | none => false
  | some rotation => rotation.task.isSome

def createTask : PairRun :=
  let first := (rotateQr pairer true (lastRefs env m.state).tail).run m.state
  { m with
    rotations := m.rotations ++ [⟨m.shown, first.2.suspended⟩]
    handle := some m.rotations.length }

/-- `run` goes on; the calls of `on_qr` are given by the numbers of their iqs. -/
def mainStep (answers : Answers) : PairRun × List Nat :=
  match m.main with
  | .done _ => (m, [])
  | .waits q k =>
    if isJoin q && m.handleRuns then (m, [])
    else
      let p := k (answers q)
      let out := p.run m.state
      let shown := m.shown + (accepted q (answers q)).toNat
      let next := { m with state := out.1, main := out.2, shown := shown }
      (if creates p m.state then next.createTask env pairer else next,
        if shows out.2 then [shown + 1] else [])

/-- A task goes on, with an answer or with the `CancelledError` of its cancellation. -/
def rotationStep (i : Nat) (answers : Answers) : PairRun × List Nat :=
  match m.rotations[i]? with
  | none => (m, [])
  | some ⟨_, none⟩ => (m, [])
  | some ⟨iq, some t⟩ =>
    let out := (t.resume (answers t.request)).run m.state
    let rotations := m.rotations.set i ⟨iq, out.2.suspended⟩
    let done := m.handle == some i && out.2.suspended.isNone
    ({ m with
        state := if done then { out.1 with qrTask := some .done } else out.1
        rotations := rotations },
      if shows out.2 then [iq] else [])

def step : Move → PairRun × List Nat
  | .main answers => m.mainStep env pairer answers
  | .rotation i answers => m.rotationStep i answers

end PairRun

def start (P : Primitives) (env : PairEnv) (pairer : Pairer) (device : DeviceStore)
    (rounds : Nat) : PairRun :=
  let out := (run P env pairer rounds).run { device := device }
  { state := out.1, main := out.2 }

variable (env : PairEnv) (pairer : Pairer)

def Always (φ : PairRun → Move → Prop) : PairRun → List Move → Prop
  | _, [] => True
  | m, move :: moves => φ m move ∧ Always φ (m.step env pairer move).1 moves

instance Always.decidable (φ : PairRun → Move → Prop) [h : ∀ m move, Decidable (φ m move)] :
    (m : PairRun) → (moves : List Move) → Decidable (Always env pairer φ m moves)
  | _, [] => isTrue trivial
  | m, move :: moves => @instDecidableAnd _ _ (h m move) (Always.decidable φ _ moves)

theorem Always.mono {φ ψ : PairRun → Move → Prop} (hφ : ∀ m move, φ m move → ψ m move)
    {m : PairRun} {moves : List Move} (h : Always env pairer φ m moves) :
    Always env pairer ψ m moves := by
  induction moves generalizing m with
  | nil => trivial
  | cons move moves ih => exact ⟨hφ m move h.1, ih h.2⟩

/-- Every QR callback is made before the end of `run`, for an iq that is not older than the
last one processed. -/
def Current (m : PairRun) (move : Move) : Prop :=
  ∀ iq ∈ (m.step env pairer move).2, m.ended = false ∧ m.shown ≤ iq

instance (m : PairRun) (move : Move) : Decidable (Current env pairer m move) :=
  inferInstanceAs (Decidable (∀ iq ∈ (m.step env pairer move).2, m.ended = false ∧ m.shown ≤ iq))

/-- The task makes no further callback, however it is answered. -/
def Rotation.Finished (r : Rotation) : Prop :=
  ∀ t, r.task = some t → ∀ answer, (t.resume answer).Avoids (isQr · = true)

def processes (m : PairRun) : Move → Bool
  | .main answers =>
    match m.main with
    | .done _ => false
    | .waits q _ => accepted q (answers q)
  | .rotation _ _ => false

/-- A pair-device iq is processed when every task of an earlier one has made its last
callback. -/
def Tidy (m : PairRun) (move : Move) : Prop :=
  processes m move = true → ∀ r ∈ m.rotations, r.Finished

end Moves

section Orderly

variable {α β : Type} {b : Bool} {p : PairM α}

def KeepsTask (s s' : PairState) : Prop := s'.qrTask = s.qrTask

theorem keepsTask_run {s t : PairState} (h : Relation.ReflTransGen KeepsTask s t) :
    t.qrTask = s.qrTask := by
  induction h with
  | refl => rfl
  | tail _ hstep ih => exact hstep.trans ih

/-- The task handle is only set after the first code of an iq was accepted, before the
next await. -/
def Orderly : Bool → PairM α → Prop
  | _, .ret _ => True
  | b, .act f k => ((∀ s, KeepsTask s (f s)) ∨
      b = true ∧ ∀ s, (f s).qrTask = some .running) ∧ ∀ s, Orderly b (k s)
  | _, .await q k => ∀ r, Orderly (accepted q r) (k r)

namespace Orderly

theorem mono (hp : Orderly false p) : Orderly b p := by
  induction p with
  | ret r => trivial
  | act f k ih =>
    refine ⟨hp.1.elim .inl fun h => ?_, fun s => ih s (hp.2 s)⟩
    cases h.1
  | await q k => exact hp

theorem of_silent (hp : p.Silent) : Orderly b p := by
  induction p generalizing b with
  | ret r => trivial
  | act f k => exact hp.elim
  | await q k ih => exact fun r => ih r (hp r)

theorem bind {f : α → PairM β} (hp : Orderly b p) (hf : ∀ a, Orderly false (f a)) :
    Orderly b (p >>= f) := by
  induction p generalizing b with
  | ret r =>
    cases r with
    | ok a => exact (hf a).mono
    | error e => trivial
  | act g k ih => exact ⟨hp.1, fun s => ih s (hp.2 s)⟩
  | await q k ih => exact fun r => ih r (hp r)

theorem tryFinally {fin : PairM Unit} (hp : Orderly b p) (hfin : Orderly false fin) :
    Orderly b (p.tryFinally fin) := by
  induction p generalizing b with
  | ret r => exact bind hfin.mono fun _ => trivial
  | act g k ih => exact ⟨hp.1, fun s => ih s (hp.2 s)⟩
  | await q k ih => exact fun r => ih r (hp r)

theorem keep {g : PairState → PairState} {k : PairState → PairM α} (hg : ∀ s, KeepsTask s (g s))
    (hk : ∀ s, Orderly b (k s)) : Orderly b (.act g k) := ⟨.inl hg, hk⟩

theorem keep_bind {g : PairState → PairState} {f : Unit → PairM α}
    (hg : ∀ s, KeepsTask s (g s)) (hf : Orderly b (f ())) : Orderly b (Co.modify g >>= f) :=
  keep hg fun _ => hf

theorem get_bind {f : PairState → PairM α} (hf : ∀ s, Orderly b (f s)) :
    Orderly b (Co.get >>= f) := keep (fun _ => rfl) hf

theorem lift_bind {x : Except PyError α} {f : α → PairM β} (hf : ∀ a, Orderly b (f a)) :
    Orderly b (Co.lift x >>= f) := by
  cases x with
  | ok a => exact hf a
  | error e => trivial

theorem emitQr_bind {payload : String} {f : Unit → PairM α} (hf : Orderly true (f ())) :
    Orderly b (emitQr payload >>= f) := by
  intro r
  cases r with
  | ok a => exact hf
  | error e =>
    cases he : e.isException with
    | true =>
      simp only [accepted, Co.tryCatch, he, if_true]
      exact hf
    | false => simp [accepted, Co.tryCatch, he, Co.raise, Co.bind, Orderly]

theorem run_waits (hp : Orderly b p) {s t : PairState} {q : PairRequest}
    {k : Except PyError q.Reply → PairM α} (h : p.run s = (t, .waits q k))
    (r : Except PyError q.Reply) : Orderly (accepted q r) (k r) := by
  induction p generalizing s with
  | ret r => cases h
  | act f k ih => exact ih s (hp.2 s) h
  | await q k =>
    cases h
    exact hp r

theorem run_state (hp : Orderly b p) (s : PairState) :
    (creates p s = false ∧ (p.run s).1.qrTask = s.qrTask) ∨
      (b = true ∧ (p.run s).1.qrTask = some .running) := by
  induction p generalizing s with
  | ret r => exact .inl ⟨rfl, rfl⟩
  | await q k => exact .inl ⟨rfl, rfl⟩
  | act f k ih =>
    obtain ⟨hf, hk⟩ := hp
    rcases ih s (hk s) (f s) with ⟨hcreates, htask⟩ | hlater
    · rcases hf with hkeep | ⟨hb, hset⟩
      · refine .inl ⟨?_, htask.trans (hkeep s)⟩
        have hnone : (f { s with qrTask := none }).qrTask = none := hkeep _
        simp [creates, hnone, hcreates]
      · exact .inr ⟨hb, htask.trans (hset s)⟩
    · exact .inr hlater

theorem creates_task (hp : Orderly b p) {s : PairState} (h : creates p s = true) :
    b = true ∧ (p.run s).1.qrTask = some .running := by
  rcases hp.run_state s with ⟨hcreates, _⟩ | hset
  · rw [h] at hcreates
    cases hcreates
  · exact hset

end Orderly

end Orderly

section Closing

variable {α : Type} {p : PairM α} {joined : Bool}

/-- The run ends right after the `finally` block awaited the task, or with no task that
runs. -/
def Closes : Bool → PairM α → PairState → Prop
  | joined, .ret _, s => joined = true ∨ s.qrTask ≠ some .running
  | joined, .act f k, s => Closes joined (k s) (f s)
  | _, .await q k, _ => ∀ r s, Closes (isJoin q) (k r) s

namespace Closes

theorem stopQr_ret (r : Except PyError α) (s : PairState) :
    Closes joined ((Co.ret r : PairM α).tryFinally stopQr) s := by
  change Closes joined (Co.bind _ (ite (s.qrTask = some .running) _ _)) s
  split
  · intro r' s'
    cases r' <;> exact .inl rfl
  · rename_i hdone
    exact .inr hdone

theorem tryFinally_stopQr (p : PairM α) (s : PairState) :
    Closes joined (p.tryFinally stopQr) s := by
  induction p generalizing joined s with
  | ret r => exact stopQr_ret r s
  | act f k ih => exact ih s (f s)
  | await q k ih => exact fun r s' => ih r s'

theorem run_done {s t : PairState} {r : Except PyError α} (hp : Closes joined p s)
    (h : p.run s = (t, .done r)) : joined = true ∨ t.qrTask ≠ some .running := by
  induction p generalizing s with
  | ret r =>
    cases h
    exact hp
  | act f k ih => exact ih s hp h
  | await q k => cases h

theorem run_waits {s t : PairState} {q : PairRequest} {k : Except PyError q.Reply → PairM α}
    (hp : Closes joined p s) (h : p.run s = (t, .waits q k)) (r : Except PyError q.Reply)
    (s' : PairState) : Closes (isJoin q) (k r) s' := by
  induction p generalizing s with
  | ret r => cases h
  | act f k ih => exact ih s hp h
  | await q k =>
    cases h
    exact hp r s'

end Closes

end Closing

section Run

variable (P : Primitives) (env : PairEnv) (pairer : Pairer)

theorem recvFrame_orderly : Orderly false recvFrame :=
  Orderly.bind (Orderly.of_silent recv_silent) fun _ => Orderly.keep_bind (fun _ => rfl) trivial

theorem handlePairDevice_orderly (node : Node) :
    Orderly false (handlePairDevice env pairer node) := by
  refine Orderly.lift_bind fun refs => ?_
  refine Orderly.bind (Orderly.of_silent (sendNode_silent env _)) fun _ => ?_
  refine Orderly.get_bind fun s => Orderly.emitQr_bind ?_
  split
  · exact ⟨.inr ⟨rfl, fun _ => rfl⟩, fun _ => trivial⟩
  · trivial

theorem handlePairSuccess_orderly (node : Node) :
    Orderly false (handlePairSuccess P env pairer node) := by
  refine Orderly.lift_bind fun out => ?_
  refine Orderly.get_bind fun s => Orderly.lift_bind fun inner => ?_
  refine Orderly.bind (Orderly.keep (fun _ => rfl) fun _ => trivial) fun nonce => ?_
  refine Orderly.bind (Orderly.of_silent (sendNode_silent env _)) fun _ => ?_
  refine Orderly.keep_bind (fun _ => rfl) (Orderly.keep_bind (fun _ => rfl) ?_)
  exact Orderly.keep_bind (fun _ => rfl) trivial

theorem turn_orderly (deadline : Int) (refsEmitted : Nat) :
    Orderly false (turn P env pairer deadline refsEmitted) := by
  refine Orderly.keep (fun _ => rfl) fun s => ?_
  change Orderly false (ite _ _ _)
  split
  · trivial
  · refine Orderly.bind recvFrame_orderly fun frame => Orderly.lift_bind fun node => ?_
    split
    · trivial
    · split
      · trivial
      · split
        · exact Orderly.bind (handlePairDevice_orderly env pairer node) fun _ => trivial
        · split
          · exact Orderly.bind (Orderly.of_silent (sendNode_silent env _)) fun _ => trivial
          · split
            · exact Orderly.bind (handlePairSuccess_orderly P env pairer node) fun _ => trivial
            · trivial

theorem turns_orderly (deadline : Int) (rounds refsEmitted : Nat) :
    Orderly false (turns P env pairer deadline rounds refsEmitted) := by
  induction rounds generalizing refsEmitted with
  | zero => trivial
  | succ rounds ih =>
    refine Orderly.bind (turn_orderly P env pairer deadline refsEmitted) fun out => ?_
    cases out with
    | inl refsEmitted => exact ih refsEmitted
    | inr result => trivial

theorem stopQr_orderly : Orderly false stopQr := by
  refine Orderly.get_bind fun s => ?_
  split
  · exact Orderly.of_silent (Co.silent_tryCatch (Co.silent_wait _) fun _ => trivial)
  · trivial

theorem run_orderly (rounds : Nat) : Orderly false (run P env pairer rounds) :=
  Orderly.keep (fun _ => rfl) fun _ =>
    Orderly.tryFinally (turns_orderly P env pairer _ rounds 0) stopQr_orderly

theorem run_closes (rounds : Nat) (s : PairState) : Closes false (run P env pairer rounds) s :=
  Closes.tryFinally_stopQr (turns P env pairer _ rounds 0) _

theorem rotateQr_keeps (first : Bool) (refs : List String) :
    (rotateQr pairer first refs).Each KeepsTask := by
  induction refs generalizing first with
  | nil => trivial
  | cons ref refs ih =>
    refine Co.Each.bind (Co.Each.wait _) fun _ => Co.Each.get_bind (fun _ => rfl) fun s => ?_
    exact Co.Each.bind (Co.Each.of_silent (emitQr_silent _)) fun _ => ih false

end Run

section Rotations

variable {p : PairM Unit}

def Rotation.Keeps (r : Rotation) : Prop :=
  ∀ t, r.task = some t → ∀ answer, (t.resume answer).Each KeepsTask

theorem Rotation.finished_of_none {r : Rotation} (h : r.task = none) : r.Finished := by
  intro t ht
  rw [h] at ht
  cases ht

theorem rotation_keeps (iq : Nat) (hp : p.Each KeepsTask) (s : PairState) :
    Rotation.Keeps ⟨iq, (p.run s).2.suspended⟩ := by
  intro t ht answer
  rcases hrun : p.run s with ⟨s', stop⟩
  rw [hrun] at ht
  cases stop with
  | done r => cases ht
  | waits q k =>
    cases ht
    exact hp.run_waits hrun answer

theorem rotation_finished (iq : Nat) (hp : p.Avoids (isQr · = true)) (s : PairState) :
    Rotation.Finished ⟨iq, (p.run s).2.suspended⟩ ∧ shows (p.run s).2 = false := by
  rcases hrun : p.run s with ⟨s', stop⟩
  cases stop with
  | done r => exact ⟨Rotation.finished_of_none rfl, rfl⟩
  | waits q k =>
    obtain ⟨hq, hk⟩ := hp.run_waits hrun
    refine ⟨fun t ht answer => ?_, Bool.not_eq_true _ ▸ hq⟩
    cases ht
    exact hk answer

end Rotations

section Invariant

variable (P : Primitives) {env : PairEnv} {pairer : Pairer} {m : PairRun}

def MainReady (m : PairRun) : Prop :=
  match m.main with
  | .done _ => ∀ r ∈ m.rotations, r.Finished
  | .waits q k => ∀ answer, Orderly (accepted q answer) (k answer) ∧
      ∀ s, Closes (isJoin q) (k answer) s

/-- Only the task that `qr_task` holds may still show codes, those of the last iq. -/
structure Inv (m : PairRun) : Prop where
  only : ∀ i r, m.rotations[i]? = some r → r.Finished ∨ (m.handle = some i ∧ r.iq = m.shown)
  marked : ∀ i r, m.handle = some i → m.rotations[i]? = some r → r.task.isSome = true →
    m.state.qrTask = some .running
  keeps : ∀ r ∈ m.rotations, r.Keeps
  main : MainReady m

theorem Inv.finished (hm : Inv m) (h : m.handleRuns = false) : ∀ r ∈ m.rotations, r.Finished := by
  intro r hr
  obtain ⟨i, hi⟩ := List.mem_iff_getElem?.mp hr
  rcases hm.only i r hi with hfinished | ⟨hhandle, _⟩
  · exact hfinished
  · refine Rotation.finished_of_none ?_
    simpa [PairRun.handleRuns, hhandle, hi] using h

theorem Inv.handleRuns_marked (hm : Inv m) (h : m.handleRuns = true) :
    m.state.qrTask = some .running := by
  unfold PairRun.handleRuns at h
  split at h
  · cases h
  · rename_i r hr
    obtain ⟨i, hhandle, hi⟩ := Option.bind_eq_some_iff.mp hr
    exact hm.marked i r hhandle hi h

theorem start_inv (device : DeviceStore) (rounds : Nat) :
    Inv (start P env pairer device rounds) := by
  refine ⟨fun i r h => ?_, fun i r h => ?_, fun r h => ?_, ?_⟩
  · cases h
  · cases h
  · cases h
  · rcases hrun : (run P env pairer rounds).run { device := device } with ⟨s, stop⟩
    unfold MainReady start
    rw [hrun]
    cases stop with
    | done r => exact fun r h => by cases h
    | waits q k =>
      exact fun answer => ⟨(run_orderly P env pairer rounds).run_waits hrun answer,
        (run_closes P env pairer rounds _).run_waits hrun answer⟩

theorem accepted_not_join {q : PairRequest} {r : Except PyError q.Reply}
    (h : accepted q r = true) : isJoin q = false := by
  cases q with
  | onQr payload => rfl
  | recv => cases h
  | send frame => cases h
  | sleep interval => cases h
  | joinQr => cases h

theorem mainReady_run {p : PairM (Option PairResult)} {b joined : Bool} {s : PairState}
    (hmain : m.main = (p.run s).2) (horderly : Orderly b p) (hcloses : Closes joined p s)
    (hdone : joined = true ∨ (p.run s).1.qrTask ≠ some .running → ∀ r ∈ m.rotations, r.Finished) :
    MainReady m := by
  rcases hrun : p.run s with ⟨t, stop⟩
  rw [hrun] at hmain hdone
  unfold MainReady
  rw [hmain]
  cases stop with
  | done r => exact hdone (hcloses.run_done hrun)
  | waits q k =>
    exact fun answer => ⟨horderly.run_waits hrun answer, hcloses.run_waits hrun answer⟩

theorem Inv.create {p : PairM (Option PairResult)} {joined : Bool} (hm : Inv m)
    (hfinished : ∀ r ∈ m.rotations, r.Finished) (horderly : Orderly true p)
    (hcloses : Closes joined p m.state) (hjoined : joined = false)
    (hcreates : creates p m.state = true) :
    Inv (PairRun.createTask env pairer { m with
      state := (p.run m.state).1, main := (p.run m.state).2, shown := m.shown + 1 }) := by
  obtain ⟨_, htask⟩ := horderly.creates_task hcreates
  refine ⟨fun i r hi => ?_, fun _ _ _ _ _ => htask, fun r hr => ?_, ?_⟩
  · rw [PairRun.createTask] at hi
    rcases Nat.lt_or_ge i m.rotations.length with hlt | hge
    · rw [List.getElem?_append_left hlt] at hi
      exact .inl (hfinished r (List.mem_of_getElem? hi))
    · have hlt : i < (m.rotations ++ [_]).length := (List.getElem?_eq_some_iff.mp hi).1
      rw [List.length_append, List.length_singleton] at hlt
      obtain rfl : i = m.rotations.length := by omega
      rw [List.getElem?_concat_length] at hi
      cases hi
      exact .inr ⟨rfl, rfl⟩
  · rcases List.mem_append.mp hr with hold | hnew
    · exact hm.keeps r hold
    · cases List.mem_singleton.mp hnew
      exact rotation_keeps _ (rotateQr_keeps pairer true _) _
  · refine mainReady_run (s := m.state) rfl horderly hcloses fun h => ?_
    rcases h with hjoin | hnone
    · rw [hjoined] at hjoin
      cases hjoin
    · exact absurd htask hnone

theorem Inv.goOn {p : PairM (Option PairResult)} {b joined : Bool} (hm : Inv m)
    (hfinished : b = true → ∀ r ∈ m.rotations, r.Finished) (horderly : Orderly b p)
    (hcloses : Closes joined p m.state) (hblocked : joined = true → m.handleRuns = false) :
    Inv { m with
      state := (p.run m.state).1, main := (p.run m.state).2, shown := m.shown + b.toNat } := by
  refine ⟨fun i r hi => ?_, fun i r hhandle hi htask => ?_, hm.keeps, ?_⟩
  · cases b with
    | false => exact hm.only i r hi
    | true => exact .inl (hfinished rfl r (List.mem_of_getElem? hi))
  · rcases horderly.run_state m.state with ⟨_, hkept⟩ | ⟨_, hset⟩
    · exact hkept.trans (hm.marked i r hhandle hi htask)
    · exact hset
  · refine mainReady_run (s := m.state) rfl horderly hcloses fun h => hm.finished ?_
    rcases h with hjoin | hnone
    · exact hblocked hjoin
    · by_contra hruns
      have hmarked := hm.handleRuns_marked (Bool.not_eq_false _ ▸ hruns)
      rcases horderly.run_state m.state with ⟨_, hkept⟩ | ⟨_, hset⟩
      · exact hnone (hkept.trans hmarked)
      · exact hnone hset

theorem mainStep_inv {answers : Answers} (hm : Inv m) (htidy : Tidy m (.main answers)) :
    Inv (m.mainStep env pairer answers).1 := by
  have hready := hm.main
  unfold PairRun.mainStep
  unfold MainReady at hready
  split
  · exact hm
  · rename_i q k hmain
    rw [hmain] at hready
    obtain ⟨horderly, hcloses⟩ := hready (answers q)
    have hfinished : accepted q (answers q) = true → ∀ r ∈ m.rotations, r.Finished :=
      fun h => htidy (by simpa [processes, hmain] using h)
    split
    · exact hm
    · rename_i hblocked
      dsimp only
      split
      · rename_i hcreates
        have haccepted := (horderly.creates_task hcreates).1
        rw [haccepted] at horderly ⊢
        exact hm.create (hfinished haccepted) horderly (hcloses _) (accepted_not_join haccepted)
          hcreates
      · refine hm.goOn hfinished horderly (hcloses _) fun hjoin => ?_
        simpa [hjoin] using hblocked

theorem mainStep_current (answers : Answers) : Current env pairer m (.main answers) := by
  intro iq hiq
  change iq ∈ (m.mainStep env pairer answers).2 at hiq
  unfold PairRun.mainStep at hiq
  unfold PairRun.ended
  split at hiq
  · cases hiq
  · split at hiq
    · cases hiq
    · dsimp only at hiq
      split at hiq
      · cases List.mem_singleton.mp hiq
        exact ⟨rfl, by omega⟩
      · cases hiq

theorem Inv.resume {i iq : Nat} {t : Suspended PairState PairRequest.Reply PyError}
    {p : PairM Unit} (hm : Inv m) (hi : m.rotations[i]? = some ⟨iq, some t⟩)
    (hkeeps : p.Each KeepsTask)
    (hfinished : Rotation.Finished ⟨iq, some t⟩ → p.Avoids (isQr · = true)) :
    Inv { m with
      state := if m.handle == some i && (p.run m.state).2.suspended.isNone then
        { (p.run m.state).1 with qrTask := some .done } else (p.run m.state).1
      rotations := m.rotations.set i ⟨iq, (p.run m.state).2.suspended⟩ } := by
  have hlt : i < m.rotations.length := (List.getElem?_eq_some_iff.mp hi).1
  have hstays : Rotation.Finished ⟨iq, some t⟩ →
      Rotation.Finished ⟨iq, (p.run m.state).2.suspended⟩ :=
    fun h => (rotation_finished iq (hfinished h) m.state).1
  refine ⟨fun j r hj => ?_, fun j r hhandle hj htask => ?_, fun r hr => ?_, ?_⟩
  · rcases eq_or_ne i j with rfl | hne
    · rw [List.getElem?_set_self hlt] at hj
      cases hj
      exact (hm.only i _ hi).imp_left hstays
    · rw [List.getElem?_set_ne hne] at hj
      exact hm.only j r hj
  · have hkept := keepsTask_run (hkeeps.run m.state)
    rcases eq_or_ne i j with rfl | hne
    · rw [List.getElem?_set_self hlt] at hj
      cases hj
      rw [if_neg (by simp [Option.isSome_iff_ne_none.mp htask])]
      exact hkept.trans (hm.marked i _ hhandle hi rfl)
    · rw [List.getElem?_set_ne hne] at hj
      have hother : m.handle ≠ some i := by
        rw [hhandle]
        exact fun h => hne (Option.some.inj h).symm
      rw [if_neg (by simp [hother])]
      exact hkept.trans (hm.marked j r hhandle hj htask)
  · rcases List.mem_or_eq_of_mem_set hr with hold | rfl
    · exact hm.keeps r hold
    · exact rotation_keeps _ hkeeps _
  · have hmain := hm.main
    unfold MainReady at hmain ⊢
    dsimp only
    split at hmain
    · intro r hr
      rcases List.mem_or_eq_of_mem_set hr with hold | rfl
      · exact hmain r hold
      · exact hstays (hmain _ (List.mem_of_getElem? hi))
    · exact hmain

theorem rotationStep_inv {i : Nat} {answers : Answers} (hm : Inv m) :
    Inv (m.rotationStep i answers).1 := by
  unfold PairRun.rotationStep
  split
  · exact hm
  · exact hm
  · rename_i iq t hi
    exact hm.resume hi (hm.keeps _ (List.mem_of_getElem? hi) t rfl _) fun h => h t rfl _

theorem rotationStep_current {i : Nat} {answers : Answers} (hm : Inv m) :
    Current env pairer m (.rotation i answers) := by
  intro iq hiq
  change iq ∈ (m.rotationStep i answers).2 at hiq
  unfold PairRun.rotationStep at hiq
  split at hiq
  · cases hiq
  · cases hiq
  · rename_i iq' t hi
    dsimp only at hiq
    split at hiq
    · rename_i hshows
      cases List.mem_singleton.mp hiq
      have hunfinished : ¬ Rotation.Finished ⟨iq, some t⟩ := by
        intro h
        have hsilent := (rotation_finished iq (h t rfl (answers t.request)) m.state).2
        rw [hshows] at hsilent
        cases hsilent
      rcases hm.only i _ hi with hfinished | ⟨_, hcurrent⟩
      · exact absurd hfinished hunfinished
      · refine ⟨?_, hcurrent.ge⟩
        have hmain := hm.main
        unfold MainReady at hmain
        unfold PairRun.ended
        split at hmain
        · exact absurd (hmain _ (List.mem_of_getElem? hi)) hunfinished
        · rfl
    · cases hiq

theorem step_inv {move : Move} (hm : Inv m) (htidy : Tidy m move) :
    Inv (m.step env pairer move).1 := by
  cases move with
  | main answers => exact mainStep_inv hm htidy
  | rotation i answers => exact rotationStep_inv hm

theorem step_current {move : Move} (hm : Inv m) : Current env pairer m move := by
  cases move with
  | main answers => exact mainStep_current answers
  | rotation i answers => exact rotationStep_current hm

theorem always_current {moves : List Move} (hm : Inv m)
    (h : Always env pairer Tidy m moves) : Always env pairer (Current env pairer) m moves := by
  induction moves generalizing m with
  | nil => trivial
  | cons move moves ih => exact ⟨step_current hm, ih (step_inv hm h.1) h.2⟩

end Invariant

/-- Over all frames and all orders in which the tasks are woken: when every pair-device iq
is processed only after the tasks of the earlier ones have made their last callback, no
code of an older iq is shown and none after the run has ended. -/
theorem current_codes_only {P : Primitives} {env : PairEnv} {pairer : Pairer}
    {device : DeviceStore} {rounds : Nat} {moves : List Move}
    (h : Always env pairer Tidy (start P env pairer device rounds) moves) :
    Always env pairer (Current env pairer) (start P env pairer device rounds) moves :=
  always_current (start_inv P device rounds) h

section Demo

def demoScanning : Answers
  | .recv => .ok demoPairDevice
  | .send _ => .ok ()
  | .onQr _ => .ok ()
  | .sleep _ => .ok ()
  | .joinQr => .ok ()

def demoCancel : Answers := fun _ => .error .cancelledError

def demoScanStart : PairRun := start demoPrimitives demoPairEnv demoPairer demoUnpaired 5

/-- The later code of the first iq is shown before the second iq is processed. -/
def demoOneByOne : List Move :=
  List.replicate 3 (.main demoScanning) ++ List.replicate 2 (.rotation 0 demoScanning) ++
    List.replicate 3 (.main demoScanning) ++
    [.main demoCancel, .rotation 1 demoCancel, .main demoScanning, .rotation 1 demoScanning]

theorem current_codes_only_one_by_one :
    Always demoPairEnv demoPairer (Current demoPairEnv demoPairer) demoScanStart demoOneByOne := by
  have hended : Always demoPairEnv demoPairer (fun m move => processes m move = true →
      ∀ r ∈ m.rotations, r.task = none) demoScanStart demoOneByOne := by decide +kernel
  exact current_codes_only (hended.mono _ _ fun m move h hprocesses r hr =>
    Rotation.finished_of_none (h hprocesses r hr))

def demoTwoScans : List Move :=
  List.replicate 6 (.main demoScanning) ++
    [.main demoCancel, .rotation 1 demoCancel, .main demoScanning]

def demoAbandoned : PairRun :=
  demoTwoScans.foldl (fun m move => (m.step demoPairEnv demoPairer move).1) demoScanStart

/-- The task of the first iq goes on after the second one and after the run. -/
theorem abandoned_rotation_shows :
    demoAbandoned.ended = true ∧ demoAbandoned.shown = 2 ∧
    (demoAbandoned.step demoPairEnv demoPairer (.rotation 0 demoScanning)).2 = [1] ∧
    ¬ Always demoPairEnv demoPairer (Current demoPairEnv demoPairer) demoScanStart
      (demoTwoScans ++ [.rotation 0 demoScanning]) := by
  decide +kernel

end Demo

end PyWhats.Pairing
