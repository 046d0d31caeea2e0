import PyWhats.Socket

/-! When closing the socket leaves nobody behind. The sentinels come after the frames,
so calls read the frames first; whether a call that waits, a later call or the closer
itself gets stuck is decided by the reason that was recorded, by the room in the queue
and by how many calls wait. -/

namespace PyWhats.Socket

def framesOf (items : List Item) : List Bytes :=
  items.filterMap fun item => match item with
    | .frame data => some data
    | .sentinel => none

/-- The sentinel that a running `disconnect` is going to put. -/
def owed (s : NoiseSocket) : Nat := if s.closer = .joining then 1 else 0

/-- The reader loop has ended or `disconnect` has been called. -/
def Closing (s : NoiseSocket) : Prop := s.reader = .ended ∨ s.closer ≠ .idle

/-- Frames are returned in the order of their arrival. Once the socket is closing, `n`
calls return the frames that are queued and raise after that, without a wait; when the
close is complete, every call that was waiting has been woken and has its item; and
`disconnect` does not wait for room. -/
structure ClosesCleanly (s : NoiseSocket) : Prop where
  order : s.delivered = s.returned ++ framesOf s.inbound.items
  calls : Closing s → ∃ exc, ∀ task n, recvFrames task n s =
    ((framesOf s.inbound.items).map Received.frame ++
      List.replicate n (Received.connectionClosed exc)).take n
  waiting : s.reader = .ended → s.closer ≠ .joining →
    s.inbound.getters = [] ∧ s.inbound.woken.length ≤ s.inbound.items.length
  closer : s.closer ≠ .blocked

/-- The calls that wait are no more than the items for them, once the reader has put
its sentinel. -/
def waitersServed (s : NoiseSocket) : Prop :=
  s.inbound.pending ≤ s.inbound.items.length + (if s.inbound.full then 0 else 1) + owed s

/-- The message is the payload of a close. -/
def closes (data : Bytes) : Bool :=
  match classify data with
  | .close _ => true
  | _ => false

/-- The condition on a step: `disconnect` is called after a reason was recorded and
finds room for its sentinel; when the reader ends, there is an item for every call
that waits; and no later call takes such an item. -/
def Allowed (s : NoiseSocket) : Act → Prop
  | .message data => closes data = true → waitersServed s
  | .readerFails _ => waitersServed s
  | .readerEof => waitersServed s
  | .readerCancelled =>
    if s.reader = .created then s.inbound.pending ≤ s.inbound.items.length + owed s
    else waitersServed s
  | .recvFrame _ => s.reader = .ended → s.inbound.items ≠ [] →
      s.inbound.pending < s.inbound.items.length + owed s
  | .disconnect => s.closeExc.isSome = true
  | .disconnectPuts => s.inbound.full = false
  | _ => True

instance (s : NoiseSocket) : Decidable (waitersServed s) := Nat.decLe _ _

instance (s : NoiseSocket) : (act : Act) → Decidable (Allowed s act)
  | .readerStarts | .putFrame | .closeRecorded _ | .resume _ => inferInstanceAs (Decidable True)
  | .message data => inferInstanceAs (Decidable (closes data = true → waitersServed s))
  | .readerFails _ | .readerEof => inferInstanceAs (Decidable (waitersServed s))
  | .readerCancelled => inferInstanceAs (Decidable (if s.reader = .created then
      s.inbound.pending ≤ s.inbound.items.length + owed s else waitersServed s))
  | .recvFrame _ => inferInstanceAs (Decidable (s.reader = .ended → s.inbound.items ≠ [] →
      s.inbound.pending < s.inbound.items.length + owed s))
  | .disconnect => inferInstanceAs (Decidable (s.closeExc.isSome = true))
  | .disconnectPuts => inferInstanceAs (Decidable (s.inbound.full = false))

def AllowedRun (s : NoiseSocket) : List Act → Prop
  | [] => True
  | act :: acts => Allowed s act ∧
    match step s act with
    | some s' => AllowedRun s' acts
    | none => True

section Shape

/-- Frames and then sentinels. -/
def Shape (items : List Item) : Prop :=
  ∃ k, items = (framesOf items).map .frame ++ List.replicate k .sentinel

theorem framesOf_append (items items' : List Item) :
    framesOf (items ++ items') = framesOf items ++ framesOf items' := List.filterMap_append

theorem Shape.sentinel {items : List Item} (h : Shape items) : Shape (items ++ [.sentinel]) := by
  obtain ⟨k, hk⟩ := h
  refine ⟨k + 1, ?_⟩
  rw [framesOf_append, List.map_append, List.replicate_succ', ← List.append_assoc]
  nth_rewrite 1 [hk]
  simp [framesOf]

theorem Shape.tail {item : Item} {items : List Item} (h : Shape (item :: items)) : Shape items := by
  obtain ⟨k, hk⟩ := h
  cases item with
  | frame data =>
    exact ⟨k, (List.cons.inj hk).2⟩
  | sentinel =>
    cases hframes : framesOf items with
    | cons data frames =>
      have hfirst : framesOf (.sentinel :: items) = data :: frames := hframes
      rw [hfirst] at hk
      cases (List.cons.inj hk).1
    | nil =>
      have hfirst : framesOf (.sentinel :: items) = [] := hframes
      rw [hfirst, List.map_nil, List.nil_append] at hk
      cases k with
      | zero => cases hk
      | succ k => exact ⟨k, by rw [hframes]; exact (List.cons.inj hk).2⟩

theorem Shape.sentinels {items : List Item} (h : Shape (.sentinel :: items)) :
    framesOf items = [] := by
  obtain ⟨k, hk⟩ := h
  cases hframes : framesOf items with
  | nil => rfl
  | cons data frames =>
    have hfirst : framesOf (.sentinel :: items) = data :: frames := hframes
    rw [hfirst] at hk
    cases (List.cons.inj hk).1

end Shape

section Invariant

structure Inv (s : NoiseSocket) : Prop where
  prompt : s.inbound.Prompt
  shape : Shape s.inbound.items
  frames : s.reader ≠ .ended → s.inbound.items = (framesOf s.inbound.items).map .frame
  order : s.delivered = s.returned ++ framesOf s.inbound.items
  closed : s.closed = true ↔ Closing s
  reason : s.closed = true → s.closeExc.isSome = true
  closer : s.closer ≠ .blocked
  joined : s.closer = .done → s.reader = .ended
  served : s.reader = .ended → s.inbound.pending ≤ s.inbound.items.length + owed s

theorem inv_connected (queueMaxsize : Nat) : Inv (connected queueMaxsize) := by
  constructor <;> simp [connected, AsyncQueue.Prompt, Shape, framesOf, Closing]

variable {s s' : NoiseSocket}

theorem items_putNowait (q : AsyncQueue Item) :
    (q.putNowait .sentinel).items = q.items ++ (if q.full then [] else [.sentinel]) := by
  unfold AsyncQueue.putNowait
  cases q.full <;> simp

theorem pending_putNowait (q : AsyncQueue Item) : (q.putNowait .sentinel).pending = q.pending := by
  unfold AsyncQueue.putNowait
  cases q.full <;> simp

theorem prompt_putNowait {q : AsyncQueue Item} (h : q.Prompt) : (q.putNowait .sentinel).Prompt := by
  unfold AsyncQueue.putNowait
  cases q.full
  · exact h.put _
  · exact h

theorem framesOf_sentinel (items : List Item) (full : Bool) :
    framesOf (items ++ (if full then [] else [.sentinel])) = framesOf items := by
  cases full <;> simp [framesOf]

theorem Inv.endReader (h : Inv s) {exc : Option String} (hexc : exc.isSome = true)
    (hserved : waitersServed s) : Inv (endReader { s with closeExc := exc }) where
  prompt := prompt_putNowait h.prompt
  shape := by
    simp only [Socket.endReader, items_putNowait]
    cases s.inbound.full
    · exact h.shape.sentinel
    · simpa using h.shape
  frames hne := absurd rfl hne
  order := by
    simp only [Socket.endReader, items_putNowait, framesOf_sentinel]
    exact h.order
  closed := by simp [Socket.endReader, Closing]
  reason _ := hexc
  closer := h.closer
  joined _ := rfl
  served _ := by
    simp only [Socket.endReader, pending_putNowait, items_putNowait, List.length_append]
    unfold waitersServed at hserved
    cases hfull : s.inbound.full
    · simpa [hfull, owed] using hserved
    · simpa [hfull, owed] using hserved

/-- A call takes the first item of the queue. -/
theorem Inv.take (h : Inv s) {item : Item} {items : List Item}
    (hitems : s.inbound.items = item :: items) {q : AsyncQueue Item} (hq : q.items = items)
    (hprompt : q.Prompt) (hserved : s.reader = .ended → q.pending ≤ items.length + owed s) :
    Inv (received s (some item, q)).2 := by
  have hshape := h.shape
  rw [hitems] at hshape
  have horder := h.order
  rw [hitems] at horder
  have hframes : s.reader ≠ .ended → items = (framesOf items).map .frame := by
    intro hne
    have hall := h.frames hne
    rw [hitems] at hall
    cases item with
    | frame data => exact (List.cons.inj hall).2
    | sentinel =>
      have hfirst : framesOf (.sentinel :: items) = [] := hshape.sentinels
      rw [hfirst] at hall
      cases hall
  cases item with
  | frame data =>
    refine ⟨hprompt, ?_, ?_, ?_, h.closed, h.reason, h.closer, h.joined, ?_⟩
    · simpa only [received, hq] using hshape.tail
    · simpa only [received, hq] using hframes
    · simp only [received, hq, List.append_assoc]
      exact horder
    · simp only [received, hq]
      exact hserved
  | sentinel =>
    refine ⟨hprompt, ?_, ?_, ?_, h.closed, h.reason, h.closer, h.joined, ?_⟩
    · simpa only [received, hq] using hshape.tail
    · simpa only [received, hq] using hframes
    · simp only [received, hq]
      exact horder
    · simp only [received, hq]
      exact hserved

/-- A call finds the queue empty and waits. -/
theorem Inv.wait (h : Inv s) {q : AsyncQueue Item} (hq : q.items = s.inbound.items)
    (hprompt : q.Prompt)
    (hserved : s.reader = .ended → q.pending ≤ s.inbound.items.length + owed s) :
    Inv (received s (none, q)).2 := by
  refine ⟨hprompt, ?_, ?_, ?_, h.closed, h.reason, h.closer, h.joined, ?_⟩
  · simpa only [received, hq] using h.shape
  · simpa only [received, hq] using h.frames
  · simpa only [received, hq] using h.order
  · simp only [received, hq]
    exact hserved

theorem Inv.recvFrame (h : Inv s) {task : Nat} (hallowed : Allowed s (.recvFrame task)) :
    Inv (Socket.recvFrame s task).2 := by
  unfold Socket.recvFrame
  split
  · exact h
  · rename_i hopen
    cases hitems : s.inbound.items with
    | cons item items =>
      rw [AsyncQueue.get_cons hitems]
      have hprompt := h.prompt.get task
      rw [AsyncQueue.get_cons hitems] at hprompt
      refine h.take hitems rfl hprompt fun hended => ?_
      have hlt := hallowed hended (by simp [hitems])
      rw [hitems, List.length_cons] at hlt
      simp only [AsyncQueue.pending] at hlt ⊢
      omega
    | nil =>
      rw [AsyncQueue.get_nil hitems]
      have hprompt := h.prompt.get task
      rw [AsyncQueue.get_nil hitems] at hprompt
      refine h.wait rfl hprompt fun hended => ?_
      have hclosed := h.closed.mpr (Or.inl hended)
      obtain ⟨exc, hexc⟩ := Option.isSome_iff_exists.mp (h.reason hclosed)
      exact absurd hexc (hopen exc (by simp [hclosed, hitems]))

theorem Inv.resume (h : Inv s) {task : Nat} (htask : task ∈ s.inbound.woken) :
    Inv (received s (s.inbound.resume task)).2 := by
  have hprompt := h.prompt.resume htask
  have hlen := List.length_erase_of_mem htask
  have hpos := List.length_pos_of_mem htask
  cases hitems : s.inbound.items with
  | cons item items =>
    rw [AsyncQueue.resume_cons hitems] at hprompt ⊢
    refine h.take hitems rfl hprompt fun hended => ?_
    have hserved := h.served hended
    rw [hitems, List.length_cons] at hserved
    simp only [AsyncQueue.pending, hlen] at hserved ⊢
    omega
  | nil =>
    rw [AsyncQueue.resume_nil hitems] at hprompt ⊢
    refine h.wait rfl hprompt fun hended => ?_
    have hserved := h.served hended
    simp only [AsyncQueue.pending, List.length_append, List.length_singleton, hlen] at hserved ⊢
    omega

/-- What the reader can do, with the branch of its loop that does it. -/
inductive ReaderMove (s : NoiseSocket) : Act → NoiseSocket → Prop where
  | starts (hcreated : s.reader = .created) :
    ReaderMove s .readerStarts { s with reader := .reading [] }
  | frames {data : Bytes} {frames : List Bytes} (hreading : s.reader = .reading [])
    (hclass : classify data = .frames frames) :
    ReaderMove s (.message data) { s with reader := .reading frames }
  | control {data : Bytes} (hreading : s.reader = .reading []) (hclass : classify data = .control) :
    ReaderMove s (.message data) s
  | closes {data : Bytes} {reason : String} (hreading : s.reader = .reading [])
    (hclass : classify data = .close reason) :
    ReaderMove s (.message data) (endReader { s with closeExc := some reason })
  | puts {frame : Bytes} {frames : List Bytes} (hreading : s.reader = .reading (frame :: frames)) :
    ReaderMove s .putFrame { s with
      reader := .reading frames
      inbound := s.inbound.put (.frame frame)
      delivered := s.delivered ++ [frame] }
  | fails {exc : String} (hreading : s.reader = .reading []) :
    ReaderMove s (.readerFails exc) (endReader { s with closeExc := some exc })
  | eof (hreading : s.reader = .reading []) :
    ReaderMove s .readerEof (endReader { s with
      closeExc := some (s.closeExc.getD "peer closed the stream (EOF)") })

theorem readerStep_move {act : Act} (hstep : readerStep s act = some s') : ReaderMove s act s' := by
  cases act with
  | readerStarts =>
    simp only [readerStep] at hstep
    split at hstep
    · rename_i hcreated
      cases hstep
      exact .starts hcreated
    · cases hstep
  | message data =>
    simp only [readerStep] at hstep
    split at hstep
    · rename_i hreading
      split at hstep
      · rename_i frames hclass
        cases hstep
        exact .frames hreading hclass
      · rename_i hclass
        cases hstep
        exact .control hreading hclass
      · rename_i reason hclass
        cases hstep
        exact .closes hreading hclass
    · cases hstep
  | putFrame =>
    simp only [readerStep] at hstep
    split at hstep
    · rename_i frame frames hreading
      split at hstep
      · cases hstep
      · cases hstep
        exact .puts hreading
    · cases hstep
  | readerFails exc =>
    simp only [readerStep] at hstep
    split at hstep
    · rename_i hreading
      cases hstep
      exact .fails hreading
    · cases hstep
  | readerEof =>
    simp only [readerStep] at hstep
    split at hstep
    · rename_i hreading
      cases hstep
      exact .eof hreading
    · cases hstep
  | readerCancelled => cases hstep
  | closeRecorded exc => cases hstep
  | recvFrame task => cases hstep
  | resume task => cases hstep
  | disconnect => cases hstep
  | disconnectPuts => cases hstep

theorem Inv.reads (h : Inv s) (hidle : s.closer = .idle) (hne : s.reader ≠ .ended)
    (frames : List Bytes) : Inv { s with reader := .reading frames } := by
  refine ⟨h.prompt, h.shape, fun _ => h.frames hne, h.order, ?_, h.reason, h.closer, ?_, ?_⟩
  · rw [h.closed]
    simp [Closing, hidle, hne]
  · simp [hidle]
  · simp

theorem Inv.puts (h : Inv s) (hidle : s.closer = .idle) {frame : Bytes} {frames : List Bytes}
    (hreading : s.reader = .reading (frame :: frames)) :
    Inv { s with
      reader := .reading frames
      inbound := s.inbound.put (.frame frame)
      delivered := s.delivered ++ [frame] } := by
  have hne : s.reader ≠ .ended := by simp [hreading]
  have hitems := h.frames hne
  have hnew : s.inbound.items ++ [Item.frame frame] =
      (framesOf (s.inbound.items ++ [Item.frame frame])).map .frame := by
    rw [framesOf_append, List.map_append, ← hitems]
    rfl
  refine ⟨h.prompt.put _, ?_, ?_, ?_, ?_, h.reason, h.closer, ?_, ?_⟩
  · exact ⟨0, by simpa using hnew⟩
  · intro _
    simpa using hnew
  · simp only [AsyncQueue.items_put, framesOf_append]
    rw [h.order, List.append_assoc]
    rfl
  · rw [h.closed]
    simp [Closing, hidle, hreading]
  · simp [hidle]
  · simp

theorem Inv.readerStep (h : Inv s) (hidle : s.closer = .idle) {act : Act}
    (hallowed : Allowed s act) (hstep : readerStep s act = some s') : Inv s' := by
  cases readerStep_move hstep with
  | starts hcreated => exact h.reads hidle (by simp [hcreated]) []
  | @frames data frames hreading hclass => exact h.reads hidle (by simp [hreading]) frames
  | control hreading hclass => exact h
  | closes hreading hclass => exact h.endReader rfl (hallowed (by rw [Socket.closes, hclass]))
  | puts hreading => exact h.puts hidle hreading
  | fails hreading => exact h.endReader rfl hallowed
  | eof hreading => exact h.endReader rfl hallowed

/-- What a step that only the reader can take comes to. -/
theorem step_reader {act : Act} (hstep : (if s.closer = .idle then readerStep s act else none) =
    some s') : s.closer = .idle ∧ readerStep s act = some s' := by
  split at hstep
  · rename_i hidle
    exact ⟨hidle, hstep⟩
  · cases hstep

theorem Inv.cancelled (h : Inv s) (hallowed : Allowed s .readerCancelled)
    (hstep : step s .readerCancelled = some s') : Inv s' := by
  simp only [step] at hstep
  split at hstep
  · rename_i hjoining hcreated
    cases hstep
    simp only [Allowed, hcreated, if_true] at hallowed
    refine ⟨h.prompt, h.shape, fun hne => absurd rfl hne, h.order, ?_, h.reason, h.closer,
      fun _ => rfl, fun _ => hallowed⟩
    rw [h.closed]
    simp [Closing, hjoining]
  · rename_i frames hjoining hreading
    cases hstep
    simp only [Allowed, hreading, reduceCtorEq, if_false] at hallowed
    have hclosed : s.closed = true := h.closed.mpr (Or.inr (by simp [hjoining]))
    exact h.endReader (h.reason hclosed) hallowed
  · cases hstep

theorem Inv.disconnectPuts (h : Inv s) (hroom : s.inbound.full = false)
    (hstep : step s .disconnectPuts = some s') : Inv s' := by
  simp only [step] at hstep
  split at hstep
  · rename_i hcloser
    have hjoining : s.closer = .joining ∧ s.reader = .ended := by
      rcases hcloser with hjoining | hblocked
      · exact hjoining
      · exact absurd hblocked h.closer
    cases hstep
    have hput : putSentinel s =
        { s with inbound := s.inbound.put .sentinel, closer := .done } := by
      simp [putSentinel, hroom]
    have hserved := h.served hjoining.2
    rw [hput]
    refine ⟨h.prompt.put _, ?_, fun hne => absurd hjoining.2 hne, ?_, ?_, h.reason, by simp,
      fun _ => hjoining.2, fun _ => ?_⟩
    · simpa only [AsyncQueue.items_put] using h.shape.sentinel
    · simp only [AsyncQueue.items_put, framesOf_append]
      simpa [framesOf] using h.order
    · rw [h.closed]
      simp [Closing, hjoining.2]
    · simp only [AsyncQueue.pending_put, AsyncQueue.items_put, List.length_append,
        List.length_singleton, owed, reduceCtorEq, if_false]
      simpa [owed, hjoining.1] using hserved
  · cases hstep

theorem Inv.step (h : Inv s) {act : Act} (hallowed : Allowed s act)
    (hstep : Socket.step s act = some s') : Inv s' := by
  cases act with
  | readerStarts =>
    obtain ⟨hidle, hreader⟩ := step_reader hstep
    exact h.readerStep hidle hallowed hreader
  | message data =>
    obtain ⟨hidle, hreader⟩ := step_reader hstep
    exact h.readerStep hidle hallowed hreader
  | putFrame =>
    obtain ⟨hidle, hreader⟩ := step_reader hstep
    exact h.readerStep hidle hallowed hreader
  | readerFails exc =>
    obtain ⟨hidle, hreader⟩ := step_reader hstep
    exact h.readerStep hidle hallowed hreader
  | readerEof =>
    obtain ⟨hidle, hreader⟩ := step_reader hstep
    exact h.readerStep hidle hallowed hreader
  | readerCancelled => exact h.cancelled hallowed hstep
  | closeRecorded exc =>
    cases hstep
    exact { h with reason := fun _ => rfl }
  | recvFrame task =>
    cases hstep
    exact h.recvFrame hallowed
  | resume task =>
    simp only [Socket.step] at hstep
    split at hstep
    · rename_i htask
      cases hstep
      exact h.resume htask
    · cases hstep
  | disconnect =>
    simp only [Socket.step] at hstep
    split at hstep
    · rename_i hidle
      cases hstep
      refine ⟨h.prompt, h.shape, h.frames, h.order, ?_, fun _ => hallowed, by simp, by simp, ?_⟩
      · simp [Closing]
      · intro hended
        have hserved := h.served hended
        simp only [owed, hidle, if_true, reduceCtorEq, if_false] at hserved ⊢
        omega
    · cases hstep
      exact h
  | disconnectPuts => exact h.disconnectPuts hallowed hstep

theorem Inv.run (h : Inv s) {acts : List Act} (hallowed : AllowedRun s acts)
    (hrun : Socket.run s acts = some s') : Inv s' := by
  induction acts generalizing s with
  | nil =>
    cases hrun
    exact h
  | cons act acts ih =>
    obtain ⟨hact, hrest⟩ := hallowed
    obtain ⟨s₁, hstep, hrun⟩ := Option.bind_eq_some_iff.mp hrun
    rw [hstep] at hrest
    exact ih (h.step hact hstep) hrest hrun

end Invariant

section Calls

variable {s : NoiseSocket}

/-- A call on a closing socket, by what is first in the queue. -/
theorem recvFrame_closed {exc : String} (hclosed : s.closed = true) (hexc : s.closeExc = some exc)
    (task : Nat) : recvFrame s task = match s.inbound.items with
      | [] => (.connectionClosed exc, s)
      | .frame data :: items => (.frame data, { s with
          inbound := { s.inbound with items := items }, returned := s.returned ++ [data] })
      | .sentinel :: items => (.connectionClosed exc, { s with
          inbound := { s.inbound with items := items } }) := by
  cases hitems : s.inbound.items with
  | nil => simp [recvFrame, hclosed, hexc, hitems]
  | cons item items =>
    have hget := AsyncQueue.get_cons hitems task
    cases item <;> simp [recvFrame, hclosed, hexc, hitems, hget, received]

theorem take_append_replicate {α : Type} (as : List α) (a : α) (n : Nat) :
    (as ++ List.replicate (n + 1) a).take n = (as ++ List.replicate n a).take n := by
  have hmin : min (n - as.length) (n + 1) = min (n - as.length) n := by omega
  rw [List.take_append, List.take_append, List.take_replicate, List.take_replicate, hmin]

theorem recvFrames_closed {exc : String} (hclosed : s.closed = true) (hexc : s.closeExc = some exc)
    (hshape : Shape s.inbound.items) (task n : Nat) :
    recvFrames task n s = ((framesOf s.inbound.items).map Received.frame ++
      List.replicate n (Received.connectionClosed exc)).take n := by
  induction n generalizing s with
  | zero => rfl
  | succ n ih =>
    have hcall := recvFrame_closed hclosed hexc task
    have hnext := ih (s := (recvFrame s task).2)
    cases hitems : s.inbound.items with
    | nil =>
      rw [hitems] at hcall
      rw [hcall] at hnext
      have hrest := hnext hclosed hexc hshape
      simp only [hitems] at hrest
      simp only [recvFrames, hcall, hrest]
      simp [framesOf, List.replicate_succ]
    | cons item items =>
      rw [hitems] at hcall hshape
      cases item with
      | frame data =>
        have hframes : framesOf (.frame data :: items) = data :: framesOf items := rfl
        rw [hcall] at hnext
        have hrest := hnext hclosed hexc hshape.tail
        simp only [recvFrames, hcall, hrest]
        rw [hframes, List.map_cons, List.cons_append, List.take_succ_cons, take_append_replicate]
      | sentinel =>
        have hframes : framesOf (.sentinel :: items) = [] := hshape.sentinels
        rw [hcall] at hnext
        have hrest := hnext hclosed hexc hshape.tail
        simp only [recvFrames, hcall, hrest, hshape.sentinels, hframes]
        simp [List.replicate_succ]

end Calls

theorem socket_closes_cleanly {queueMaxsize : Nat} {acts : List Act} {s : NoiseSocket}
    (hallowed : AllowedRun (connected queueMaxsize) acts)
    (hrun : run (connected queueMaxsize) acts = some s) : ClosesCleanly s := by
  have h := (inv_connected queueMaxsize).run hallowed hrun
  refine ⟨h.order, fun hclosing => ?_, fun hended hcloser => ?_, h.closer⟩
  · have hclosed := h.closed.mpr hclosing
    obtain ⟨exc, hexc⟩ := Option.isSome_iff_exists.mp (h.reason hclosed)
    exact ⟨exc, recvFrames_closed hclosed hexc h.shape⟩
  · have hserved := h.served hended
    rw [owed, if_neg hcloser, Nat.add_zero] at hserved
    refine ⟨h.prompt.getters_eq_nil hserved, ?_⟩
    unfold AsyncQueue.pending at hserved
    omega

/-- A call that waits gets its frame; the next one waits when the reader fails, and is
woken by its sentinel; `disconnect` comes last. -/
def peerCloses : List Act :=
  [.readerStarts, .recvFrame 0, .message [0, 0, 1, 7], .putFrame, .resume 0, .recvFrame 0,
    .readerFails "boom", .disconnect, .disconnectPuts, .resume 0]

def peerClosed : NoiseSocket :=
  { inbound := { maxsize := 2, items := [.sentinel] }
    reader := .ended
    closer := .done
    closed := true
    closeExc := some "boom"
    delivered := [[7]]
    returned := [[7]] }

theorem socket_closes_cleanly_peer :
    run (connected 2) peerCloses = some peerClosed ∧ ClosesCleanly peerClosed := by
  have hrun : run (connected 2) peerCloses = some peerClosed := rfl
  refine ⟨hrun, socket_closes_cleanly ?_ hrun⟩
  exact ⟨by decide, by decide, by decide, by decide, by decide, by decide, by decide, by decide,
    by decide, by decide, trivial⟩

/-- The two sentinels of a `disconnect` on an idle connection. -/
def abandoned : NoiseSocket :=
  { inbound := { maxsize := 256, items := [.sentinel, .sentinel] }
    reader := .ended
    closer := .done
    closed := true }

/-- A `disconnect` that finds the queue full. -/
def stuck : NoiseSocket :=
  { inbound := { maxsize := 1, items := [.frame [7]] }
    reader := .ended
    closer := .blocked
    closed := true
    delivered := [[7]] }

/-- After a `disconnect` on an idle connection the third call waits, and with a full
queue `disconnect` itself does. -/
theorem disconnect_strands_both_sides :
    run (connected 256) [.readerStarts, .disconnect, .readerCancelled, .disconnectPuts] =
        some abandoned ∧
      recvFrames 0 3 abandoned = [.connectionClosed "connection closed",
        .connectionClosed "connection closed", .waiting] ∧ ¬ ClosesCleanly abandoned ∧
      run (connected 1) [.readerStarts, .message [7], .putFrame, .disconnect, .readerCancelled,
        .disconnectPuts] = some stuck ∧ ¬ ClosesCleanly stuck := by
  refine ⟨rfl, rfl, fun h => ?_, rfl, fun h => h.closer rfl⟩
  obtain ⟨exc, hcalls⟩ := h.calls (Or.inl rfl)
  have hthree : [Received.connectionClosed "connection closed",
      Received.connectionClosed "connection closed", Received.waiting] =
        [Received.connectionClosed exc, Received.connectionClosed exc,
          Received.connectionClosed exc] := hcalls 0 3
  simp at hthree

end PyWhats.Socket
