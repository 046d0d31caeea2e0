import PyWhats.SocketClose

/-! The framing of the websocket connection: what `send_frame` writes for a payload, and
what the reader loop makes of messages that are such frames, several in one, or are not. -/

namespace PyWhats.Socket

/-- `_MAX_FRAME_LEN`. -/
def maxFrameLen : Nat := 0xFFFFFF

inductive SendError where
  | notConnected (message : String)
  | valueError (message : String)
  | connectionClosed (message : String)
  | interrupted
  deriving DecidableEq

/-- The half of a `NoiseSocket` that sends: whether it has a websocket, whether a close was
observed, and the messages that the websocket took. -/
structure SendHalf where
  ws : Bool := true
  closed : Bool := false
  introPrefix : Bytes := []
  closeExc : Option String := none
  wire : List Bytes := []
  deriving DecidableEq

def SendHalf.isConnected (s : SendHalf) : Bool := s.ws && !s.closed

/-- What happens to a call from the lock on: the websocket takes the message, it is gone when
the lock is free, or its `send` raises, because it is closed or for a reason of its own. -/
inductive WsSend where
  | taken
  | gone
  | closed (exc : String)
  | interrupted
  deriving DecidableEq

/-- The payload behind its length in three bytes. -/
def frame (payload : Bytes) : Bytes := Binary.toBytesBig 3 payload.length ++ payload

def sendFrame (s : SendHalf) (ws : WsSend) (payload : Bytes) : Except SendError Unit × SendHalf :=
  if !s.isConnected then (.error (.notConnected "socket is not connected"), s)
  else if payload.length > maxFrameLen then
    (.error (.valueError ("frame too large: " ++ toString payload.length ++ " > " ++
      toString maxFrameLen)), s)
  else
    let s' := { s with introPrefix := [] }
    match ws with
    | .gone => (.error (.notConnected "socket is not connected"), { s with ws := false, closed := true })
    | .taken => (.ok (), { s' with wire := s.wire ++ [s.introPrefix ++ frame payload] })
    | .closed exc => (.error (.connectionClosed exc), { s' with closeExc := some exc })
    | .interrupted => (.error .interrupted, s')

def sendFrames (s : SendHalf) : List Bytes → Except SendError Unit × SendHalf
  | [] => (.ok (), s)
  | payload :: payloads =>
    match sendFrame s .taken payload with
    | (.error e, s) => (.error e, s)
    | (.ok (), s) => sendFrames s payloads

/-- A message that the frames of some payloads make up. -/
def Framed (data : Bytes) : Prop :=
  ∃ payloads : List Bytes, payloads ≠ [] ∧ (∀ p ∈ payloads, p.length < 0x1000000) ∧
    data = payloads.flatMap frame

/-- The frames that one message puts into the queue. -/
def offered (data : Bytes) : List Bytes :=
  match classify data with
  | .frames frames => frames
  | _ => []

def messages (acts : List Act) : List Bytes :=
  acts.filterMap fun
    | .message data => some data
    | _ => none

section Split

theorem frame_eq {payload : Bytes} (h : payload.length < 0x1000000) :
    ∃ a b c, frame payload = a :: b :: c :: payload ∧
      Binary.fromBytesBig [a, b, c] = payload.length := by
  have hback : Binary.fromBytesBig (Binary.toBytesBig 3 payload.length) = payload.length :=
    Binary.fromBytesBig_toBytesBig h
  exact ⟨_, _, _, rfl, hback⟩

theorem splitFrames_frames {payloads : List Bytes} (h : ∀ p ∈ payloads, p.length < 0x1000000)
    {fuel : Nat} (hfuel : (payloads.flatMap frame).length ≤ fuel) :
    splitFrames fuel (payloads.flatMap frame) = some payloads := by
  induction payloads generalizing fuel with
  | nil => rw [List.flatMap_nil, splitFrames]
  | cons p payloads ih =>
    obtain ⟨a, b, c, hframe, hlength⟩ := frame_eq (h p List.mem_cons_self)
    rw [List.flatMap_cons, hframe] at hfuel ⊢
    simp only [List.cons_append, List.length_cons, List.length_append] at hfuel ⊢
    cases fuel with
    | zero => omega
    | succ fuel =>
      have hrest : splitFrames fuel (payloads.flatMap frame) = some payloads :=
        ih (fun q hq => h q (List.mem_cons_of_mem _ hq)) (by omega)
      have hfits : ¬ (p ++ payloads.flatMap frame).length < p.length := by
        rw [List.length_append]
        omega
      simp only [splitFrames, hlength, if_neg hfits, List.drop_left, List.take_left, hrest,
        Option.map_some]

theorem splitFrames_sound {fuel : Nat} {data : Bytes} {frames : List Bytes}
    (h : splitFrames fuel data = some frames) :
    data = frames.flatMap frame ∧ ∀ p ∈ frames, p.length < 0x1000000 := by
  induction fuel generalizing data frames with
  | zero =>
    cases data with
    | nil =>
      cases h
      exact ⟨rfl, fun p hp => absurd hp List.not_mem_nil⟩
    | cons a data => cases h
  | succ fuel ih =>
    match data, h with
    | [], h =>
      cases h
      exact ⟨rfl, fun p hp => absurd hp List.not_mem_nil⟩
    | a :: b :: c :: rest, h =>
      rw [splitFrames] at h
      by_cases hshort : rest.length < Binary.fromBytesBig [a, b, c]
      · rw [if_pos hshort] at h
        cases h
      · rw [if_neg hshort, Option.map_eq_some_iff] at h
        obtain ⟨frames', hrest, hframes⟩ := h
        obtain ⟨hdata, hlengths⟩ := ih hrest
        have htake : (rest.take (Binary.fromBytesBig [a, b, c])).length =
            Binary.fromBytesBig [a, b, c] := by
          rw [List.length_take]
          omega
        have hheader : Binary.toBytesBig 3 (Binary.fromBytesBig [a, b, c]) = [a, b, c] :=
          Binary.toBytesBig_fromBytesBig [a, b, c]
        subst hframes
        constructor
        · rw [List.flatMap_cons, ← hdata, frame, htake, hheader, List.append_assoc,
            List.take_append_drop]
          rfl
        · intro p hp
          rcases List.mem_cons.mp hp with rfl | hp
          · have hlt := Binary.fromBytesBig_lt [a, b, c]
            simp only [List.length_cons, List.length_nil] at hlt
            rw [htake]
            omega
          · exact hlengths p hp

end Split

section Classify

theorem classify_framed {payloads : List Bytes} (hne : payloads ≠ [])
    (h : ∀ p ∈ payloads, p.length < 0x1000000) :
    classify (payloads.flatMap frame) = .frames payloads := by
  have hsplit := splitFrames_frames h (Nat.le_refl _)
  cases payloads with
  | nil => exact absurd rfl hne
  | cons p payloads =>
    obtain ⟨a, b, c, hframe, _⟩ := frame_eq (h p List.mem_cons_self)
    have hlong : 3 ≤ ((p :: payloads).flatMap frame).length := by
      rw [List.flatMap_cons, hframe]
      simp only [List.cons_append, List.length_cons]
      omega
    rw [classify, if_pos hlong, hsplit]

/-- Whatever is not made up of frames stays in one piece. -/
theorem classify_unframed {data : Bytes} (h : ¬ Framed data) :
    classify data = .frames [data] ∨ classify data = .control ∨
      ∃ reason, classify data = .close reason := by
  rw [classify]
  split
  · rename_i p payloads hsplit
    by_cases hlong : 3 ≤ data.length
    · rw [if_pos hlong] at hsplit
      obtain ⟨hdata, hlengths⟩ := splitFrames_sound hsplit
      exact absurd ⟨p :: payloads, List.cons_ne_nil _ _, hlengths, hdata⟩ h
    · rw [if_neg hlong] at hsplit
      cases hsplit
  · split
    · exact .inr (.inr ⟨_, rfl⟩)
    · split
      · exact .inr (.inl rfl)
      · exact .inl rfl

end Classify

section Send

theorem sendFrame_taken {s : SendHalf} {payload : Bytes} (hconn : s.isConnected = true)
    (h : payload.length < 0x1000000) :
    sendFrame s .taken payload = (.ok (), { s with
      introPrefix := [], wire := s.wire ++ [s.introPrefix ++ frame payload] }) := by
  have hfits : ¬ payload.length > maxFrameLen := by
    rw [maxFrameLen]
    omega
  simp only [sendFrame, hconn, Bool.not_true, Bool.false_eq_true, if_false, if_neg hfits]

theorem sendFrames_taken {s : SendHalf} {payloads : List Bytes} (hconn : s.isConnected = true)
    (hintro : s.introPrefix = []) (h : ∀ p ∈ payloads, p.length < 0x1000000) :
    sendFrames s payloads = (.ok (), { s with wire := s.wire ++ payloads.map frame }) := by
  induction payloads generalizing s with
  | nil => simp [sendFrames]
  | cons p payloads ih =>
    have hrest : ∀ q ∈ payloads, q.length < 0x1000000 :=
      fun q hq => h q (List.mem_cons_of_mem _ hq)
    rw [sendFrames, sendFrame_taken hconn (h p List.mem_cons_self), hintro, List.nil_append]
    simp only
    rw [ih (s := { s with introPrefix := [], wire := s.wire ++ [frame p] }) hconn rfl hrest]
    simp only [List.append_assoc, List.map_cons, List.singleton_append, ← hintro]

end Send

section Deliver

theorem messages_append (acts acts' : List Act) :
    messages (acts ++ acts') = messages acts ++ messages acts' :=
  List.filterMap_append

/-- What the reader still has to put into the queue. -/
def Reader.pending : Reader → List Bytes
  | .reading frames => frames
  | _ => []

/-- Every frame of the messages read is in the queue's past or still to be put, until the
reader ends: then what it had not put is lost. -/
def Accounted (s : NoiseSocket) (frames : List Bytes) : Prop :=
  s.delivered <+: frames ∧ (s.reader ≠ .ended → s.delivered ++ s.reader.pending = frames)

theorem Accounted.kept {s s' : NoiseSocket} {frames : List Bytes} (h : Accounted s frames)
    {act : Act} (hsilent : messages [act] = []) (hdelivered : s'.delivered = s.delivered)
    (hreader : s'.reader = s.reader) :
    Accounted s' (frames ++ (messages [act]).flatMap offered) := by
  rw [hsilent, List.flatMap_nil, List.append_nil, Accounted, hdelivered, hreader]
  exact h

theorem Accounted.ended {s s' : NoiseSocket} {frames more : List Bytes} (h : Accounted s frames)
    (hdelivered : s'.delivered = s.delivered) (hreader : s'.reader = .ended) :
    Accounted s' (frames ++ more) := by
  rw [Accounted, hdelivered, hreader]
  exact ⟨h.1.trans (List.prefix_append _ _), fun hne => absurd rfl hne⟩

theorem Accounted.reading {s' : NoiseSocket} {frames pending : List Bytes}
    (hreader : s'.reader = .reading pending) (hframes : s'.delivered ++ pending = frames) :
    Accounted s' frames := by
  rw [Accounted, hreader]
  exact ⟨⟨pending, hframes⟩, fun _ => hframes⟩

theorem Accounted.readerStep {s s' : NoiseSocket} {frames : List Bytes} (h : Accounted s frames)
    {act : Act} (hstep : readerStep s act = some s') :
    Accounted s' (frames ++ (messages [act]).flatMap offered) := by
  -- The messages before `act` are those that the reader has put or still holds.
  have hnow : ∀ {pending}, s.reader = .reading pending → s.delivered ++ pending = frames := by
    intro pending hreading
    have hframes := h.2 (by rw [hreading]; simp)
    rwa [hreading] at hframes
  cases readerStep_move hstep with
  | starts hcreated =>
    have hframes := h.2 (by rw [hcreated]; simp)
    rw [hcreated] at hframes
    exact Accounted.reading rfl (by simpa [messages, Reader.pending] using hframes)
  | frames hreading hclass =>
    exact Accounted.reading rfl (by simp [messages, offered, hclass, ← hnow hreading])
  | control hreading hclass =>
    exact Accounted.reading hreading (by simp [messages, offered, hclass, ← hnow hreading])
  | closes hreading hclass => exact h.ended rfl rfl
  | puts hreading => exact Accounted.reading rfl (by simp [messages, ← hnow hreading])
  | fails hreading => exact h.ended rfl rfl
  | eof hreading => exact h.ended rfl rfl

theorem received_kept (s : NoiseSocket) (r : Option Item × AsyncQueue Item) :
    (received s r).2.delivered = s.delivered ∧ (received s r).2.reader = s.reader := by
  rcases r with ⟨_ | _ | _, q⟩ <;> exact ⟨rfl, rfl⟩

theorem recvFrame_kept (s : NoiseSocket) (task : Nat) :
    (recvFrame s task).2.delivered = s.delivered ∧ (recvFrame s task).2.reader = s.reader := by
  rw [recvFrame]
  split
  · exact ⟨rfl, rfl⟩
  · exact received_kept s _

theorem putSentinel_kept (s : NoiseSocket) :
    (putSentinel s).delivered = s.delivered ∧ (putSentinel s).reader = s.reader := by
  rw [putSentinel]
  split <;> exact ⟨rfl, rfl⟩

/-- Only the reader touches the frames. -/
theorem Accounted.step {s s' : NoiseSocket} {frames : List Bytes} (h : Accounted s frames)
    {act : Act} (hstep : step s act = some s') :
    Accounted s' (frames ++ (messages [act]).flatMap offered) := by
  cases act with
  | readerStarts => exact h.readerStep (step_reader hstep).2
  | message data => exact h.readerStep (step_reader hstep).2
  | putFrame => exact h.readerStep (step_reader hstep).2
  | readerFails exc => exact h.readerStep (step_reader hstep).2
  | readerEof => exact h.readerStep (step_reader hstep).2
  | readerCancelled =>
    simp only [Socket.step] at hstep
    split at hstep
    · cases hstep
      exact h.ended rfl rfl
    · cases hstep
      exact h.ended rfl rfl
    · cases hstep
  | closeRecorded exc =>
    cases hstep
    exact h.kept rfl rfl rfl
  | recvFrame task =>
    cases hstep
    exact h.kept rfl (recvFrame_kept s task).1 (recvFrame_kept s task).2
  | resume task =>
    simp only [Socket.step] at hstep
    split at hstep
    · cases hstep
      exact h.kept rfl (received_kept s _).1 (received_kept s _).2
    · cases hstep
  | disconnect =>
    simp only [Socket.step] at hstep
    split at hstep
    · cases hstep
      exact h.kept rfl rfl rfl
    · cases hstep
      exact h.kept rfl rfl rfl
  | disconnectPuts =>
    simp only [Socket.step] at hstep
    split at hstep
    · cases hstep
      exact h.kept rfl (putSentinel_kept s).1 (putSentinel_kept s).2
    · cases hstep

theorem Accounted.run {s s' : NoiseSocket} {frames : List Bytes} (h : Accounted s frames)
    {acts : List Act} (hrun : run s acts = some s') :
    Accounted s' (frames ++ (messages acts).flatMap offered) := by
  induction acts generalizing s frames with
  | nil =>
    cases hrun
    rw [messages, List.filterMap_nil, List.flatMap_nil, List.append_nil]
    exact h
  | cons act acts ih =>
    obtain ⟨s₁, hstep, hrest⟩ := Option.bind_eq_some_iff.mp hrun
    have hafter := ih (h.step hstep) hrest
    rw [List.append_assoc, ← List.flatMap_append, ← messages_append, List.singleton_append] at hafter
    exact hafter

end Deliver

section Progress

theorem run_append (s : NoiseSocket) (acts acts' : List Act) :
    run s (acts ++ acts') = (run s acts).bind fun s' => run s' acts' := by
  induction acts generalizing s with
  | nil => rfl
  | cons act acts ih =>
    simp only [List.cons_append, run, Option.bind_assoc]
    exact congrArg _ (funext fun s₁ => ih s₁)

/-- The steps lead from `s` to `s'`, with the websocket messages `data` read on the way, the
frames `frames` put into the queue, and the reader at its next message. -/
structure ReadsOn (s : NoiseSocket) (acts : List Act) (s' : NoiseSocket) (data : List Bytes)
    (frames : List Bytes) : Prop where
  run : run s acts = some s'
  messages : messages acts = data
  reader : s'.reader = .reading []
  closer : s'.closer = .idle
  delivered : s'.delivered = s.delivered ++ frames

theorem ReadsOn.trans {s s₁ s₂ : NoiseSocket} {acts acts' : List Act}
    {data data' frames frames' : List Bytes} (h : ReadsOn s acts s₁ data frames)
    (h' : ReadsOn s₁ acts' s₂ data' frames') :
    ReadsOn s (acts ++ acts') s₂ (data ++ data') (frames ++ frames') where
  run := by rw [run_append, h.run, Option.bind_some, h'.run]
  messages := by rw [messages_append, h.messages, h'.messages]
  reader := h'.reader
  closer := h'.closer
  delivered := by rw [h'.delivered, h.delivered, List.append_assoc]

theorem step_message {s : NoiseSocket} (hidle : s.closer = .idle) (hreading : s.reader = .reading [])
    {data : Bytes} {frames : List Bytes} (hclass : classify data = .frames frames) :
    step s (.message data) = some { s with reader := .reading frames } := by
  simp only [step, readerStep, hidle, hreading, hclass, if_true]

theorem step_putFrame {s : NoiseSocket} (hidle : s.closer = .idle) {frame : Bytes}
    {frames : List Bytes} (hreading : s.reader = .reading (frame :: frames))
    (hroom : s.inbound.full = false) :
    step s .putFrame = some { s with
      reader := .reading frames
      inbound := s.inbound.put (.frame frame)
      delivered := s.delivered ++ [frame] } := by
  simp only [step, readerStep, hidle, hreading, hroom, if_true, Bool.false_eq_true, if_false]

theorem recvFrame_takes {s : NoiseSocket} {item : Item} {items : List Item}
    (hitems : s.inbound.items = item :: items) (task : Nat) :
    (recvFrame s task).2.inbound.items = items ∧
      (recvFrame s task).2.closer = s.closer := by
  have hnot : (s.closed && s.inbound.items.isEmpty) = false := by simp [hitems]
  rw [recvFrame, hnot, AsyncQueue.get_cons hitems]
  cases item <;> exact ⟨rfl, rfl⟩

/-- Calls of `recv_frame` make room in a full queue. -/
theorem recvFrame_room (s : NoiseSocket) : ∃ acts s', run s acts = some s' ∧ messages acts = [] ∧
    s'.inbound.full = false ∧ s'.reader = s.reader ∧ s'.closer = s.closer ∧
    s'.delivered = s.delivered := by
  cases hitems : s.inbound.items with
  | nil =>
    refine ⟨[], s, rfl, rfl, ?_, rfl, rfl, rfl⟩
    simp [AsyncQueue.full, hitems]
  | cons item items =>
    induction items generalizing s item with
    | nil =>
      obtain ⟨hleft, hcloser⟩ := recvFrame_takes hitems 0
      obtain ⟨hdelivered, hreader⟩ := recvFrame_kept s 0
      refine ⟨[.recvFrame 0], (recvFrame s 0).2, rfl, rfl, ?_, hreader, hcloser, hdelivered⟩
      simp [AsyncQueue.full, hleft]
    | cons next items ih =>
      obtain ⟨hleft, hcloser⟩ := recvFrame_takes hitems 0
      obtain ⟨hdelivered, hreader⟩ := recvFrame_kept s 0
      obtain ⟨acts, s', hrun, hmessages, hroom, hreader', hcloser', hdelivered'⟩ := ih _ next hleft
      exact ⟨.recvFrame 0 :: acts, s', hrun, hmessages, hroom, hreader'.trans hreader,
        hcloser'.trans hcloser, hdelivered'.trans hdelivered⟩

theorem ReadsOn.frames {s : NoiseSocket} (hidle : s.closer = .idle) {frames : List Bytes}
    (hreading : s.reader = .reading frames) : ∃ acts s', ReadsOn s acts s' [] frames := by
  induction frames generalizing s with
  | nil => exact ⟨[], s, rfl, rfl, hreading, hidle, (List.append_nil _).symm⟩
  | cons frame frames ih =>
    obtain ⟨acts, s₁, hrun, hmessages, hroom, hreader, hcloser, hdelivered⟩ := recvFrame_room s
    have hput := step_putFrame (hcloser.trans hidle) (hreader.trans hreading) hroom
    obtain ⟨rest, s', hrest⟩ := ih (s := { s₁ with
      reader := .reading frames
      inbound := s₁.inbound.put (.frame frame)
      delivered := s₁.delivered ++ [frame] }) (hcloser.trans hidle) rfl
    refine ⟨acts ++ .putFrame :: rest, s', ?_, ?_, hrest.reader, hrest.closer, ?_⟩
    · rw [run_append, hrun, Option.bind_some, Socket.run, hput, Option.bind_some, hrest.run]
    · rw [messages_append, hmessages, List.nil_append]
      exact hrest.messages
    · rw [hrest.delivered, hdelivered, List.append_assoc, List.singleton_append]

theorem ReadsOn.message {s : NoiseSocket} (hidle : s.closer = .idle)
    (hreading : s.reader = .reading []) {data : Bytes} {frames : List Bytes}
    (hclass : classify data = .frames frames) : ∃ acts s', ReadsOn s acts s' [data] frames := by
  obtain ⟨acts, s', h⟩ := ReadsOn.frames (s := { s with reader := .reading frames }) hidle rfl
  refine ⟨.message data :: acts, s', ?_, ?_, h.reader, h.closer, h.delivered⟩
  · rw [Socket.run, step_message hidle hreading hclass, Option.bind_some, h.run]
  · exact congrArg (data :: ·) h.messages

/-- The reader first puts what it still holds. -/
theorem ReadsOn.pending {s : NoiseSocket} (hidle : s.closer = .idle) (hends : s.reader ≠ .ended) :
    ∃ acts s', ReadsOn s acts s' [] s.reader.pending := by
  cases hreader : s.reader with
  | created =>
    refine ⟨[.readerStarts], { s with reader := .reading [] }, ?_, rfl, rfl, hidle, ?_⟩
    · simp only [Socket.run, step, readerStep, hidle, hreader, if_true, Option.bind_some]
    · exact (List.append_nil _).symm
  | reading frames => exact ReadsOn.frames hidle hreader
  | ended => exact absurd hreader hends

theorem ReadsOn.next {s : NoiseSocket} (hidle : s.closer = .idle) (hends : s.reader ≠ .ended)
    {data : Bytes} {frames : List Bytes} (hclass : classify data = .frames frames) :
    ∃ acts s', ReadsOn s acts s' [data] (s.reader.pending ++ frames) := by
  obtain ⟨acts, s₁, h⟩ := ReadsOn.pending hidle hends
  obtain ⟨rest, s', h'⟩ := ReadsOn.message h.closer h.reader hclass
  exact ⟨acts ++ rest, s', h.trans h'⟩

end Progress

theorem framing_delivers :
    (∀ (s : SendHalf) (payloads : List Bytes), s.isConnected = true → s.introPrefix = [] →
      payloads ≠ [] → (∀ p ∈ payloads, p.length < 0x1000000) →
      ∃ frames, sendFrames s payloads = (.ok (), { s with wire := s.wire ++ frames }) ∧
        frames.length = payloads.length ∧ Framed frames.flatten ∧
        classify frames.flatten = .frames payloads) ∧
    (∀ data, ¬ Framed data → classify data = .frames [data] ∨ classify data = .control ∨
      ∃ reason, classify data = .close reason) ∧
    ∀ (queueMaxsize : Nat) (acts : List Act) (s : NoiseSocket),
      run (connected queueMaxsize) acts = some s →
      s.delivered <+: (messages acts).flatMap offered ∧
      (s.reader ≠ .ended → s.delivered ++ s.reader.pending = (messages acts).flatMap offered) ∧
      (s.closer = .idle → s.reader ≠ .ended →
        (∀ data frames, s.reader = .reading [] → classify data = .frames frames →
          step s (.message data) = some { s with reader := .reading frames }) ∧
        (∀ frame frames, s.reader = .reading (frame :: frames) → s.inbound.full = false →
          ∃ s', step s .putFrame = some s' ∧ s'.reader = .reading frames ∧
            s'.delivered = s.delivered ++ [frame]) ∧
        ∀ data frames, classify data = .frames frames →
          ∃ rest s', ReadsOn s rest s' [data] (s.reader.pending ++ frames)) := by
  refine ⟨?_, fun data h => classify_unframed h, ?_⟩
  · intro s payloads hconn hintro hne hlengths
    have hflatten : (payloads.map frame).flatten = payloads.flatMap frame := rfl
    refine ⟨payloads.map frame, sendFrames_taken hconn hintro hlengths, List.length_map _, ?_, ?_⟩
    · exact ⟨payloads, hne, hlengths, hflatten⟩
    · rw [hflatten]
      exact classify_framed hne hlengths
  · intro queueMaxsize acts s hrun
    have hstart : Accounted (connected queueMaxsize) [] :=
      ⟨List.prefix_rfl, fun _ => rfl⟩
    have hend := hstart.run hrun
    rw [List.nil_append] at hend
    refine ⟨hend.1, hend.2, fun hidle hends => ⟨?_, ?_, ?_⟩⟩
    · intro data frames hreading hclass
      exact step_message hidle hreading hclass
    · intro frame frames hreading hroom
      exact ⟨_, step_putFrame hidle hreading hroom, rfl, rfl⟩
    · intro data frames hclass
      exact ReadsOn.next hidle hends hclass

/-- One message with a payload that begins like a close and an empty one. -/
def closeAndEmpty : Bytes := [0, 0, 2, 0x88, 0, 0, 0, 0]

def queueFull : NoiseSocket :=
  { inbound := { maxsize := 1, items := [.frame [0x88, 0]] }, reader := .reading [[]],
    delivered := [[0x88, 0]] }

/-- Neither a payload that begins like a close nor an empty one is lost, and with the queue
full both come out before the two of the next message; a close by itself is no frame. -/
theorem framing_delivers_close :
    (∃ frames, sendFrames {} [[0x88, 0], []] = (.ok (), { wire := frames }) ∧
      classify frames.flatten = .frames [[0x88, 0], []]) ∧
    (classify [0x88, 0, 0] = .frames [[0x88, 0, 0]] ∨ classify [0x88, 0, 0] = .control ∨
      ∃ reason, classify [0x88, 0, 0] = .close reason) ∧
    queueFull.delivered ++ queueFull.reader.pending = [[0x88, 0], []] ∧
    ∃ rest s', ReadsOn queueFull rest s' [closeAndEmpty] [[], [0x88, 0], []] := by
  have hclass : classify closeAndEmpty = .frames [[0x88, 0], []] := by decide
  have hrun : run (connected 1) [.readerStarts, .message closeAndEmpty, .putFrame] =
      some queueFull := by decide
  obtain ⟨hsends, hwhole, hruns⟩ := framing_delivers
  obtain ⟨frames, hsent, _, _, hframes⟩ := hsends {} [[0x88, 0], []] rfl rfl (by decide) (by decide)
  obtain ⟨_, hkept, hgoes⟩ := hruns 1 _ queueFull hrun
  obtain ⟨_, _, hnext⟩ := hgoes rfl (by decide)
  have hunframed : ¬ Framed [0x88, 0, 0] := by
    rintro ⟨payloads, hne, hlengths, hdata⟩
    have hframed := classify_framed hne hlengths
    rw [← hdata, show classify [0x88, 0, 0] = .close _ from rfl] at hframed
    cases hframed
  exact ⟨⟨frames, hsent, hframes⟩, hwhole _ hunframed, hkept (by decide), hnext _ _ hclass⟩

end PyWhats.Socket
