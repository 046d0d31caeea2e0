import PyWhats.Refinement

/-! The client as `_install_messaging` wires it: the receive loop handles one frame
after another, and any number of send calls run beside it over the same stores.
A run of this machine is a run of `Trans`. -/

namespace PyWhats

variable {P : Primitives} (env : Env P) (dev : Device P)

/-- What may run beside the receive loop. Background work such as a prekey upload
touches no Signal state. -/
inductive ClientTask : CoM P Unit → Prop
  | sendMessage (chat : JID) (proto : Bytes) (text : String) (messageType edit : Option String) :
      ClientTask (sendMessage env dev (prekeyFetcher env) (usyncDeviceFetcher env) chat proto text
        messageType edit)
  | sendGroupText (group : JID) (text : String) (participants : List JID) :
      ClientTask (sendGroupText env dev (prekeyFetcher env) (usyncDeviceFetcher env) group text
        participants)
  | retry (messageId : String) (peer : JID) (bundle : Option PreKeyBundle) (count : Int) :
      ClientTask (handleRetryReceipt env dev (prekeyFetcher env) messageId peer bundle count)
  | background (f : Stores P → Stores P) (hf : ∀ s, Quiet s (f s)) : ClientTask (update f)

/-- A future is completed by the receive loop, by its timeout or by cancellation. -/
inductive Answers (w : World P) : (q : Request) → Except PyError q.Reply → Prop
  | send (frame : Bytes) (r : Except PyError Unit) : Answers w (.send frame) r
  | emit (event : Emitted) (r : Except PyError Unit) : Answers w (.emit event) r
  | ack {future : Nat} {reply : AckReply} (h : (future, reply) ∈ w.acked) :
      Answers w (.ack future) (.ok reply)
  | ackTimeout (future : Nat) : Answers w (.ack future) (.error .timeoutError)
  | iq {future : Nat} {node : Node} (h : (future, node) ∈ w.answered) :
      Answers w (.iq future) (.ok node)
  | cancelled (q : Request) : Answers w q (.error .cancelledError)

/-- The client, when the frames that come in are those `Frames` allows. -/
def client (Frames : World P → Bytes → Prop) :
    Machine.Interface (World P) Request.Reply PyError where
  Task _ p := ClientTask env dev p
  Item w p := ∃ frame, Frames w frame ∧ p = handleFrame env dev (prekeyFetcher env) frame
  Answer := Answers

abbrev ClientMachine (P : Primitives) := Machine (World P) Request.Reply PyError

def anyFrame : World P → Bytes → Prop := fun _ _ => True

def ClientRun (w : World P) (m : ClientMachine P) : Prop :=
  Relation.ReflTransGen (Machine.Step (client env dev anyFrame)) (.idle w) m

/-- A run over any number of processes, each stopped at any point. -/
def ClientLife (w : World P) (m : ClientMachine P) : Prop :=
  Relation.ReflTransGen (Machine.Life (client env dev anyFrame) World.restart) (.idle w) m

variable {env dev} {Waits : Request → Prop}

theorem fetchMoves_prekeyFetcher (hsend : ∀ frame, Waits (.send frame))
    (hiq : ∀ future, Waits (.iq future)) : FetchMoves env dev Waits (prekeyFetcher env) :=
  fun peer _ => moves_prekeyFetcher hsend hiq peer

theorem devicesMove_usyncDeviceFetcher (hsend : ∀ frame, Waits (.send frame))
    (hiq : ∀ future, Waits (.iq future)) : DevicesMove env dev Waits (usyncDeviceFetcher env) :=
  fun users _ => moves_usyncDeviceFetcher hsend hiq users

theorem ClientTask.moves {p : CoM P Unit} (h : ClientTask env dev p) (w : World P) :
    Moves env dev (fun _ => True) anyEnd p w := by
  have hfetch : FetchMoves env dev (fun _ => True) (prekeyFetcher env) :=
    fetchMoves_prekeyFetcher (fun _ => trivial) fun _ => trivial
  have hdev : DevicesMove env dev (fun _ => True) (usyncDeviceFetcher env) :=
    devicesMove_usyncDeviceFetcher (fun _ => trivial) fun _ => trivial
  cases h with
  | sendMessage chat proto text messageType edit =>
    exact moves_sendMessage (fun _ => trivial) (fun _ => trivial) hfetch hdev _ _ _ _ _
  | sendGroupText group text participants =>
    exact moves_sendGroupText (fun _ => trivial) (fun _ => trivial) hfetch hdev _ _ _
  | retry messageId peer bundle count =>
    exact moves_handleRetryReceipt (fun _ => trivial) (fun _ => trivial) hfetch _ _ _ _
  | background f hf => exact moves_quiet (hf _)

theorem moves_handleFrame {w : World P} {frame : Bytes} (hsend : ∀ frame, Waits (.send frame))
    (hemit : ∀ event, Waits (.emit event))
    (hreceipt : ∀ node, env.decode frame = .ok node → node.tag = "receipt" →
      Moves env dev Waits anyEnd (handleReceipt env dev (prekeyFetcher env) node) w) :
    Moves env dev Waits anyEnd (handleFrame env dev (prekeyFetcher env) frame) w := by
  rw [handleFrame]
  cases h : env.decode frame with
  | error e => exact moves_pure trivial
  | ok node => exact moves_handleNode hsend hemit (hreceipt node h)

theorem client_safe (Frames : World P → Bytes → Prop) :
    Machine.SafeInterface (client env dev Frames) (Trans env dev) (Part env dev) (fun _ => True)
      (fun _ => True) where
  task w _ h := h.moves w
  item w _ := by
    rintro ⟨frame, _, rfl⟩
    refine moves_handleFrame (fun _ => trivial) (fun _ => trivial) fun node _ _ => ?_
    exact moves_handleReceipt (fun _ => trivial) (fun _ => trivial) (fun _ _ _ _ _ =>
      moves_handleRetryReceipt (fun _ => trivial) (fun _ => trivial)
        (fetchMoves_prekeyFetcher (fun _ => trivial) fun _ => trivial) _ _ _ _) _

theorem ClientRun.trans {w : World P} {m : ClientMachine P} (h : ClientRun env dev w m) :
    Relation.ReflTransGen (Trans env dev) w m.state :=
  (Machine.run_sound (client_safe _) (Machine.allReady_idle w) h).2

theorem ClientLife.lives {w : World P} {m : ClientMachine P} (h : ClientLife env dev w m) :
    Relation.ReflTransGen (Machine.Lives (Trans env dev) (Part env dev) World.restart) w m.state :=
  (Machine.life_sound (client_safe _) (Machine.allReady_idle w) h).2

section Schedules

variable (env dev)

/-- A future that has its answer gets it; an ack without one runs into its timeout
and an iq without one is cancelled. -/
def answerFrom (w : World P) : (q : Request) → Except PyError q.Reply
  | .send _ => .ok ()
  | .emit _ => .ok ()
  | .ack future =>
    match w.acked.find? (fun a => a.1 = future) with
    | some a => .ok a.2
    | none => .error .timeoutError
  | .iq future =>
    match w.answered.find? (fun a => a.1 = future) with
    | some a => .ok a.2
    | none => .error .cancelledError

theorem find_future {α : Type} {l : List (Nat × α)} {future : Nat} {a : Nat × α}
    (h : l.find? (fun a => a.1 = future) = some a) : (future, a.2) ∈ l := by
  have hid : a.1 = future := by simpa using List.find?_some h
  rw [← hid]
  exact List.mem_of_find?_eq_some h

theorem answers_answerFrom (w : World P) (q : Request) : Answers w q (answerFrom w q) := by
  cases q with
  | send frame => exact .send frame _
  | emit event => exact .emit event _
  | ack future =>
    rw [answerFrom]
    split
    · rename_i a ha
      exact .ack (find_future ha)
    · exact .ackTimeout future
  | iq future =>
    rw [answerFrom]
    split
    · rename_i a ha
      exact .iq (find_future ha)
    · exact .cancelled _

inductive ClientTurn where
  | start (p : CoM P Unit) (hp : ClientTask env dev p)
  | resume
  | receive (frame : Bytes)
  | goOn

def ClientTurn.turn : ClientTurn env dev → Machine.Turn (World P) Request.Reply PyError
  | .start p _ => .spawn p
  | .resume => .resume
  | .receive frame => .item (handleFrame env dev (prekeyFetcher env) frame)
  | .goOn => .goOn

def clientAfter (w : World P) (ts : List (ClientTurn env dev)) : ClientMachine P :=
  Machine.turns answerFrom (.idle w) (ts.map (ClientTurn.turn env dev))

variable {env dev}

theorem ClientTurn.allowed {Frames : World P → Bytes → Prop} {t : ClientTurn env dev}
    (h : ∀ w frame, t = .receive frame → Frames w frame) :
    (t.turn env dev).Allowed (client env dev Frames) := by
  cases t with
  | start p hp => exact fun _ => hp
  | resume => trivial
  | receive frame => exact fun w => ⟨frame, h w frame rfl, rfl⟩
  | goOn => trivial

theorem clientAfter_steps {Frames : World P → Bytes → Prop} (w : World P)
    {ts : List (ClientTurn env dev)} (h : ∀ t ∈ ts, ∀ w frame, t = .receive frame → Frames w frame) :
    Relation.ReflTransGen (Machine.Step (client env dev Frames)) (.idle w)
      (clientAfter env dev w ts) := by
  refine Machine.turns_run _ answers_answerFrom _ fun t ht => ?_
  obtain ⟨t', ht', rfl⟩ := List.mem_map.mp ht
  exact ClientTurn.allowed (h t' ht')

theorem clientAfter_run (w : World P) (ts : List (ClientTurn env dev)) :
    ClientRun env dev w (clientAfter env dev w ts) :=
  clientAfter_steps w fun _ _ _ _ _ => trivial

theorem ClientRun.life {w : World P} {m : ClientMachine P} (h : ClientRun env dev w m) :
    ClientLife env dev w m :=
  Relation.ReflTransGen.mono (fun _ _ => Machine.Life.step) _ _ h

theorem ClientLife.restart {w : World P} {m m' : ClientMachine P} (h : ClientLife env dev w m)
    (h' : ClientRun env dev m.state.restart m') : ClientLife env dev w m' :=
  (h.tail (.restart .idle)).trans h'.life

end Schedules

section Demo

def Device.bundle {P : Primitives} (dev : Device P) : PreKeyBundle :=
  publishBundle dev.identity dev.signedPreKey none

def demoKeys (dev : Device demoPrimitives) : List Node := [
  .mk "identity" [] (.bytes dev.identity.pub),
  .mk "skey" [] (.nodes [
    .mk "id" [] (.bytes [7]),
    .mk "value" [] (.bytes dev.signedPreKey.pair.pub),
    .mk "signature" [] (.bytes dev.signedPreKey.signature)])]

def demoPrekeyResult (iqId : String) (dev : Device demoPrimitives) : Node :=
  .mk "iq" [("id", .str iqId), ("type", .str "result")] (.nodes [
    .mk "list" [] (.nodes [.mk "user" [("jid", .jid dev.ownJid)] (.nodes (demoKeys dev))])])

def demoPkmsg (dev dest : Device demoPrimitives) : Bytes :=
  match ((encryptForPeer (demoEnv []) dev (fun _ => pure dest.bundle) dest.ownJid [1]).run {}).2 with
  | .done (.ok out) => out.2
  | _ => []

def demoSend (stanzas : List Node) : ClientTurn (demoEnv stanzas) demoMe :=
  .start _ (.sendMessage demoPeer.ownJid [7] "" none none)

def demoFirst (stanzas : List Node) : List (ClientTurn (demoEnv stanzas) demoMe) :=
  [demoSend stanzas, .resume, .receive [0], .resume]

def demoAnswer : Node := demoPrekeyResult "m3" demoPeer

def demoAck : Node := .mk "ack" [("id", .str "m0"), ("class", .str "message")] .none

def demoStranger : Device demoPrimitives := demoDevice "300" 6 21 22

def demoRetry : Node :=
  .mk "receipt" [("id", .str "m0"), ("type", .str "retry"), ("from", .jid demoStranger.ownJid)]
    (.nodes [.mk "retry" [("count", .str "1")] .none, .mk "keys" [] (.nodes (demoKeys demoStranger))])

def demoReceipt : Node :=
  .mk "receipt" [("id", .str "m0"), ("from", .jid demoPeer.ownJid)] .none

def demoStanzas : List Node := [demoAnswer, demoAck, demoRetry, demoReceipt]

def demoAcked : List (ClientTurn (demoEnv demoStanzas) demoMe) :=
  demoFirst demoStanzas ++ [.resume, .receive [1], .resume]

def demoSent : ClientMachine demoPrimitives :=
  clientAfter (demoEnv demoStanzas) demoMe {} demoAcked

def demoRetried : List (ClientTurn (demoEnv demoStanzas) demoMe) := demoAcked ++ [.receive [2]]

theorem history_all {P : Primitives} {w : World P} (check : Event → Bool)
    (h : w.history.all (fun ev => check ev.2) = true) {v : Stores P} {e : Event}
    (hmem : (v, e) ∈ w.history) : check e = true := List.all_eq_true.mp h (v, e) hmem

end Demo

end PyWhats
