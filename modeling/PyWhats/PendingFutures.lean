import PyWhats.Bursts
import PyWhats.Client
import PyWhats.Lib.Obligations

/-! The calls of the client that wait for the server, next to the receive loop: every
future in the ack router or in the map of pending iqs belongs to a call under way. -/

namespace PyWhats

variable {P : Primitives} (env : Env P) (dev : Device P)

/-- Register, send, wait, and in any case cancel. -/
def iqRoundTrip (iqId : String) (node : Node) : CoM P Node := do
  let future ← iqRegister iqId
  Co.tryFinally (do sendNode env node; Co.wait (Request.iq future)) (iqCancel iqId)

/-- What runs beside the receive loop. Background work (activation, prekey upload, media
connections, app state) waits on iqs of its own. -/
inductive Call : CoM P Unit → Prop
  | sendMessage (chat : JID) (proto : Bytes) (text : String) (messageType edit : Option String) :
      Call (sendMessage env dev (prekeyFetcher env) (usyncDeviceFetcher env) chat proto text
        messageType edit)
  | sendGroupText (group : JID) (text : String) (participants : List JID) :
      Call (sendGroupText env dev (prekeyFetcher env) (usyncDeviceFetcher env) group text
        participants)
  | query (iqId : String) (node : Node) : Call (iqRoundTrip env iqId node >>= fun _ => pure ())

/-- A future gives what completed it; any wait may fail, time out or be cancelled. -/
def Settled (w : World P) : (q : Request) → Except PyError q.Reply → Prop
  | .ack future, .ok reply => (future, reply) ∈ w.acked
  | .iq future, .ok node => (future, node) ∈ w.answered
  | _, _ => True

def calls : Machine.Interface (World P) Request.Reply PyError where
  Task _ p := Call env dev p
  Item _ p := ∃ frame, p = handleFrame env dev (prekeyFetcher env) frame
  Answer := Settled

abbrev Tidied {α : Type} (p : CoM P α) : Prop := p.Tidy World.Numbered Settled World.Pends

abbrev Owing {α : Type} (key : Pending) (Ends : Except PyError α → Prop) (p : CoM P α)
    (w : World P) : Prop := p.Owes World.Numbered Settled World.Pends key Ends w

section Rules

variable {env dev} {α : Type}

theorem tidied_of_mute {p : CoM P α} (hp : p.Mute Sheds) : Tidied p := fun _ =>
  Co.keeps_of_mute hp fun _ _ h hinv => ⟨h.1 hinv, h.2⟩

theorem settled_open {w : World P} (hw : w.Numbered) {id : String} {future : Nat}
    {r : Except PyError AckReply} (hr : Settled w (.ack future) r)
    (hheld : w.Pends (.ack id future)) : ∃ e, r = .error e := by
  cases r with
  | ok reply => exact absurd rfl (hw.acks.waits id future hheld _ hr)
  | error e => exact ⟨e, rfl⟩

theorem erase_pends (w : World P) (id : String) (future : Nat) :
    ¬ (w.put fun s => { s with router := s.router.erase id }).Pends (.ack id future) := by
  intro h
  have hget : (w.router.erase id).get? id = some future := h
  rw [OrderedMap.get?_erase, if_pos rfl] at hget
  cases hget

theorem erase_iq (w : World P) (id : String) (future : Nat) :
    ¬ (w.put fun s => { s with iqMap := s.iqMap.erase id }).Pends (.iq id future) := by
  intro h
  have hget : (w.iqMap.erase id).get? id = some future := h
  rw [OrderedMap.get?_erase, if_pos rfl] at hget
  cases hget

theorem routerCancel_owing (id : String) (future : Nat) (w : World P) :
    Owing (.ack id future) (fun _ => False) (routerCancel id) w :=
  Co.owes_modify (erase_pends w id future)

theorem iqCancel_owing (id : String) (future : Nat) (w : World P) :
    Owing (.iq id future) (fun _ => False) (iqCancel id) w :=
  Co.owes_modify (erase_iq w id future)

/-- The keys that a registration leaves. -/
def Registered (key : Nat → Pending) (r : Except PyError Nat) (k : Pending) : Prop :=
  ∃ future, r = .ok future ∧ k = key future

theorem routerRegister_keeps (id : String) (w : World P) :
    (routerRegister id).Keeps World.Numbered Settled World.Pends (Registered (.ack id)) w := by
  refine Co.Keeps.get_bind ?_
  split
  · trivial
  · refine fun hw => ⟨⟨hw.acks.register id, hw.iqs.mono (Nat.le_succ _)⟩, fun key hheld hnot => ?_,
      trivial⟩
    cases key with
    | ack id' future =>
      have hget : (w.router.set id w.futures).get? id' = some future := hheld
      rw [OrderedMap.get?_set] at hget
      split at hget
      · rename_i hid
        cases hget
        exact ⟨_, rfl, by rw [hid]⟩
      · exact (hnot hget).elim
    | iq iqId future => exact (hnot hheld).elim

theorem iqRegister_keeps (id : String) (w : World P) :
    (iqRegister id).Keeps World.Numbered Settled World.Pends (Registered (.iq id)) w := by
  refine Co.Keeps.get_bind ?_
  split
  · trivial
  · refine fun hw => ⟨⟨hw.acks.mono (Nat.le_succ _), hw.iqs.register id⟩, fun key hheld hnot => ?_,
      trivial⟩
    cases key with
    | ack messageId future => exact (hnot hheld).elim
    | iq id' future =>
      have hget : (w.iqMap.set id w.futures).get? id' = some future := hheld
      rw [OrderedMap.get?_set] at hget
      split at hget
      · rename_i hid
        cases hget
        exact ⟨_, rfl, by rw [hid]⟩
      · exact (hnot hget).elim

/-- A call that registers a future and then owes it. -/
theorem tidied_register {register : CoM P Nat} {key : Nat → Pending} {body : Nat → CoM P α}
    (hregister : ∀ w, register.Keeps World.Numbered Settled World.Pends (Registered key) w)
    (hbody : ∀ future, Tidied (body future))
    (howes : ∀ future w, Owing (key future) (fun _ => False) (body future) w) :
    Tidied (register >>= body) := by
  refine fun w => (hregister w).bind (fun future => hbody future) ?_ ?_
  · rintro a k w ⟨future, hok, rfl⟩
    cases hok
    exact howes _ w
  · rintro e k ⟨future, hok, -⟩
    cases hok

end Rules

section Calls

variable {env dev}

theorem sendNode_tidied (node : Node) : Tidied (sendNode env node) := by
  rw [sendNode]
  exact (tidied_of_mute (.lift _)).bind fun frame => Co.tidy_wait _

theorem transmit_tidied (node : Node) (purpose : Purpose) (frame : Bytes) :
    Tidied (transmit node purpose frame : CoM P Unit) :=
  (tidied_of_mute (record_mute _ fun _ => rfl)).bind fun _ => Co.tidy_wait _

theorem iqRoundTrip_tidied (iqId : String) (node : Node) : Tidied (iqRoundTrip env iqId node) := by
  have hcancel : Tidied (iqCancel iqId : CoM P Unit) := tidied_of_mute (iqCancel_mute iqId)
  refine tidied_register (iqRegister_keeps iqId) (fun future => ?_) fun future w => ?_
  · exact ((sendNode_tidied node).bind fun _ => Co.tidy_wait _).tryFinally hcancel
  · exact Co.owes_tryFinally (iqCancel_owing iqId future)

theorem queryIq_tidied (build : String → Node) : Tidied (queryIq env build) :=
  (tidied_of_mute (draw_mute _)).bind fun iqId => iqRoundTrip_tidied iqId (build iqId)

theorem prekeyFetcher_tidied (peer : JID) : Tidied (prekeyFetcher env peer) :=
  (queryIq_tidied _).bind fun _ => tidied_of_mute (.lift _)

theorem usyncDeviceFetcher_tidied (users : List JID) : Tidied (usyncDeviceFetcher env users) :=
  (queryIq_tidied _).bind fun _ => tidied_of_mute (.lift _)

theorem encryptForPeer_tidied (peer : JID) (plaintext : Bytes) :
    Tidied (encryptForPeer env dev (prekeyFetcher env) peer plaintext) := by
  rw [encryptForPeer]
  refine (tidied_of_mute (loadForPeer_mute _)).bind fun loaded => ?_
  rcases loaded with _ | ⟨session, m⟩
  · exact (prekeyFetcher_tidied peer).bind fun bundle =>
      tidied_of_mute (encryptOnBundle_mute env dev peer plaintext bundle)
  · exact tidied_of_mute (encryptOn_mute env dev peer plaintext session m)

theorem targetDevices_tidied (chat : JID) :
    Tidied (targetDevices dev (usyncDeviceFetcher env) chat) := by
  rw [targetDevices]
  split
  · exact Co.tidy_ret _
  · exact (usyncDeviceFetcher_tidied _).bind fun _ => Co.tidy_ret _

theorem encryptForDevices_tidied (msg : Outgoing) (devices : List JID) :
    Tidied (encryptForDevices env dev (prekeyFetcher env) msg devices) := by
  induction devices with
  | nil => exact Co.tidy_ret _
  | cons device rest ih =>
    exact (encryptForPeer_tidied device _).bind fun out => ih.bind fun nodes => Co.tidy_ret _

theorem sendAttempt_tidied (msg : Outgoing) :
    Tidied (sendAttempt env dev (prekeyFetcher env) (usyncDeviceFetcher env) msg) := by
  have hcancel : ∀ e : PyError, Tidied (routerCancel msg.messageId >>= fun _ =>
      (Co.raise e : CoM P AckReply)) := fun e =>
    (tidied_of_mute (routerCancel_mute _)).bind fun _ => Co.tidy_ret _
  refine (targetDevices_tidied msg.chat).bind fun devices => ?_
  refine (encryptForDevices_tidied msg devices).bind fun participants => ?_
  refine (tidied_of_mute (.lift _)).bind fun frame => ?_
  refine tidied_register (routerRegister_keeps msg.messageId) (fun future => ?_) fun future w => ?_
  · refine Co.Tidy.bind (Co.Tidy.tryCatch ?_ hcancel) fun reply => Co.tidy_ret _
    exact (transmit_tidied _ _ _).bind fun _ => Co.tidy_wait _
  · have hwait : ∀ w : World P, Owing (.ack msg.messageId future) (fun r => ∃ e, r = .error e)
        (Co.wait (Request.ack future)) w := fun w =>
      Co.owes_wait fun s r hs hr hheld => settled_open hs hr hheld
    refine Co.Owes.bind (E := fun _ => False) ?_ (fun _ _ h => h.elim) fun _ h => h
    refine Co.Owes.tryCatch (E := fun r => ∃ e, r = .error e) ?_ (fun _ h => ?_) fun e w _ => ?_
    · exact Co.Owes.bind (Co.owes_any (E := fun _ => True) fun _ => trivial)
        (fun _ w _ => hwait w) fun e _ => ⟨e, rfl⟩
    · obtain ⟨e, h⟩ := h
      cases h
    · exact (routerCancel_owing msg.messageId future w).bind (fun _ _ h => h.elim) fun _ h => h

theorem sendOnce_tidied (msg : Outgoing) (n : Nat) :
    Tidied (sendOnce env dev (prekeyFetcher env) (usyncDeviceFetcher env) msg n) := by
  induction n with
  | zero =>
    refine (sendAttempt_tidied msg).bind fun out => ?_
    rcases out with ⟨_ | attrs, devices⟩
    · exact Co.tidy_ret _
    · exact Co.tidy_ret _
  | succ n ih =>
    refine (sendAttempt_tidied msg).bind fun out => ?_
    rcases out with ⟨_ | attrs, devices⟩
    · exact Co.tidy_ret _
    · refine (tidied_of_mute (.lift _)).bind fun peer => ?_
      exact (tidied_of_mute (dropPeerSession_mute peer)).bind fun _ => ih

theorem sendMessage_tidied (chat : JID) (proto : Bytes) (text : String)
    (messageType edit : Option String) :
    Tidied (sendMessage env dev (prekeyFetcher env) (usyncDeviceFetcher env) chat proto text
      messageType edit) := by
  refine (tidied_of_mute (draw_mute _)).bind fun messageId => ?_
  refine (tidied_of_mute (padRandomMax16_mute env _)).bind fun plaintext => ?_
  refine (tidied_of_mute (padRandomMax16_mute env _)).bind fun ownPlaintext => ?_
  exact (sendOnce_tidied _ 1).bind fun _ => tidied_of_mute (update_mute fun _ => rfl)

theorem distributeTo_tidied (plaintext : Bytes) (devices : List JID) :
    Tidied (distributeTo env dev (prekeyFetcher env) plaintext devices) := by
  induction devices with
  | nil => exact Co.tidy_ret _
  | cons device rest ih =>
    rw [distributeTo]
    split
    · exact ih
    · exact (encryptForPeer_tidied device _).bind fun out => ih.bind fun nodes => Co.tidy_ret _

theorem sendGroupText_tidied (group : JID) (text : String) (participants : List JID) :
    Tidied (sendGroupText env dev (prekeyFetcher env) (usyncDeviceFetcher env) group text
      participants) := by
  refine (tidied_of_mute (draw_mute _)).bind fun messageId => ?_
  refine (tidied_of_mute (ownSenderKey_mute env dev group)).bind fun state => ?_
  refine (tidied_of_mute (.lift _)).bind fun axolotl => ?_
  refine (tidied_of_mute (padRandomMax16_mute env _)).bind fun skdPlaintext => ?_
  refine (tidied_of_mute (padRandomMax16_mute env _)).bind fun content => ?_
  refine (tidied_of_mute (draw_mute _)).bind fun nonce => ?_
  refine (tidied_of_mute (.lift _)).bind fun ⟨skmsg, state'⟩ => ?_
  refine Co.Tidy.bind (tidied_of_mute (record_mute _ fun _ => rfl)) fun _ => ?_
  refine (usyncDeviceFetcher_tidied _).bind fun deviceMap => ?_
  refine (distributeTo_tidied _ _).bind fun nodes => ?_
  refine tidied_register (routerRegister_keeps messageId) (fun future => ?_) fun future w => ?_
  · refine Co.Tidy.tryFinally ?_ (tidied_of_mute (routerCancel_mute messageId))
    refine (tidied_of_mute (.lift _)).bind fun frame => ?_
    exact (transmit_tidied _ _ _).bind fun _ => (Co.tidy_wait _).bind fun _ => Co.tidy_ret _
  · exact Co.owes_tryFinally (routerCancel_owing messageId future)

theorem handleRetryReceipt_tidied (messageId : String) (peer : JID) (bundle : Option PreKeyBundle)
    (count : Int) :
    Tidied (handleRetryReceipt env dev (prekeyFetcher env) messageId peer bundle count) := by
  refine Co.Tidy.get_bind fun w => ?_
  cases w.sent.get? messageId with
  | none => exact Co.tidy_ret _
  | some cached =>
    simp only
    split
    · exact Co.tidy_ret _
    · refine Co.Tidy.bind (tidied_of_mute (record_mute _ ?_)) fun _ => ?_
      · exact fun _ => rfl
      refine (tidied_of_mute (dropPeerSession_mute peer)).bind fun _ => ?_
      refine (tidied_of_mute (installBundle_mute env dev peer bundle)).bind fun _ => ?_
      refine (encryptForPeer_tidied peer _).bind fun out => ?_
      refine tidied_register (routerRegister_keeps messageId) (fun future => ?_) fun future w => ?_
      · refine Co.Tidy.tryFinally (Co.Tidy.tryCatch ?_ fun e => ?_)
          (tidied_of_mute (routerCancel_mute messageId))
        · refine (tidied_of_mute (.lift _)).bind fun frame => ?_
          exact (transmit_tidied _ _ _).bind fun _ => (Co.tidy_wait _).bind fun _ => Co.tidy_ret _
        · split
          · exact tidied_of_mute (routerCancel_mute messageId)
          · exact Co.tidy_ret _
      · exact Co.owes_tryFinally (routerCancel_owing messageId future)

theorem handleIq_tidied (node : Node) : Tidied (handleIq env node) := by
  rw [handleIq]
  split
  · exact Co.tidy_ret _
  · split
    · exact tidied_of_mute (iqResolve_mute _ _)
    · exact sendNode_tidied _

theorem guarded_tidied {p : CoM P Unit} (hp : Tidied p) : Tidied (guarded p) := by
  refine Co.Tidy.tryCatch hp fun e => ?_
  split
  · exact Co.tidy_ret _
  · exact Co.tidy_ret _

theorem safeEmit_tidied (event : Emitted) : Tidied (safeEmit event : CoM P Unit) :=
  guarded_tidied (Co.tidy_wait _)

theorem sendDeliveryReceipt_tidied (node : Node) (dest : JID) :
    Tidied (sendDeliveryReceipt env node dest) := guarded_tidied (sendNode_tidied _)

theorem shown_tidied (event : Emitted) (node : Node) (dest : JID) :
    Tidied (safeEmit event >>= fun _ => sendDeliveryReceipt env node dest) :=
  (safeEmit_tidied event).bind fun _ => sendDeliveryReceipt_tidied node dest

theorem sendRetryReceipt_tidied (node : Node) (sender : JID) :
    Tidied (sendRetryReceipt env dev node sender) := by
  rw [sendRetryReceipt]
  split
  · exact Co.tidy_ret _
  · exact (tidied_of_mute (.lift _)).bind fun regid => sendNode_tidied _

theorem handleEditOrRevoke_tidied (proto : Bytes) (chat sender : JID) (timestamp : Int)
    (node : Node) : Tidied (handleEditOrRevoke env proto chat sender timestamp node) := by
  rw [handleEditOrRevoke]
  split
  · exact (safeEmit_tidied _).bind fun _ =>
      (sendDeliveryReceipt_tidied node sender).bind fun _ => Co.tidy_ret _
  · exact (safeEmit_tidied _).bind fun _ =>
      (sendDeliveryReceipt_tidied node sender).bind fun _ => Co.tidy_ret _
  · exact Co.tidy_ret _

theorem dispatchPlaintext_tidied (node : Node) (sender : JID) (plaintext : Bytes) :
    Tidied (dispatchPlaintext env dev node sender plaintext) := by
  rw [dispatchPlaintext]
  cases unpadRandomMax16 plaintext with
  | error e => exact safeEmit_tidied _
  | ok proto =>
    simp only
    split
    · exact safeEmit_tidied _
    · split
      · exact shown_tidied _ node sender
      · refine (handleEditOrRevoke_tidied _ _ _ _ _).bind fun handled => ?_
        split
        · exact Co.tidy_ret _
        · exact (tidied_of_mute (handleProtocolMessage_mute env dev proto sender)).bind fun _ =>
            shown_tidied _ node sender

theorem handleGroupMessage_tidied (node : Node) (group : JID) :
    Tidied (handleGroupMessage env dev node group) := by
  refine (tidied_of_mute (.lift _)).bind fun participant => ?_
  refine (tidied_of_mute (ingestAll_mute env dev group participant _)).bind fun _ => ?_
  split
  · exact Co.tidy_ret _
  · refine (tidied_of_mute (decryptSkmsg_mute env group participant _)).bind fun shown => ?_
    rcases shown with _ | reason | proto
    · exact safeEmit_tidied _
    · exact safeEmit_tidied _
    · exact shown_tidied _ node group

theorem handleMessage_tidied (node : Node) : Tidied (handleMessage env dev node) := by
  refine (tidied_of_mute (.lift _)).bind fun sender => ?_
  split
  · exact handleGroupMessage_tidied node sender
  · split
    · exact Co.tidy_ret _
    · refine (tidied_of_mute (recordPeerAddressing_mute node sender)).bind fun _ => ?_
      refine (tidied_of_mute (.lift _)).bind fun found => ?_
      cases found with
      | none => exact Co.tidy_ret _
      | some enc =>
        refine (tidied_of_mute (decryptDirect_mute env dev sender _ _)).bind fun result => ?_
        cases result with
        | error e =>
          exact (safeEmit_tidied _).bind fun _ => guarded_tidied (sendRetryReceipt_tidied node sender)
        | ok plaintext => exact dispatchPlaintext_tidied node sender plaintext

theorem handleReceipt_tidied (node : Node) :
    Tidied (handleReceipt env dev (prekeyFetcher env) node) := by
  rw [handleReceipt]
  split
  · exact (tidied_of_mute (.lift _)).bind fun receipt =>
      (safeEmit_tidied receipt).bind fun _ => sendNode_tidied _
  · refine (tidied_of_mute (.lift _)).bind fun peer => ?_
    split
    · exact (handleRetryReceipt_tidied _ peer _ _).bind fun _ => sendNode_tidied _
    · exact sendNode_tidied _

theorem handleIb_tidied (children : List Node) : Tidied (handleIb env children) := by
  induction children with
  | nil => exact Co.tidy_ret _
  | cons child rest ih =>
    rw [handleIb]
    split
    · exact (guarded_tidied (sendNode_tidied _)).bind fun _ => ih
    · exact ih

theorem emitLoggedOut_tidied (code : String) : Tidied (emitLoggedOut code : CoM P Unit) := by
  rw [emitLoggedOut]
  split
  · exact safeEmit_tidied _
  · exact Co.tidy_ret _

theorem handleNode_tidied (node : Node) : Tidied (handleNode env dev (prekeyFetcher env) node) := by
  rw [handleNode]
  refine Co.tidy_ite (handleMessage_tidied node) ?_
  refine Co.tidy_ite (tidied_of_mute (handleAck_mute node)) ?_
  refine Co.tidy_ite (handleIq_tidied node) ?_
  refine Co.tidy_ite (handleReceipt_tidied node) ?_
  refine Co.tidy_ite (tidied_of_mute (update_mute ?_)) ?_
  · exact fun _ => rfl
  refine Co.tidy_ite (handleIb_tidied node.children) ?_
  refine Co.tidy_ite ((tidied_of_mute (.lift _)).bind safeEmit_tidied) ?_
  refine Co.tidy_ite ((tidied_of_mute (.lift _)).bind safeEmit_tidied) ?_
  refine Co.tidy_ite (Co.tidy_ite (Co.Tidy.bind (tidied_of_mute (update_mute ?_)) fun _ => ?_) ?_) ?_
  · exact fun _ => rfl
  · exact sendNode_tidied _
  · exact sendNode_tidied _
  refine Co.tidy_ite (emitLoggedOut_tidied _) ?_
  exact Co.tidy_ite (emitLoggedOut_tidied _) (Co.tidy_ret _)

theorem handleFrame_tidied (frame : Bytes) :
    Tidied (handleFrame env dev (prekeyFetcher env) frame) := by
  rw [handleFrame]
  cases env.decode frame with
  | error e => exact Co.tidy_ret _
  | ok node => exact handleNode_tidied node

theorem Call.tidied {p : CoM P Unit} (h : Call env dev p) : Tidied p := by
  cases h with
  | sendMessage chat proto text messageType edit =>
    exact sendMessage_tidied chat proto text messageType edit
  | sendGroupText group text participants => exact sendGroupText_tidied group text participants
  | query iqId node => exact (iqRoundTrip_tidied iqId node).bind fun _ => Co.tidy_ret _

end Calls

section Runs

variable {env dev}

/-- A store as a new process has it: nothing pending. -/
structure World.Quiet (w : World P) : Prop where
  router : w.router = .empty
  iqMap : w.iqMap = .empty
  acked : w.acked = []
  answered : w.answered = []

theorem World.Quiet.numbered {w : World P} (h : w.Quiet) : w.Numbered := by
  refine ⟨⟨?_, ?_, ?_, ?_, ?_⟩, ⟨?_, ?_, ?_, ?_, ?_⟩⟩ <;>
    simp [Stores.acks, Stores.iqs, h.router, h.iqMap, h.acked, h.answered, OrderedMap.get?_empty]

theorem World.Quiet.restart (w : World P) : w.restart.Quiet := ⟨rfl, rfl, rfl, rfl⟩

theorem World.Quiet.accounted {w : World P} (hw : w.Quiet) :
    Machine.Accounted (calls env dev) World.Numbered World.Pends (.idle w : ClientMachine P) := by
  refine ⟨hw.numbered, fun t ht => by simp [Machine.waiting, Machine.idle] at ht, fun key hkey => ?_⟩
  cases key with
  | ack messageId future =>
    have hget : w.router.get? messageId = some future := hkey
    rw [hw.router] at hget
    cases hget
  | iq iqId future =>
    have hget : w.iqMap.get? iqId = some future := hkey
    rw [hw.iqMap] at hget
    cases hget

/-- Over any number of processes, each future is completed at most once, what is pending
belongs to a call that still waits and cannot end without giving it up, and so nothing is
pending when no call is under way. -/
theorem pending_futures_owed {w : World P} {m : ClientMachine P} (hw : w.Quiet)
    (h : Relation.ReflTransGen (Machine.Life (calls env dev) World.restart) (.idle w) m) :
    m.state.Numbered ∧
      (∀ key, m.state.Pends key →
        ∃ t ∈ m.waiting, Machine.Owed (calls env dev) World.Numbered World.Pends t key) ∧
      (m.tasks = [] → m.loop = none → ∀ key, ¬ m.state.Pends key) := by
  have hitem : ∀ s p, (calls env dev).Item s p → Tidied p := by
    rintro s p ⟨frame, rfl⟩
    exact handleFrame_tidied frame
  have hm := hw.accounted.life (fun s p hp => Call.tidied hp) hitem
    (fun s => (World.Quiet.restart s).accounted) h
  refine ⟨hm.inv, hm.owed, fun htasks hloop key hkey => ?_⟩
  obtain ⟨t, ht, -⟩ := hm.owed key hkey
  simp [Machine.waiting, htasks, hloop] at ht

def demoSendCall : CoM demoPrimitives Unit :=
  sendMessage (demoEnv []) demoMe (prekeyFetcher (demoEnv [])) (usyncDeviceFetcher (demoEnv []))
    demoPeer.ownJid [7] "" none none

def demoPending : ClientMachine demoPrimitives := Machine.turn answerFrom (.idle {}) (.spawn demoSendCall)

theorem pending_futures_owed_first :
    demoPending.state.Pends (.iq "m3" 0) ∧ ∃ t ∈ demoPending.waiting,
      Machine.Owed (calls (demoEnv []) demoMe) World.Numbered World.Pends t (.iq "m3" 0) := by
  have hpends : demoPending.state.Pends (.iq "m3" 0) := by
    change demoPending.state.iqMap.get? "m3" = some 0
    decide +kernel
  have hquiet : ({} : World demoPrimitives).Quiet := ⟨rfl, rfl, rfl, rfl⟩
  have hlife : Relation.ReflTransGen (Machine.Life (calls (demoEnv []) demoMe) World.restart)
      (.idle {}) demoPending := .single (.step (.spawn demoSendCall (.sendMessage _ _ _ _ _)))
  exact ⟨hpends, (pending_futures_owed hquiet hlife).2.1 _ hpends⟩

end Runs

end PyWhats
