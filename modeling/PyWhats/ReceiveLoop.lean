import PyWhats.Client

/-! The receive loop completes the futures of acks and iq answers, so it must not
wait for one. -/

namespace PyWhats

variable {P : Primitives}

/-- The stanza is a retry receipt that makes the sender encrypt and send again: its
message is cached, and neither the cache entry nor the receipt has reached the
retry limit. -/
def ActedUpon (w : World P) (node : Node) : Prop :=
  node.tag = "receipt" ∧ node.getStr "type" = "retry" ∧ node.getStr "id" ≠ "" ∧
    (∃ peer, receiverJidFromAttr (retryPeerAttr node) = .ok peer ∧ peer.user ≠ "") ∧
    ∃ cached, w.sent.get? (node.getStr "id") = some cached ∧ cached.retryCount < 2 ∧
      retryCountOf node ≤ 2

def NoRetry (env : Env P) (w : World P) (frame : Bytes) : Prop :=
  ∀ node, env.decode frame = .ok node → ¬ ActedUpon w node

/-- What the loop may wait for: the transport and the user's event handlers. -/
def Request.Outward : Request → Prop
  | .send _ => True
  | .emit _ => True
  | .ack _ => False
  | .iq _ => False

def LoopFree (m : ClientMachine P) : Prop := ∀ t, m.loop = some t → t.request.Outward

section Receipt

variable {env : Env P} {dev : Device P} {Waits : Request → Prop} {w : World P}
  {fetchPrekeys : JID → CoM P PreKeyBundle}

theorem moves_handleRetryReceipt_ignored {messageId : String} {peer : JID}
    {bundle : Option PreKeyBundle} {count : Int}
    (h : ∀ cached, w.sent.get? messageId = some cached → cached.retryCount ≥ 2 ∨ count > 2) :
    Moves env dev Waits anyEnd
      (handleRetryReceipt env dev fetchPrekeys messageId peer bundle count) w := by
  refine moves_get ?_
  split
  · exact moves_pure trivial
  · rename_i cached hcached
    rw [if_pos (h cached hcached)]
    exact moves_pure trivial

theorem moves_handleReceipt_ignored (hsend : ∀ frame, Waits (.send frame))
    (hemit : ∀ event, Waits (.emit event)) {node : Node} (htag : node.tag = "receipt")
    (h : ¬ ActedUpon w node) :
    Moves env dev Waits anyEnd (handleReceipt env dev fetchPrekeys node) w := by
  rw [handleReceipt]
  by_cases htype : node.getStr "type" = "retry"
  · rw [if_neg (not_not.mpr htype)]
    refine moves_lift_bind (fun peer hpeer => ?_) fun _ _ => trivial
    by_cases hid : node.getStr "id" ≠ "" ∧ peer.user ≠ ""
    · rw [if_pos hid]
      refine moves_then (moves_handleRetryReceipt_ignored fun cached hcached => ?_) fun _ _ =>
        moves_sendNode hsend _
      by_contra hlimit
      rw [not_or, Nat.not_le, Int.not_lt] at hlimit
      exact h ⟨htag, htype, hid.1, ⟨peer, hpeer, hid.2⟩, cached, hcached, hlimit⟩
    · rw [if_neg hid]
      exact moves_sendNode hsend _
  · rw [if_pos htype]
    exact moves_lift_bind (fun _ _ => moves_then (moves_safeEmit hemit _) fun _ _ =>
      moves_sendNode hsend _) fun _ _ => trivial

theorem client_noRetry_safe :
    Machine.SafeInterface (client env dev (NoRetry env)) (Trans env dev) (Part env dev)
      (fun _ => True) Request.Outward where
  task w _ h := h.moves w
  item w _ := by
    rintro ⟨frame, hframe, rfl⟩
    exact moves_handleFrame (fun _ => trivial) (fun _ => trivial) fun node hnode htag =>
      moves_handleReceipt_ignored (fun _ => trivial) (fun _ => trivial) htag (hframe node hnode)

/-- In a run that is given no retry receipt to act upon, the loop never waits for
itself. -/
theorem loop_free {m : ClientMachine P}
    (hrun : Relation.ReflTransGen (Machine.Step (client env dev (NoRetry env))) (.idle w) m) :
    LoopFree m := fun t ht =>
  ((Machine.run_sound client_noRetry_safe (Machine.allReady_idle w) hrun).1.loop t ht).1

end Receipt

section Demo

def demoReceived : ClientMachine demoPrimitives :=
  clientAfter (demoEnv demoStanzas) demoMe {} (demoAcked ++ [.receive [3]])

theorem noRetry_of_decode {env : Env P} {w : World P} {frame : Bytes} (node : Node)
    (hdecode : env.decode frame = .ok node)
    (h : node.tag ≠ "receipt" ∨ node.getStr "type" ≠ "retry") : NoRetry env w frame := by
  intro node' hnode' hacted
  rw [hdecode] at hnode'
  cases hnode'
  exact h.elim (fun htag => htag hacted.1) (fun htype => htype hacted.2.1)

theorem demoReceived_steps :
    Relation.ReflTransGen
      (Machine.Step (client (demoEnv demoStanzas) demoMe (NoRetry (demoEnv demoStanzas))))
      (.idle {}) demoReceived := by
  refine clientAfter_steps _ fun t ht w frame hframe => ?_
  subst hframe
  have hframes : frame = [0] ∨ frame = [1] ∨ frame = [3] := by
    simpa [demoAcked, demoFirst, demoSend] using ht
  rcases hframes with rfl | rfl | rfl
  · exact noRetry_of_decode demoAnswer rfl (by decide)
  · exact noRetry_of_decode demoAck rfl (by decide)
  · exact noRetry_of_decode demoReceipt rfl (by decide)

theorem loop_free_received : demoReceived.loop.isSome ∧ LoopFree demoReceived :=
  ⟨by decide +kernel, loop_free demoReceived_steps⟩

def Request.isAck : Request → Bool
  | .ack _ => true
  | _ => false

theorem not_loopFree {m : ClientMachine P} (h : m.loop.any (fun t => t.request.isAck) = true) :
    ¬ LoopFree m := by
  intro hfree
  obtain ⟨t, ht, hack⟩ := (Option.any_eq_true _ _).mp h
  have hout := hfree t ht
  cases hq : t.request <;> simp_all [Request.isAck, Request.Outward]

/-- Handling a retry receipt, the loop waits for the ack that only it could take in. -/
theorem loop_waits_for_itself :
    ¬ ∀ m, ClientRun (demoEnv demoStanzas) demoMe {} m → LoopFree m := by
  intro h
  exact not_loopFree (by decide +kernel) (h _ (clientAfter_run {} (demoRetried ++ [.goOn])))

end Demo

end PyWhats
