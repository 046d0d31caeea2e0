import PyWhats.Slots

/-! Who a message body is encrypted to. -/

namespace PyWhats

variable {P : Primitives} {env : Env P} {dev : Device P}

def Device.InAudience (dev : Device P) (chat device : JID) : Prop :=
  device.base = chat.base ∨ device.base = dev.ownJid.base

/-- Every ciphertext of a body that was handed to the transport was encrypted to a
device of the chat or of this account. -/
def AudienceKept (env : Env P) (dev : Device P) (w : World P) : Prop :=
  ∀ v node chat, (v, Event.transmit node (.body chat)) ∈ w.history →
    ∀ d ∈ participantCiphertexts node, ∃ s e kind, (s, Event.encrypt e) ∈ w.history ∧
      e.wire env dev = .ok (kind, d.2) ∧ e.peer = d.1 ∧ dev.InAudience chat e.peer

/-- A body is sent again only to a device that it was meant for. -/
def ResendsWithin (dev : Device P) (w : World P) : Prop :=
  ∀ v messageId peer bundle cached, (v, Event.resend messageId peer bundle) ∈ w.history →
    v.sent.get? messageId = some cached → dev.InAudience cached.chat peer

theorem ClientRun.lives {w : World P} {m : ClientMachine P} (h : ClientRun env dev w m) :
    Relation.ReflTransGen (EndpointLives env dev) w m.state :=
  Relation.ReflTransGen.mono (fun _ _ => Or.inl) _ _ h.trans

theorem audience_kept {w : World P} {m : ClientMachine P} (hhistory : w.history = [])
    (hrun : ClientRun env dev w m) (hcond : ResendsWithin dev m.state) :
    AudienceKept env dev m.state := by
  intro v node chat hmem d hd
  obtain ⟨⟨s, e, kind, henc, hpeer, hwire⟩, haddr⟩ :=
    allBacked_of_lives hhistory hrun.lives v node (.body chat) hmem d hd
  refine ⟨s, e, kind, henc, hwire, hpeer, ?_⟩
  rw [hpeer]
  rcases haddr with hchat | hown | ⟨u, messageId, bundle, cached, hresend, hcached, rfl⟩
  · exact .inl hchat
  · exact .inr hown
  · exact hcond u messageId d.1 bundle cached hresend hcached

section Demo

def Event.isFresh : Event → Bool
  | .resend _ _ _ => false
  | _ => true

theorem audience_kept_sent :
    (demoSent.state.sent.get? "m0").isSome ∧
      AudienceKept (demoEnv demoStanzas) demoMe demoSent.state := by
  refine ⟨by decide +kernel, audience_kept rfl (clientAfter_run _ _) fun v id peer b cached hmem => ?_⟩
  have hfresh : demoSent.state.history.all (fun ev => ev.2.isFresh) = true := by decide +kernel
  cases history_all Event.isFresh hfresh hmem

def Event.leaks (own : JID) : Event → Bool
  | .transmit node (.body chat) =>
    (participantCiphertexts node).any fun d => d.1.base ≠ chat.base ∧ d.1.base ≠ own.base
  | _ => false

theorem not_audienceKept {w : World P}
    (h : w.history.any (fun ev => ev.2.leaks dev.ownJid) = true) : ¬ AudienceKept env dev w := by
  intro hkept
  obtain ⟨⟨v, ev⟩, hmem, hleak⟩ := List.any_eq_true.mp h
  simp only [Event.leaks] at hleak
  split at hleak
  · rename_i node chat
    obtain ⟨d, hd, hout⟩ := List.any_eq_true.mp hleak
    obtain ⟨_, e, _, _, _, hpeer, hin⟩ := hkept v node chat hmem d hd
    rw [hpeer] at hin
    have hout' := of_decide_eq_true hout
    exact hin.elim hout'.1 hout'.2
  · cases hleak

/-- A stranger's retry receipt has the body encrypted to the stranger. -/
theorem audience_widened :
    ¬ ∀ m, ClientRun (demoEnv demoStanzas) demoMe {} m →
      AudienceKept (demoEnv demoStanzas) demoMe m.state := by
  intro h
  exact not_audienceKept (by decide +kernel) (h _ (clientAfter_run {} demoRetried))

end Demo

end PyWhats
