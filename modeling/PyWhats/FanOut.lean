import Mathlib.Data.List.Induction
import PyWhats.Client

/-! The recipients of a message: the devices listed for the chat and for this account, each
once and in their order, without this device itself; and what each of them is sent. -/

namespace PyWhats

variable {P : Primitives}

section Targets

/-- The devices listed for an account, which stands for itself when it has no entry. -/
def accountDevices (deviceMap : DeviceMap) (account : JID) : List JID :=
  ((deviceMap.get? account).map UserSyncEntry.devices).getD [account]

def listedDevices (deviceMap : DeviceMap) (chat own : JID) : List JID :=
  accountDevices deviceMap chat.base ++ accountDevices deviceMap own.base

/-- The distinct devices of the list in the order of their first places, but for this one. -/
structure Recipients (listed : List JID) (own : JID) (targets : List JID) : Prop where
  nodup : targets.Nodup
  mem_iff : ∀ d, d ∈ targets ↔ d ∈ listed ∧ d ≠ own
  ordered : targets.Pairwise fun d d' => listed.idxOf d < listed.idxOf d'

theorem devicesOf_pair (deviceMap : DeviceMap) (a b : JID) :
    devicesOf deviceMap [a, b] = accountDevices deviceMap a ++ accountDevices deviceMap b := by
  simp only [devicesOf, List.flatMap_cons, List.flatMap_nil, List.append_nil, accountDevices]
  cases deviceMap.get? a <;> cases deviceMap.get? b <;> rfl

theorem dedupeDevices_append (devices : List JID) (d : JID) :
    dedupeDevices (devices ++ [d]) =
      if d ∈ dedupeDevices devices then dedupeDevices devices else dedupeDevices devices ++ [d] := by
  rw [dedupeDevices, List.foldl_append]
  rfl

theorem dedupeDevices_mem_iff {devices : List JID} {d : JID} :
    d ∈ dedupeDevices devices ↔ d ∈ devices := by
  induction devices using List.reverseRecOn with
  | nil => rfl
  | append_singleton devices x ih =>
    rw [dedupeDevices_append]
    split
    · rename_i hx
      rw [List.mem_append, List.mem_singleton, ← ih]
      exact ⟨.inl, fun h => h.elim id fun heq => heq ▸ hx⟩
    · rw [List.mem_append, List.mem_append, ih]

/-- The places of the devices that are kept rise. -/
theorem dedupeDevices_ordered (devices : List JID) :
    (dedupeDevices devices).Pairwise fun d d' => devices.idxOf d < devices.idxOf d' := by
  induction devices using List.reverseRecOn with
  | nil => exact List.Pairwise.nil
  | append_singleton devices x ih =>
    have hplace : ∀ d ∈ dedupeDevices devices, (devices ++ [x]).idxOf d = devices.idxOf d :=
      fun d hd => List.idxOf_append_of_mem (dedupeDevices_mem_iff.mp hd)
    have hkept : (dedupeDevices devices).Pairwise
        fun d d' => (devices ++ [x]).idxOf d < (devices ++ [x]).idxOf d' := by
      refine ih.imp_of_mem fun hd hd' hlt => ?_
      rw [hplace _ hd, hplace _ hd']
      exact hlt
    rw [dedupeDevices_append]
    split
    · exact hkept
    · rename_i hx
      rw [dedupeDevices_mem_iff] at hx
      refine List.pairwise_append.mpr ⟨hkept, List.pairwise_singleton _ _, fun d hd d' hd' => ?_⟩
      rw [List.mem_singleton.mp hd', hplace d hd, List.idxOf_append_of_notMem hx]
      exact Nat.lt_of_lt_of_le (List.idxOf_lt_length_of_mem (dedupeDevices_mem_iff.mp hd))
        (Nat.le_add_right _ _)

theorem sameFullJid_iff {a b : JID} : sameFullJid a b = true ↔ a = b := by
  obtain ⟨u, s, d⟩ := a
  obtain ⟨u', s', d'⟩ := b
  simp [sameFullJid, and_assoc]

theorem recipients_filter (listed : List JID) (own : JID) :
    Recipients listed own ((dedupeDevices listed).filter fun d => !sameFullJid d own) where
  nodup := by
    have hordered := dedupeDevices_ordered listed
    exact (hordered.imp fun hlt heq => by rw [heq] at hlt; exact absurd hlt (Nat.lt_irrefl _)).filter _
  mem_iff d := by
    rw [List.mem_filter, dedupeDevices_mem_iff, Bool.not_eq_true', ← Bool.not_eq_true,
      sameFullJid_iff]
  ordered := (dedupeDevices_ordered listed).filter _

end Targets

section Sealed

variable (env : Env P) (dev : Device P)

/-- The copy of the message that a device gets: the wrapped one on this account. -/
def Outgoing.copyFor (msg : Outgoing) (d : JID) : Bytes :=
  if d.base = dev.ownJid.base then msg.ownPlaintext else msg.plaintext

/-- The ciphertext is an encryption of the plaintext to the device. -/
def SealedFor (d : JID) (plaintext : Bytes) (kind : String) (ciphertext : Bytes) : Prop :=
  ∃ e state, Encryption.Made dev e state ∧ e.peer = d ∧ e.plaintext = plaintext ∧
    e.wire env dev = .ok (kind, ciphertext)

/-- The `<to>` of a device. -/
def Participant (msg : Outgoing) (d : JID) (node : Node) : Prop :=
  ∃ kind ciphertext, SealedFor env dev d (msg.copyFor dev d) kind ciphertext ∧
    node = buildParticipantNode d kind ciphertext none msg.mediatype msg.decryptFail

/-- The stanza has one `<to>` for each recipient that the device map lists. -/
def FansOut (deviceMap : DeviceMap) (msg : Outgoing) (stanza : Node) : Prop :=
  ∃ targets participants,
    Recipients (listedDevices deviceMap msg.chat dev.ownJid) dev.ownJid targets ∧
    List.Forall₂ (Participant env dev msg) targets participants ∧
    stanza = buildMessageNode dev msg.messageId msg.chat.base participants msg.messageType msg.edit

end Sealed

section Sending

variable {env : Env P} {dev : Device P} {fetchPrekeys : JID → CoM P PreKeyBundle}
  {fetchDevices : List JID → CoM P DeviceMap} (Others : World P → World P → Prop)

/-- The call hands the stanza to the transport in the state `t`. -/
def Transmits {α : Type} (p : CoM P α) (s t : World P) (node : Node) (chat : JID) : Prop :=
  Co.ActsAmidst Others p s t (t.log (.transmit node (.body chat)) id)

/-- An action other than that of handing a message to the transport. -/
def Untransmitting (t t' : World P) : Prop :=
  ∀ node chat, t' ≠ t.log (.transmit node (.body chat)) id

variable {Others}

theorem untransmitting_refl (t : World P) : Untransmitting t t := by
  intro node chat h
  have hlength := congrArg (fun w => w.history.length) h
  simp at hlength

theorem untransmitting_put (f : Stores P → Stores P) (t : World P) :
    Untransmitting t (t.put f) := by
  intro node chat h
  have hlength := congrArg (fun w => w.history.length) h
  simp at hlength

theorem untransmitting_log {e : Event} (he : ∀ node chat, e ≠ .transmit node (.body chat))
    (f : Stores P → Stores P) (t : World P) : Untransmitting t (t.log e f) := by
  intro node chat h
  have hhistory := congrArg World.history h
  simp only [World.log_history, List.append_cancel_left_eq, List.cons.injEq, Prod.mk.injEq,
    true_and, and_true] at hhistory
  exact he node chat hhistory

theorem update_each (f : Stores P → Stores P) : Co.Each Untransmitting (update f : CoM P Unit) :=
  Co.Each.modify (untransmitting_put f)

theorem record_each {e : Event} (he : ∀ node chat, e ≠ .transmit node (.body chat))
    (f : Stores P → Stores P) : Co.Each Untransmitting (record e f : CoM P Unit) :=
  Co.Each.modify (untransmitting_log he f)

theorem establishSession_each (bundle : PreKeyBundle) :
    Co.Each Untransmitting (establishSessionFromBundle env dev bundle) :=
  establishSession_actions (fun w _ => untransmitting_put _ w) bundle

theorem loadForPeer_each (sid : String) : Co.Each Untransmitting (loadForPeer sid : CoM P _) :=
  loadForPeer_actions untransmitting_refl fun w _ => untransmitting_log (by simp) _ w

theorem encryptOn_each (peer : JID) (plaintext : Bytes) (session : Session) (m : PeerSessionMeta) :
    Co.Each Untransmitting (encryptOn env dev peer plaintext session m) :=
  encryptOn_actions (fun w _ _ => untransmitting_log (by simp) _ w) plaintext session m

theorem routerRegister_each (messageId : String) :
    Co.Each Untransmitting (routerRegister messageId : CoM P Nat) := by
  refine Co.Each.get_bind untransmitting_refl fun w => ?_
  split
  · trivial
  · exact Co.Each.bind (update_each _) fun _ => trivial

theorem dropSessions_each (peers : List JID) :
    Co.Each Untransmitting (dropSessions peers : CoM P Unit) := by
  induction peers with
  | nil => trivial
  | cons peer rest ih =>
    refine Co.Each.bind ?_ fun _ => ih
    exact Co.Each.bind (record_each (by simp) _) fun _ =>
      Co.Each.bind (update_each _) fun _ => update_each _

theorem not_transmits_each {α : Type} {p : CoM P α} (hp : p.Each Untransmitting) {s t : World P}
    {node : Node} {chat : JID} : ¬ Transmits Others p s t node chat :=
  fun h => hp.acts h node chat rfl

variable {s t : World P} {node : Node} {chat : JID}

theorem transmits_encryptForPeer {peer : JID} {plaintext : Bytes}
    (h : Transmits Others (encryptForPeer env dev fetchPrekeys peer plaintext) s t node chat) :
    ∃ u, Transmits Others (fetchPrekeys peer) u t node chat := by
  rcases h.bind_inv with h | ⟨loaded, u, -, h⟩
  · exact absurd h (not_transmits_each (loadForPeer_each _))
  · cases loaded with
    | some loaded => exact absurd h (not_transmits_each (encryptOn_each _ _ _ _))
    | none =>
      rcases h.bind_inv with h | ⟨bundle, v, -, h⟩
      · exact ⟨u, h⟩
      · refine absurd h (not_transmits_each (Co.Each.bind (establishSession_each bundle) fun run => ?_))
        exact Co.Each.bind (record_each (by simp) _) fun _ =>
          Co.Each.bind (update_each _) fun _ => encryptOn_each _ _ _ _

theorem transmits_encryptForDevices {msg : Outgoing} {devices : List JID}
    (h : Transmits Others (encryptForDevices env dev fetchPrekeys msg devices) s t node chat) :
    ∃ peer u, Transmits Others (fetchPrekeys peer) u t node chat := by
  induction devices generalizing s with
  | nil => cases h
  | cons d rest ih =>
    rcases h.bind_inv with h | ⟨sealed, u, -, h⟩
    · exact ⟨d, transmits_encryptForPeer h⟩
    · rcases h.bind_inv with h | ⟨nodes, v, -, h⟩
      · exact ih h
      · cases h

theorem transmits_targetDevices {dest : JID}
    (h : Transmits Others (targetDevices dev fetchDevices dest) s t node chat) :
    ∃ users u, Transmits Others (fetchDevices users) u t node chat := by
  rw [targetDevices] at h
  split at h
  · cases h
  · rcases h.bind_inv with h | ⟨deviceMap, u, -, h⟩
    · exact ⟨_, s, h⟩
    · cases h

theorem targetDevices_ends {dest : JID} (hdest : dest.device = 0) {devices : List JID}
    (h : Co.EndsAmidst Others (targetDevices dev fetchDevices dest) s (.ok devices) t) :
    ∃ deviceMap u, Co.EndsAmidst Others (fetchDevices [dest.base, dev.ownJid.base]) s
        (.ok deviceMap) u ∧
      Recipients (listedDevices deviceMap dest dev.ownJid) dev.ownJid devices := by
  rw [targetDevices, if_neg (not_not.mpr hdest)] at h
  obtain ⟨deviceMap, u, hfetch, h⟩ := h.bind_inv
  cases h
  refine ⟨deviceMap, t, hfetch, ?_⟩
  rw [devicesOf_pair]
  exact recipients_filter _ _

theorem encryptOn_ends {peer : JID} {plaintext : Bytes} {session : Session} {m : PeerSessionMeta}
    {kind : String} {ciphertext : Bytes}
    (h : Co.EndsAmidst Others (encryptOn env dev peer plaintext session m) s
      (.ok (kind, ciphertext)) t) : SealedFor env dev peer plaintext kind ciphertext := by
  rw [encryptOn] at h
  split at h
  · cases h
  · rename_i header ct macKey state hratchet
    obtain ⟨-, u, -, h⟩ := h.bind_inv
    generalize hwire : Encryption.wire env dev
      ⟨peer, plaintext, session, m, header, ct, macKey⟩ = out at h
    cases h
    exact ⟨⟨peer, plaintext, session, m, header, ct, macKey⟩, state, hratchet, rfl, rfl, hwire⟩

theorem encryptForPeer_ends {peer : JID} {plaintext : Bytes} {kind : String} {ciphertext : Bytes}
    (h : Co.EndsAmidst Others (encryptForPeer env dev fetchPrekeys peer plaintext) s
      (.ok (kind, ciphertext)) t) : SealedFor env dev peer plaintext kind ciphertext := by
  obtain ⟨loaded, u, -, h⟩ := h.bind_inv
  cases loaded with
  | some loaded => exact encryptOn_ends h
  | none =>
    obtain ⟨bundle, v, -, h⟩ := h.bind_inv
    obtain ⟨run, v, -, h⟩ := h.bind_inv
    obtain ⟨-, v, -, h⟩ := h.bind_inv
    obtain ⟨-, v, -, h⟩ := h.bind_inv
    exact encryptOn_ends h

theorem encryptForDevices_ends {msg : Outgoing} {devices : List JID} {nodes : List Node}
    (h : Co.EndsAmidst Others (encryptForDevices env dev fetchPrekeys msg devices) s
      (.ok nodes) t) : List.Forall₂ (Participant env dev msg) devices nodes := by
  induction devices generalizing s nodes with
  | nil =>
    cases h
    exact List.Forall₂.nil
  | cons d rest ih =>
    obtain ⟨⟨kind, ciphertext⟩, u, hsealed, h⟩ := h.bind_inv
    obtain ⟨participants, v, hrest, h⟩ := h.bind_inv
    cases h
    exact List.Forall₂.cons ⟨kind, ciphertext, encryptForPeer_ends hsealed, rfl⟩ (ih hrest)

theorem transmits_transmit {stanza : Node} {dest : JID} {frame : Bytes}
    (h : Transmits Others (transmit stanza (.body dest) frame) s t node chat) :
    t = s ∧ node = stanza ∧ chat = dest := by
  rcases h.bind_inv with h | ⟨_, u, -, h⟩
  · generalize hlog : t.log (.transmit node (.body chat)) id = t' at h
    cases h with
    | here =>
      have hhistory := congrArg World.history hlog
      simp only [World.log_history, List.append_cancel_left_eq, List.cons.injEq, Prod.mk.injEq,
        true_and, and_true, Event.transmit.injEq, Purpose.body.injEq] at hhistory
      exact ⟨rfl, hhistory⟩
    | act h => cases h
  · exact absurd h (not_transmits_each (Co.Each.wait _))

/-- The body of one call: a stanza that no fetcher hands over fans out over the map that the
fetcher has returned. -/
theorem transmits_sendAttempt {msg : Outgoing} (hchat : msg.chat.device = 0)
    (hprekeys : ∀ peer u, ¬ Transmits Others (fetchPrekeys peer) u t node chat)
    (hdevices : ∀ users u, ¬ Transmits Others (fetchDevices users) u t node chat)
    (h : Transmits Others (sendAttempt env dev fetchPrekeys fetchDevices msg) s t node chat) :
    ∃ deviceMap u, Co.EndsAmidst Others (fetchDevices [msg.chat.base, dev.ownJid.base]) s
      (.ok deviceMap) u ∧ FansOut env dev deviceMap msg node := by
  rcases h.bind_inv with h | ⟨devices, u, htargets, h⟩
  · obtain ⟨users, v, h⟩ := transmits_targetDevices h
    exact absurd h (hdevices users v)
  rcases h.bind_inv with h | ⟨participants, u', hparticipants, h⟩
  · obtain ⟨peer, v, h⟩ := transmits_encryptForDevices h
    exact absurd h (hprekeys peer v)
  rcases h.bind_inv with h | ⟨frame, v, -, h⟩
  · cases h
  rcases h.bind_inv with h | ⟨future, v', -, h⟩
  · exact absurd h (not_transmits_each (routerRegister_each _))
  rcases h.bind_inv with h | ⟨reply, w, -, h⟩
  · rcases h.tryCatch_inv with h | ⟨e, w, -, h⟩
    · rcases h.bind_inv with h | ⟨_, w, -, h⟩
      · obtain ⟨-, rfl, -⟩ := transmits_transmit h
        obtain ⟨deviceMap, w, hfetch, hrecipients⟩ := targetDevices_ends hchat htargets
        exact ⟨deviceMap, w, hfetch, devices, participants, hrecipients,
          encryptForDevices_ends hparticipants, rfl⟩
      · exact absurd h (not_transmits_each (Co.Each.wait _))
    · exact absurd h (not_transmits_each (Co.Each.bind (update_each _) fun _ => Co.Each.ret _))
  · exact absurd h (not_transmits_each (Co.Each.ret _))

/-- Fan-out is exact, for the call and the one it makes after a retry request. -/
theorem fan_out_exact {msg : Outgoing} (hchat : msg.chat.device = 0)
    (hprekeys : ∀ peer u, ¬ Transmits Others (fetchPrekeys peer) u t node chat)
    (hdevices : ∀ users u, ¬ Transmits Others (fetchDevices users) u t node chat) {retries : Nat}
    (h : Transmits Others (sendOnce env dev fetchPrekeys fetchDevices msg retries) s t node chat) :
    ∃ deviceMap u v, Co.EndsAmidst Others (fetchDevices [msg.chat.base, dev.ownJid.base]) u
      (.ok deviceMap) v ∧ FansOut env dev deviceMap msg node := by
  induction retries generalizing s with
  | zero =>
    rcases h.bind_inv with h | ⟨⟨reply, devices⟩, u, -, h⟩
    · obtain ⟨deviceMap, u, hsent⟩ := transmits_sendAttempt hchat hprekeys hdevices h
      exact ⟨deviceMap, s, u, hsent⟩
    · cases reply <;> cases h
  | succ retries ih =>
    rcases h.bind_inv with h | ⟨⟨reply, devices⟩, u, -, h⟩
    · obtain ⟨deviceMap, u, hsent⟩ := transmits_sendAttempt hchat hprekeys hdevices h
      exact ⟨deviceMap, s, u, hsent⟩
    · cases reply with
      | ack => cases h
      | retry attrs =>
        rcases h.bind_inv with h | ⟨peer, v, -, h⟩
        · cases h
        rcases h.bind_inv with h | ⟨_, v', -, h⟩
        · refine absurd h (not_transmits_each ?_)
          exact Co.Each.get_bind untransmitting_refl fun w => dropSessions_each _
        · exact ih h

theorem routerRegister_ends (Others : World P → World P → Prop) {messageId : String}
    (hfree : s.router.contains messageId = false) :
    ∃ u, Co.EndsAmidst Others (routerRegister messageId) s (.ok s.futures) u := by
  have hnot : ¬ s.router.contains messageId = true := by rw [hfree]; decide
  refine Exists.imp (fun u => Co.EndsAmidst.of_run) ?_
  rw [routerRegister, Co.run_get_bind, if_neg hnot]
  exact ⟨_, rfl⟩

/-- Where every recipient's copy is encrypted, the stanza is handed over. -/
theorem fan_out_sent {msg : Outgoing} {devices : List JID} {participants : List Node}
    {frame : Bytes} {u v : World P} (retries : Nat)
    (htargets : Co.EndsAmidst Others (targetDevices dev fetchDevices msg.chat) s (.ok devices) u)
    (hsealed : Co.EndsAmidst Others (encryptForDevices env dev fetchPrekeys msg devices) u
      (.ok participants) v)
    (hframe : env.encode (buildMessageNode dev msg.messageId msg.chat.base participants
      msg.messageType msg.edit) = .ok frame)
    (hfree : v.router.contains msg.messageId = false) :
    ∃ t, Transmits Others (sendOnce env dev fetchPrekeys fetchDevices msg retries) s t
      (buildMessageNode dev msg.messageId msg.chat.base participants msg.messageType msg.edit)
      msg.chat := by
  obtain ⟨t, hregister⟩ := routerRegister_ends Others hfree
  have hattempt : Transmits Others (sendAttempt env dev fetchPrekeys fetchDevices msg) s t
      (buildMessageNode dev msg.messageId msg.chat.base participants msg.messageType msg.edit)
      msg.chat := by
    refine .bind_right htargets (.bind_right hsealed (.bind_right (a := frame) (u := v) ?_
      (.bind_right hregister (.bind_left (.tryCatch (.bind_left (.bind_left .here)))))))
    rw [hframe]
    exact .ret
  exact ⟨t, by cases retries <;> exact .bind_left hattempt⟩

end Sending

section Demo

def demoFanOut : Outgoing :=
  { chat := { user := "200" }, text := "", messageId := "m0", plaintext := [7]
    ownPlaintext := [8], messageType := "text", edit := none, mediatype := "", decryptFail := "" }

/-- This device is `100.3`. -/
def demoDeviceMap : DeviceMap :=
  OrderedMap.set (OrderedMap.set .empty { user := "200" }
      ⟨[{ user := "200" }, { user := "200", device := 4 }, { user := "200" }], none⟩)
    { user := "100" } ⟨[{ user := "100" }, { user := "100", device := 3 }], none⟩

theorem fan_out_exact_demo : ∃ t node deviceMap,
    Transmits Eq (sendOnce (demoEnv []) demoMe (fun _ => pure demoPeer.bundle)
      (fun _ => pure demoDeviceMap) demoFanOut 1) {} t node demoFanOut.chat ∧
    deviceMap = demoDeviceMap ∧ FansOut (demoEnv []) demoMe deviceMap demoFanOut node := by
  let answer : World demoPrimitives → (q : Request) → Except PyError q.Reply :=
    fun _ _ => .error .timeoutError
  let sealing := encryptForDevices (demoEnv []) demoMe (fun _ => pure demoPeer.bundle) demoFanOut
    [{ user := "200" }, { user := "200", device := 4 }, { user := "100" }]
  have hends := @Co.endsAmidst_finish _ _ _ _ _ Eq (fun _ => rfl) answer sealing {}
  have hok : (sealing.finish answer {}).1.isOk = true := by decide +kernel
  have hfree : (sealing.finish answer {}).2.router.contains "m0" = false := by decide +kernel
  have htargets : Co.EndsAmidst Eq (targetDevices demoMe (fun _ => pure demoDeviceMap)
      demoFanOut.chat) {} (.ok [{ user := "200" }, { user := "200", device := 4 },
        { user := "100" }]) {} := .ret
  have hquiet : ∀ {α : Type} (a : α) (u t : World demoPrimitives) node chat,
      ¬ Transmits Eq (pure a : CoM demoPrimitives α) u t node chat :=
    fun a u t node chat => not_transmits_each (Co.Each.ret _)
  cases hsealed : (sealing.finish answer {}).1 with
  | error e =>
    rw [hsealed] at hok
    cases hok
  | ok participants =>
    rw [hsealed] at hends
    obtain ⟨t, hsent⟩ := fan_out_sent 1 htargets hends rfl hfree
    obtain ⟨deviceMap, u, v, hfetch, hfans⟩ := fan_out_exact (by decide)
      (fun _ u => hquiet _ u t _ _) (fun _ u => hquiet _ u t _ _) hsent
    cases hfetch
    exact ⟨t, _, _, hsent, rfl, hfans⟩

end Demo

end PyWhats
