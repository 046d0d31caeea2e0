import PyWhats.Lib.Conversation
import PyWhats.Receiver

/-! What runs between two waits. The ack router and the map of pending iqs number their
futures from one counter; a future is in a table until it is completed or its call gives
it up. Only a call that registers a future adds to a table. -/

namespace PyWhats

section Tables

/-- A table of pending futures and what the completed ones got. -/
structure Futures (β : Type) where
  pending : OrderedMap String Nat
  done : List (Nat × β)

/-- Below `bound` all futures are numbered: one name waits for each, and each is
completed at most once. -/
structure Futures.Sound {β : Type} (t : Futures β) (bound : Nat) : Prop where
  pending_lt : ∀ id future, t.pending.get? id = some future → future < bound
  done_lt : ∀ a ∈ t.done, a.1 < bound
  distinct : ∀ id id' future, t.pending.get? id = some future →
    t.pending.get? id' = some future → id = id'
  waits : ∀ id future, t.pending.get? id = some future → ∀ a ∈ t.done, a.1 ≠ future
  once : (t.done.map Prod.fst).Nodup

theorem get?_of_erase {table : OrderedMap String Nat} {name id : String} {future : Nat}
    (h : (table.erase name).get? id = some future) : table.get? id = some future := by
  rw [OrderedMap.get?_erase] at h
  split at h
  · cases h
  · exact h

namespace Futures.Sound

variable {β : Type} {t : Futures β} {bound bound' : Nat}

theorem mono (h : t.Sound bound) (hle : bound ≤ bound') : t.Sound bound' where
  pending_lt id future hid := Nat.lt_of_lt_of_le (h.pending_lt id future hid) hle
  done_lt a ha := Nat.lt_of_lt_of_le (h.done_lt a ha) hle
  distinct := h.distinct
  waits := h.waits
  once := h.once

theorem erase (h : t.Sound bound) (name : String) :
    (⟨t.pending.erase name, t.done⟩ : Futures β).Sound bound where
  pending_lt id future hid := h.pending_lt id future (get?_of_erase hid)
  done_lt := h.done_lt
  distinct id id' future hid hid' := h.distinct id id' future (get?_of_erase hid) (get?_of_erase hid')
  waits id future hid := h.waits id future (get?_of_erase hid)
  once := h.once

theorem register (h : t.Sound bound) (name : String) :
    (⟨t.pending.set name bound, t.done⟩ : Futures β).Sound (bound + 1) := by
  have hsub : ∀ {id future}, (t.pending.set name bound).get? id = some future →
      id = name ∧ future = bound ∨ t.pending.get? id = some future ∧ future < bound := by
    intro id future hid
    rw [OrderedMap.get?_set] at hid
    split at hid
    · rename_i hname
      exact Or.inl ⟨hname, (Option.some.inj hid).symm⟩
    · exact Or.inr ⟨hid, h.pending_lt id future hid⟩
  refine ⟨fun id future hid => ?_, fun a ha => Nat.lt_succ_of_lt (h.done_lt a ha),
    fun id id' future hid hid' => ?_, fun id future hid a ha => ?_, h.once⟩
  · rcases hsub hid with ⟨-, rfl⟩ | ⟨-, hlt⟩ <;> omega
  · rcases hsub hid with ⟨rfl, hfuture⟩ | ⟨hid, hlt⟩ <;>
      rcases hsub hid' with ⟨rfl, hfuture'⟩ | ⟨hid', hlt'⟩
    · rfl
    · omega
    · omega
    · exact h.distinct id id' future hid hid'
  · rcases hsub hid with ⟨-, rfl⟩ | ⟨hid, -⟩
    · exact Nat.ne_of_lt (h.done_lt a ha)
    · exact h.waits id future hid a ha

theorem resolve (h : t.Sound bound) {name : String} {future : Nat}
    (hname : t.pending.get? name = some future) (reply : β) :
    (⟨t.pending.erase name, t.done ++ [(future, reply)]⟩ : Futures β).Sound bound := by
  have herased := h.erase name
  refine ⟨herased.pending_lt, fun a ha => ?_, herased.distinct, fun id other hid a ha => ?_, ?_⟩
  · rcases List.mem_append.mp ha with ha | ha
    · exact h.done_lt a ha
    · rw [List.mem_singleton.mp ha]
      exact h.pending_lt name future hname
  · rcases List.mem_append.mp ha with ha | ha
    · exact herased.waits id other hid a ha
    · rw [List.mem_singleton.mp ha]
      rintro rfl
      have hid' := hid
      rw [OrderedMap.get?_erase] at hid
      split at hid
      · cases hid
      · rename_i hne
        exact hne (h.distinct id name _ hid hname)
  · rw [List.map_append, List.nodup_append]
    refine ⟨h.once, List.nodup_singleton _, fun a ha b hb => ?_⟩
    obtain ⟨c, hc, rfl⟩ := List.mem_map.mp ha
    rw [List.mem_singleton.mp hb]
    exact h.waits name future hname c hc

end Futures.Sound

/-- A pending future, by its table, its name and its number. -/
inductive Pending where
  | ack (messageId : String) (future : Nat)
  | iq (iqId : String) (future : Nat)

variable {P : Primitives}

def Stores.acks (s : Stores P) : Futures AckReply := ⟨s.router, s.acked⟩

def Stores.iqs (s : Stores P) : Futures Node := ⟨s.iqMap, s.answered⟩

def Stores.tables (s : Stores P) : Futures AckReply × Futures Node × Nat := (s.acks, s.iqs, s.futures)

def World.Pends (w : World P) : Pending → Prop
  | .ack messageId future => w.router.get? messageId = some future
  | .iq iqId future => w.iqMap.get? iqId = some future

structure World.Numbered (w : World P) : Prop where
  acks : w.acks.Sound w.futures
  iqs : w.iqs.Sound w.futures

/-- A step that registers nothing. -/
def Sheds (w w' : World P) : Prop :=
  (w.Numbered → w'.Numbered) ∧ ∀ key, w'.Pends key → w.Pends key

theorem Sheds.refl (w : World P) : Sheds w w := ⟨id, fun _ => id⟩

theorem sheds_same {w w' : World P} (h : w'.tables = w.tables) : Sheds w w' := by
  obtain ⟨hacks, hrest⟩ := Prod.mk.inj h
  obtain ⟨hiqs, hfutures⟩ := Prod.mk.inj hrest
  refine ⟨fun h => ⟨?_, ?_⟩, fun key hkey => ?_⟩
  · rw [hacks, hfutures]
    exact h.acks
  · rw [hiqs, hfutures]
    exact h.iqs
  · cases key with
    | ack messageId future =>
      change w'.acks.pending.get? messageId = some future at hkey
      rwa [hacks] at hkey
    | iq iqId future =>
      change w'.iqs.pending.get? iqId = some future at hkey
      rwa [hiqs] at hkey

theorem sheds_acks {w w' : World P} {name : String} (hsound : w.acks.Sound w.futures →
      w'.acks.Sound w'.futures) (hrouter : w'.router = w.router.erase name)
    (hiqs : w'.iqs = w.iqs) (hfutures : w'.futures = w.futures) : Sheds w w' := by
  refine ⟨fun h => ⟨hsound h.acks, ?_⟩, fun key hkey => ?_⟩
  · rw [hiqs, hfutures]
    exact h.iqs
  · cases key with
    | ack messageId future =>
      change w'.router.get? messageId = some future at hkey
      rw [hrouter] at hkey
      exact get?_of_erase hkey
    | iq iqId future =>
      change w'.iqs.pending.get? iqId = some future at hkey
      rwa [hiqs] at hkey

theorem sheds_iqs {w w' : World P} {name : String} (hsound : w.iqs.Sound w.futures →
      w'.iqs.Sound w'.futures) (hmap : w'.iqMap = w.iqMap.erase name)
    (hacks : w'.acks = w.acks) (hfutures : w'.futures = w.futures) : Sheds w w' := by
  refine ⟨fun h => ⟨?_, hsound h.iqs⟩, fun key hkey => ?_⟩
  · rw [hacks, hfutures]
    exact h.acks
  · cases key with
    | ack messageId future =>
      change w'.acks.pending.get? messageId = some future at hkey
      rwa [hacks] at hkey
    | iq iqId future =>
      change w'.iqMap.get? iqId = some future at hkey
      rw [hmap] at hkey
      exact get?_of_erase hkey

theorem routerCancel_mute (messageId : String) :
    (routerCancel messageId : CoM P Unit).Mute Sheds :=
  .modify fun _ => sheds_acks (fun h => h.erase messageId) rfl rfl rfl

theorem iqCancel_mute (iqId : String) : (iqCancel iqId : CoM P Unit).Mute Sheds :=
  .modify fun _ => sheds_iqs (fun h => h.erase iqId) rfl rfl rfl

theorem routerResolve_mute (messageId : String) (reply : AckReply) :
    (routerResolve messageId reply : CoM P Unit).Mute Sheds := by
  refine .modify fun w => ?_
  cases h : w.router.get? messageId with
  | none => simpa only [World.put, h] using Sheds.refl w
  | some future =>
    simp only [World.put, h]
    exact sheds_acks (fun hsound => hsound.resolve h reply) rfl rfl rfl

theorem iqResolve_mute (iqId : String) (node : Node) :
    (iqResolve iqId node : CoM P Unit).Mute Sheds := by
  refine .modify fun w => ?_
  cases h : w.iqMap.get? iqId with
  | none => simpa only [World.put, h] using Sheds.refl w
  | some future =>
    simp only [World.put, h]
    exact sheds_iqs (fun hsound => hsound.resolve h node) rfl rfl rfl

theorem update_mute {f : Stores P → Stores P} (h : ∀ s, (f s).tables = s.tables) :
    (update f : CoM P Unit).Mute Sheds :=
  .modify fun _ => sheds_same (h _)

theorem record_mute (e : Event) {f : Stores P → Stores P} (h : ∀ s, (f s).tables = s.tables) :
    (record e f : CoM P Unit).Mute Sheds :=
  .modify fun _ => sheds_same (h _)

theorem tables_note (sid : String) (s : Stores P) : (s.note sid).tables = s.tables := by
  rw [Stores.note]
  split <;> rfl

end Tables

section Mute

variable {P : Primitives} (env : Env P) (dev : Device P)

theorem draw_mute {α : Type} (source : Nat → α) : (draw source : CoM P α).Mute Sheds :=
  fun _ => ⟨sheds_same rfl, trivial⟩

theorem migrateKnownLidSender_mute (sender : JID) :
    (migrateKnownLidSender sender : CoM P Unit).Mute Sheds := by
  refine .get_bind Sheds.refl fun w => ?_
  split
  · trivial
  · cases w.lidMap.getPn sender.user with
    | none => trivial
    | some pnUser =>
      refine .get_bind Sheds.refl fun w => ?_
      split
      · exact record_mute _ fun _ => rfl
      · trivial

theorem lookupOneTimePreKey_mute (keyId : Option Nat) :
    (lookupOneTimePreKey keyId : CoM P (Option (OneTimePreKey P))).Mute Sheds := by
  cases keyId with
  | none => trivial
  | some id =>
    refine .get_bind Sheds.refl fun w => ?_
    cases w.prekeys.get? id <;> trivial

theorem decryptPkmsg_mute (channel : Channel) (sender : JID) (ciphertext : Bytes) :
    (decryptPkmsg env dev channel sender ciphertext).Mute Sheds := by
  refine .bind (.lift _) fun pkmsg => .bind (.lift _) fun spk => ?_
  refine .bind (lookupOneTimePreKey_mute _) fun opk => .bind (.lift _) fun result => ?_
  refine .bind (draw_mute _) fun generated => ?_
  split
  · trivial
  · exact .bind (record_mute _ fun _ => rfl) fun _ => trivial

theorem decryptMsg_mute (channel : Channel) (sender : JID) (ciphertext : Bytes) :
    (decryptMsg env dev channel sender ciphertext).Mute Sheds := by
  refine .get_bind Sheds.refl fun w => ?_
  cases w.sessions.get? (sessionId sender) with
  | none => trivial
  | some session =>
    cases w.identities.get? (sessionId sender) with
    | none => trivial
    | some peerIdentity =>
      refine .bind (.lift _) fun inner => .bind (draw_mute _) fun generated => ?_
      split
      · trivial
      · exact .bind (record_mute _ fun _ => rfl) fun _ => trivial

theorem decryptEnc_mute (channel : Channel) (sender : JID) (encType : String) (ciphertext : Bytes) :
    (decryptEnc env dev channel sender encType ciphertext).Mute Sheds := by
  refine .bind (migrateKnownLidSender_mute sender) fun _ => ?_
  split
  · exact decryptPkmsg_mute env dev channel sender ciphertext
  · split
    · exact decryptMsg_mute env dev channel sender ciphertext
    · trivial

theorem noteSessions_mute (peers : List JID) : (noteSessions peers : CoM P Unit).Mute Sheds := by
  induction peers with
  | nil => trivial
  | cons candidate rest ih => exact .bind (record_mute _ (tables_note _)) fun _ => ih

theorem decryptDirect_mute (sender : JID) (encType : String) (ciphertext : Bytes) :
    (decryptDirect env dev sender encType ciphertext).Mute Sheds := by
  refine .tryCatch ?_ fun _ => trivial
  refine .bind (decryptEnc_mute env dev .direct sender encType ciphertext) fun plaintext => ?_
  exact .bind (.get_bind Sheds.refl fun w => noteSessions_mute _) fun _ => trivial

theorem recordPeerAddressing_mute (node : Node) (sender : JID) :
    (recordPeerAddressing node sender : CoM P Unit).Mute Sheds := by
  rw [recordPeerAddressing]
  split
  · refine .bind (.lift _) fun alt => ?_
    split
    · exact update_mute fun _ => rfl
    · trivial
  · split
    · refine .bind (.lift _) fun alt => ?_
      split
      · exact update_mute fun _ => rfl
      · trivial
    · trivial

theorem ingestGroupSkdm_mute (enc : Node) (group participant : JID) :
    (ingestGroupSkdm env dev enc group participant).Mute Sheds := by
  refine .bind (.tryCatch ?_ fun _ => trivial) fun result => ?_
  · exact .bind (decryptEnc_mute env dev .group participant _ _) fun _ => trivial
  · repeat' split
    all_goals first
      | exact update_mute fun _ => rfl
      | trivial

theorem ingestAll_mute (group participant : JID) (encs : List Node) :
    (ingestAll env dev group participant encs).Mute Sheds := by
  induction encs with
  | nil => trivial
  | cons enc rest ih =>
    rw [ingestAll]
    split
    · exact .bind (ingestGroupSkdm_mute env dev enc group participant) fun _ => ih
    · exact ih

theorem decryptSkmsg_mute (group participant : JID) (skmsg : Bytes) :
    (decryptSkmsg env group participant skmsg).Mute Sheds := by
  refine .get_bind Sheds.refl fun w => ?_
  cases w.senderKeys.get? (group.str, sessionId participant) with
  | none => trivial
  | some state =>
    simp only
    cases groupDecrypt P env.pb state skmsg with
    | error e => trivial
    | ok out =>
      refine .bind (update_mute fun _ => rfl) fun _ => ?_
      split <;> trivial

theorem handleProtocolMessage_mute (proto : Bytes) (sender : JID) :
    (handleProtocolMessage env dev proto sender).Mute Sheds := by
  rw [handleProtocolMessage]
  split
  · exact update_mute fun _ => rfl
  · trivial

theorem dropPeerSession_mute (peer : JID) : (dropPeerSession peer : CoM P Unit).Mute Sheds := by
  have hdrop : ∀ candidates : List JID, (dropSessions candidates : CoM P Unit).Mute Sheds := by
    intro candidates
    induction candidates with
    | nil => trivial
    | cons candidate rest ih =>
      have hone : (dropSession (sessionId candidate) : CoM P Unit).Mute Sheds :=
        .bind (record_mute _ fun _ => rfl) fun _ =>
          .bind (update_mute fun _ => rfl) fun _ => update_mute fun _ => rfl
      exact hone.bind fun _ => ih
  exact .get_bind Sheds.refl fun w => hdrop _

theorem establishSessionFromBundle_mute (bundle : PreKeyBundle) :
    (establishSessionFromBundle env dev bundle).Mute Sheds := by
  refine .bind (draw_mute _) fun ephemeral => .bind (.lift _) fun result => ?_
  exact .bind (draw_mute _) fun generated => .bind (.lift _) fun state => trivial

theorem installBundle_mute (peer : JID) (bundle : Option PreKeyBundle) :
    (installBundle env dev peer bundle).Mute Sheds := by
  cases bundle with
  | none => trivial
  | some bundle =>
    refine .bind (establishSessionFromBundle_mute env dev bundle) fun run => ?_
    exact .bind (record_mute _ fun _ => rfl) fun _ => update_mute fun _ => rfl

theorem loadForPeer_mute (sid : String) :
    (loadForPeer sid : CoM P (Option (Session × PeerSessionMeta))).Mute Sheds := by
  refine .get_bind Sheds.refl fun w => ?_
  cases w.sessions.get? sid with
  | none => trivial
  | some session =>
    cases w.peerMeta.get? sid with
    | some m => trivial
    | none =>
      cases w.identities.get? sid with
      | none => trivial
      | some cached => exact .bind (record_mute _ fun _ => rfl) fun _ => trivial

theorem encryptOn_mute (peer : JID) (plaintext : Bytes) (session : Session) (m : PeerSessionMeta) :
    (encryptOn env dev peer plaintext session m).Mute Sheds := by
  rw [encryptOn]
  split
  · trivial
  · exact .bind (record_mute _ fun _ => rfl) fun _ => .lift _

/-- The rest of `_encrypt_for_peer` once a bundle was fetched. -/
theorem encryptOnBundle_mute (peer : JID) (plaintext : Bytes) (bundle : PreKeyBundle) :
    (establishSessionFromBundle env dev bundle >>= fun run =>
      record (.initiate (sessionId peer) run)
        (.setMeta (sessionId peer) (run.peerMeta dev.registrationId)) >>= fun _ =>
      update (.setIdentity (sessionId peer) (run.peerMeta dev.registrationId).peerIdentity) >>=
        fun _ => encryptOn env dev peer plaintext run.session
          (run.peerMeta dev.registrationId)).Mute Sheds := by
  refine (establishSessionFromBundle_mute env dev bundle).bind fun run => ?_
  refine .bind (record_mute _ fun _ => rfl) fun _ => .bind (update_mute fun _ => rfl) fun _ => ?_
  exact encryptOn_mute env dev peer plaintext _ _

theorem padRandomMax16_mute (plaintext : Bytes) :
    (padRandomMax16 env plaintext).Mute Sheds :=
  .bind (draw_mute _) fun _ => trivial

theorem ownSenderKey_mute (group : JID) : (ownSenderKey env dev group).Mute Sheds := by
  refine .get_bind Sheds.refl fun w => ?_
  cases w.senderKeys.get? (group.str, sessionId dev.ownJid) with
  | some state => trivial
  | none => exact .bind (draw_mute _) fun _ => .bind (draw_mute _) fun _ => trivial

theorem routerRegister_mute (messageId : String) :
    (routerRegister messageId : CoM P Nat).Mute fun _ _ => True := by
  refine .get_bind (fun _ => trivial) fun w => ?_
  split
  · trivial
  · exact .bind (.modify fun _ => trivial) fun _ => trivial

theorem iqRegister_mute (iqId : String) :
    (iqRegister iqId : CoM P Nat).Mute fun _ _ => True := by
  refine .get_bind (fun _ => trivial) fun w => ?_
  split
  · trivial
  · exact .bind (.modify fun _ => trivial) fun _ => trivial

theorem handleAck_mute (node : Node) : (handleAck node : CoM P Unit).Mute Sheds := by
  rw [handleAck]
  split
  · trivial
  · split <;> exact routerResolve_mute _ _

end Mute

end PyWhats
