import PyWhats.Crossing
import PyWhats.Delivery
import PyWhats.PeerIdentity

/-! The chain of a group member as the receiver stores it. A `skmsg` moves it forward,
a distribution message replaces it by whatever it carries. -/

namespace PyWhats

variable {P : Primitives}

/-- What changed the stored chain: a distribution message with a chain of its own, or
a `skmsg` that was opened. -/
inductive GroupCause where
  | start
  | ingest (chain : SenderKeyState)
  | opened (skmsg : Bytes)
  deriving DecidableEq

def GroupCause.ingested : GroupCause → Option SenderKeyState
  | .ingest chain => some chain
  | _ => none

structure GroupPoint where
  cause : GroupCause
  entry : Option SenderKeyState
  deriving DecidableEq

/-- The stores, and what was stored for the member after each change. -/
structure GroupTrace (P : Primitives) where
  world : World P
  points : List GroupPoint

section Trace

variable (env : Env P) (dev : Device P) (group participant : JID)

def World.senderKey (w : World P) : Option SenderKeyState :=
  w.senderKeys.get? (group.str, sessionId participant)

/-- The chain inside a plaintext that is a distribution message. -/
def distributedChain (plaintext : Bytes) : Option SenderKeyState :=
  (unpadRandomMax16 plaintext).toOption.bind fun proto =>
    if !env.e2e.parses proto then none
    else (env.e2e.distribution proto).bind fun axolotl =>
      if axolotl = [] then none else (processDistributionMessage env.pb axolotl).toOption

/-- The chain that `enc` brings along when it can be decrypted. -/
def World.carries (w : World P) (enc : Node) : Option SenderKeyState :=
  ((decryptEnc env dev .group participant (enc.getStr "type") enc.contentBytes).run w).2.ok?.bind
    (distributedChain env)

/-- The chain after `group_decrypt`, if it accepts. -/
def World.opens (w : World P) (skmsg : Bytes) : Option SenderKeyState :=
  (w.senderKey group participant).bind fun state =>
    (groupDecrypt P env.pb state skmsg).toOption.map Prod.snd

namespace GroupTrace

def start (w : World P) : GroupTrace P := ⟨w, [⟨.start, w.senderKey group participant⟩]⟩

def ingest (t : GroupTrace P) (enc : Node) : GroupTrace P :=
  if enc.getStr "type" = "pkmsg" ∨ enc.getStr "type" = "msg" then
    let w := ((ingestGroupSkdm env dev enc group participant).run t.world).1
    match t.world.carries env dev participant enc with
    | none => ⟨w, t.points⟩
    | some chain => ⟨w, t.points ++ [⟨.ingest chain, w.senderKey group participant⟩]⟩
  else t

def decrypt (skmsg : Bytes) (t : GroupTrace P) : GroupTrace P :=
  let w := ((decryptSkmsg env group participant skmsg).run t.world).1
  if (t.world.opens env group participant skmsg).isSome then
    ⟨w, t.points ++ [⟨.opened skmsg, w.senderKey group participant⟩]⟩
  else ⟨w, t.points⟩

/-- What `_handle_group_message` does to the stored chain, step by step. -/
def stanza (node : Node) (t : GroupTrace P) : GroupTrace P :=
  let t := (node.getChildren "enc").foldl (ingest env dev group participant) t
  match (node.getChildren "enc").find? (fun e => e.getStr "type" = "skmsg") with
  | none => t
  | some skmsgEnc => t.decrypt env group participant skmsgEnc.contentBytes

def handle (t : GroupTrace P) (node : Node) : GroupTrace P :=
  ⟨((handleGroupMessage env dev node group).run t.world).1,
    (t.stanza env dev group participant node).points⟩

end GroupTrace

/-- A group stanza of the member arrives, or something happens that leaves its chain
alone. -/
inductive GroupStep : GroupTrace P → GroupTrace P → Prop
  | stanza {t : GroupTrace P} {node : Node}
      (hparticipant : receiverJidFromAttr (node.getAttr "participant") = .ok participant) :
      GroupStep t (t.handle env dev group participant node)
  | elsewhere {t : GroupTrace P} {w : World P}
      (h : w.senderKey group participant = t.world.senderKey group participant) :
      GroupStep t { t with world := w }

end Trace

section Spec

variable {env : Env P} {dev : Device P} {group participant : JID}

variable (env dev group participant) in
theorem ingestGroupSkdm_run (enc : Node) (w : World P) :
    ∃ w₁ : World P, w₁.senderKeys = w.senderKeys ∧
      (ingestGroupSkdm env dev enc group participant).run w =
        ((w.carries env dev participant enc).elim w₁ fun chain =>
          w₁.put (.setSenderKey (group.str, sessionId participant) chain), .done (.ok ())) := by
  obtain ⟨w₁, r, hrun, hreceived⟩ := decryptEnc_received env dev .group participant
    enc.contentBytes w (enc.getStr "type")
  refine ⟨w₁, hreceived.senderKeys.trans (w.arrive_senderKeys participant), ?_⟩
  have hcarries : w.carries env dev participant enc =
      r.toOption.bind (distributedChain env) := by
    rw [World.carries, hrun]
    cases r <;> rfl
  have hcaught : (Co.tryCatch
      (do let plaintext ← decryptEnc env dev .group participant (enc.getStr "type") enc.contentBytes
          return some plaintext : CoM P (Option Bytes)) (fun _ => return none)).run w =
        (w₁, .done (.ok r.toOption)) := by
    cases r with
    | ok plaintext => exact Co.run_tryCatch_ok (Co.run_bind_ok hrun)
    | error e => exact Co.run_tryCatch_error (Co.run_bind_error hrun)
  rw [ingestGroupSkdm, Co.run_bind_ok hcaught, hcarries]
  cases r with
  | error e => rfl
  | ok plaintext =>
    simp only [Except.toOption, Option.bind_some, distributedChain]
    cases unpadRandomMax16 plaintext with
    | error e => rfl
    | ok proto =>
      simp only [Option.bind_some]
      split
      · rfl
      · cases env.e2e.distribution proto with
        | none => rfl
        | some axolotl =>
          simp only [Option.bind_some]
          split
          · rfl
          · cases processDistributionMessage env.pb axolotl <;> rfl

theorem GroupTrace.ingest_world (t : GroupTrace P) (enc : Node) :
    (t.ingest env dev group participant enc).world =
      if enc.getStr "type" = "pkmsg" ∨ enc.getStr "type" = "msg" then
        ((ingestGroupSkdm env dev enc group participant).run t.world).1
      else t.world := by
  rw [GroupTrace.ingest]
  split
  · cases t.world.carries env dev participant enc <;> rfl
  · rfl

theorem ingestAll_run (encs : List Node) (t : GroupTrace P) :
    ((ingestAll env dev group participant encs).run t.world) =
      ((encs.foldl (GroupTrace.ingest env dev group participant) t).world, .done (.ok ())) := by
  induction encs generalizing t with
  | nil => rfl
  | cons enc encs ih =>
    rw [ingestAll, List.foldl_cons, ← ih, GroupTrace.ingest_world]
    split
    · obtain ⟨w₁, _, hw₁⟩ := ingestGroupSkdm_run env dev group participant enc t.world
      refine (Co.run_bind_ok hw₁).trans ?_
      rw [hw₁]
    · rfl

variable (env group participant) in
theorem decryptSkmsg_run (skmsg : Bytes) (w : World P) :
    ∃ r, (decryptSkmsg env group participant skmsg).run w =
      (((w.opens env group participant skmsg).elim w fun state =>
        w.put (.setSenderKey (group.str, sessionId participant) state)), .done (.ok r)) := by
  rw [decryptSkmsg, Co.run_get_bind, World.opens, World.senderKey]
  cases w.senderKeys.get? (group.str, sessionId participant) with
  | none => exact ⟨_, rfl⟩
  | some state =>
    rw [Option.bind_some]
    cases hopen : groupDecrypt P env.pb state skmsg with
    | error e =>
      simp only [hopen]
      exact ⟨_, rfl⟩
    | ok out =>
      obtain ⟨plaintext, state'⟩ := out
      simp only [hopen]
      cases unpadRandomMax16 plaintext <;> exact ⟨_, rfl⟩

theorem handleGroupMessage_run {node : Node} (t : GroupTrace P)
    (hparticipant : receiverJidFromAttr (node.getAttr "participant") = .ok participant) :
    ((handleGroupMessage env dev node group).run t.world).1 =
      (t.stanza env dev group participant node).world := by
  rw [handleGroupMessage, Co.run_lift_bind hparticipant, Co.run_bind_ok (ingestAll_run _ t),
    GroupTrace.stanza]
  cases (node.getChildren "enc").find? (fun e => e.getStr "type" = "skmsg") with
  | none => rfl
  | some skmsgEnc =>
    obtain ⟨r, hr⟩ := decryptSkmsg_run env group participant skmsgEnc.contentBytes
      ((node.getChildren "enc").foldl (GroupTrace.ingest env dev group participant) t).world
    have hworld : ∀ t : GroupTrace P, (t.decrypt env group participant skmsgEnc.contentBytes).world =
        ((decryptSkmsg env group participant skmsgEnc.contentBytes).run t.world).1 := by
      intro t
      rw [GroupTrace.decrypt]
      split <;> rfl
    simp only [hworld]
    rw [Co.run_bind_ok hr, hr]
    rcases r with _ | _ | _ <;> rfl

theorem groupDecrypt_forward {skmsg plaintext : Bytes} {state state' : SenderKeyState}
    (h : groupDecrypt P env.pb state skmsg = .ok (plaintext, state')) :
    ∃ body, env.pb.senderKeyMessage.parse ((skmsg.take (skmsg.length - 64)).drop 1) = some body ∧
      state.iteration ≤ body.iteration ∧ state'.iteration = body.iteration + 1 ∧
      state'.signingPublic = state.signingPublic := by
  simp only [groupDecrypt] at h
  split at h
  · cases h
  split at h
  · cases h
  split at h
  · cases h
  rename_i body hbody
  split at h
  · cases h
  rename_i hnew
  split at h
  · cases h
  simp only [except_bind_ok] at h
  obtain ⟨_, _, hpair⟩ := h
  cases hpair
  exact ⟨body, hbody, Nat.not_lt.mp hnew, rfl, rfl⟩

end Spec

section Forward

variable {env : Env P} {dev : Device P} {group participant : JID}

/-- Under one signing key, `q` is not behind `p`. -/
def GroupPoint.NotAhead (p q : GroupPoint) : Prop :=
  ∀ s ∈ p.entry, ∀ s' ∈ q.entry, s.signingPublic = s'.signingPublic → s.iteration ≤ s'.iteration

instance (p q : GroupPoint) : Decidable (p.NotAhead q) :=
  inferInstanceAs (Decidable (∀ s ∈ p.entry, ∀ s' ∈ q.entry, _))

/-- The iteration never decreases under one signing key. -/
def Forward (points : List GroupPoint) : Prop := points.Pairwise GroupPoint.NotAhead

instance (points : List GroupPoint) : Decidable (Forward points) :=
  inferInstanceAs (Decidable (points.Pairwise _))

/-- If `q` is a distribution message, it is not behind what was stored at `p` under its
signing key. -/
def GroupPoint.Before (p q : GroupPoint) : Prop :=
  ∀ s ∈ p.entry, ∀ chain ∈ q.cause.ingested, s.signingPublic = chain.signingPublic →
    s.iteration ≤ chain.iteration

instance (p q : GroupPoint) : Decidable (p.Before q) :=
  inferInstanceAs (Decidable (∀ s ∈ p.entry, ∀ chain ∈ q.cause.ingested, _))

/-- No distribution message that arrives is behind anything that was stored under its
signing key before. -/
def IngestsInOrder (points : List GroupPoint) : Prop := points.Pairwise GroupPoint.Before

instance (points : List GroupPoint) : Decidable (IngestsInOrder points) :=
  inferInstanceAs (Decidable (points.Pairwise _))

def GroupPoint.accepted (p : GroupPoint) : Option (Bytes × Bytes) :=
  match p.cause, p.entry with
  | .opened skmsg, some state => some (state.signingPublic, skmsg)
  | _, _ => none

/-- The accepted group messages, each with the signing key it was accepted under. -/
def acceptedSkmsgs (points : List GroupPoint) : List (Bytes × Bytes) :=
  points.filterMap GroupPoint.accepted

/-- Wherever the chain stands, it is past every message it has accepted. -/
structure ChainInv (env : Env P) (points : List GroupPoint) (entry : Option SenderKeyState) :
    Prop where
  last : ∃ p ∈ points, p.entry = entry
  forward : Forward points
  ahead : ∀ p ∈ points, p.NotAhead ⟨.start, entry⟩
  past : ∀ p ∈ points, ∀ skmsg, p.cause = .opened skmsg → ∀ s, p.entry = some s →
    ∃ body, env.pb.senderKeyMessage.parse ((skmsg.take (skmsg.length - 64)).drop 1) = some body ∧
      body.iteration < s.iteration
  nodup : (acceptedSkmsgs points).Nodup

theorem ChainInv.push {points : List GroupPoint} {entry : Option SenderKeyState} {q : GroupPoint}
    (hinv : ChainInv env points entry) (hq : ∀ p ∈ points, p.NotAhead q)
    (hpast : ∀ skmsg, q.cause = .opened skmsg → ∀ s, q.entry = some s →
      ∃ body, env.pb.senderKeyMessage.parse ((skmsg.take (skmsg.length - 64)).drop 1) = some body ∧
        body.iteration < s.iteration)
    (hnew : ∀ a, q.accepted = some a → a ∉ acceptedSkmsgs points) :
    ChainInv env (points ++ [q]) q.entry where
  last := ⟨q, List.mem_append_right _ List.mem_cons_self, rfl⟩
  forward := by
    refine List.pairwise_append.mpr ⟨hinv.forward, List.pairwise_singleton _ _, ?_⟩
    intro p hp q' hq'
    rw [List.mem_singleton.mp hq']
    exact hq p hp
  ahead := by
    rw [List.forall_mem_append, List.forall_mem_singleton]
    refine ⟨hq, fun s hs s' hs' _ => ?_⟩
    cases hs.symm.trans hs'
    exact Nat.le_refl _
  past := by
    rw [List.forall_mem_append, List.forall_mem_singleton]
    exact ⟨hinv.past, hpast⟩
  nodup := by
    rw [acceptedSkmsgs, List.filterMap_append, List.nodup_append]
    refine ⟨hinv.nodup, ?_, fun a ha b hb hab => ?_⟩
    · cases h : q.accepted <;> simp [h]
    · cases h : q.accepted with
      | none => simp [h] at hb
      | some c =>
        simp only [List.filterMap_cons, h, List.filterMap_nil, List.mem_singleton] at hb
        rw [hab, hb] at ha
        exact hnew c h ha

variable (env group participant) in
/-- What a distribution message brings is stored, and as long as these messages come in
order the trace is as it should be. -/
structure GroupTrace.Good (t : GroupTrace P) : Prop where
  stored : ∀ p ∈ t.points, ∀ chain ∈ p.cause.ingested, p.entry = some chain
  inv : IngestsInOrder t.points → ChainInv env t.points (t.world.senderKey group participant)

theorem GroupTrace.Good.ingest {t : GroupTrace P} (h : t.Good env group participant) (enc : Node) :
    (t.ingest env dev group participant enc).Good env group participant := by
  obtain ⟨w₁, hkeys, hrun⟩ := ingestGroupSkdm_run env dev group participant enc t.world
  rw [GroupTrace.ingest, hrun]
  split
  · cases t.world.carries env dev participant enc with
    | none =>
      refine ⟨h.stored, fun horder => ?_⟩
      have hsame : w₁.senderKey group participant = t.world.senderKey group participant := by
        rw [World.senderKey, hkeys, World.senderKey]
      simpa only [Option.elim_none, hsame] using h.inv horder
    | some chain =>
      have hentry : (w₁.put (.setSenderKey (group.str, sessionId participant) chain)).senderKey
          group participant = some chain := OrderedMap.get?_set_self _ _ _
      simp only [Option.elim_some, hentry]
      constructor
      · rw [List.forall_mem_append, List.forall_mem_singleton]
        refine ⟨h.stored, ?_⟩
        rintro chain' ⟨⟩
        rfl
      · intro horder
        rw [hentry]
        refine (h.inv (List.pairwise_append.mp horder).1).push ?_ ?_ ?_
        · rintro p hp s hs _ ⟨⟩ hkey
          exact (List.pairwise_append.mp horder).2.2 p hp _ (List.mem_singleton_self _) s hs chain
            rfl hkey
        · rintro skmsg ⟨⟩
        · rintro a ⟨⟩
  · exact h

theorem World.opens_spec {w : World P} {skmsg : Bytes} {state' : SenderKeyState}
    (h : w.opens env group participant skmsg = some state') :
    ∃ state body, w.senderKey group participant = some state ∧
      env.pb.senderKeyMessage.parse ((skmsg.take (skmsg.length - 64)).drop 1) = some body ∧
      state.iteration ≤ body.iteration ∧ state'.iteration = body.iteration + 1 ∧
      state'.signingPublic = state.signingPublic := by
  rw [World.opens] at h
  obtain ⟨state, hstate, h⟩ := Option.bind_eq_some_iff.mp h
  cases hopen : groupDecrypt P env.pb state skmsg with
  | error e => simp [hopen, Except.toOption] at h
  | ok out =>
    obtain ⟨plaintext, state''⟩ := out
    rw [hopen] at h
    cases h
    obtain ⟨body, hbody, hrest⟩ := groupDecrypt_forward hopen
    exact ⟨state, body, hstate, hbody, hrest⟩

theorem GroupPoint.accepted_eq_some {p : GroupPoint} {key skmsg : Bytes}
    (h : p.accepted = some (key, skmsg)) :
    p.cause = .opened skmsg ∧ ∃ s, p.entry = some s ∧ s.signingPublic = key := by
  unfold GroupPoint.accepted at h
  split at h
  · rename_i skmsg' s hcause hs
    obtain ⟨hkey, hskmsg⟩ := Prod.mk.inj (Option.some.inj h)
    exact ⟨hskmsg ▸ hcause, s, hs, hkey⟩
  · cases h

theorem GroupTrace.Good.decrypt {t : GroupTrace P} (h : t.Good env group participant)
    (skmsg : Bytes) : (t.decrypt env group participant skmsg).Good env group participant := by
  obtain ⟨r, hr⟩ := decryptSkmsg_run env group participant skmsg t.world
  rw [GroupTrace.decrypt, hr]
  cases hopens : t.world.opens env group participant skmsg with
  | none => exact ⟨h.stored, h.inv⟩
  | some state' =>
    obtain ⟨state, body, hstate, hbody, hle, hiteration, hsigning⟩ := World.opens_spec hopens
    have hentry : (t.world.put (.setSenderKey (group.str, sessionId participant) state')).senderKey
        group participant = some state' := OrderedMap.get?_set_self _ _ _
    simp only [Option.elim_some, Option.isSome_some, if_true, hentry]
    constructor
    · rw [List.forall_mem_append, List.forall_mem_singleton]
      refine ⟨h.stored, ?_⟩
      rintro chain ⟨⟩
    intro horder
    have hinv := h.inv (List.pairwise_append.mp horder).1
    have hbefore : ∀ p ∈ t.points, ∀ s, p.entry = some s → s.signingPublic = state'.signingPublic →
        s.iteration ≤ state.iteration :=
      fun p hp s hs hkey => hinv.ahead p hp s hs state hstate (hkey.trans hsigning)
    rw [hentry]
    refine hinv.push ?_ ?_ ?_
    · rintro p hp s hs _ ⟨⟩ hkey
      have := hbefore p hp s hs hkey
      omega
    · rintro skmsg' ⟨⟩ s ⟨⟩
      exact ⟨body, hbody, by omega⟩
    · rintro ⟨key, skmsg'⟩ ⟨⟩ hmem
      obtain ⟨p, hp, hacc⟩ := List.mem_filterMap.mp hmem
      obtain ⟨hcause, s, hs, hkey⟩ := GroupPoint.accepted_eq_some hacc
      obtain ⟨body', hbody', hlt⟩ := hinv.past p hp skmsg hcause s hs
      cases hbody.symm.trans hbody'
      have := hbefore p hp s hs hkey
      omega

theorem GroupTrace.Good.stanza {t : GroupTrace P} (h : t.Good env group participant) (node : Node) :
    (t.stanza env dev group participant node).Good env group participant := by
  have hfold : ∀ (encs : List Node) (t : GroupTrace P), t.Good env group participant →
      (encs.foldl (GroupTrace.ingest env dev group participant) t).Good env group participant := by
    intro encs
    induction encs with
    | nil => exact fun _ h => h
    | cons enc encs ih => exact fun t h => ih _ (h.ingest enc)
  rw [GroupTrace.stanza]
  split
  · exact hfold _ t h
  · exact (hfold _ t h).decrypt _

theorem good_start (w : World P) :
    (GroupTrace.start group participant w).Good env group participant := by
  constructor
  · rw [GroupTrace.start, List.forall_mem_singleton]
    rintro chain ⟨⟩
  intro _
  refine ⟨⟨_, List.mem_singleton_self _, rfl⟩, List.pairwise_singleton _ _, ?_, ?_, List.nodup_nil⟩
  · rw [GroupTrace.start, List.forall_mem_singleton]
    intro s hs s' hs' _
    cases hs.symm.trans hs'
    exact Nat.le_refl _
  · rw [GroupTrace.start, List.forall_mem_singleton]
    rintro skmsg ⟨⟩

theorem GroupStep.good {t t' : GroupTrace P} (h : GroupStep env dev group participant t t')
    (ht : t.Good env group participant) : t'.Good env group participant := by
  cases h with
  | stanza hparticipant =>
    rw [GroupTrace.handle, handleGroupMessage_run t hparticipant]
    exact ht.stanza _
  | elsewhere h =>
    refine ⟨ht.stored, fun horder => ?_⟩
    rw [h]
    exact ht.inv horder

theorem group_chain_forward_iff {w : World P} {t : GroupTrace P}
    (h : Relation.ReflTransGen (GroupStep env dev group participant)
      (GroupTrace.start group participant w) t) :
    (Forward t.points ∧ (acceptedSkmsgs t.points).Nodup) ↔ IngestsInOrder t.points := by
  have hgood : t.Good env group participant := by
    induction h with
    | refl => exact good_start w
    | tail _ hstep ih => exact hstep.good ih
  constructor
  · rintro ⟨hforward, -⟩
    refine hforward.imp_of_mem fun _ hq hpq s hs chain hchain hkey => ?_
    exact hpq s hs chain (hgood.stored _ hq chain hchain) hkey
  · intro horder
    exact ⟨(hgood.inv horder).forward, (hgood.inv horder).nodup⟩

end Forward

section Demo

/-- The ciphertexts of a sent group stanza that reach one device. -/
def relayedEncs (dest : JID) (node : Node) : List Node :=
  (((node.getChild "participants").map fun p => p.getChildren "to").getD []).filterMap
    (fun addressed =>
      if addressed.getAttr "jid" = some (.jid dest) then addressed.getChild "enc" else none) ++
    node.getChildren "enc"

def relayed (group sender : JID) (encs : List Node) : Node :=
  .mk "message" [("id", .str "m"), ("from", .jid group), ("participant", .jid sender)] (.nodes encs)

def demoGroup : JID := { user := "900", server := "g.us" }

def demoMemberSend (w : World demoPrimitives) : World demoPrimitives :=
  demoCall (sendGroupText demoRight.env demoPeer (fun _ => pure demoLeft.bundle)
    (fun _ => pure (OrderedMap.empty.set demoMe.ownJid.base ⟨[demoMe.ownJid], none⟩))
    demoGroup "hi" [demoMe.ownJid]) w

/-- Two group messages of a member that holds a session with this device. -/
def demoGroupSent : List Node :=
  (demoMemberSend (demoMemberSend demoHeard)).history.filterMap fun
    | (_, .transmit node _) => some node
    | _ => none

def demoEncs (i : Nat) : List Node := (demoGroupSent[i]?.map (relayedEncs demoMe.ownJid)).getD []

def demoGroupEnv : Env demoPrimitives :=
  { demoLeft.env with e2e := { demoE2e with distribution := some } }

def demoHandle (t : GroupTrace demoPrimitives) (encs : List Node) : GroupTrace demoPrimitives :=
  t.handle demoGroupEnv demoMe demoGroup demoPeer.ownJid (relayed demoGroup demoPeer.ownJid encs)

def demoHandled (order : List (List Node)) : GroupTrace demoPrimitives :=
  order.foldl demoHandle (.start demoGroup demoPeer.ownJid (demoGiven demoLeft demoRight))

theorem foldl_demoHandle_run (order : List (List Node)) (t : GroupTrace demoPrimitives) :
    Relation.ReflTransGen (GroupStep demoGroupEnv demoMe demoGroup demoPeer.ownJid) t
      (order.foldl demoHandle t) := by
  induction order generalizing t with
  | nil => exact .refl
  | cons encs order ih => exact .head (.stanza rfl) (ih _)

theorem group_chain_forward_in_turn :
    ((demoHandled [demoEncs 0, demoEncs 1]).points.filterMap (·.entry)).map (·.iteration) =
        [0, 1, 1, 2] ∧
      Forward (demoHandled [demoEncs 0, demoEncs 1]).points ∧
      (acceptedSkmsgs (demoHandled [demoEncs 0, demoEncs 1]).points).Nodup :=
  ⟨by decide +kernel, (group_chain_forward_iff (foldl_demoHandle_run _ _)).mpr (by decide +kernel)⟩

theorem demoEncs_sent {i : Nat} (h : i < demoGroupSent.length) :
    ∃ node ∈ demoGroupSent, demoEncs i = relayedEncs demoMe.ownJid node := by
  refine ⟨demoGroupSent[i], List.getElem_mem h, ?_⟩
  rw [demoEncs, List.getElem?_eq_getElem h]
  rfl

/-- The second stanza, then the first, then the `skmsg` of the second once more. -/
theorem group_chain_runs_backward :
    ¬ ∀ order : List (List Node), (∀ encs ∈ order,
        ∃ node ∈ demoGroupSent, encs.Sublist (relayedEncs demoMe.ownJid node)) →
      Forward (demoHandled order).points ∧ (acceptedSkmsgs (demoHandled order).points).Nodup := by
  intro h
  have hsent : demoGroupSent.length = 2 := by decide +kernel
  obtain ⟨first, hfirst, hencs⟩ := demoEncs_sent (i := 0) (by omega)
  obtain ⟨second, hsecond, hencs'⟩ := demoEncs_sent (i := 1) (by omega)
  have hboth := h [demoEncs 1, demoEncs 0, (demoEncs 1).drop 1] <| by
    simp only [List.forall_mem_cons, List.not_mem_nil, false_implies, implies_true, and_true]
    exact ⟨⟨second, hsecond, hencs' ▸ .refl _⟩, ⟨first, hfirst, hencs ▸ .refl _⟩,
      second, hsecond, hencs' ▸ List.drop_sublist _ _⟩
  have hback : ¬ Forward (demoHandled [demoEncs 1, demoEncs 0, (demoEncs 1).drop 1]).points := by
    decide +kernel
  exact hback hboth.1

end Demo

end PyWhats
