import PyWhats.SessionReplay

/-! What a stanza that cannot be decrypted leaves behind. A refused `_decrypt_enc` writes
nothing, but the session of a known LID sender is moved before it is tried. -/

namespace PyWhats

variable {P : Primitives} {env : Env P} {dev : Device P}

section Refused

variable {channel : Channel} {sender : JID} {encType : String} {ciphertext : Bytes}
  {w w' : World P} {e : PyError}

theorem World.movesFrom_of_server (h : sender.server ≠ "lid") (w : World P) :
    w.movesFrom sender = none := if_pos (Or.inl h)

theorem World.arrive_of_none (h : w.movesFrom sender = none) : w.arrive sender = w := by
  rw [World.arrive, h]

theorem EncOutcome.error_inv
    (h : EncOutcome env dev channel sender ciphertext w encType w' (.error e)) :
    ∃ n, w' = w.put (.setDrawn n) := by
  cases h with
  | refused _ n _ => exact ⟨n, rfl⟩

theorem decryptEnc_error_inv
    (h : (decryptEnc env dev channel sender encType ciphertext).run w = (w', .done (.error e))) :
    ∃ n, w' = (w.arrive sender).put (.setDrawn n) := by
  obtain ⟨w₁, r, hrun, hout⟩ := decryptEnc_received env dev channel sender ciphertext w encType
  obtain ⟨rfl, rfl⟩ := Co.run_done_inj h hrun
  exact hout.error_inv

-- A load deserializes the stored blob, so the ratchet steps on a copy: what it has
-- changed before the MAC check is lost with the copy.
theorem failed_decrypt_changes_nothing (hserver : sender.server ≠ "lid")
    (h : (decryptEnc env dev channel sender encType ciphertext).run w = (w', .done (.error e))) :
    w'.sessions = w.sessions ∧ w'.identities = w.identities ∧ w'.prekeys = w.prekeys := by
  obtain ⟨n, rfl⟩ := decryptEnc_error_inv h
  rw [World.arrive_of_none (World.movesFrom_of_server hserver w)]
  exact ⟨rfl, rfl, rfl⟩

variable (env dev channel sender encType ciphertext w) in
theorem decryptEnc_fails
    (h : ((decryptEnc env dev channel sender encType ciphertext).run w).2.ok?.isSome = false) :
    ∃ w' e, (decryptEnc env dev channel sender encType ciphertext).run w =
      (w', .done (.error e)) := by
  obtain ⟨w', r, hrun, -⟩ := decryptEnc_received env dev channel sender ciphertext w encType
  rw [hrun] at h
  cases r with
  | ok plaintext => cases h
  | error e => exact ⟨w', e, hrun⟩

/-- The first reply with its last byte changed. -/
def demoForged : Bytes :=
  demoFirstReply.2.dropLast ++ [demoFirstReply.2.getLast?.getD 0 + 1]

theorem failed_decrypt_changes_nothing_forged : ∃ w' e,
    (decryptEnc demoLeft.env demoMe .direct demoPeer.ownJid "msg" demoForged).run
      (demoGiven demoLeft demoRight) = (w', .done (.error e)) ∧
    w'.sessions = (demoGiven demoLeft demoRight).sessions ∧
    w'.identities = (demoGiven demoLeft demoRight).identities ∧
    w'.prekeys = (demoGiven demoLeft demoRight).prekeys := by
  obtain ⟨w', e, hrun⟩ := decryptEnc_fails demoLeft.env demoMe .direct demoPeer.ownJid "msg"
    demoForged (demoGiven demoLeft demoRight) (by decide +kernel)
  exact ⟨w', e, hrun, failed_decrypt_changes_nothing (by decide) hrun⟩

end Refused

section Addressing

/-- What `_record_peer_addressing` makes of the LID map. -/
def peerAddressing (node : Node) (sender : JID) (m : LidMap) : Except PyError LidMap :=
  if sender.server = "lid" then do
    let alt ← receiverJidFromAttr (node.getAttr "sender_pn")
    return if alt.user ≠ "" ∧ alt.server ≠ "lid" then m.set alt.user sender.user else m
  else if sender.server = "s.whatsapp.net" then do
    let alt ← receiverJidFromAttr (node.getAttr "sender_lid")
    return if alt.user ≠ "" ∧ alt.server = "lid" then m.set sender.user alt.user else m
  else return m

theorem learn_run (p : Prop) [Decidable p] (f : LidMap → LidMap) (w : World P) :
    Co.run (if p then update fun s => { s with lidMap := f s.lidMap } else pure () : CoM P Unit) w =
      (w.put (.setLidMap (if p then f w.lidMap else w.lidMap)), .done (.ok ())) := by
  by_cases h : p
  · simp only [if_pos h]
    rfl
  · simp only [if_neg h]
    rfl

theorem recordPeerAddressing_run (node : Node) (sender : JID) (w : World P) :
    (recordPeerAddressing node sender).run w = match peerAddressing node sender w.lidMap with
      | .ok m => (w.put (.setLidMap m), .done (.ok ()))
      | .error e => (w, .done (.error e)) := by
  rw [recordPeerAddressing, peerAddressing]
  by_cases hlid : sender.server = "lid"
  · simp only [if_pos hlid]
    cases receiverJidFromAttr (node.getAttr "sender_pn") with
    | error e => rfl
    | ok alt =>
      exact learn_run (alt.user ≠ "" ∧ alt.server ≠ "lid") (LidMap.set · alt.user sender.user) w
  · simp only [if_neg hlid]
    by_cases hpn : sender.server = "s.whatsapp.net"
    · simp only [if_pos hpn]
      cases receiverJidFromAttr (node.getAttr "sender_lid") with
      | error e => rfl
      | ok alt =>
        exact learn_run (alt.user ≠ "" ∧ alt.server = "lid") (LidMap.set · sender.user alt.user) w
    · simp only [if_neg hpn]
      rfl

def pairwise (enc : Node) : Bool := enc.getStr "type" = "pkmsg" ∨ enc.getStr "type" = "msg"

/-- Who `_decrypt_enc` is first called for, and the LID map it finds then. -/
def arrival (dev : Device P) (node : Node) (m : LidMap) : Option (JID × LidMap) :=
  match receiverJidFromAttr (node.getAttr "from") with
  | .error _ => none
  | .ok sender =>
    if sender.server = "g.us" then
      match receiverJidFromAttr (node.getAttr "participant") with
      | .error _ => none
      | .ok participant =>
        if (node.getChildren "enc").any pairwise then some (participant, m) else none
    else if sender.user = "status" ∧ sender.server = "broadcast" then none
    else
      match peerAddressing node sender m, selectEncNode dev.ownJid node with
      | .ok lidMap, .ok (some _) => some (sender, lidMap)
      | _, _ => none

/-- The addresses between which the stanza moves a session before it is decrypted. -/
def World.displaced (w : World P) (dev : Device P) (node : Node) : Option (String × String) :=
  (arrival dev node w.lidMap).bind fun a =>
    ((w.put (.setLidMap a.2)).movesFrom a.1).map fun m => (m.1, sessionId a.1)

variable (env dev) in
/-- Every `pkmsg` and `msg` child is refused. -/
def AllRefused (participant : JID) : List Node → World P → Prop
  | [], _ => True
  | enc :: rest, w =>
    if pairwise enc then
      ∃ w' e, (decryptEnc env dev .group participant (enc.getStr "type") enc.contentBytes).run w =
        (w', .done (.error e)) ∧ AllRefused participant rest w'
    else AllRefused participant rest w

variable (env dev) in
/-- No `_decrypt_enc` that the stanza asks for succeeds. -/
def Undecrypted (node : Node) (w : World P) : Prop :=
  match receiverJidFromAttr (node.getAttr "from") with
  | .error _ => True
  | .ok sender =>
    if sender.server = "g.us" then
      ∀ participant, receiverJidFromAttr (node.getAttr "participant") = .ok participant →
        AllRefused env dev participant (node.getChildren "enc") w
    else if sender.user = "status" ∧ sender.server = "broadcast" then True
    else ∀ lidMap enc, peerAddressing node sender w.lidMap = .ok lidMap →
      selectEncNode dev.ownJid node = .ok (some enc) →
      ∃ w' e, (decryptEnc env dev .direct sender (enc.getStr "type") enc.contentBytes).run
        (w.put (.setLidMap lidMap)) = (w', .done (.error e))

def KeepsSessions (w t : World P) : Prop :=
  t.sessions = w.sessions ∧ t.identities = w.identities

theorem keepsSessions_run {w t : World P} (h : Relation.ReflTransGen KeepsSessions w t) :
    KeepsSessions w t := by
  induction h with
  | refl => exact ⟨rfl, rfl⟩
  | tail _ hstep ih => exact ⟨hstep.1.trans ih.1, hstep.2.trans ih.2⟩

theorem World.arrive_arrived (w : World P) (sender : JID) :
    (w.arrive sender).movesFrom sender = none := by
  cases hmoves : w.movesFrom sender with
  | none => rw [World.arrive_of_none hmoves, hmoves]
  | some m =>
    obtain ⟨hsession, hfree⟩ := World.movesFrom_spec hmoves
    have hne : sessionId sender ≠ m.1 := by
      intro heq
      rw [← heq, hfree] at hsession
      cases hsession
    rw [World.arrive, hmoves, World.movesFrom]
    refine if_pos (Or.inr ?_)
    simp only [World.log_toStores, Stores.migrate]
    rw [OrderedMap.get?_erase_ne _ hne, OrderedMap.get?_set_self]
    rfl

theorem ingestGroupSkdm_refused {enc : Node} {group participant : JID} {w w' : World P}
    {e : PyError}
    (h : (decryptEnc env dev .group participant (enc.getStr "type") enc.contentBytes).run w =
      (w', .done (.error e))) :
    (ingestGroupSkdm env dev enc group participant).run w = (w', .done (.ok ())) := by
  have hcaught : (Co.tryCatch
      (do let plaintext ← decryptEnc env dev .group participant (enc.getStr "type") enc.contentBytes
          return some plaintext)
      (fun _ => return none) : CoM P (Option Bytes)).run w = (w', .done (.ok none)) :=
    Co.run_tryCatch_error (Co.run_bind_error h)
  rw [ingestGroupSkdm, Co.run_bind_ok hcaught]
  rfl

theorem ingestAll_cons {group participant : JID} {enc : Node} {encs : List Node} {w w' : World P}
    (h : (if pairwise enc then ingestGroupSkdm env dev enc group participant else pure ()).run w =
      (w', .done (.ok ()))) :
    (ingestAll env dev group participant (enc :: encs)).run w =
      (ingestAll env dev group participant encs).run w' := by
  rw [ingestAll]
  by_cases hpair : enc.getStr "type" = "pkmsg" ∨ enc.getStr "type" = "msg"
  · simp only [pairwise, hpair, decide_true, if_true] at h ⊢
    exact Co.run_bind_ok h
  · simp only [pairwise, hpair, decide_false, Bool.false_eq_true, if_false] at h ⊢
    cases h
    rfl

/-- At most the first of the refused encs moves a session. -/
theorem ingestAll_refused (group : JID) {participant : JID} {encs : List Node} {w : World P}
    (h : AllRefused env dev participant encs w) :
    ∃ w', (ingestAll env dev group participant encs).run w = (w', .done (.ok ())) ∧
      KeepsSessions (if encs.any pairwise then w.arrive participant else w) w' := by
  induction encs generalizing w with
  | nil => exact ⟨w, rfl, rfl, rfl⟩
  | cons enc encs ih =>
    by_cases hpair : pairwise enc = true
    · rw [AllRefused, if_pos hpair] at h
      obtain ⟨w', e, hrun, hrest⟩ := h
      obtain ⟨w'', hall, hkeeps⟩ := ih hrest
      obtain ⟨n, rfl⟩ := decryptEnc_error_inv hrun
      have hstays : ((w.arrive participant).put (.setDrawn n)).arrive participant =
          (w.arrive participant).put (.setDrawn n) :=
        World.arrive_of_none (World.arrive_arrived w participant)
      rw [hstays, ite_self] at hkeeps
      refine ⟨w'', (ingestAll_cons ?_).trans hall, ?_⟩
      · rw [if_pos hpair]
        exact ingestGroupSkdm_refused hrun
      · rw [List.any_cons, hpair, Bool.true_or, if_pos rfl]
        exact hkeeps
    · rw [AllRefused, if_neg hpair] at h
      obtain ⟨w', hall, hkeeps⟩ := ih h
      refine ⟨w', (ingestAll_cons ?_).trans hall, ?_⟩
      · rw [if_neg hpair]
        rfl
      · rw [List.any_cons, Bool.eq_false_iff.mpr hpair, Bool.false_or]
        exact hkeeps

theorem sendNode_silent (node : Node) : (sendNode env node).Silent :=
  Co.silent_bind (Co.silent_lift _) fun _ => Co.silent_wait _

theorem guarded_silent {p : CoM P Unit} (hp : p.Silent) : (guarded p).Silent := by
  refine Co.silent_tryCatch hp fun e => ?_
  split <;> trivial

theorem safeEmit_silent (event : Emitted) : (safeEmit event : CoM P Unit).Silent :=
  guarded_silent (Co.silent_wait _)

theorem sendRetryReceipt_silent (node : Node) (sender : JID) :
    (sendRetryReceipt env dev node sender).Silent := by
  rw [sendRetryReceipt]
  split
  · trivial
  · exact Co.silent_bind (Co.silent_lift _) fun _ => sendNode_silent _

theorem ensures_keeps {α : Type} {p : CoM P α} {w w' : World P} (hp : p.Silent)
    (h : KeepsSessions w w') : p.Ensures KeepsSessions (fun _ t => KeepsSessions w t) w' :=
  Co.Ensures.of_silent hp fun _ _ ht => keepsSessions_run (.head h ht)

theorem decryptSkmsg_ensures {group participant : JID} {skmsg : Bytes} {w w' : World P}
    (h : KeepsSessions w w') :
    (decryptSkmsg env group participant skmsg).Ensures KeepsSessions
      (fun _ t => KeepsSessions w t) w' := by
  refine Co.Ensures.get_bind ?_
  cases w'.senderKeys.get? (group.str, sessionId participant) with
  | none => exact h
  | some state =>
    simp only
    cases groupDecrypt P env.pb state skmsg with
    | error e => exact h
    | ok out =>
      refine Co.Ensures.run_bind (rfl : (update _ : CoM P Unit).run w' = _) ?_
      cases unpadRandomMax16 out.1 with
      | error e => exact h
      | ok proto => exact h

theorem handleGroupMessage_ensures {node : Node} {group participant : JID} {w : World P}
    (hparticipant : receiverJidFromAttr (node.getAttr "participant") = .ok participant)
    (h : AllRefused env dev participant (node.getChildren "enc") w) :
    (handleGroupMessage env dev node group).Ensures KeepsSessions
      (fun _ t => KeepsSessions
        (if (node.getChildren "enc").any pairwise then w.arrive participant else w) t) w := by
  obtain ⟨w', hrun, hkeeps⟩ := ingestAll_refused group h
  generalize (if (node.getChildren "enc").any pairwise then w.arrive participant else w) = w₁
    at hkeeps ⊢
  rw [handleGroupMessage, hparticipant]
  refine Co.Ensures.run_bind rfl (Co.Ensures.run_bind hrun ?_)
  split
  · exact hkeeps
  · refine Co.Ensures.bind (decryptSkmsg_ensures hkeeps) (fun out t ht => ?_) fun _ _ ht => ht
    split
    · exact ensures_keeps (safeEmit_silent _) ht
    · exact ensures_keeps (safeEmit_silent _) ht
    · exact ensures_keeps (Co.silent_bind (safeEmit_silent _) fun _ =>
        guarded_silent (sendNode_silent _)) ht

/-- The state in which the first `_decrypt_enc` of the stanza tries its ciphertext. -/
def World.arrived (w : World P) (dev : Device P) (node : Node) : World P :=
  match arrival dev node w.lidMap with
  | none => w
  | some a => (w.put (.setLidMap a.2)).arrive a.1

theorem handleMessage_ensures {node : Node} {w : World P} (h : Undecrypted env dev node w) :
    (handleMessage env dev node).Ensures KeepsSessions
      (fun _ t => KeepsSessions (w.arrived dev node) t) w := by
  rw [handleMessage, World.arrived, arrival]
  rw [Undecrypted] at h
  cases hfrom : receiverJidFromAttr (node.getAttr "from") with
  | error e => exact ⟨rfl, rfl⟩
  | ok sender =>
    simp only [hfrom] at h ⊢
    refine Co.Ensures.run_bind rfl ?_
    by_cases hgroup : sender.server = "g.us"
    · simp only [if_pos hgroup] at h ⊢
      cases hparticipant : receiverJidFromAttr (node.getAttr "participant") with
      | error e =>
        rw [handleGroupMessage, hparticipant]
        exact ⟨rfl, rfl⟩
      | ok participant =>
        refine Co.Ensures.mono (handleGroupMessage_ensures hparticipant (h participant hparticipant))
          fun _ t ht => ?_
        by_cases hany : (node.getChildren "enc").any pairwise = true
        · simp only [if_pos hany] at ht ⊢
          exact ht
        · simp only [if_neg hany] at ht ⊢
          exact ht
    · simp only [if_neg hgroup] at h ⊢
      by_cases hstatus : sender.user = "status" ∧ sender.server = "broadcast"
      · simp only [if_pos hstatus]
        exact ⟨rfl, rfl⟩
      · simp only [if_neg hstatus] at h ⊢
        have hrecord := recordPeerAddressing_run node sender w
        cases hlearn : peerAddressing node sender w.lidMap with
        | error e =>
          rw [hlearn] at hrecord
          exact Co.Ensures.of_done (Co.run_bind_error hrecord) ⟨rfl, rfl⟩
        | ok lidMap =>
          rw [hlearn] at hrecord
          refine Co.Ensures.run_bind hrecord ?_
          cases hselect : selectEncNode dev.ownJid node with
          | error e => exact ⟨rfl, rfl⟩
          | ok enc =>
            refine Co.Ensures.run_bind rfl ?_
            cases enc with
            | none => exact ⟨rfl, rfl⟩
            | some enc =>
              obtain ⟨w', e, hrun⟩ := h lidMap enc hlearn hselect
              have hdirect : (decryptDirect env dev sender (enc.getStr "type")
                  enc.contentBytes).run (w.put (.setLidMap lidMap)) =
                    (w', .done (.ok (.error e))) :=
                Co.run_tryCatch_error (Co.run_bind_error hrun)
              obtain ⟨n, rfl⟩ := decryptEnc_error_inv hrun
              refine Co.Ensures.run_bind hdirect (ensures_keeps ?_ ⟨rfl, rfl⟩)
              exact Co.silent_bind (safeEmit_silent _) fun _ =>
                guarded_silent (sendRetryReceipt_silent _ _)

/-- What was stored for `pn` is now stored for `lid`, and nothing else has changed. -/
structure Moved (pn lid : String) (w t : World P) : Prop where
  live : (w.sessions.get? pn).isSome = true
  free : w.sessions.get? lid = none
  session : t.sessions.get? lid = w.sessions.get? pn
  identity : t.identities.get? lid = (w.identities.get? pn).or (w.identities.get? lid)
  noSession : t.sessions.get? pn = none
  noIdentity : t.identities.get? pn = none
  others : ∀ sid, sid ≠ pn → sid ≠ lid →
    t.sessions.get? sid = w.sessions.get? sid ∧ t.identities.get? sid = w.identities.get? sid

theorem moved_migrate {pn lid : String} {session : Session} {w : World P} (e : Event)
    (hsession : w.sessions.get? pn = some session) (hfree : w.sessions.get? lid = none) :
    Moved pn lid w (w.log e (.migrate pn lid session)) := by
  have hne : lid ≠ pn := by
    rintro rfl
    rw [hfree] at hsession
    cases hsession
  have hset : ∀ sid, sid ≠ pn → (w.toStores.migrate pn lid session).identities.get? sid =
      if sid = lid then (w.identities.get? pn).or (w.identities.get? lid)
      else w.identities.get? sid := by
    intro sid hsid
    rw [Stores.migrate, OrderedMap.get?_erase_ne _ hsid]
    cases w.identities.get? pn with
    | none =>
      by_cases hlid : sid = lid
      · simp [hlid]
      · simp [hlid]
    | some identity =>
      rw [OrderedMap.get?_set, Option.some_or]
  refine ⟨by rw [hsession]; rfl, hfree, ?_, ?_, ?_, ?_, fun sid hpn hlid => ⟨?_, ?_⟩⟩
  · rw [World.log_toStores, Stores.migrate, OrderedMap.get?_erase_ne _ hne,
      OrderedMap.get?_set_self, hsession]
  · exact (hset lid hne).trans (if_pos rfl)
  · exact OrderedMap.get?_erase_self _ _
  · exact OrderedMap.get?_erase_self _ _
  · rw [World.log_toStores, Stores.migrate, OrderedMap.get?_erase_ne _ hpn,
      OrderedMap.get?_set_ne _ _ hlid]
  · exact (hset sid hpn).trans (if_neg hlid)

theorem Moved.keeps {pn lid : String} {w w' t t' : World P} (h : Moved pn lid w t)
    (hw : KeepsSessions w w') (ht : KeepsSessions t t') : Moved pn lid w' t' := by
  obtain ⟨hsessions, hidentities⟩ := hw
  obtain ⟨hsessions', hidentities'⟩ := ht
  refine ⟨?_, ?_, ?_, ?_, ?_, ?_, ?_⟩
  · rw [hsessions, h.live]
  · rw [hsessions, h.free]
  · rw [hsessions, hsessions', h.session]
  · rw [hidentities, hidentities', h.identity]
  · rw [hsessions', h.noSession]
  · rw [hidentities', h.noIdentity]
  · rw [hsessions, hsessions', hidentities, hidentities']
    exact h.others

theorem undecrypted_moves_known_lid_sender {node : Node} {w t : World P} {r : Except PyError Unit}
    (h : Undecrypted env dev node w)
    (hends : Co.EndsAmidst KeepsSessions (handleMessage env dev node) w r t) :
    (w.displaced dev node = none → KeepsSessions w t) ∧
      ∀ pn lid, w.displaced dev node = some (pn, lid) → Moved pn lid w t := by
  have hkeeps := (handleMessage_ensures h).ends hends
  rw [World.arrived] at hkeeps
  rw [World.displaced]
  cases harrival : arrival dev node w.lidMap with
  | none =>
    simp only [harrival] at hkeeps
    exact ⟨fun _ => hkeeps, fun _ _ h => by cases h⟩
  | some a =>
    simp only [harrival] at hkeeps
    rw [Option.bind_some]
    cases hmoves : (w.put (.setLidMap a.2)).movesFrom a.1 with
    | none =>
      rw [World.arrive_of_none hmoves] at hkeeps
      exact ⟨fun _ => hkeeps, fun _ _ h => by cases h⟩
    | some m =>
      refine ⟨?_, ?_⟩
      · intro hnone
        cases hnone
      · intro pn lid hpair
        cases hpair
        obtain ⟨hsession, hfree⟩ := World.movesFrom_spec hmoves
        rw [World.arrive, hmoves] at hkeeps
        exact (moved_migrate _ hsession hfree).keeps ⟨rfl, rfl⟩ hkeeps

def demoUnheard : Node :=
  .mk "message" [("id", .str "M1"), ("from", .jid { user := "77", server := "lid", device := 4 }),
    ("sender_pn", .jid { user := "200" })] (.nodes [.mk "enc" [("type", .str "msg")] (.bytes [])])

theorem demoUnheard_undecrypted {w : World demoPrimitives}
    (h : ((decryptEnc demoLeft.env demoMe .direct { user := "77", server := "lid", device := 4 }
      "msg" []).run (w.put (.setLidMap (w.lidMap.set "200" "77")))).2.ok?.isSome = false) :
    Undecrypted demoLeft.env demoMe demoUnheard w := by
  rintro lidMap enc ⟨⟩ ⟨⟩
  exact decryptEnc_fails _ _ _ _ _ _ _ h

def demoDone (w : World demoPrimitives) : Except PyError Unit × World demoPrimitives :=
  (handleMessage demoLeft.env demoMe demoUnheard).finish (fun _ _ => .error .timeoutError) w

theorem demoDone_ends (w : World demoPrimitives) : Co.EndsAmidst KeepsSessions
    (handleMessage demoLeft.env demoMe demoUnheard) w (demoDone w).1 (demoDone w).2 :=
  Co.endsAmidst_finish (fun _ => ⟨rfl, rfl⟩) _ _ _

theorem undecrypted_moves_known_lid_sender_unheard : Moved "200:4@s.whatsapp.net" "77:4@lid"
    (demoGiven demoLeft demoRight) (demoDone (demoGiven demoLeft demoRight)).2 := by
  have hmoves := undecrypted_moves_known_lid_sender
    (demoUnheard_undecrypted (w := demoGiven demoLeft demoRight) (by decide +kernel)) (demoDone_ends _)
  exact hmoves.2 _ _ (by decide +kernel)

theorem undecrypted_stanza_detaches_session :
    ¬ ∀ (w t : World demoPrimitives) (node : Node) (r : Except PyError Unit),
      Undecrypted demoLeft.env demoMe node w →
      Co.EndsAmidst KeepsSessions (handleMessage demoLeft.env demoMe node) w r t →
      ∀ sid session, w.sessions.get? sid = some session → t.sessions.get? sid = some session := by
  intro hall
  have hlive : ((demoGiven demoLeft demoRight).sessions.get?
      "200:4@s.whatsapp.net").isSome = true := by decide +kernel
  have hgone : ((demoDone (demoGiven demoLeft demoRight)).2.sessions.get?
      "200:4@s.whatsapp.net").isSome = false := by decide +kernel
  obtain ⟨session, hsession⟩ := Option.isSome_iff_exists.mp hlive
  have hstays := hall _ _ _ _ (demoUnheard_undecrypted (by decide +kernel)) (demoDone_ends _) _ _
    hsession
  rw [hstays] at hgone
  cases hgone

end Addressing

end PyWhats
