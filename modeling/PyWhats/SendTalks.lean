import PyWhats.Bursts
import PyWhats.Client

/-! What `send_message` says to the server: it sends a body and waits for its ack, once
more at most if the server asked for a retry, and returns only when its last body was
acknowledged. -/

namespace PyWhats

variable {P : Primitives} (env : Env P) (dev : Device P)

section Protocol

abbrev Talk := List (Co.Exchange Request.Reply PyError)

def replyTo : Co.Exchange Request.Reply PyError → Option (Except PyError AckReply)
  | ⟨.ack _, r⟩ => some r
  | _ => none

/-- What the acks it waited for were answered, in order. -/
def replies (said : Talk) : List (Except PyError AckReply) := said.filterMap replyTo

/-- No body was sent yet, or one that the server wants again. -/
def Unsettled (l : List (Except PyError AckReply)) : Prop :=
  l = [] ∨ ∃ attrs, l = [.ok (.retry attrs)]

/-- An ack is awaited right after a message stanza of this id went out. -/
def SendAsks (messageId : String) (said : Talk) (q : Request) : Prop :=
  Unsettled (replies said) ∧ ∀ future, q = .ack future →
    ∃ earlier stanza frame, said = earlier ++ [⟨.send frame, .ok ()⟩] ∧
      stanza.tag = "message" ∧ stanza.getStr "id" = messageId ∧ env.encode stanza = .ok frame

/-- One reply more than unsettled, or none; and it returns if the last was an ack. -/
def SendEnds (said : Talk) (r : Except PyError Unit) : Prop :=
  (∃ l, Unsettled l ∧ (replies said = l ∨ ∃ last, replies said = l ++ [last])) ∧
    (r = .ok () ↔ (replies said).getLast? = some (.ok .ack))

end Protocol

section Calls

variable {env dev} {messageId : String}

def AsksAck : Request → Prop
  | .ack _ => True
  | _ => False

theorem replies_append (said : Talk) {q : Request} (r : Except PyError q.Reply)
    (hq : ¬ AsksAck q) : replies (said ++ [⟨q, r⟩]) = replies said := by
  rw [replies, List.filterMap_append]
  cases q with
  | ack future => exact (hq trivial).elim
  | send frame => exact List.append_nil _
  | iq future => exact List.append_nil _
  | emit event => exact List.append_nil _

theorem replies_ack (said : Talk) (future : Nat) (r : Except PyError AckReply) :
    replies (said ++ [⟨.ack future, r⟩]) = replies said ++ [r] := List.filterMap_append

/-- A part of the call without acks. -/
theorem follows_unacked {α : Type} {p : CoM P α} (hp : p.Avoids AsksAck) {said : Talk}
    {l : List (Except PyError AckReply)} (hl : Unsettled l) (hsaid : replies said = l) :
    p.Follows (SendAsks env messageId) (fun said _ => replies said = l) said := by
  refine hp.follows (K := fun said => replies said = l) hsaid (fun said q r hq h => ?_)
    (fun said q hq h => ⟨h ▸ hl, fun future hack => ?_⟩) fun _ _ h => h
  · rw [replies_append said r hq, h]
  · rw [hack] at hq
    exact (hq trivial).elim

theorem sendNode_unacked (node : Node) : (sendNode env node).Avoids AsksAck := by
  rw [sendNode]
  cases env.encode node with
  | error e => trivial
  | ok frame => exact Co.avoids_wait fun h => h

theorem queryIq_unacked (build : String → Node) : (queryIq env build).Avoids AsksAck := by
  refine Co.Avoids.bind (draw_mute _).avoids fun iqId => ?_
  refine (iqRegister_mute iqId).avoids.bind fun future =>
    Co.Avoids.tryFinally ?_ (iqCancel_mute iqId).avoids
  exact (sendNode_unacked _).bind fun _ => Co.avoids_wait fun h => h

theorem prekeyFetcher_unacked (peer : JID) : (prekeyFetcher env peer).Avoids AsksAck :=
  (queryIq_unacked _).bind fun _ => (trivial : (Co.lift _).Avoids _)

theorem usyncDeviceFetcher_unacked (users : List JID) :
    (usyncDeviceFetcher env users).Avoids AsksAck :=
  (queryIq_unacked _).bind fun _ => (trivial : (Co.lift _).Avoids _)

theorem encryptForPeer_unacked (peer : JID) (plaintext : Bytes) :
    (encryptForPeer env dev (prekeyFetcher env) peer plaintext).Avoids AsksAck := by
  rw [encryptForPeer]
  refine (loadForPeer_mute _).avoids.bind fun loaded => ?_
  rcases loaded with _ | ⟨session, m⟩
  · exact (prekeyFetcher_unacked peer).bind fun bundle =>
      (encryptOnBundle_mute env dev peer plaintext bundle).avoids
  · exact (encryptOn_mute env dev peer plaintext session m).avoids

theorem targetDevices_unacked (chat : JID) :
    (targetDevices dev (usyncDeviceFetcher env) chat).Avoids AsksAck := by
  rw [targetDevices]
  split
  · trivial
  · exact (usyncDeviceFetcher_unacked _).bind fun _ => trivial

theorem encryptForDevices_unacked (msg : Outgoing) (devices : List JID) :
    (encryptForDevices env dev (prekeyFetcher env) msg devices).Avoids AsksAck := by
  induction devices with
  | nil => trivial
  | cons device rest ih =>
    exact (encryptForPeer_unacked device _).bind fun out => ih.bind fun nodes => trivial

theorem buildMessageNode_id (dev : Device P) (messageId : String) (dest : JID)
    (participants : List Node) (messageType : String) (edit : Option String) :
    (buildMessageNode dev messageId dest participants messageType edit).getStr "id" = messageId :=
  rfl

/-- One attempt waits for one ack, at its end. -/
def Attempted (l : List (Except PyError AckReply)) (said : Talk)
    (r : Except PyError (AckReply × List JID)) : Prop :=
  match r with
  | .ok (reply, _) => replies said = l ++ [.ok reply]
  | .error _ => replies said = l ∨ ∃ e, replies said = l ++ [.error e]

theorem waitForAck_follows {stanza : Node} {frame : Bytes} {said : Talk}
    {l : List (Except PyError AckReply)} (purpose : Purpose) (future : Nat)
    (hl : Unsettled l) (hsaid : replies said = l) (htag : stanza.tag = "message")
    (hid : stanza.getStr "id" = messageId) (hframe : env.encode stanza = .ok frame) :
    ((transmit stanza purpose frame >>= fun _ => Co.wait (Request.ack future) : CoM P AckReply)
      ).Follows (SendAsks env messageId)
      (fun said r => (∃ e, r = .error e ∧ replies said = l) ∨ replies said = l ++ [r]) said := by
  intro w
  refine ⟨⟨hsaid ▸ hl, fun _ h => by cases h⟩, fun sent => ?_⟩
  have hsent : replies (said ++ [⟨.send frame, sent⟩]) = l := by
    rw [replies_append said sent fun h => h, hsaid]
  cases sent with
  | error e => exact Or.inl ⟨e, rfl, hsent⟩
  | ok _ =>
    refine ⟨⟨hsent ▸ hl, fun _ _ => ⟨said, stanza, frame, rfl, htag, hid, hframe⟩⟩, fun r => ?_⟩
    right
    rw [replies_ack, hsent]

theorem sendAttempt_follows {msg : Outgoing} {said : Talk} {l : List (Except PyError AckReply)}
    (hmsg : msg.messageId = messageId) (hl : Unsettled l) (hsaid : replies said = l) :
    (sendAttempt env dev (prekeyFetcher env) (usyncDeviceFetcher env) msg).Follows
      (SendAsks env messageId) (Attempted l) said := by
  have hfail : ∀ said (e : PyError), replies said = l → Attempted l said (.error e) :=
    fun _ _ h => Or.inl h
  refine (follows_unacked (targetDevices_unacked msg.chat) hl hsaid).bind
    (fun said devices hsaid => ?_) hfail
  refine (follows_unacked (encryptForDevices_unacked msg devices) hl hsaid).bind
    (fun said participants hsaid => ?_) hfail
  refine Co.follows_lift_bind (fun frame hframe => ?_) fun e _ => hfail said e hsaid
  refine (routerRegister_mute _).bind_follows (fun future => ?_) fun e => hfail said e hsaid
  refine Co.Follows.bind (E := fun said r => (∃ e, r = .error e ∧ replies said = l) ∨
    replies said = l ++ [r]) ?_ (fun said reply h => ?_) fun said e h => ?_
  · exact (waitForAck_follows _ future hl hsaid rfl
      ((buildMessageNode_id _ _ _ _ _ _).trans hmsg) hframe).tryCatch (fun _ _ h => h)
      fun said e h _ => h
  · rcases h with ⟨e, h, -⟩ | h
    · cases h
    · exact h
  · rcases h with ⟨_, -, h⟩ | h
    · exact Or.inl h
    · exact Or.inr ⟨e, h⟩

/-- A call that failed, after its acks `l` and perhaps one more. -/
theorem sendEnds_error {said : Talk} {l : List (Except PyError AckReply)} {e : PyError}
    (hl : Unsettled l) (h : replies said = l ∨ ∃ e, replies said = l ++ [.error e]) :
    SendEnds said (.error e) := by
  refine ⟨⟨l, hl, h.imp id fun ⟨e, h⟩ => ⟨_, h⟩⟩, ⟨fun h => (by cases h), fun hlast => ?_⟩⟩
  rcases h with h | ⟨e, h⟩ <;> rw [h] at hlast
  · rcases hl with rfl | ⟨attrs, rfl⟩ <;> cases hlast
  · rw [List.getLast?_concat] at hlast
    cases hlast

theorem sendEnds_acked {said : Talk} {l : List (Except PyError AckReply)} (hl : Unsettled l)
    (h : replies said = l ++ [.ok .ack]) : SendEnds said (.ok ()) :=
  ⟨⟨l, hl, Or.inr ⟨_, h⟩⟩, ⟨fun _ => by rw [h, List.getLast?_concat], fun _ => rfl⟩⟩

theorem sendOnce_follows {msg : Outgoing} {said : Talk} {l : List (Except PyError AckReply)}
    {n : Nat} (hmsg : msg.messageId = messageId) (hl : Unsettled l) (hsaid : replies said = l)
    (hn : n = 0 ∨ n = 1 ∧ l = []) :
    (sendOnce env dev (prekeyFetcher env) (usyncDeviceFetcher env) msg n).Follows
      (SendAsks env messageId) SendEnds said := by
  induction n generalizing said l with
  | zero =>
    refine (sendAttempt_follows hmsg hl hsaid).bind ?_ fun said e h => sendEnds_error hl h
    rintro said ⟨_ | attrs, devices⟩ h
    · exact sendEnds_acked hl h
    · refine ⟨⟨l, hl, Or.inr ⟨_, h⟩⟩, ⟨fun hr => (by cases hr), fun hlast => ?_⟩⟩
      rw [show replies said = l ++ [.ok (.retry attrs)] from h, List.getLast?_concat] at hlast
      cases hlast
  | succ n ih =>
    obtain ⟨hn0, rfl⟩ : n = 0 ∧ l = [] := by
      rcases hn with hn | ⟨hn, hl⟩
      · omega
      · exact ⟨by omega, hl⟩
    refine (sendAttempt_follows hmsg hl hsaid).bind ?_ fun said e h => sendEnds_error hl h
    rintro said ⟨_ | attrs, devices⟩ h
    · exact sendEnds_acked hl h
    · have hagain : Unsettled [.ok (.retry attrs)] := Or.inr ⟨attrs, rfl⟩
      have hfail : ∀ e, SendEnds said (.error e) := fun e => sendEnds_error hagain (Or.inl h)
      refine Co.follows_lift_bind (fun peer _ => ?_) fun e _ => hfail e
      exact (dropPeerSession_mute peer).bind_follows (fun _ => ih hagain h (Or.inl hn0)) hfail

theorem padRandomMax16_follows {α : Type} {plaintext : Bytes} {f : Bytes → CoM P α} {said : Talk}
    {Ends : Talk → Except PyError α → Prop}
    (hf : ∀ padded, (f padded).Follows (SendAsks env messageId) Ends said) :
    (padRandomMax16 env plaintext >>= f).Follows (SendAsks env messageId) Ends said := by
  intro w
  exact hf _

theorem draw_bind_run {α β : Type} (source : Nat → α) (f : α → CoM P β) (w : World P) :
    (draw source >>= f).run w = (f (source w.drawn)).run (w.put (.setDrawn (w.drawn + 1))) := rfl

/-- The call draws its id in the world that it finds; after that the world and the answers
change as they like while it waits. -/
theorem send_message_talk (w : World P) {chat : JID} {proto : Bytes} {text : String}
    {messageType edit : Option String} {said : Talk} {rest : CoM P Unit}
    (hpath : Co.Path ((sendMessage env dev (prekeyFetcher env) (usyncDeviceFetcher env) chat proto
      text messageType edit).run w).2.rest said rest) :
    (∀ q k, rest = .await q k → SendAsks env (env.messageId w.drawn) said q) ∧
      ∀ r, rest = .ret r → SendEnds said r := by
  have hsaid : replies [] = [] := rfl
  have hsend : ∀ msg : Outgoing, msg.messageId = env.messageId w.drawn →
      (sendOnce env dev (prekeyFetcher env) (usyncDeviceFetcher env) msg 1 >>= fun _ =>
        update (.setSent (env.messageId w.drawn) msg.sent)).Follows
        (SendAsks env (env.messageId w.drawn)) SendEnds [] := by
    intro msg hmsg
    exact (sendOnce_follows hmsg (Or.inl rfl) hsaid (Or.inr ⟨rfl, rfl⟩)).bind
      (fun said r h w => h) fun said e h => h
  unfold sendMessage at hpath
  rw [draw_bind_run] at hpath
  have hfollows : rest.Follows (SendAsks env (env.messageId w.drawn)) SendEnds said :=
    Co.Follows.path (Co.Follows.run (padRandomMax16_follows fun plaintext =>
      padRandomMax16_follows fun ownPlaintext => hsend _ rfl) _) hpath
  refine ⟨fun q k h => ?_, fun r h => ?_⟩
  · rw [h] at hfollows
    exact hfollows.1
  · rw [h] at hfollows
    exact hfollows

end Calls

section Demo

/-- A server that wants the first body again. -/
def demoRetryAnswers (w : World demoPrimitives) :
    (q : Request) → Except PyError q.Reply × World demoPrimitives
  | .send _ => (.ok (), w)
  | .emit _ => (.ok (), w)
  | .iq _ => (.ok demoAnswer, w)
  | .ack future =>
    (.ok (if future = 1 then .retry [] else .ack), w.put fun s => { s with router := .empty })

/-- Four ids were drawn before. -/
def demoRetryWorld : World demoPrimitives := { drawn := 4 }

def demoRetryTalk : Talk × Except PyError Unit :=
  (sendMessage (demoEnv []) demoMe (prekeyFetcher (demoEnv [])) (usyncDeviceFetcher (demoEnv []))
    demoPeer.ownJid [7] "" none none).talk demoRetryAnswers demoRetryWorld

/-- The body that the server wanted again has the id of the first. -/
theorem send_message_talk_retried :
    (replies demoRetryTalk.1 = [.ok (.retry []), .ok .ack] ∧
      SendEnds demoRetryTalk.1 demoRetryTalk.2) ∧
    ∀ future, demoRetryTalk.1.getLast? = some ⟨.ack future, .ok .ack⟩ →
      SendAsks (demoEnv []) ((demoEnv []).messageId 4) demoRetryTalk.1.dropLast (.ack future) := by
  have hreplies : replies demoRetryTalk.1 = [.ok (.retry []), .ok .ack] := by decide +kernel
  have hpath := Co.path_talk_run demoRetryAnswers (sendMessage (demoEnv []) demoMe
    (prekeyFetcher (demoEnv [])) (usyncDeviceFetcher (demoEnv [])) demoPeer.ownJid [7] "" none none)
    demoRetryWorld
  obtain ⟨-, hends⟩ := send_message_talk demoRetryWorld hpath
  refine ⟨⟨hreplies, hends _ rfl⟩, fun future hlast => ?_⟩
  have hsplit : demoRetryTalk.1 = demoRetryTalk.1.dropLast ++ [⟨.ack future, .ok .ack⟩] :=
    (List.dropLast_append_getLast? _ hlast).symm
  obtain ⟨k, hasked⟩ := Co.Path.asked (hsplit ▸ hpath)
  exact (send_message_talk demoRetryWorld hasked).1 _ k rfl

end Demo

end PyWhats
