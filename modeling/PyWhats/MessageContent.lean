import PyWhats.MediaTransfer
import PyWhats.Receiver

/-! What a message says: the `Message` protos that the client's calls build, and the events
that the receiver makes of them (`client.py`, `sender.py`, the end of `receiver.py`).
A field is `none` when it is not set. -/

namespace PyWhats

open Media (MediaInfo UploadResult mediaImage mediaVideo mediaAudio mediaDocument)

section Protos

structure MessageKey where
  remoteJid : Option String := none
  fromMe : Option Bool := none
  id : Option String := none
  participant : Option String := none

/-- The fields that the messages with an attachment share. -/
structure StickerMessage where
  url : Option String := none
  directPath : Option String := none
  mediaKey : Option Bytes := none
  fileEncSha256 : Option Bytes := none
  fileSha256 : Option Bytes := none
  fileLength : Option UInt64 := none
  mimetype : Option String := none

structure ImageMessage extends StickerMessage where
  caption : Option String := none
  width : Option UInt32 := none
  height : Option UInt32 := none

structure VideoMessage extends StickerMessage where
  caption : Option String := none

structure AudioMessage extends StickerMessage where
  ptt : Option Bool := none

structure DocumentMessage extends StickerMessage where
  fileName : Option String := none
  caption : Option String := none

structure ReactionMessage where
  key : Option MessageKey := none
  text : Option String := none
  senderTimestampMs : Option Int64 := none

structure ContextInfo (Message : Type) where
  stanzaId : Option String := none
  participant : Option String := none
  quotedMessage : Option Message := none

structure ExtendedTextMessage (Message : Type) where
  text : Option String := none
  contextInfo : Option (ContextInfo Message) := none

structure ProtocolMessage (Message : Type) where
  key : Option MessageKey := none
  type : Option ProtocolType := none
  historySyncNotification : Bool := false
  editedMessage : Option Message := none
  timestampMs : Option Int64 := none

structure DeviceSentMessage (Message : Type) where
  destinationJid : Option String := none
  message : Option Message := none

structure SenderKeyDistributionMessage where
  groupId : Option String := none
  axolotl : Option Bytes := none

structure FutureProofMessage (Message : Type) where
  message : Option Message := none

structure MessageProto where
  conversation : Option String := none
  senderKeyDistributionMessage : Option SenderKeyDistributionMessage := none
  imageMessage : Option ImageMessage := none
  extendedTextMessage : Option (ExtendedTextMessage MessageProto) := none
  documentMessage : Option DocumentMessage := none
  audioMessage : Option AudioMessage := none
  videoMessage : Option VideoMessage := none
  protocolMessage : Option (ProtocolMessage MessageProto) := none
  stickerMessage : Option StickerMessage := none
  deviceSentMessage : Option (DeviceSentMessage MessageProto) := none
  reactionMessage : Option ReactionMessage := none
  editedMessage : Option (FutureProofMessage MessageProto) := none

end Protos

section Reading

def extractText (proto : MessageProto) : String :=
  if proto.conversation.getD "" ≠ "" then proto.conversation.getD ""
  else (proto.extendedTextMessage.bind ExtendedTextMessage.text).getD ""

/-- What all kinds of attachments surface. -/
def StickerMessage.attachment (m : StickerMessage) (kind mediaType : String) : MediaAttachment where
  kind := kind
  directPath := m.directPath.getD ""
  mediaKey := m.mediaKey.getD []
  fileSha256 := m.fileSha256.getD []
  fileEncSha256 := m.fileEncSha256.getD []
  mediaType := mediaType
  fileLength := (m.fileLength.getD 0).toNat
  mimetype := m.mimetype.getD ""

def ImageMessage.attached (img : ImageMessage) : MediaAttachment :=
  { img.toStickerMessage.attachment "image" mediaImage with caption := img.caption.getD "" }

def DocumentMessage.attached (doc : DocumentMessage) : MediaAttachment :=
  { doc.toStickerMessage.attachment "document" mediaDocument with
    filename := doc.fileName.getD "", caption := doc.caption.getD "" }

def AudioMessage.attached (aud : AudioMessage) : MediaAttachment :=
  { aud.toStickerMessage.attachment "audio" mediaAudio with ptt := aud.ptt.getD false }

def VideoMessage.attached (vid : VideoMessage) : MediaAttachment :=
  { vid.toStickerMessage.attachment "video" mediaVideo with caption := vid.caption.getD "" }

/-- Stickers go under the media type of images. -/
def StickerMessage.attached (stk : StickerMessage) : MediaAttachment :=
  stk.attachment "sticker" mediaImage

def extractMedia (proto : MessageProto) : Option MediaAttachment :=
  match proto.imageMessage with
  | some img => some img.attached
  | none =>
    match proto.documentMessage with
    | some doc => some doc.attached
    | none =>
      match proto.audioMessage with
      | some aud => some aud.attached
      | none =>
        match proto.videoMessage with
        | some vid => some vid.attached
        | none => proto.stickerMessage.map StickerMessage.attached

def extractQuoted (proto : MessageProto) : Option QuotedMessage :=
  match proto.extendedTextMessage.bind ExtendedTextMessage.contextInfo with
  | none => none
  | some ci =>
    if ci.stanzaId.getD "" = "" then none
    else some ⟨ci.stanzaId.getD "", ci.participant.getD "",
      (ci.quotedMessage.map extractText).getD ""⟩

def mediaTypeFor (proto : MessageProto) : String :=
  if proto.imageMessage.isSome then "image"
  else if proto.videoMessage.isSome then "video"
  else
    match proto.audioMessage with
    | some aud => if aud.ptt.getD false then "ptt" else "audio"
    | none =>
      if proto.documentMessage.isSome then "document"
      else if proto.stickerMessage.isSome then "sticker"
      else ""

/-- An edit comes wrapped, a revoke does not. -/
def unwrapEdited (proto : MessageProto) : MessageProto :=
  match proto.editedMessage.bind FutureProofMessage.message with
  | some inner => if inner.protocolMessage.isSome then inner else proto
  | none => proto

def ProtocolMessage.targetId {Message : Type} (pm : ProtocolMessage Message) : String :=
  (pm.key.bind MessageKey.id).getD ""

def ReactionMessage.surfaced (rm : ReactionMessage) : Reaction where
  messageId := (rm.key.bind MessageKey.id).getD ""
  text := rm.text.getD ""
  keyFromMe := (rm.key.bind MessageKey.fromMe).getD false
  timestamp := (rm.senderTimestampMs.getD 0).toInt

def ProtocolMessage.editedText (pm : ProtocolMessage MessageProto) : String :=
  (pm.editedMessage.map extractText).getD ""

/-- The event of `_handle_message` for a parsed message. -/
def received (proto : MessageProto) (id : String) (sender : JID) (timestamp : Int) : Emitted :=
  match proto.reactionMessage with
  | some rm => .reaction sender sender rm.surfaced
  | none =>
    match (unwrapEdited proto).protocolMessage with
    | some pm =>
      match pm.type with
      | some .messageEdit => .messageEdit sender sender pm.targetId pm.editedText timestamp
      | some .revoke => .messageRevoke sender sender pm.targetId timestamp
      | _ => .message id sender sender (extractText proto) timestamp (extractMedia proto)
        (extractQuoted proto)
    | none => .message id sender sender (extractText proto) timestamp (extractMedia proto)
      (extractQuoted proto)

end Reading

section Bodies

/-- What `reply_to` may be: a message event, or the key of a message. -/
inductive ReplyTo where
  | message (id : String) (sender : JID) (text : String)
  | key (id participant : String)

/-- An upload whose length fits the field of the message. -/
structure Attachment where
  upload : UploadResult
  fits : upload.fileLength < 2 ^ 64

/-- The calls that send a body to a chat. -/
inductive Body where
  | text (text : String) (replyTo : Option ReplyTo)
  | image (attachment : Attachment) (mimetype caption : String) (width height : UInt32)
  | video (attachment : Attachment) (mimetype caption : String)
  | audio (attachment : Attachment) (mimetype : String) (ptt : Bool)
  | document (attachment : Attachment) (mimetype filename caption : String)
  | sticker (attachment : Attachment) (mimetype : String)
  | edit (messageId newText : String) (fromMe : Bool) (nowMs : Int64)
  | revoke (messageId : String) (fromMe : Bool) (participant : Option JID)
  | reaction (messageId emoji : String) (fromMe : Bool) (nowMs : Int64)

def JID.addr (jid : JID) : String := jid.user ++ "@" ++ jid.server

/-- `if s: field = s`. -/
def setIf (s : String) : Option String := if s ≠ "" then some s else none

def ReplyTo.contextInfo : ReplyTo → ContextInfo MessageProto
  | .message id sender text =>
    { stanzaId := some id, participant := some sender.addr
      quotedMessage := (setIf text).map fun text => { conversation := some text } }
  | .key id participant => { stanzaId := some id, participant := setIf participant }

def buildReplyProto (text : String) (replyTo : ReplyTo) : MessageProto :=
  { extendedTextMessage := some { text := some text, contextInfo := some replyTo.contextInfo } }

def Attachment.ref (a : Attachment) (mimetype : String) : StickerMessage where
  url := some a.upload.url
  directPath := some a.upload.directPath
  mediaKey := some a.upload.mediaKey
  fileEncSha256 := some a.upload.fileEncSha256
  fileSha256 := some a.upload.fileSha256
  fileLength := some (UInt64.ofNat a.upload.fileLength)
  mimetype := some mimetype

def targetKey (chat : JID) (messageId : String) (fromMe : Bool) (participant : Option JID) :
    MessageKey where
  remoteJid := some chat.addr
  fromMe := some fromMe
  id := some messageId
  participant := participant.map JID.addr

/-- The `Message` that the call hands to `send_message`. -/
def Body.proto (chat : JID) : Body → MessageProto
  | .text words none => { conversation := some words }
  | .text words (some replyTo) => buildReplyProto words replyTo
  | .image a mimetype caption width height =>
    { imageMessage := some { a.ref mimetype with
        caption := setIf caption
        width := if width ≠ 0 then some width else none
        height := if height ≠ 0 then some height else none } }
  | .video a mimetype caption =>
    { videoMessage := some { a.ref mimetype with caption := setIf caption } }
  | .audio a mimetype ptt =>
    { audioMessage := some { a.ref mimetype with ptt := if ptt then some true else none } }
  | .document a mimetype filename caption =>
    { documentMessage := some { a.ref mimetype with
        fileName := setIf filename, caption := setIf caption } }
  | .sticker a mimetype => { stickerMessage := some (a.ref mimetype) }
  | .edit messageId newText fromMe nowMs =>
    { editedMessage := some { message := some { protocolMessage := some {
        key := some (targetKey chat messageId fromMe none), type := some .messageEdit
        editedMessage := some { conversation := some newText }, timestampMs := some nowMs } } } }
  | .revoke messageId fromMe participant =>
    { protocolMessage := some {
        key := some (targetKey chat messageId fromMe participant), type := some .revoke } }
  | .reaction messageId emoji fromMe nowMs =>
    { reactionMessage := some {
        key := some (targetKey chat messageId fromMe none), text := some emoji
        senderTimestampMs := some nowMs } }

/-- The `text` argument of `send_message`. -/
def Body.label : Body → String
  | .text words _ => words
  | .image _ _ caption _ _ | .video _ _ caption | .document _ _ _ caption => caption
  | _ => ""

/-- The `edit` attribute of the stanza. -/
def Body.edit? : Body → Option String
  | .edit .. => some "1"
  | .revoke _ fromMe _ => some (if fromMe then "7" else "8")
  | _ => none

end Bodies

section Seen

def ReplyTo.seen : ReplyTo → Option QuotedMessage
  | .message id sender text => if id = "" then none else some ⟨id, sender.addr, text⟩
  | .key id participant => if id = "" then none else some ⟨id, participant, ""⟩

def Attachment.seen (a : Attachment) (kind mediaType mimetype : String) : MediaAttachment where
  kind := kind
  directPath := a.upload.directPath
  mediaKey := a.upload.mediaKey
  fileSha256 := a.upload.fileSha256
  fileEncSha256 := a.upload.fileEncSha256
  mediaType := mediaType
  fileLength := a.upload.fileLength
  mimetype := mimetype

def Body.media : Body → Option MediaAttachment
  | .image a mimetype caption _ _ =>
    some { a.seen "image" mediaImage mimetype with caption := caption }
  | .video a mimetype caption => some { a.seen "video" mediaVideo mimetype with caption := caption }
  | .audio a mimetype ptt => some { a.seen "audio" mediaAudio mimetype with ptt := ptt }
  | .document a mimetype filename caption =>
    some { a.seen "document" mediaDocument mimetype with filename := filename, caption := caption }
  | .sticker a mimetype => some (a.seen "sticker" mediaImage mimetype)
  | _ => none

/-- What the peer should be told of a body that was sent to it. -/
def Body.seen (id : String) (sender : JID) (timestamp : Int) : Body → Emitted
  | .text words replyTo => .message id sender sender words timestamp none (replyTo.bind ReplyTo.seen)
  | .edit messageId newText _ _ => .messageEdit sender sender messageId newText timestamp
  | .revoke messageId _ _ => .messageRevoke sender sender messageId timestamp
  | .reaction messageId emoji fromMe nowMs =>
    .reaction sender sender ⟨messageId, emoji, fromMe, nowMs.toInt⟩
  | body => .message id sender sender "" timestamp body.media none

theorem setIf_getD (s : String) : (setIf s).getD "" = s := by
  by_cases h : s = "" <;> simp [setIf, h]

theorem Attachment.ref_attachment (a : Attachment) (kind mediaType mimetype : String) :
    (a.ref mimetype).attachment kind mediaType = a.seen kind mediaType mimetype := by
  have hlength : (UInt64.ofNat a.upload.fileLength).toNat = a.upload.fileLength :=
    UInt64.toNat_ofNat_of_lt' a.fits
  simp only [Attachment.ref, StickerMessage.attachment, Attachment.seen, Option.getD_some, hlength]

theorem extractText_conversation (words : String) :
    extractText { conversation := some words } = words := by
  by_cases hwords : words = "" <;> simp [extractText, hwords]

theorem extractQuoted_reply (text : String) (replyTo : ReplyTo) :
    extractQuoted (buildReplyProto text replyTo) = replyTo.seen := by
  cases replyTo with
  | message id sender text =>
    by_cases htext : text = ""
    · simp [extractQuoted, buildReplyProto, ReplyTo.contextInfo, ReplyTo.seen, setIf, htext]
    · simp [extractQuoted, buildReplyProto, ReplyTo.contextInfo, ReplyTo.seen, setIf, htext,
        extractText]
  | key id participant =>
    simp [extractQuoted, buildReplyProto, ReplyTo.contextInfo, ReplyTo.seen, setIf_getD]

/-- The receiver makes of a body the event that says what was sent. -/
theorem received_proto (body : Body) (chat : JID) (id : String) (sender : JID) (timestamp : Int) :
    received (body.proto chat) id sender timestamp = body.seen id sender timestamp := by
  have hmedia : ∀ {media media' : MediaAttachment}, media = media' →
      Emitted.message id sender sender "" timestamp (some media) none =
        .message id sender sender "" timestamp (some media') none := fun h => h ▸ rfl
  cases body with
  | text words replyTo =>
    cases replyTo with
    | none =>
      have htext := extractText_conversation words
      exact congrArg (fun text => Emitted.message id sender sender text timestamp none none) htext
    | some replyTo =>
      have hquoted := extractQuoted_reply words replyTo
      exact congrArg (Emitted.message id sender sender words timestamp none) hquoted
  | image a mimetype caption width height =>
    refine hmedia ?_
    simp only [ImageMessage.attached, setIf_getD, Attachment.ref_attachment]
  | video a mimetype caption =>
    refine hmedia ?_
    simp only [VideoMessage.attached, setIf_getD, Attachment.ref_attachment]
  | audio a mimetype ptt =>
    refine hmedia ?_
    cases ptt <;> simp only [AudioMessage.attached, Attachment.ref_attachment] <;> rfl
  | document a mimetype filename caption =>
    refine hmedia ?_
    simp only [DocumentMessage.attached, setIf_getD, Attachment.ref_attachment]
  | sticker a mimetype =>
    refine hmedia ?_
    exact a.ref_attachment "sticker" mediaImage mimetype
  | edit messageId newText fromMe nowMs =>
    have htext := extractText_conversation newText
    exact congrArg (fun text => Emitted.messageEdit sender sender messageId text timestamp) htext
  | revoke messageId fromMe participant => rfl
  | reaction messageId emoji fromMe nowMs => rfl

end Seen

section Codec

/-- `SerializeToString` and `ParseFromString` of the generated class. -/
structure MessageCodec where
  serialize : MessageProto → Bytes
  parse : Bytes → Option MessageProto

namespace MessageCodec

variable (codec : MessageCodec)

def read {α : Type} (f : MessageProto → α) (missing : α) (serialized : Bytes) : α :=
  ((codec.parse serialized).map f).getD missing

/-- `DeviceSentMessage` of the body, as `_build_dsm_plaintext` makes it. -/
def dsm (destinationJid : String) (serialized : Bytes) : Bytes :=
  codec.read (fun m => codec.serialize
    { deviceSentMessage := some { destinationJid := some destinationJid, message := some m } }) []
    serialized

/-- The serialized messages that the client handles, read through the codec. -/
def e2e : E2e where
  parses serialized := (codec.parse serialized).isSome
  conversation words := codec.serialize { conversation := some words }
  deviceSent := codec.dsm
  senderKeyDistribution groupId axolotl := codec.serialize
    { senderKeyDistributionMessage := some { groupId := some groupId, axolotl := some axolotl } }
  distribution := codec.read
    (fun m => m.senderKeyDistributionMessage.map fun skdm => skdm.axolotl.getD []) none
  text := codec.read extractText ""
  media := codec.read extractMedia none
  quoted := codec.read extractQuoted none
  reaction := codec.read (fun m => m.reactionMessage.map ReactionMessage.surfaced) none
  mediaType := codec.read mediaTypeFor ""
  editedInner := codec.read
    (fun m => m.editedMessage.map fun edited => codec.serialize (edited.message.getD {})) none
  protocolType := codec.read (fun m => m.protocolMessage.map ProtocolMessage.type) none
  targetId := codec.read (fun m => (m.protocolMessage.map ProtocolMessage.targetId).getD "") ""
  editedText := codec.read (fun m => (m.protocolMessage.map ProtocolMessage.editedText).getD "") ""
  historySync := codec.read (fun m => m.protocolMessage.any (·.historySyncNotification)) false

/-- The class reads back what it wrote of the message. -/
structure Reads (m : MessageProto) : Prop where
  whole : codec.parse (codec.serialize m) = some m
  edited : ∀ edited, m.editedMessage = some edited →
    codec.parse (codec.serialize (edited.message.getD {})) = some (edited.message.getD {})

variable {codec}

theorem read_serialize {α : Type} {m : MessageProto} (h : codec.parse (codec.serialize m) = some m)
    (f : MessageProto → α) (missing : α) : codec.read f missing (codec.serialize m) = f m := by
  simp only [read, h, Option.map_some, Option.getD_some]

/-- The message that `_handle_edit_or_revoke` looks at. -/
def unwrapped (serialized : Bytes) : Bytes :=
  match codec.e2e.editedInner serialized with
  | some inner => if (codec.e2e.protocolType inner).isSome then inner else serialized
  | none => serialized

theorem parse_unwrapped {m : MessageProto} (h : codec.Reads m) :
    codec.parse (codec.unwrapped (codec.serialize m)) = some (unwrapEdited m) := by
  have hedited : codec.e2e.editedInner (codec.serialize m) =
      m.editedMessage.map fun edited => codec.serialize (edited.message.getD {}) :=
    read_serialize h.whole _ _
  rw [unwrapped, hedited, unwrapEdited]
  cases hcase : m.editedMessage with
  | none => exact h.whole
  | some edited =>
    have hinner : codec.e2e.protocolType (codec.serialize (edited.message.getD {})) =
        (edited.message.getD {}).protocolMessage.map ProtocolMessage.type :=
      read_serialize (h.edited edited hcase) _ _
    have hparse := h.edited edited hcase
    simp only [Option.map_some, hinner, Option.isSome_map]
    cases hmessage : edited.message with
    | none => simpa [hmessage] using h.whole
    | some inner =>
      rw [hmessage, Option.getD_some] at hparse
      simp only [Option.getD_some, Option.bind_some, hmessage]
      split
      · exact hparse
      · exact h.whole

theorem read_unwrapped {α : Type} {m : MessageProto} (h : codec.Reads m) (f : MessageProto → α)
    (missing : α) : codec.read f missing (codec.unwrapped (codec.serialize m)) =
      f (unwrapEdited m) := by
  simp only [read, parse_unwrapped h, Option.map_some, Option.getD_some]

end MessageCodec

end Codec

section Send

variable {P : Primitives} (env : Env P) (dev : Device P) (codec : MessageCodec)

/-- The end of every call that sends a body. -/
def sendBody (fetchPrekeys : JID → CoM P PreKeyBundle)
    (fetchDevices : List JID → CoM P DeviceMap) (chat : JID) (body : Body) : CoM P Unit :=
  sendMessage env dev fetchPrekeys fetchDevices chat (codec.serialize (body.proto chat)) body.label
    none body.edit?

end Send

section Dispatch

variable {P : Primitives} {env : Env P} {dev : Device P} {codec : MessageCodec}

/-- Before its event, a message may start background work. -/
def prologue (env : Env P) (dev : Device P) (m : MessageProto) (proto : Bytes) (sender : JID) :
    CoM P Unit :=
  if m.reactionMessage.isSome then pure ()
  else
    match (unwrapEdited m).protocolMessage.map ProtocolMessage.type with
    | some (some .messageEdit) | some (some .revoke) => pure ()
    | _ => handleProtocolMessage env dev proto sender

theorem handleEditOrRevoke_unwrapped (he2e : env.e2e = codec.e2e) {m : MessageProto}
    (hreads : codec.Reads m) {chat sender : JID} {timestamp : Int} {node : Node} :
    handleEditOrRevoke env (codec.serialize m) chat sender timestamp node =
      match (unwrapEdited m).protocolMessage.map ProtocolMessage.type with
      | some (some .messageEdit) => do
        safeEmit (.messageEdit chat sender
          (((unwrapEdited m).protocolMessage.map ProtocolMessage.targetId).getD "")
          (((unwrapEdited m).protocolMessage.map ProtocolMessage.editedText).getD "") timestamp)
        sendDeliveryReceipt env node sender
        return true
      | some (some .revoke) => do
        safeEmit (.messageRevoke chat sender
          (((unwrapEdited m).protocolMessage.map ProtocolMessage.targetId).getD "") timestamp)
        sendDeliveryReceipt env node sender
        return true
      | _ => return false := by
  have htype : codec.e2e.protocolType (codec.unwrapped (codec.serialize m)) =
      (unwrapEdited m).protocolMessage.map ProtocolMessage.type :=
    MessageCodec.read_unwrapped hreads _ _
  have htarget : codec.e2e.targetId (codec.unwrapped (codec.serialize m)) =
      ((unwrapEdited m).protocolMessage.map ProtocolMessage.targetId).getD "" :=
    MessageCodec.read_unwrapped hreads _ _
  have htext : codec.e2e.editedText (codec.unwrapped (codec.serialize m)) =
      ((unwrapEdited m).protocolMessage.map ProtocolMessage.editedText).getD "" :=
    MessageCodec.read_unwrapped hreads _ _
  rw [← htype, ← htarget, ← htext, MessageCodec.unwrapped, ← he2e]
  rfl

/-- A message that parses is surfaced as the event `received`, and then receipted. -/
theorem dispatchPlaintext_received (he2e : env.e2e = codec.e2e) {m : MessageProto}
    (hreads : codec.Reads m) {node : Node} {sender : JID} {plaintext : Bytes}
    (hpad : unpadRandomMax16 plaintext = .ok (codec.serialize m)) :
    dispatchPlaintext env dev node sender plaintext =
      prologue env dev m (codec.serialize m) sender >>= fun _ =>
        safeEmit (received m (node.getStr "id") sender (stanzaTimestamp node)) >>= fun _ =>
          sendDeliveryReceipt env node sender := by
  have hparses : env.e2e.parses (codec.serialize m) = true := by
    simp only [he2e, MessageCodec.e2e, hreads.whole, Option.isSome_some]
  have hreaction : env.e2e.reaction (codec.serialize m) =
      m.reactionMessage.map ReactionMessage.surfaced := by
    rw [he2e]
    exact MessageCodec.read_serialize hreads.whole _ _
  have htext : env.e2e.text (codec.serialize m) = extractText m := by
    rw [he2e]
    exact MessageCodec.read_serialize hreads.whole _ _
  have hmedia : env.e2e.media (codec.serialize m) = extractMedia m := by
    rw [he2e]
    exact MessageCodec.read_serialize hreads.whole _ _
  have hquoted : env.e2e.quoted (codec.serialize m) = extractQuoted m := by
    rw [he2e]
    exact MessageCodec.read_serialize hreads.whole _ _
  rw [dispatchPlaintext, hpad]
  simp only [hparses, Bool.not_true, Bool.false_eq_true, if_false, hreaction, htext, hmedia, hquoted]
  cases hreacts : m.reactionMessage with
  | some rm => simp [received, prologue, hreacts]
  | none =>
    simp only [Option.map_none, received, prologue, hreacts, Option.isSome_none, Bool.false_eq_true,
      if_false, handleEditOrRevoke_unwrapped he2e hreads]
    cases (unwrapEdited m).protocolMessage with
    | none => simp
    | some pm => rcases htype : pm.type with _ | _ | _ | _ <;> simp [htype]

end Dispatch

end PyWhats
