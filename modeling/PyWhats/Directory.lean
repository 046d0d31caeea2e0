import PyWhats.Endpoint

/-! The two directory queries of the sender: prekey bundles (`prekey.py`) and
device lists (`usync.py`), each an `<iq>` whose answer completes a future. -/

namespace PyWhats

def serverJid : JID := { user := "", server := "s.whatsapp.net" }

def intOfBytes (data : Bytes) : Nat := data.foldl (fun n b => 256 * n + b.toNat) 0

/-- The content of a child element, with the error for an absent or empty one. -/
def readChildBytes (raise : String → PyError) (what : String) (parent : Node) (tag : String) :
    Except PyError Bytes :=
  match parent.getChild tag with
  | none => .error (raise (what ++ "missing <" ++ tag ++ ">"))
  | some child =>
    if child.contentBytes = [] then
      .error (raise ((if what = "" then "empty <" else what ++ "has empty <") ++ tag ++ ">"))
    else .ok child.contentBytes

def readPrekeyBytes : Node → String → Except PyError Bytes :=
  readChildBytes .pairingFailed "prekey response "

def buildPrekeyQuery (jid : JID) (iqId : String) : Node :=
  .mk "iq" [("id", .str iqId), ("type", .str "get"), ("xmlns", .str "encrypt"),
      ("to", .jid serverJid)]
    (.nodes [.mk "key" [] (.nodes [.mk "user" [("jid", .jid jid)] .none])])

/-- The user named by the response must be the one asked for, when it is a JID. -/
def jidMismatch (user : Node) (expected : JID) : Bool :=
  match user.getAttr "jid" with
  | some (.jid returned) => returned.user ≠ expected.user
  | _ => false

def parsePrekeyResponse (P : Primitives) (iq : Node) (expected : JID) :
    Except PyError PreKeyBundle := do
  let some lst := iq.getChild "list" | throw (.pairingFailed "prekey iq missing <list>")
  let some user := (lst.getChildren "user").head?
    | throw (.pairingFailed "prekey iq list has no <user>")
  if jidMismatch user expected then
    throw (.pairingFailed "prekey response jid mismatch")
  let identityKey ← readPrekeyBytes user "identity"
  if identityKey.length ≠ 32 then
    throw (.pairingFailed ("prekey identity wrong length: " ++ toString identityKey.length))
  let some skey := user.getChild "skey" | throw (.pairingFailed "prekey response missing <skey>")
  let spkId ← readPrekeyBytes skey "id"
  let spkPub ← readPrekeyBytes skey "value"
  let spkSig ← readPrekeyBytes skey "signature"
  let otk ← match user.getChild "key" with
    | none => pure none
    | some otk => do
      let otkId ← readPrekeyBytes otk "id"
      let otkPub ← readPrekeyBytes otk "value"
      pure (some (intOfBytes otkId, otkPub))
  let bundle : PreKeyBundle := {
    identityKey := identityKey
    signedPreKeyId := intOfBytes spkId
    signedPreKeyPublic := spkPub
    signedPreKeySignature := spkSig
    oneTimePreKeyId := otk.map Prod.fst
    oneTimePreKeyPublic := otk.map Prod.snd }
  if !(← bundle.verifySignature P) then
    throw (.pairingFailed "prekey bundle SPK signature did not verify")
  return bundle

structure UserSyncEntry where
  devices : List JID
  lid : Option JID := none

abbrev DeviceMap := OrderedMap JID UserSyncEntry

def dedupeBaseUsers (users : List JID) : List JID :=
  dedupeDevices ((users.map JID.base).filter (fun base => base.user ≠ ""))

def buildDeviceQuery (users : List JID) (iqId : String) : Node :=
  .mk "iq" [("id", .str iqId), ("type", .str "get"), ("xmlns", .str "usync"),
      ("to", .jid serverJid)]
    (.nodes [.mk "usync" [("context", .str "message"), ("mode", .str "query"), ("sid", .str iqId),
        ("last", .str "true"), ("index", .str "0")]
      (.nodes [
        .mk "query" [] (.nodes [.mk "devices" [("version", .str "2")] .none, .mk "lid" [] .none]),
        .mk "list" [] (.nodes ((dedupeBaseUsers users).map
          (fun jid => .mk "user" [("jid", .jid jid)] .none)))])])

def readDeviceId (node : Node) : Option Int :=
  (node.getAttr "id").bind (fun raw => PyText.int? raw.text.toList)

def readLid (node : Node) : Except PyError (Option JID) :=
  match node.getChild "lid" with
  | none => .ok none
  | some lid => do
    let parsed ← receiverJidFromAttr (lid.getAttr "val")
    return if parsed.user ≠ "" ∧ parsed.server = "lid" then some parsed.base else none

def deviceJid (base : JID) (device : Int) : JID :=
  { user := base.user, server := base.server, device := device }

def userDevices (userNode : Node) : List Node :=
  match (userNode.getChild "devices").bind (fun d => d.getChild "device-list") with
  | none => []
  | some deviceList => deviceList.getChildren "device"

def parseUsers : List Node → DeviceMap → Except PyError DeviceMap
  | [], out => .ok out
  | userNode :: rest, out => do
    let jid ← receiverJidFromAttr (userNode.getAttr "jid")
    if jid.user = "" then parseUsers rest out
    else
      let devices := deviceJid jid.base 0 ::
        ((userDevices userNode).filterMap readDeviceId).map (deviceJid jid.base)
      let lid ← readLid userNode
      parseUsers rest (out.set jid.base ⟨dedupeDevices devices, lid⟩)

def parseDeviceResult (iq : Node) (requestedUsers : List JID) : Except PyError DeviceMap := do
  let requested := requestedUsers.map JID.base
  let out : DeviceMap := requested.foldl (fun out base => out.set base ⟨[base], none⟩) .empty
  let some usync := iq.getChild "usync"
    | throw (.pairingFailed "usync device response missing <usync>")
  let some lst := usync.getChild "list"
    | throw (.pairingFailed "usync device response missing <list>")
  parseUsers (lst.getChildren "user") out

section Fetchers

variable {P : Primitives} (env : Env P)

def queryIq (build : String → Node) : CoM P Node := do
  let iqId ← draw env.messageId
  let future ← iqRegister iqId
  Co.tryFinally (do sendNode env (build iqId); Co.wait (Request.iq future)) (iqCancel iqId)

def prekeyFetcher (peer : JID) : CoM P PreKeyBundle := do
  let result ← queryIq env (buildPrekeyQuery peer)
  Co.lift (parsePrekeyResponse P result peer)

def usyncDeviceFetcher (users : List JID) : CoM P DeviceMap := do
  let requested := dedupeBaseUsers users
  let result ← queryIq env (buildDeviceQuery requested)
  Co.lift (parseDeviceResult result requested)

end Fetchers

/-- Every device listed under a user has that user's base address. -/
def DeviceMap.Keyed (m : DeviceMap) : Prop :=
  ∀ base entry, m.get? base = some entry → ∀ d ∈ entry.devices, d.base = base

theorem DeviceMap.Keyed.set {m : DeviceMap} (h : m.Keyed) {base : JID} {entry : UserSyncEntry}
    (he : ∀ d ∈ entry.devices, d.base = base) : DeviceMap.Keyed (OrderedMap.set m base entry) := by
  intro b e hb
  rw [OrderedMap.get?_set] at hb
  split at hb
  · rename_i hk
    cases hb
    exact hk ▸ he
  · exact h b e hb

theorem parseUsers_keyed {nodes : List Node} {out m : DeviceMap} (hout : out.Keyed)
    (h : parseUsers nodes out = .ok m) : m.Keyed := by
  induction nodes generalizing out with
  | nil =>
    cases h
    exact hout
  | cons userNode rest ih =>
    simp only [parseUsers, except_bind_ok] at h
    obtain ⟨jid, _, h⟩ := h
    split at h
    · exact ih hout h
    · obtain ⟨lid, _, h⟩ := except_bind_ok.mp h
      refine ih (hout.set fun d hd => ?_) h
      have hd' := mem_dedupeDevices hd
      rcases List.mem_cons.mp hd' with rfl | hd'
      · rfl
      · obtain ⟨n, _, rfl⟩ := List.mem_map.mp hd'
        rfl

theorem foldl_keyed (bases : List JID) {out : DeviceMap} (hb : ∀ b ∈ bases, b.base = b)
    (hout : out.Keyed) :
    DeviceMap.Keyed (bases.foldl (fun out base => out.set base ⟨[base], none⟩) out) := by
  induction bases generalizing out with
  | nil => exact hout
  | cons b bs ih =>
    refine ih (fun x hx => hb x (List.mem_cons_of_mem _ hx)) (hout.set fun d hd => ?_)
    rw [List.mem_singleton.mp hd]
    exact hb b List.mem_cons_self

theorem parseDeviceResult_keyed {iq : Node} {users : List JID} {m : DeviceMap}
    (h : parseDeviceResult iq users = .ok m) : m.Keyed := by
  simp only [parseDeviceResult] at h
  split at h
  · split at h
    · refine parseUsers_keyed (foldl_keyed _ ?_ ?_) h
      · intro b hb
        obtain ⟨j, _, rfl⟩ := List.mem_map.mp hb
        rfl
      · intro base entry hb
        cases hb
    · cases h
  · cases h

end PyWhats
