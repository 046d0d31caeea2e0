import PyWhats.PyText
import PyWhats.Primitives

/-! Addresses and stanzas: `events.JID`, `binary/jid.py`, `binary/node.py` and the
address helpers of the messaging modules. -/

namespace PyWhats

structure JID where
  user : String
  server : String := "s.whatsapp.net"
  device : Int := 0
  deriving DecidableEq

namespace JID

def str (jid : JID) : String :=
  if jid.device ≠ 0 then jid.user ++ "." ++ toString jid.device ++ "@" ++ jid.server
  else jid.user ++ "@" ++ jid.server

def base (jid : JID) : JID := { user := jid.user, server := jid.server, device := 0 }

@[simp] theorem base_base (jid : JID) : jid.base.base = jid.base := rfl

end JID

def sameFullJid (a b : JID) : Bool :=
  a.user = b.user && a.server = b.server && a.device = b.device

/-- Stable Signal session key for a device address. -/
def sessionId (jid : JID) : String := jid.user ++ ":" ++ toString jid.device ++ "@" ++ jid.server

def dedupeDevices (devices : List JID) : List JID :=
  devices.foldl (fun out jid => if jid ∈ out then out else out ++ [jid]) []

theorem mem_foldl_dedupe {jid : JID} (devices : List JID) {out : List JID}
    (h : jid ∈ devices.foldl (fun out j => if j ∈ out then out else out ++ [j]) out) :
    jid ∈ out ∨ jid ∈ devices := by
  induction devices generalizing out with
  | nil => exact Or.inl h
  | cons d ds ih =>
    rcases ih h with h | h
    · simp only at h
      split at h
      · exact Or.inl h
      · rcases List.mem_append.mp h with h | h
        · exact Or.inl h
        · exact Or.inr (List.mem_cons.mpr (Or.inl (List.mem_singleton.mp h)))
    · exact Or.inr (List.mem_cons_of_mem _ h)

theorem mem_dedupeDevices {devices : List JID} {jid : JID} (h : jid ∈ dedupeDevices devices) :
    jid ∈ devices := by
  rcases mem_foldl_dedupe devices h with h | h
  · cases h
  · exact h

/-- The device suffix of a user part, tried with `:` and then with `.`; a digit
string that `int` refuses raises. -/
def splitDevice : List Char → List Char → Except PyError (List Char × Int)
  | user, [] => .ok (user, 0)
  | user, sep :: seps =>
    if sep ∈ user then
      let (u, d) := PyText.rsplit sep user
      if PyText.isDigit d then
        match PyText.int? d with
        | some device => .ok (u, device)
        | none => .error (.valueError "invalid literal for int() with base 10")
      else splitDevice user seps
    else splitDevice user seps

def parseJid (text : String) : Except PyError JID :=
  if '@' ∉ text.toList then .ok { user := "", server := text }
  else do
    let (userPart, server) := PyText.partition '@' text.toList
    let (user, device) ← splitDevice userPart [':', '.']
    return { user := String.ofList user, server := String.ofList server, device := device }

inductive AttrValue where
  | str (s : String)
  | int (n : Int)
  | jid (j : JID)
  deriving DecidableEq

def AttrValue.text : AttrValue → String
  | .str s => s
  | .int n => toString n
  | .jid j => j.str

/-- `_jid_from_attr` of `receiver.py` and `usync.py`. -/
def receiverJidFromAttr : Option AttrValue → Except PyError JID
  | some (.jid j) => .ok j
  | some (.str s) => if s ≠ "" then parseJid s else .ok { user := "" }
  | _ => .ok { user := "" }

/-- `_jid_from_attr` of `sender.py`, on the string attributes of a retry. -/
def senderJidFromAttr (s : String) : Except PyError JID :=
  if s = "" then .ok { user := "" }
  else
    let (localPart, server) := PyText.partition '@' s.toList
    let (user, dev) := PyText.partition '.' localPart
    let server' := if server.isEmpty then "s.whatsapp.net" else String.ofList server
    if PyText.isDigit dev then
      match PyText.int? dev with
      | some device => .ok { user := String.ofList user, server := server', device := device }
      | none => .error (.valueError "invalid literal for int() with base 10")
    else .ok { user := String.ofList user, server := server', device := 0 }

inductive NodeContent (ν : Type) where
  | none
  | bytes (b : Bytes)
  | nodes (children : List ν)

inductive Node where
  | mk (tag : String) (attrs : List (String × AttrValue)) (content : NodeContent Node)

namespace Node

def tag : Node → String
  | .mk tag _ _ => tag

def attrs : Node → List (String × AttrValue)
  | .mk _ attrs _ => attrs

def content : Node → NodeContent Node
  | .mk _ _ content => content

def getAttr (node : Node) (name : String) : Option AttrValue :=
  (node.attrs.find? (fun a => a.1 = name)).map Prod.snd

def getStrD (node : Node) (name fallback : String) : String :=
  ((node.getAttr name).map AttrValue.text).getD fallback

def getStr (node : Node) (name : String) : String := node.getStrD name ""

def children (node : Node) : List Node :=
  match node.content with
  | .nodes l => l
  | _ => []

def getChildren (node : Node) (tag : String) : List Node :=
  node.children.filter (fun c => c.tag = tag)

def getChild (node : Node) (tag : String) : Option Node := (node.getChildren tag).head?

def contentBytes (node : Node) : Bytes :=
  match node.content with
  | .bytes b => b
  | _ => []

end Node

end PyWhats
