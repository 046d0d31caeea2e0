import PyWhats.Lib.Base64
import PyWhats.Lib.PyJson
import PyWhats.Primitives
import PyWhats.PyText

/-! The file format of `store.py`: a device store as the object that is written to disk, and back.
`str` of anything but text, `float` of text and the texts of the interpreter's own errors are left
open. -/

namespace PyWhats.StoreFile

/-- `SCHEMA_VERSION`. -/
def schemaVersion : Int := 1

/-- `StoreCorruptError` and `StoreVersionError`. -/
inductive StoreError where
  | corrupt (message : Text)
  | version (message : Text)

inductive Raised where
  | store (e : StoreError)
  | keyError (key : String)
  | typeError (message : String)
  | valueError (message : Text)
  | overflowError (message : String)

structure Builtins where
  repr : PyJson → Text
  floatOfText : Text → Option PyFloat
  intMessage : Text → Text
  floatMessage : Text → Text
  base64Message : Text → Text

structure JIDTuple where
  user : Text
  server : Text
  device : Int

structure DeviceStore where
  noisePrivate : Bytes
  noisePublic : Bytes
  identityPrivate : Bytes
  identityPublic : Bytes
  registrationId : Int
  signedPreKeyId : Int
  signedPreKeyPrivate : Bytes
  signedPreKeyPublic : Bytes
  signedPreKeySignature : Bytes
  jid : Option JIDTuple
  deviceId : Option Int
  advSignedDeviceIdentity : Option Bytes
  pushName : Option Text
  lid : Option Text
  createdAt : PyFloat
  pywhatsVersion : Text
  schemaVersion : Int

section Writing

def b64e (b : Bytes) : PyJson := .str ((Base64.encode b).map .char)

/-- `None if value is None else write(value)`. -/
def nullable {α : Type} (write : α → PyJson) : Option α → PyJson
  | none => .null
  | some value => write value

def object (fields : List (String × PyJson)) : PyJson :=
  .obj (fields.map fun f => (Text.ofString f.1, f.2))

def jidObject (jid : JIDTuple) : PyJson :=
  object [("user", .str jid.user), ("server", .str jid.server), ("device", .int jid.device)]

def signedPreKeyObject (d : DeviceStore) : PyJson :=
  object
    [("id", .int d.signedPreKeyId),
     ("private", b64e d.signedPreKeyPrivate),
     ("public", b64e d.signedPreKeyPublic),
     ("signature", b64e d.signedPreKeySignature)]

def entries (d : DeviceStore) : List (String × PyJson) :=
  [("version", .int schemaVersion),
   ("schema_version", .int schemaVersion),
   ("pywhats_version", .str d.pywhatsVersion),
   ("created_at", .float d.createdAt),
   ("noise_private", b64e d.noisePrivate),
   ("noise_public", b64e d.noisePublic),
   ("identity_private", b64e d.identityPrivate),
   ("identity_public", b64e d.identityPublic),
   ("registration_id", .int d.registrationId),
   ("signed_pre_key", signedPreKeyObject d),
   ("jid", nullable jidObject d.jid),
   ("device_id", nullable .int d.deviceId),
   ("adv_signed_device_identity", nullable b64e d.advSignedDeviceIdentity),
   ("push_name", nullable .str d.pushName),
   ("lid", nullable .str d.lid)]

def toJson (d : DeviceStore) : PyJson := object (entries d)

end Writing

section Reading

variable (B : Builtins)

def corrupt {α : Type} (message : Text) : Except Raised α := .error (.store (.corrupt message))

def b64d : PyJson → Except Raised Bytes
  | .str s =>
    match s.chars?.bind Base64.decode with
    | some data => .ok data
    | none => corrupt (Text.ofString "invalid base64: " ++ B.base64Message s)
  | _ => corrupt (Text.ofString "expected base64 string, got non-string")

/-- `str(value)`. -/
def str : PyJson → Text
  | .str s => s
  | value => B.repr value

def truth (b : Bool) : Int := if b then 1 else 0

/-- `int(value)`. -/
def int : PyJson → Except Raised Int
  | .int n => .ok n
  | .bool b => .ok (truth b)
  | .float (.finite x) => .ok (PyFloat.truncate x)
  | .float (.infinite _) => .error (.overflowError "cannot convert float infinity to integer")
  | .float .nan => .error (.valueError (Text.ofString "cannot convert float NaN to integer"))
  | .str s =>
    match s.chars?.bind PyText.int? with
    | some n => .ok n
    | none => .error (.valueError (B.intMessage s))
  | .null => notANumber "NoneType"
  | .arr _ => notANumber "list"
  | .obj _ => notANumber "dict"
where
  notANumber (type : String) : Except Raised Int :=
    .error (.typeError ("int() argument must be a string, a bytes-like object or a real number, not '"
      ++ type ++ "'"))

/-- `float(value)`. -/
def float : PyJson → Except Raised PyFloat
  | .int n =>
    (PyFloat.ofInt? n).elim (.error (.overflowError "int too large to convert to float")) .ok
  | .bool b => .ok (.finite (truth b))
  | .float x => .ok x
  | .str s =>
    match B.floatOfText s with
    | some x => .ok x
    | none => .error (.valueError (B.floatMessage s))
  | .null => notANumber "NoneType"
  | .arr _ => notANumber "list"
  | .obj _ => notANumber "dict"
where
  notANumber (type : String) : Except Raised PyFloat :=
    .error (.typeError ("float() argument must be a string or a real number, not '" ++ type ++ "'"))

abbrev Fields := List (Text × PyJson)

/-- `data[key]`. -/
def item (data : Fields) (key : String) : Except Raised PyJson :=
  match PyJson.get? data key with
  | some value => .ok value
  | none => .error (.keyError key)

/-- `None if data.get(key) is None else read(data[key])`. -/
def given {α : Type} (read : PyJson → Except Raised α) (data : Fields) (key : String) :
    Except Raised (Option α) :=
  match PyJson.get? data key with
  | none | some .null => .ok none
  | some value => (read value).map some

/-- `read(data.get(key, default))`. -/
def getOr {α : Type} (read : PyJson → Except Raised α) (default : α) (data : Fields) (key : String) :
    Except Raised α :=
  match PyJson.get? data key with
  | none => .ok default
  | some value => read value

def signedPreKey : PyJson → Except Raised Fields
  | .obj fields => .ok fields
  | _ => corrupt (Text.ofString "signed_pre_key must be an object")

def jidTuple : PyJson → Except Raised JIDTuple
  | .obj raw => do
    let user ← item raw "user"
    let server ← item raw "server"
    let device ← item raw "device" >>= int B
    return ⟨str B user, str B server, device⟩
  | _ => corrupt (Text.ofString "jid must be an object or null")

/-- `True` and `False` are integers. -/
def registrationId : PyJson → Except Raised Int
  | .int n =>
    if n < 0 ∨ n > 0xFFFFFFFF then
      corrupt (Text.ofString "registration_id out of range for uint32")
    else .ok n
  | .bool b => .ok (truth b)
  | _ => corrupt (Text.ofString "registration_id out of range for uint32")

def binary (data : Fields) (key : String) : Except Raised Bytes := item data key >>= b64d B

/-- The `try` block of `from_json`; `now` is `time.time()`. -/
def readFields (now : PyFloat) (data : Fields) : Except Raised DeviceStore := do
  let spk ← item data "signed_pre_key" >>= signedPreKey
  let jid ← given (jidTuple B) data "jid"
  let adv ← given (b64d B) data "adv_signed_device_identity"
  let regId ← item data "registration_id" >>= registrationId
  let noisePrivate ← binary B data "noise_private"
  let noisePublic ← binary B data "noise_public"
  let identityPrivate ← binary B data "identity_private"
  let identityPublic ← binary B data "identity_public"
  let spkId ← item spk "id" >>= int B
  let spkPrivate ← binary B spk "private"
  let spkPublic ← binary B spk "public"
  let spkSignature ← binary B spk "signature"
  let deviceId ← given (int B) data "device_id"
  let pushName ← given (fun value => .ok (str B value)) data "push_name"
  let lid ← given (fun value => .ok (str B value)) data "lid"
  let createdAt ← getOr (float B) now data "created_at"
  let pywhatsVersion ← getOr (fun value => .ok (str B value)) [] data "pywhats_version"
  let version ← getOr (int B) schemaVersion data "schema_version"
  return {
    noisePrivate := noisePrivate
    noisePublic := noisePublic
    identityPrivate := identityPrivate
    identityPublic := identityPublic
    registrationId := regId
    signedPreKeyId := spkId
    signedPreKeyPrivate := spkPrivate
    signedPreKeyPublic := spkPublic
    signedPreKeySignature := spkSignature
    jid := jid
    deviceId := deviceId
    advSignedDeviceIdentity := adv
    pushName := pushName
    lid := lid
    createdAt := createdAt
    pywhatsVersion := pywhatsVersion
    schemaVersion := version }

/-- Its `except` clauses. -/
def caught : Raised → Raised
  | .keyError key => .store (.corrupt (Text.ofString ("missing required field: " ++ key)))
  | .typeError message => .store (.corrupt (Text.ofString ("malformed field: " ++ message)))
  | .valueError message => .store (.corrupt (Text.ofString "malformed field: " ++ message))
  | e => e

def unsupported (ver : PyJson) : Text :=
  Text.ofString "unsupported store version " ++ str B ver ++ Text.ofString ", expected 1"

def checkVersion (data : Fields) : Except Raised Unit :=
  match PyJson.get? data "version" with
  | none | some .null => corrupt (Text.ofString "missing 'version' field")
  | some ver =>
    if ver.eqInt schemaVersion then .ok () else .error (.store (.version (unsupported B ver)))

def fromJson (now : PyFloat) : PyJson → Except Raised DeviceStore
  | .obj data => do
    checkVersion B data
    (readFields B now data).mapError caught
  | _ => corrupt (Text.ofString "store root must be a JSON object")

end Reading

end PyWhats.StoreFile
