import PyWhats.Lib.Base64
import PyWhats.StoreFile

/-! `store.py` reads back what it writes, and an unfit file is a `StoreError` unless the first unfit
field overflows a conversion. -/

namespace PyWhats.StoreFile

section Fit

/-- How a field takes to its conversion. -/
inductive Fit where
  | fits
  | refused
  | overflows
  deriving DecidableEq

/-- The later field counts when the earlier one fits. -/
def Fit.andThen : Fit → Fit → Fit
  | .fits, b => b
  | a, _ => a

def firstMisfit (fields : List Fit) : Fit := fields.foldr Fit.andThen .fits

def fitIf (p : Bool) : Fit := if p then .fits else .refused

variable (B : Builtins)

def base64Fit : PyJson → Fit
  | .str s => fitIf (s.chars?.bind Base64.decode).isSome
  | _ => .refused

def intFit : PyJson → Fit
  | .int _ | .bool _ | .float (.finite _) => .fits
  | .float (.infinite _) => .overflows
  | .str s => fitIf (s.chars?.bind PyText.int?).isSome
  | _ => .refused

def floatFit : PyJson → Fit
  | .int n => if PyFloat.overflowBound ≤ n.natAbs then .overflows else .fits
  | .bool _ | .float _ => .fits
  | .str s => fitIf (B.floatOfText s).isSome
  | _ => .refused

def registrationFit : PyJson → Fit
  | .int n => fitIf (0 ≤ n ∧ n ≤ 0xFFFFFFFF)
  | .bool _ => .fits
  | _ => .refused

def objectFit : PyJson → Fit
  | .obj _ => .fits
  | _ => .refused

def required (fit : PyJson → Fit) (data : Fields) (key : String) : Fit :=
  match PyJson.get? data key with
  | some value => fit value
  | none => .refused

def unlessNull (fit : PyJson → Fit) (data : Fields) (key : String) : Fit :=
  match PyJson.get? data key with
  | none | some .null => .fits
  | some value => fit value

def ifPresent (fit : PyJson → Fit) (data : Fields) (key : String) : Fit :=
  match PyJson.get? data key with
  | none => .fits
  | some value => fit value

def anything (_ : PyJson) : Fit := .fits

def jidFit : PyJson → Fit
  | .obj raw =>
    firstMisfit [required anything raw "user", required anything raw "server",
      required intFit raw "device"]
  | _ => .refused

def members (data : Fields) (key : String) : Fields :=
  match PyJson.get? data key with
  | some (.obj fields) => fields
  | _ => []

def versionFit (value : PyJson) : Fit := fitIf (value.eqInt schemaVersion)

/-- The fields in the order in which `from_json` comes to them. -/
def inOrder : PyJson → List Fit
  | .obj data =>
    let spk := members data "signed_pre_key"
    [required versionFit data "version",
     required objectFit data "signed_pre_key",
     unlessNull jidFit data "jid",
     unlessNull base64Fit data "adv_signed_device_identity",
     required registrationFit data "registration_id",
     required base64Fit data "noise_private",
     required base64Fit data "noise_public",
     required base64Fit data "identity_private",
     required base64Fit data "identity_public",
     required intFit spk "id",
     required base64Fit spk "private",
     required base64Fit spk "public",
     required base64Fit spk "signature",
     unlessNull intFit data "device_id",
     ifPresent (floatFit B) data "created_at",
     ifPresent intFit data "schema_version"]
  | _ => [.refused]

/-- How a reading ends: only an `OverflowError` is caught nowhere. -/
def fitOf {α : Type} : Except Raised α → Fit
  | .ok _ => .fits
  | .error (.overflowError _) => .overflows
  | .error _ => .refused

theorem firstMisfit_fits {fields : List Fit} (h : firstMisfit fields = .fits) :
    ∀ a ∈ fields, a = .fits := by
  induction fields with
  | nil => exact fun a ha => absurd ha List.not_mem_nil
  | cons b fields ih =>
    cases b with
    | fits => exact List.forall_mem_cons.mpr ⟨rfl, ih h⟩
    | refused => cases h
    | overflows => cases h

variable {B} {α β : Type} {x : Except Raised α} {f : α → Except Raised β} {a b : Fit}

theorem fitOf_bind (hx : fitOf x = a) (hf : ∀ v, x = .ok v → fitOf (f v) = b) :
    fitOf (x >>= f) = a.andThen b := by
  subst hx
  cases x with
  | ok v => exact hf v rfl
  | error e => cases e <;> rfl

theorem fitOf_map (g : α → β) : fitOf (x.map g) = fitOf x := by
  cases x with
  | ok v => rfl
  | error e => cases e <;> rfl

theorem fitOf_caught : fitOf (x.mapError caught) = fitOf x := by
  cases x with
  | ok v => rfl
  | error e => cases e <;> rfl

theorem fitOf_b64d (value : PyJson) : fitOf (b64d B value) = base64Fit value := by
  cases value with
  | str s =>
    rw [b64d, base64Fit]
    cases s.chars?.bind Base64.decode <;> rfl
  | _ => rfl

theorem fitOf_int (value : PyJson) : fitOf (int B value) = intFit value := by
  cases value with
  | str s =>
    rw [int, intFit]
    cases s.chars?.bind PyText.int? <;> rfl
  | float x => cases x <;> rfl
  | _ => rfl

theorem fitOf_float (value : PyJson) : fitOf (float B value) = floatFit B value := by
  cases value with
  | int n =>
    have hnone := PyFloat.ofInt?_eq_none_iff (n := n)
    rw [float, floatFit]
    generalize PyFloat.ofInt? n = x at hnone ⊢
    cases x with
    | none =>
      rw [if_pos (hnone.mp rfl)]
      rfl
    | some x =>
      rw [if_neg fun h => by cases hnone.mpr h]
      rfl
  | str s =>
    rw [float, floatFit]
    cases B.floatOfText s <;> rfl
  | _ => rfl

theorem fitOf_registrationId (value : PyJson) :
    fitOf (registrationId value) = registrationFit value := by
  cases value with
  | int n =>
    rw [registrationId, registrationFit, fitIf]
    by_cases hbad : n < 0 ∨ n > 0xFFFFFFFF
    · rw [if_pos hbad, if_neg (by simpa using fun _ => by omega)]
      rfl
    · rw [if_neg hbad, if_pos (by simpa using by omega)]
      rfl
  | _ => rfl

theorem fitOf_item {data : Fields} {key : String} {read : PyJson → Except Raised α}
    {fit : PyJson → Fit} (h : ∀ value, fitOf (read value) = fit value) :
    fitOf (item data key >>= read) = required fit data key := by
  rw [item, required]
  cases PyJson.get? data key with
  | none => rfl
  | some value => exact h value

theorem fitOf_given {data : Fields} {key : String} {read : PyJson → Except Raised α}
    {fit : PyJson → Fit} (h : ∀ value, fitOf (read value) = fit value) :
    fitOf (given read data key) = unlessNull fit data key := by
  rw [given, unlessNull]
  cases PyJson.get? data key with
  | none => rfl
  | some value => cases value <;> first | rfl | exact (fitOf_map some).trans (h _)

theorem fitOf_getOr {data : Fields} {key : String} {read : PyJson → Except Raised α} {default : α}
    {fit : PyJson → Fit} (h : ∀ value, fitOf (read value) = fit value) :
    fitOf (getOr read default data key) = ifPresent fit data key := by
  rw [getOr, ifPresent]
  cases PyJson.get? data key with
  | none => rfl
  | some value => exact h value

theorem fitOf_item_alone {data : Fields} {key : String} :
    fitOf (item data key) = required anything data key := by
  rw [item, required]
  cases PyJson.get? data key <;> rfl

theorem fitOf_jidTuple (value : PyJson) : fitOf (jidTuple B value) = jidFit value := by
  cases value with
  | obj raw =>
    refine fitOf_bind fitOf_item_alone fun user _ => ?_
    refine fitOf_bind fitOf_item_alone fun server _ => ?_
    exact fitOf_bind (fitOf_item fitOf_int) fun device _ => rfl
  | _ => rfl

theorem fitOf_signedPreKey (value : PyJson) : fitOf (signedPreKey value) = objectFit value := by
  cases value <;> rfl

theorem members_of_ok {data spk : Fields} {key : String}
    (h : item data key >>= signedPreKey = .ok spk) : spk = members data key := by
  rw [item] at h
  rw [members]
  cases hvalue : PyJson.get? data key with
  | none =>
    rw [hvalue] at h
    cases h
  | some value =>
    rw [hvalue] at h
    cases value <;> cases h
    rfl

theorem fitOf_str {data : Fields} {key : String} :
    fitOf (given (fun value => .ok (str B value)) data key) = .fits := by
  rw [given]
  cases PyJson.get? data key with
  | none => rfl
  | some value => cases value <;> rfl

theorem fitOf_strOr {data : Fields} {key : String} {default : Text} :
    fitOf (getOr (fun value => .ok (str B value)) default data key) = .fits := by
  rw [getOr]
  cases PyJson.get? data key <;> rfl

/-- What cannot fail does not count. -/
theorem fitOf_bind_fits (hx : fitOf x = .fits) (hf : ∀ v, fitOf (f v) = b) :
    fitOf (x >>= f) = b := fitOf_bind hx fun v _ => hf v

theorem fitOf_readFields (now : PyFloat) (data : Fields) :
    fitOf (readFields B now data) = firstMisfit ((inOrder B (.obj data)).drop 1) := by
  refine fitOf_bind (fitOf_item fitOf_signedPreKey) fun spk hspk => ?_
  rw [members_of_ok hspk]
  refine fitOf_bind (fitOf_given fitOf_jidTuple) fun jid _ => ?_
  refine fitOf_bind (fitOf_given fitOf_b64d) fun adv _ => ?_
  refine fitOf_bind (fitOf_item fitOf_registrationId) fun regId _ => ?_
  refine fitOf_bind (fitOf_item fitOf_b64d) fun noisePrivate _ => ?_
  refine fitOf_bind (fitOf_item fitOf_b64d) fun noisePublic _ => ?_
  refine fitOf_bind (fitOf_item fitOf_b64d) fun identityPrivate _ => ?_
  refine fitOf_bind (fitOf_item fitOf_b64d) fun identityPublic _ => ?_
  refine fitOf_bind (fitOf_item fitOf_int) fun spkId _ => ?_
  refine fitOf_bind (fitOf_item fitOf_b64d) fun spkPrivate _ => ?_
  refine fitOf_bind (fitOf_item fitOf_b64d) fun spkPublic _ => ?_
  refine fitOf_bind (fitOf_item fitOf_b64d) fun spkSignature _ => ?_
  refine fitOf_bind (fitOf_given fitOf_int) fun deviceId _ => ?_
  refine fitOf_bind_fits fitOf_str fun pushName => ?_
  refine fitOf_bind_fits fitOf_str fun lid => ?_
  refine fitOf_bind (fitOf_getOr fitOf_float) fun createdAt _ => ?_
  refine fitOf_bind_fits fitOf_strOr fun pywhatsVersion => ?_
  exact fitOf_bind (fitOf_getOr fitOf_int) fun version _ => rfl

theorem fitOf_ifVersion (ver : PyJson) (message : Text) :
    fitOf (if ver.eqInt schemaVersion then .ok () else .error (.store (.version message))) =
      versionFit ver := by
  rw [versionFit, fitIf]
  cases ver.eqInt schemaVersion <;> rfl

theorem fitOf_checkVersion (data : Fields) :
    fitOf (checkVersion B data) = required versionFit data "version" := by
  rw [checkVersion, required]
  cases PyJson.get? data "version" with
  | none => rfl
  | some ver => cases ver <;> first | rfl | exact fitOf_ifVersion _ _

theorem fitOf_fromJson (now : PyFloat) (data : PyJson) :
    fitOf (fromJson B now data) = firstMisfit (inOrder B data) := by
  cases data with
  | obj data =>
    exact fitOf_bind (fitOf_checkVersion data) fun _ _ => fitOf_caught.trans (fitOf_readFields now data)
  | _ => rfl

/-- A device store or a `StoreError`. -/
def Handled : Except Raised α → Prop
  | .ok _ => True
  | .error (.store _) => True
  | .error _ => False

theorem handled_caught (r : Except Raised α) :
    Handled (r.mapError caught) ↔ fitOf r ≠ .overflows := by
  cases r with
  | ok a => exact iff_of_true trivial fun h => by cases h
  | error e =>
    cases e with
    | overflowError message => exact iff_of_false id fun h => h rfl
    | _ => exact iff_of_true trivial fun h => by cases h

theorem checkVersion_store {data : Fields} {e : Raised} (h : checkVersion B data = .error e) :
    ∃ error, e = .store error := by
  rw [checkVersion] at h
  split at h
  · exact ⟨_, (Except.error.inj h).symm⟩
  · exact ⟨_, (Except.error.inj h).symm⟩
  · split at h
    · cases h
    · exact ⟨_, (Except.error.inj h).symm⟩

theorem handled_iff (now : PyFloat) (data : PyJson) :
    Handled (fromJson B now data) ↔ firstMisfit (inOrder B data) ≠ .overflows := by
  rw [← fitOf_fromJson now]
  cases data with
  | obj data =>
    rw [fromJson]
    cases hversion : checkVersion B data with
    | ok _ =>
      have hcaught := handled_caught (readFields B now data)
      rw [← fitOf_caught] at hcaught
      exact hcaught
    | error e =>
      obtain ⟨error, rfl⟩ := checkVersion_store hversion
      exact iff_of_true trivial fun h => by cases h
  | _ => exact iff_of_true trivial fun h => by cases h

end Fit

section RoundTrip

open PyJson (reread get? maxStrDigits)

def JIDTuple.reread (jid : JIDTuple) : JIDTuple :=
  { jid with user := Text.reread jid.user, server := Text.reread jid.server }

/-- The store with its texts as `json` gives them back, in the current version. -/
def DeviceStore.reread (d : DeviceStore) : DeviceStore :=
  { d with
    jid := d.jid.map JIDTuple.reread
    pushName := d.pushName.map Text.reread
    lid := d.lid.map Text.reread
    pywhatsVersion := Text.reread d.pywhatsVersion
    schemaVersion := StoreFile.schemaVersion }

/-- The integers of a store that have no bound. -/
def DeviceStore.integers (d : DeviceStore) : List Int :=
  d.signedPreKeyId :: (d.jid.toList.map JIDTuple.device ++ d.deviceId.toList)

def DeviceStore.texts (d : DeviceStore) : List Text :=
  d.pywhatsVersion :: (d.jid.toList.flatMap (fun jid => [jid.user, jid.server]) ++
    d.pushName.toList ++ d.lid.toList)

variable {B : Builtins}

theorem reread_b64e (b : Bytes) : reread (b64e b) = some (b64e b) := by
  rw [b64e, reread, Text.reread_chars]

theorem b64d_b64e (b : Bytes) : b64d B (b64e b) = .ok b := by
  rw [b64e, b64d, Text.chars?_chars, Option.bind_some, Base64.decode_encoded]

theorem reread_int {n : Int} (h : n.natAbs < 10 ^ maxStrDigits) : reread (.int n) = some (.int n) := by
  rw [reread, if_pos h]

theorem lt_of_small {n : Int} (h : n.natAbs < 10 ^ 10) : n.natAbs < 10 ^ maxStrDigits :=
  lt_of_lt_of_le h (Nat.pow_le_pow_right (by decide) (by decide))

theorem reread_nullable {α : Type} (write : α → PyJson) (o : Option α) (g : α → α)
    (h : ∀ a, o = some a → reread (write a) = some (write (g a))) :
    reread (nullable write o) = some (nullable write (o.map g)) := by
  cases o with
  | none => rfl
  | some a => exact h a rfl

theorem given_some {α : Type} {read : PyJson → Except Raised α} {data : Fields} {key : String}
    {value : PyJson} (hget : get? data key = some value) (hnull : value ≠ .null) :
    given read data key = (read value).map some := by
  rw [given, hget]
  cases value with
  | null => exact absurd rfl hnull
  | _ => rfl

theorem given_nullable {α : Type} {read : PyJson → Except Raised α} (write : α → PyJson)
    {data : Fields} {key : String} {o : Option α} (hget : get? data key = some (nullable write o))
    (hread : ∀ a, read (write a) = .ok a) (hnull : ∀ a, write a ≠ .null) :
    given read data key = .ok o := by
  cases o with
  | none => rw [given, hget, nullable]
  | some a =>
    rw [given_some hget (hnull a), nullable, hread]
    rfl

/-- An object of the store comes back under its keys. -/
theorem reread_object (fields fields' : List (String × PyJson))
    (h : List.Forall₂ (fun f g => f.1 = g.1 ∧ reread f.2 = some g.2) fields fields')
    (hnodup : (fields'.map Prod.fst).Nodup) :
    ∃ raw, reread (object fields) = some (.obj raw) ∧
      ∀ key value, get? raw key = some value ↔ (key, value) ∈ fields' := by
  have hkeys : (fields'.map fun f => (Text.ofString f.1, f.2)).map Prod.fst =
      (fields'.map Prod.fst).map Text.ofString := by
    rw [List.map_map, List.map_map]
    rfl
  have hinj : Function.Injective Text.ofString := fun _ _ h => Text.ofString_inj.mp h
  obtain ⟨raw, hraw, hget⟩ := PyJson.reread_obj (fields.map fun f => (Text.ofString f.1, f.2))
    (fields'.map fun f => (Text.ofString f.1, f.2))
    (by
      rw [List.forall₂_map_left_iff, List.forall₂_map_right_iff]
      exact h.imp fun f g hfg => ⟨congrArg Text.ofString hfg.1, hfg.2⟩)
    (by
      intro f hf
      obtain ⟨g, _, rfl⟩ := List.mem_map.mp hf
      exact Text.reread_chars _)
    (by
      rw [hkeys]
      exact hnodup.map hinj)
  refine ⟨raw, hraw, fun key value => ?_⟩
  rw [hget, List.mem_map]
  constructor
  · rintro ⟨f, hf, heq⟩
    rw [← hinj (Prod.mk.inj heq).1, ← (Prod.mk.inj heq).2]
    exact hf
  · intro hmem
    exact ⟨_, hmem, rfl⟩

theorem ok_bind {α β : Type} {a : α} {f : α → Except Raised β} : (Except.ok a >>= f) = f a := rfl

theorem item_of_get {data : Fields} {key : String} {value : PyJson}
    (h : get? data key = some value) : item data key = .ok value := by
  rw [item, h]

theorem getOr_of_get {α : Type} {read : PyJson → Except Raised α} {default : α} {data : Fields}
    {key : String} {value : PyJson} (h : get? data key = some value) :
    getOr read default data key = read value := by
  rw [getOr, h]

theorem binary_of_get {data : Fields} {key : String} {b : Bytes}
    (h : get? data key = some (b64e b)) : binary B data key = .ok b := by
  rw [binary, item_of_get h]
  exact b64d_b64e b

theorem reread_jidObject {jid : JIDTuple} (h : jid.device.natAbs < 10 ^ maxStrDigits) :
    ∃ raw, reread (jidObject jid) = some (.obj raw) ∧ jidTuple B (.obj raw) = .ok jid.reread := by
  obtain ⟨raw, hraw, hget⟩ := reread_object
    [("user", .str jid.user), ("server", .str jid.server), ("device", .int jid.device)]
    [("user", .str jid.reread.user), ("server", .str jid.reread.server), ("device", .int jid.device)]
    (.cons ⟨rfl, rfl⟩ (.cons ⟨rfl, rfl⟩ (.cons ⟨rfl, reread_int h⟩ .nil))) (by simp)
  refine ⟨raw, hraw, ?_⟩
  have huser : item raw "user" = .ok (.str jid.reread.user) :=
    item_of_get ((hget _ _).mpr (by simp))
  have hserver : item raw "server" = .ok (.str jid.reread.server) :=
    item_of_get ((hget _ _).mpr (by simp))
  have hdevice : item raw "device" = .ok (.int jid.device) :=
    item_of_get ((hget _ _).mpr (by simp))
  rw [jidTuple, huser, hserver, hdevice]
  rfl

theorem reread_signedPreKeyObject {d : DeviceStore}
    (h : d.signedPreKeyId.natAbs < 10 ^ maxStrDigits) :
    ∃ spk, reread (signedPreKeyObject d) = some (.obj spk) ∧
      item spk "id" = .ok (.int d.signedPreKeyId) ∧
      binary B spk "private" = .ok d.signedPreKeyPrivate ∧
      binary B spk "public" = .ok d.signedPreKeyPublic ∧
      binary B spk "signature" = .ok d.signedPreKeySignature := by
  obtain ⟨spk, hspk, hget⟩ := reread_object
    [("id", .int d.signedPreKeyId), ("private", b64e d.signedPreKeyPrivate),
      ("public", b64e d.signedPreKeyPublic), ("signature", b64e d.signedPreKeySignature)] _
    (.cons ⟨rfl, reread_int h⟩ (.cons ⟨rfl, reread_b64e _⟩ (.cons ⟨rfl, reread_b64e _⟩
      (.cons ⟨rfl, reread_b64e _⟩ .nil)))) (by simp)
  exact ⟨spk, hspk, item_of_get ((hget _ _).mpr (by simp)),
    binary_of_get ((hget _ _).mpr (by simp)), binary_of_get ((hget _ _).mpr (by simp)),
    binary_of_get ((hget _ _).mpr (by simp))⟩

theorem reread_jid {o : Option JIDTuple}
    (h : ∀ jid, o = some jid → jid.device.natAbs < 10 ^ maxStrDigits) :
    ∃ value, reread (nullable jidObject o) = some value ∧
      ∀ {data key}, get? data key = some value →
        given (jidTuple B) data key = .ok (o.map JIDTuple.reread) := by
  cases o with
  | none =>
    refine ⟨.null, rfl, fun hget => ?_⟩
    rw [given, hget]
    rfl
  | some jid =>
    obtain ⟨raw, hraw, htuple⟩ := reread_jidObject (B := B) (h jid rfl)
    refine ⟨.obj raw, hraw, fun hget => ?_⟩
    rw [given_some hget (fun h => by cases h), htuple]
    rfl

theorem reread_textOrNull (o : Option Text) :
    reread (nullable .str o) = some (nullable .str (o.map Text.reread)) :=
  reread_nullable .str o Text.reread fun _ _ => rfl

/-- What the file of a store holds, the two inner objects apart. -/
def readBack (d : DeviceStore) (spk : Fields) (jid : PyJson) : List (String × PyJson) :=
  [("version", .int schemaVersion), ("schema_version", .int schemaVersion),
    ("pywhats_version", .str d.reread.pywhatsVersion), ("created_at", .float d.createdAt),
    ("noise_private", b64e d.noisePrivate), ("noise_public", b64e d.noisePublic),
    ("identity_private", b64e d.identityPrivate), ("identity_public", b64e d.identityPublic),
    ("registration_id", .int d.registrationId), ("signed_pre_key", .obj spk), ("jid", jid),
    ("device_id", nullable .int d.deviceId),
    ("adv_signed_device_identity", nullable b64e d.advSignedDeviceIdentity),
    ("push_name", nullable .str d.reread.pushName), ("lid", nullable .str d.reread.lid)]

theorem reread_toJson {d : DeviceStore} {spk : Fields} {jid : PyJson}
    (hspk : reread (signedPreKeyObject d) = some (.obj spk))
    (hjid : reread (nullable jidObject d.jid) = some jid)
    (hregistration : d.registrationId.natAbs < 10 ^ maxStrDigits)
    (hdeviceId : ∀ n, d.deviceId = some n → n.natAbs < 10 ^ maxStrDigits) :
    ∃ data, reread (toJson d) = some (.obj data) ∧
      ∀ key value, get? data key = some value ↔ (key, value) ∈ readBack d spk jid := by
  have hdevice := reread_nullable .int d.deviceId id fun n h => reread_int (hdeviceId n h)
  have hadv := reread_nullable b64e d.advSignedDeviceIdentity id fun b _ => reread_b64e b
  rw [Option.map_id] at hdevice hadv
  have hone : reread (.int schemaVersion) = some (.int schemaVersion) :=
    reread_int (lt_of_small (by decide))
  exact reread_object (entries d) (readBack d spk jid)
    (.cons ⟨rfl, hone⟩ (.cons ⟨rfl, hone⟩ (.cons ⟨rfl, rfl⟩ (.cons ⟨rfl, rfl⟩
      (.cons ⟨rfl, reread_b64e _⟩ (.cons ⟨rfl, reread_b64e _⟩ (.cons ⟨rfl, reread_b64e _⟩
      (.cons ⟨rfl, reread_b64e _⟩ (.cons ⟨rfl, reread_int hregistration⟩ (.cons ⟨rfl, hspk⟩
      (.cons ⟨rfl, hjid⟩ (.cons ⟨rfl, hdevice⟩ (.cons ⟨rfl, hadv⟩
      (.cons ⟨rfl, reread_textOrNull _⟩ (.cons ⟨rfl, reread_textOrNull _⟩ .nil)))))))))))))))
    (by simp [readBack])

/-- A store whose integers `json` can write is written, and read field by field. -/
theorem written {d : DeviceStore} (hregistration : d.registrationId.natAbs < 10 ^ maxStrDigits)
    (hintegers : ∀ n ∈ d.integers, n.natAbs < 10 ^ maxStrDigits) :
    ∃ data spk jid, reread (toJson d) = some (.obj data) ∧
      (∀ key value, get? data key = some value ↔ (key, value) ∈ readBack d spk jid) ∧
      item spk "id" = .ok (.int d.signedPreKeyId) ∧
      binary B spk "private" = .ok d.signedPreKeyPrivate ∧
      binary B spk "public" = .ok d.signedPreKeyPublic ∧
      binary B spk "signature" = .ok d.signedPreKeySignature ∧
      given (jidTuple B) data "jid" = .ok d.reread.jid := by
  obtain ⟨spk, hspk, hid, hprivate, hpublic, hsignature⟩ :=
    reread_signedPreKeyObject (B := B) (d := d) (hintegers _ (by simp [DeviceStore.integers]))
  obtain ⟨jid, hjid, hread⟩ := reread_jid (B := B) (o := d.jid) fun jid h =>
    hintegers _ (by simp [DeviceStore.integers, h])
  obtain ⟨data, hdata, hget⟩ := reread_toJson hspk hjid hregistration fun n h =>
    hintegers n (by simp [DeviceStore.integers, h])
  have hraw : get? data "jid" = some jid := (hget _ _).mpr (by simp [readBack])
  exact ⟨data, spk, jid, hdata, hget, hid, hprivate, hpublic, hsignature, hread hraw⟩

theorem readFields_readBack {d : DeviceStore} {data spk : Fields} {jid : PyJson} (now : PyFloat)
    (hget : ∀ key value, get? data key = some value ↔ (key, value) ∈ readBack d spk jid)
    (hregistration : 0 ≤ d.registrationId ∧ d.registrationId ≤ 0xFFFFFFFF)
    (hid : item spk "id" = .ok (.int d.signedPreKeyId))
    (hprivate : binary B spk "private" = .ok d.signedPreKeyPrivate)
    (hpublic : binary B spk "public" = .ok d.signedPreKeyPublic)
    (hsignature : binary B spk "signature" = .ok d.signedPreKeySignature)
    (hjid : given (jidTuple B) data "jid" = .ok d.reread.jid) :
    readFields B now data = .ok d.reread := by
  have hspk : item data "signed_pre_key" = .ok (.obj spk) :=
    item_of_get ((hget _ _).mpr (by simp [readBack]))
  have hadv : given (b64d B) data "adv_signed_device_identity" = .ok d.advSignedDeviceIdentity :=
    given_nullable b64e ((hget _ _).mpr (by simp [readBack])) b64d_b64e (fun _ h => by cases h)
  have hreg : item data "registration_id" = .ok (.int d.registrationId) :=
    item_of_get ((hget _ _).mpr (by simp [readBack]))
  have hregId : registrationId (.int d.registrationId) = .ok d.registrationId := if_neg (by omega)
  have hnoisePrivate : binary B data "noise_private" = .ok d.noisePrivate :=
    binary_of_get ((hget _ _).mpr (by simp [readBack]))
  have hnoisePublic : binary B data "noise_public" = .ok d.noisePublic :=
    binary_of_get ((hget _ _).mpr (by simp [readBack]))
  have hidentityPrivate : binary B data "identity_private" = .ok d.identityPrivate :=
    binary_of_get ((hget _ _).mpr (by simp [readBack]))
  have hidentityPublic : binary B data "identity_public" = .ok d.identityPublic :=
    binary_of_get ((hget _ _).mpr (by simp [readBack]))
  have hdeviceId : given (int B) data "device_id" = .ok d.deviceId :=
    given_nullable .int ((hget _ _).mpr (by simp [readBack])) (fun _ => rfl) (fun _ h => by cases h)
  have hpushName : given (fun value => .ok (str B value)) data "push_name" = .ok d.reread.pushName :=
    given_nullable .str ((hget _ _).mpr (by simp [readBack])) (fun _ => rfl) (fun _ h => by cases h)
  have hlid : given (fun value => .ok (str B value)) data "lid" = .ok d.reread.lid :=
    given_nullable .str ((hget _ _).mpr (by simp [readBack])) (fun _ => rfl) (fun _ h => by cases h)
  have hcreatedAt : getOr (float B) now data "created_at" = .ok d.createdAt :=
    getOr_of_get ((hget _ (.float d.createdAt)).mpr (by simp [readBack]))
  have hpywhatsVersion : getOr (fun value => .ok (str B value)) [] data "pywhats_version" =
      .ok d.reread.pywhatsVersion :=
    getOr_of_get ((hget _ (.str d.reread.pywhatsVersion)).mpr (by simp [readBack]))
  have hschema : getOr (int B) schemaVersion data "schema_version" = .ok schemaVersion :=
    getOr_of_get ((hget _ (.int schemaVersion)).mpr (by simp [readBack]))
  simp only [readFields, hspk, hjid, hadv, hreg, hregId, hnoisePrivate, hnoisePublic,
    hidentityPrivate, hidentityPublic, hid, hprivate, hpublic, hsignature, hdeviceId, hpushName,
    hlid, hcreatedAt, hpywhatsVersion, hschema, ok_bind, signedPreKey, int]
  rfl

theorem fromJson_reread {d : DeviceStore} (now : PyFloat)
    (hregistration : 0 ≤ d.registrationId ∧ d.registrationId ≤ 0xFFFFFFFF)
    (hintegers : ∀ n ∈ d.integers, n.natAbs < 10 ^ maxStrDigits) :
    ∃ data, reread (toJson d) = some data ∧ fromJson B now data = .ok d.reread := by
  obtain ⟨data, spk, jid, hdata, hget, hid, hprivate, hpublic, hsignature, hjid⟩ :=
    written (B := B) (lt_of_small (by omega)) hintegers
  have hversion : checkVersion B data = .ok () := by
    rw [checkVersion, (hget "version" (.int schemaVersion)).mpr (by simp [readBack])]
    rfl
  have hfields :=
    readFields_readBack now hget hregistration hid hprivate hpublic hsignature hjid
  refine ⟨.obj data, hdata, ?_⟩
  rw [fromJson, hversion, hfields]
  rfl

theorem option_map_eq_self {α : Type} {f : α → α} {o : Option α} :
    o.map f = o ↔ ∀ a ∈ o.toList, f a = a := by
  cases o <;> simp

theorem JIDTuple.reread_eq_iff (jid : JIDTuple) :
    jid.reread = jid ↔ Text.joins jid.user = false ∧ Text.joins jid.server = false := by
  obtain ⟨user, server, device⟩ := jid
  rw [← Text.reread_eq_iff, ← Text.reread_eq_iff]
  simp [JIDTuple.reread]

theorem DeviceStore.reread_eq_iff (d : DeviceStore) :
    d.reread = { d with schemaVersion := StoreFile.schemaVersion } ↔
      ∀ s ∈ d.texts, Text.joins s = false := by
  have hjid : d.jid.map JIDTuple.reread = d.jid ↔
      ∀ s ∈ d.jid.toList.flatMap (fun jid => [jid.user, jid.server]), Text.joins s = false := by
    rw [option_map_eq_self]
    simp only [JIDTuple.reread_eq_iff, List.mem_flatMap, List.mem_cons, List.not_mem_nil, or_false]
    constructor
    · rintro h s ⟨jid, hjid, rfl | rfl⟩
      · exact (h jid hjid).1
      · exact (h jid hjid).2
    · intro h jid hjid
      exact ⟨h _ ⟨jid, hjid, Or.inl rfl⟩, h _ ⟨jid, hjid, Or.inr rfl⟩⟩
  have hname := option_map_eq_self (f := Text.reread) (o := d.pushName)
  have hlid := option_map_eq_self (f := Text.reread) (o := d.lid)
  have hversion := Text.reread_eq_iff d.pywhatsVersion
  simp only [Text.reread_eq_iff] at hname hlid
  simp only [DeviceStore.reread, DeviceStore.mk.injEq, DeviceStore.texts, List.forall_mem_cons,
    List.forall_mem_append, true_and, and_true, hjid, hname, hlid, hversion]
  tauto

theorem reread_of_object {fields : List (String × PyJson)} {data : PyJson}
    (h : reread (object fields) = some data) : ∀ f ∈ fields, ∃ value, reread f.2 = some value := by
  rw [object, reread, Option.map_eq_some_iff] at h
  obtain ⟨fields', hfields, _⟩ := h
  intro f hf
  exact PyJson.rereadFields_mem hfields _ (List.mem_map.mpr ⟨f, hf, rfl⟩)

theorem lt_of_reread {n : Int} {value : PyJson} (h : reread (.int n) = some value) :
    n.natAbs < 10 ^ maxStrDigits := by
  by_contra hlong
  rw [reread, if_neg hlong] at h
  cases h

theorem integers_of_reread {d : DeviceStore} {data : PyJson} (h : reread (toJson d) = some data) :
    d.registrationId.natAbs < 10 ^ maxStrDigits ∧
      ∀ n ∈ d.integers, n.natAbs < 10 ^ maxStrDigits := by
  have hall := reread_of_object h
  obtain ⟨_, hregistration⟩ := hall ("registration_id", .int d.registrationId) (by simp [entries])
  obtain ⟨_, hspk⟩ := hall ("signed_pre_key", signedPreKeyObject d) (by simp [entries])
  obtain ⟨_, hid⟩ := reread_of_object hspk ("id", .int d.signedPreKeyId) (by simp)
  obtain ⟨_, hjid⟩ := hall ("jid", nullable jidObject d.jid) (by simp [entries])
  obtain ⟨_, hdevice⟩ := hall ("device_id", nullable .int d.deviceId) (by simp [entries])
  refine ⟨lt_of_reread hregistration, ?_⟩
  simp only [DeviceStore.integers, List.forall_mem_cons, List.forall_mem_append, List.mem_map]
  refine ⟨lt_of_reread hid, ?_, ?_⟩
  · rintro n ⟨jid, hmem, rfl⟩
    rw [Option.mem_toList.mp hmem] at hjid
    obtain ⟨_, hn⟩ := reread_of_object hjid ("device", .int jid.device) (by simp)
    exact lt_of_reread hn
  · intro n hmem
    rw [Option.mem_toList.mp hmem] at hdevice
    exact lt_of_reread hdevice

/-- Reading the text that `save` writes gives the store again, in the current version. -/
def RoundTrips (B : Builtins) (now : PyFloat) (d : DeviceStore) : Prop :=
  ∃ data, reread (toJson d) = some data ∧
    fromJson B now data = .ok { d with schemaVersion := schemaVersion }

/-- A number that is no registration identifier is refused. -/
theorem registration_of_roundTrips {now : PyFloat} {d : DeviceStore} (h : RoundTrips B now d) :
    0 ≤ d.registrationId ∧ d.registrationId ≤ 0xFFFFFFFF := by
  obtain ⟨data, hdata, hread⟩ := h
  obtain ⟨hregistration, hintegers⟩ := integers_of_reread hdata
  obtain ⟨raw, spk, jid, hraw, hget, _⟩ := written (B := B) hregistration hintegers
  rw [hdata, Option.some.injEq] at hraw
  subst hraw
  have hfits : firstMisfit (inOrder B (.obj raw)) = .fits := by
    rw [← fitOf_fromJson now, hread]
    rfl
  have hfit : registrationFit (.int d.registrationId) = .fits := by
    have hmem := firstMisfit_fits hfits (required registrationFit raw "registration_id")
      (by simp [inOrder])
    rwa [required, (hget _ (.int d.registrationId)).mpr (by simp [readBack])] at hmem
  by_contra hrange
  rw [registrationFit, fitIf, if_neg (by simpa using hrange)] at hfit
  cases hfit

theorem roundTrips_iff (B : Builtins) (now : PyFloat) (d : DeviceStore) :
    RoundTrips B now d ↔ (0 ≤ d.registrationId ∧ d.registrationId ≤ 0xFFFFFFFF) ∧
      (∀ n ∈ d.integers, n.natAbs < 10 ^ maxStrDigits) ∧ ∀ s ∈ d.texts, Text.joins s = false := by
  constructor
  · intro h
    have hregistration := registration_of_roundTrips h
    obtain ⟨data, hdata, hread⟩ := h
    have hintegers := (integers_of_reread hdata).2
    obtain ⟨data', hdata', hread'⟩ := fromJson_reread (B := B) now hregistration hintegers
    rw [hdata, Option.some.injEq] at hdata'
    rw [← hdata', hread, Except.ok.injEq] at hread'
    exact ⟨hregistration, hintegers, d.reread_eq_iff.mp hread'.symm⟩
  · rintro ⟨hregistration, hintegers, htexts⟩
    obtain ⟨data, hdata, hread⟩ := fromJson_reread (B := B) now hregistration hintegers
    exact ⟨data, hdata, d.reread_eq_iff.mpr htexts ▸ hread⟩

end RoundTrip

/-- What is written is read back unless `json` changes one of its texts or cannot write one of its
integers, and a file is handled unless its first misfit overflows. -/
theorem store_format_iff (B : Builtins) (now : PyFloat) :
    (∀ d, RoundTrips B now d ↔ (0 ≤ d.registrationId ∧ d.registrationId ≤ 0xFFFFFFFF) ∧
      (∀ n ∈ d.integers, n.natAbs < 10 ^ PyJson.maxStrDigits) ∧
        ∀ s ∈ d.texts, Text.joins s = false) ∧
    ∀ data, Handled (fromJson B now data) ↔ firstMisfit (inOrder B data) ≠ .overflows :=
  ⟨roundTrips_iff B now, handled_iff now⟩

def wordless : Builtins where
  repr _ := []
  floatOfText _ := none
  intMessage _ := []
  floatMessage _ := []
  base64Message _ := []

/-- A file whose `jid.device` is `Infinity`. -/
def infiniteDevice : PyJson :=
  object
    [("version", .int 1),
     ("signed_pre_key", object []),
     ("jid", object
       [("user", .str (Text.ofString "15551234567")),
        ("server", .str (Text.ofString "s.whatsapp.net")),
        ("device", .float (.infinite false))])]

theorem infiniteDevice_escapes :
    fromJson wordless (.finite 0) infiniteDevice =
        .error (.overflowError "cannot convert float infinity to integer") ∧
      ¬ Handled (fromJson wordless (.finite 0) infiniteDevice) := by
  have hraised : fromJson wordless (.finite 0) infiniteDevice =
      .error (.overflowError "cannot convert float infinity to integer") := rfl
  rw [hraised]
  exact ⟨rfl, id⟩

end PyWhats.StoreFile
