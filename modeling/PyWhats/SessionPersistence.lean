import PyWhats.Lib.Json
import PyWhats.Lib.KeyedStore
import PyWhats.SessionStore

/-! Sessions that are saved and loaded between calls (`store.py` and the session
facet of `sqlite_store.py`): the JSON text of a state holds all of it, so a run that
goes through a store does what the run in memory does. -/

namespace PyWhats

section Text

def optionalText : Option String → Json
  | some s => .str s
  | none => .null

def SkippedEntry.toJson (entry : SkippedEntry) : Json :=
  .obj [("dh", .str entry.dh), ("n", .int entry.n), ("mk", .str entry.key)]

def SessionBlob.toJson (blob : SessionBlob) : Json :=
  .obj [
    ("schema", .int blob.schema),
    ("dhs_priv", .str blob.dhsPriv),
    ("dhs_pub", .str blob.dhsPub),
    ("dhr", optionalText blob.dhr),
    ("rk", .str blob.rk),
    ("cks", optionalText blob.cks),
    ("ckr", optionalText blob.ckr),
    ("ns", .int blob.ns),
    ("nr", .int blob.nr),
    ("pn", .int blob.pn),
    ("max_skip", .int blob.maxSkip),
    ("mkskipped", .arr (blob.mkskipped.map SkippedEntry.toJson))]

def textOf : Json → Option String
  | .str s => some s
  | _ => none

def natOf : Json → Option Nat
  | .int n => if 0 ≤ n then some n.toNat else none
  | _ => none

def optionalTextOf : Json → Option (Option String)
  | .null => some none
  | .str s => some (some s)
  | _ => none

def itemsOf : Json → Option (List Json)
  | .arr items => some items
  | _ => none

def SkippedEntry.ofJson (data : Json) : Option SkippedEntry := do
  let dh ← (data.get? "dh").bind textOf
  let n ← (data.get? "n").bind natOf
  let key ← (data.get? "mk").bind textOf
  return ⟨dh, n, key⟩

/-- An object with the fields of a session; `none` for any other text. -/
def SessionBlob.ofJson (data : Json) : Option SessionBlob := do
  let schema ← (data.get? "schema").bind natOf
  let dhsPriv ← (data.get? "dhs_priv").bind textOf
  let dhsPub ← (data.get? "dhs_pub").bind textOf
  let dhr ← (data.get? "dhr").bind optionalTextOf
  let rk ← (data.get? "rk").bind textOf
  let cks ← (data.get? "cks").bind optionalTextOf
  let ckr ← (data.get? "ckr").bind optionalTextOf
  let ns ← (data.get? "ns").bind natOf
  let nr ← (data.get? "nr").bind natOf
  let pn ← (data.get? "pn").bind natOf
  let maxSkip ← (data.get? "max_skip").bind natOf
  let items ← (data.get? "mkskipped").bind itemsOf
  let mkskipped ← items.mapM SkippedEntry.ofJson
  return {
    schema := schema
    dhsPriv := dhsPriv
    dhsPub := dhsPub
    dhr := dhr
    rk := rk
    cks := cks
    ckr := ckr
    ns := ns
    nr := nr
    pn := pn
    maxSkip := maxSkip
    mkskipped := mkskipped }

def sessionText (blob : SessionBlob) : String := String.ofList blob.toJson.dumps

/-- `deserialize_state(json.loads(text))`. -/
def loadSessionText (text : String) : Except PyError RatchetState :=
  match (Json.loads text.toList).bind SessionBlob.ofJson with
  | some blob => deserializeState blob
  | none => .error (.valueError "not a stored session")

@[simp] theorem optionalTextOf_optionalText (s : Option String) :
    optionalTextOf (optionalText s) = some s := by
  cases s <;> rfl

@[simp] theorem natOf_int (n : Nat) : natOf (.int n) = some n := by
  simp [natOf]

theorem SkippedEntry.ofJson_toJson (entry : SkippedEntry) :
    SkippedEntry.ofJson entry.toJson = some entry := by
  simp [ofJson, toJson, Json.get?, textOf]

theorem mapM_map_inverse {α β : Type} {f : α → β} {g : β → Option α}
    (h : ∀ a, g (f a) = some a) (as : List α) : (as.map f).mapM g = some as := by
  induction as with
  | nil => rfl
  | cons a as ih => simp [h, ih]

theorem SessionBlob.ofJson_toJson (blob : SessionBlob) :
    SessionBlob.ofJson blob.toJson = some blob := by
  have hentries := mapM_map_inverse SkippedEntry.ofJson_toJson blob.mkskipped
  simp [ofJson, toJson, Json.get?, textOf, itemsOf, hentries]

theorem loadSessionText_sessionText (state : RatchetState) :
    loadSessionText (sessionText (serializeState state)) = .ok state := by
  rw [loadSessionText, sessionText, String.toList_ofList, Json.loads_dumps, Option.bind_some,
    SessionBlob.ofJson_toJson]
  exact deserializeState_serializeState state

end Text

section Stores

def inMemorySessionStore : KeyedStore PyError String RatchetState SessionBlob where
  encode _ state := .ok (serializeState state)
  decode _ blob := loadSessionText (sessionText blob)

def sqliteSessionStore : KeyedStore PyError String RatchetState String where
  encode _ state := .ok (sessionText (serializeState state))
  decode _ text := loadSessionText text

theorem inMemorySessionStore_keeps (sessionId : String) (state : RatchetState) :
    inMemorySessionStore.Keeps sessionId state (serializeState state) :=
  ⟨rfl, rfl, loadSessionText_sessionText state⟩

theorem sqliteSessionStore_keeps (sessionId : String) (state : RatchetState) :
    sqliteSessionStore.Keeps sessionId state (sessionText (serializeState state)) :=
  ⟨rfl, rfl, loadSessionText_sessionText state⟩

end Stores

section Runs

variable {P : Primitives}

/-- A call of the ratchet, with the key pair that it may generate. -/
inductive RatchetCall (P : Primitives) where
  | encrypt (plaintext associatedData : Bytes)
  | decrypt (generated : KeyPair P) (header : MessageHeader) (ciphertext associatedData : Bytes)
      (verifyMac : Option MacVerifier)

inductive RatchetReturn where
  | message (header : MessageHeader) (ciphertext macKey : Bytes)
  | plaintext (data : Bytes)

def RatchetCall.run : RatchetCall P → RatchetM RatchetReturn
  | .encrypt plaintext associatedData => do
    let (header, ciphertext, macKey) ← ratchetEncrypt P plaintext associatedData
    return .message header ciphertext macKey
  | .decrypt generated header ciphertext associatedData verifyMac => do
    let plaintext ← ratchetDecrypt P generated header ciphertext associatedData verifyMac
    return .plaintext plaintext

/-- What a call returned or raised, and the state after it with the skipped keys in
the order in which they will be evicted. -/
structure CallOutcome where
  result : Except PyError RatchetReturn
  state : RatchetState

def RatchetCall.outcome (call : RatchetCall P) (state : RatchetState) : CallOutcome :=
  match call.run.run state with
  | .ok r state => ⟨.ok r, state⟩
  | .error e state => ⟨.error e, state⟩

def runInMemory : RatchetState → List (RatchetCall P) → List CallOutcome
  | _, [] => []
  | state, call :: calls =>
    call.outcome state :: runInMemory (call.outcome state).state calls

inductive SessionBackend where
  | inMemory
  | sqlite

/-- `reload` saves the state and goes on with what it loads. -/
inductive SessionEvent (P : Primitives) where
  | call (call : RatchetCall P)
  | reload (backend : SessionBackend) (sessionId : String)

/-- The live state and both stores, which may hold other sessions. -/
structure SessionWorld where
  state : RatchetState
  memory : OrderedMap String SessionBlob
  sqlite : OrderedMap String String

def saveAndLoad {ρ : Type} (S : KeyedStore PyError String RatchetState ρ)
    (table : OrderedMap String ρ) (sessionId : String) (state : RatchetState) :
    Except PyError (RatchetState × OrderedMap String ρ) := do
  let table ← S.save table sessionId state
  match ← S.load table sessionId with
  | some state => return (state, table)
  | none => throw (.runtimeError "session vanished")

def SessionWorld.reload (w : SessionWorld) (sessionId : String) :
    SessionBackend → Except PyError SessionWorld
  | .inMemory => do
    let (state, memory) ← saveAndLoad inMemorySessionStore w.memory sessionId w.state
    return { w with state := state, memory := memory }
  | .sqlite => do
    let (state, sqlite) ← saveAndLoad sqliteSessionStore w.sqlite sessionId w.state
    return { w with state := state, sqlite := sqlite }

def runPersisted : SessionWorld → List (SessionEvent P) → Except PyError (List CallOutcome)
  | _, [] => .ok []
  | w, .call call :: events => do
    let outcome := call.outcome w.state
    let rest ← runPersisted { w with state := outcome.state } events
    return outcome :: rest
  | w, .reload backend sessionId :: events => do
    let w ← w.reload sessionId backend
    runPersisted w events

def callsOf : List (SessionEvent P) → List (RatchetCall P)
  | [] => []
  | .call call :: events => call :: callsOf events
  | .reload _ _ :: events => callsOf events

theorem saveAndLoad_eq {ρ : Type} {S : KeyedStore PyError String RatchetState ρ}
    {sessionId : String} {state : RatchetState} {row : ρ} (h : S.Keeps sessionId state row)
    (table : OrderedMap String ρ) :
    saveAndLoad S table sessionId state = .ok (state, table.set sessionId row) := by
  have hload := h.load_saved table
  simp only [saveAndLoad, h.save_eq]
  change (S.load (table.set sessionId row) sessionId >>= _ :
    Except PyError (RatchetState × OrderedMap String ρ)) = _
  rw [hload]
  rfl

/-- Saving and loading leaves the live state as it was. -/
theorem SessionWorld.reload_state (w : SessionWorld) (sessionId : String)
    (backend : SessionBackend) : ∃ w', w.reload sessionId backend = .ok w' ∧ w'.state = w.state := by
  cases backend with
  | inMemory =>
    simp only [reload, saveAndLoad_eq (inMemorySessionStore_keeps sessionId w.state)]
    exact ⟨_, rfl, rfl⟩
  | sqlite =>
    simp only [reload, saveAndLoad_eq (sqliteSessionStore_keeps sessionId w.state)]
    exact ⟨_, rfl, rfl⟩

theorem runPersisted_eq (w : SessionWorld) (events : List (SessionEvent P)) :
    runPersisted w events = .ok (runInMemory w.state (callsOf events)) := by
  induction events generalizing w with
  | nil => rfl
  | cons event events ih =>
    cases event with
    | call call =>
      simp only [runPersisted, callsOf, runInMemory, ih]
      rfl
    | reload backend sessionId =>
      obtain ⟨w', hw', hstate⟩ := w.reload_state sessionId backend
      simp only [runPersisted, callsOf, hw']
      have hrest := ih w'
      rw [hstate] at hrest
      exact hrest

theorem persistence_is_invisible :
    (∀ state, loadSessionText (sessionText (serializeState state)) = .ok state) ∧
      ∀ (w : SessionWorld) (events : List (SessionEvent P)),
        runPersisted w events = .ok (runInMemory w.state (callsOf events)) :=
  ⟨loadSessionText_sessionText, runPersisted_eq⟩

end Runs

end PyWhats
