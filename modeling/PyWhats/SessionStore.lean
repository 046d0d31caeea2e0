import PyWhats.Lib.Base64
import PyWhats.Ratchet

/-! Sessions as the stores keep them (`store.py`). -/

namespace PyWhats

def schemaVersion : Nat := 1

structure SkippedEntry where
  dh : String
  n : Nat
  key : String

/-- The JSON object with the fields that `serialize_state` writes. -/
structure SessionBlob where
  schema : Nat
  dhsPriv : String
  dhsPub : String
  dhr : Option String
  rk : String
  cks : Option String
  ckr : Option String
  ns : Nat
  nr : Nat
  pn : Nat
  maxSkip : Nat
  mkskipped : List SkippedEntry

def b64 (b : Bytes) : String := String.ofList (Base64.encode b)

def unb64 (s : String) : Except PyError Bytes :=
  match Base64.decode s.toList with
  | some b => .ok b
  | none => .error (.signalCryptoError "invalid stored session encoding")

def serializeState (state : RatchetState) : SessionBlob where
  schema := schemaVersion
  dhsPriv := b64 state.dhsPriv
  dhsPub := b64 state.dhsPub
  dhr := state.dhr.map b64
  rk := b64 state.rk
  cks := state.cks.map b64
  ckr := state.ckr.map b64
  ns := state.ns
  nr := state.nr
  pn := state.pn
  maxSkip := state.maxSkip
  mkskipped := state.mkskipped.entries.map fun e => ⟨b64 e.1.1, e.1.2, b64 e.2⟩

def loadSkipped (m : OrderedMap (Bytes × Nat) Bytes) :
    List SkippedEntry → Except PyError (OrderedMap (Bytes × Nat) Bytes)
  | [] => .ok m
  | entry :: rest => do
    let mk ← unb64 entry.key
    let dh ← unb64 entry.dh
    loadSkipped (m.set (dh, entry.n) mk) rest

def unb64Option : Option String → Except PyError (Option Bytes)
  | none => .ok none
  | some s => some <$> unb64 s

def deserializeState (data : SessionBlob) : Except PyError RatchetState := do
  if data.schema ≠ schemaVersion then
    throw (.signalCryptoError "unsupported session schema version")
  let dhsPriv ← unb64 data.dhsPriv
  let dhsPub ← unb64 data.dhsPub
  let rk ← unb64 data.rk
  let dhr ← unb64Option data.dhr
  let cks ← unb64Option data.cks
  let ckr ← unb64Option data.ckr
  let mkskipped ← loadSkipped .empty data.mkskipped
  return {
    dhsPriv := dhsPriv
    dhsPub := dhsPub
    dhr := dhr
    rk := rk
    cks := cks
    ckr := ckr
    ns := data.ns
    nr := data.nr
    pn := data.pn
    mkskipped := mkskipped
    maxSkip := data.maxSkip }

@[simp] theorem unb64_b64 (b : Bytes) : unb64 (b64 b) = .ok b := by
  rw [unb64, b64, String.toList_ofList, Base64.decode_encoded]

@[simp] theorem unb64Option_b64 (b : Option Bytes) : unb64Option (b.map b64) = .ok b := by
  cases b with
  | none => rfl
  | some b => simp [unb64Option]

/-- Storing the entries in their order after those of `m`. -/
theorem loadSkipped_entries (entries : List ((Bytes × Nat) × Bytes))
    (m : OrderedMap (Bytes × Nat) Bytes)
    (h : ((m.entries ++ entries).map Prod.fst).Nodup) :
    loadSkipped m (entries.map fun e => ⟨b64 e.1.1, e.1.2, b64 e.2⟩) =
      .ok ⟨m.entries ++ entries, h⟩ := by
  induction entries generalizing m with
  | nil =>
    simp only [List.append_nil]
    rfl
  | cons e entries ih =>
    have hnew : e.1 ∉ m.entries.map Prod.fst := by
      rw [List.map_append, List.map_cons] at h
      exact fun hmem => (List.nodup_append.mp h).2.2 _ hmem _ List.mem_cons_self rfl
    have hset : (m.set e.1 e.2).entries = m.entries ++ [e] := by
      rw [OrderedMap.set, dif_neg hnew]
    have hrest : (((m.set e.1 e.2).entries ++ entries).map Prod.fst).Nodup := by
      rw [hset, List.append_assoc]
      exact h
    simp only [List.map_cons, loadSkipped, unb64_b64]
    refine (ih _ hrest).trans (congrArg Except.ok (OrderedMap.ext ?_))
    simp only [hset, List.append_assoc, List.singleton_append]

theorem deserializeState_serializeState (state : RatchetState) :
    deserializeState (serializeState state) = .ok state := by
  have hskipped := loadSkipped_entries state.mkskipped.entries .empty state.mkskipped.nodup
  simp only [deserializeState, serializeState, ne_eq, not_true_eq_false, if_false, unb64_b64,
    unb64Option_b64]
  change (loadSkipped .empty _ >>= _ : Except PyError RatchetState) = _
  rw [hskipped]
  rfl

end PyWhats
