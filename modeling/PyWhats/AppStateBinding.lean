import Mathlib.Data.Set.Function
import PyWhats.Collection

/-! What the MACs of a patch pin down. The patch MAC is computed over the value MACs
and the version, each value MAC over the operation, the key id and the ciphertext,
and the rest of a mutation is computed from these. -/

namespace PyWhats.AppState

def contentMessage (m : SyncdMutation) : Bytes :=
  Binary.byte (m.operation.number + 1).toNat :: m.record.keyId ++ contentOf m.record.value ++
    Binary.toBytesBig 8 (m.record.keyId.length + 1)

def patchMessage (name : String) (patch : SyncdPatch) : Bytes :=
  patch.snapshotMac ++ patch.mutations.flatMap (fun m => valueMacOf m.record.value) ++
    Binary.toBytesBig 8 patch.version ++ Binary.utf8Encode name

section Inputs

variable (L : Libraries) (keyStore : AppStateKeyStore)

def contentInputs (patch : SyncdPatch) : Set (Bytes × Bytes) :=
  {input | ∃ m ∈ patch.mutations, ∃ keyData, keyStore m.record.keyId = some keyData ∧
    input = ((expandAppStateKeys L keyData).valueMac, contentMessage m)}

def patchInputs (name : String) (patch : SyncdPatch) : Set (Bytes × Bytes) :=
  {input | ∃ keyData, keyStore patch.keyId = some keyData ∧
    input = ((expandAppStateKeys L keyData).patchMac, patchMessage name patch)}

def syncKeys : Set Bytes := {keyData | ∃ keyId, keyStore keyId = some keyData}

end Inputs

/-- What is assumed of the MACs, on the keys and messages that two decodes compute
them over: HMAC-SHA256 and the truncated HMAC-SHA512 have no collision there, and
different sync keys expand to different sub-keys. -/
structure MacsInjective (L : Libraries) (name : String) (keyStore₁ keyStore₂ : AppStateKeyStore)
    (patch₁ patch₂ : SyncdPatch) : Prop where
  hmac : Set.InjOn (fun input => L.primitives.hmac input.1 input.2)
    (patchInputs L keyStore₁ name patch₁ ∪ patchInputs L keyStore₂ name patch₂)
  content : Set.InjOn (fun input => (L.hmacSha512 input.1 input.2).take 32)
    (contentInputs L keyStore₁ patch₁ ∪ contentInputs L keyStore₂ patch₂)
  expand : Set.InjOn (fun keyData => (expandAppStateKeys L keyData).valueMac)
    (syncKeys keyStore₁ ∪ syncKeys keyStore₂)

section Parsing

theorem SyncdOperation.number_inj {a b : SyncdOperation} (h : a.number = b.number) : a = b := by
  cases a with
  | set => cases b with
    | set => rfl
    | remove => simp [number] at h
    | unknown n hn => exact absurd h.symm hn.1
  | remove => cases b with
    | set => simp [number] at h
    | remove => rfl
    | unknown n hn => exact absurd h.symm hn.2
  | unknown n hn => cases b with
    | set => exact absurd h hn.1
    | remove => exact absurd h hn.2
    | unknown k hk =>
      simp only [number] at h
      subst h
      rfl

/-- Chunks of one positive length are read back from their concatenation. -/
theorem forall₂_of_flatMap_eq {α β γ : Type} {f : α → List γ} {g : β → List γ} {n : Nat}
    (hn : 0 < n) {as : List α} {bs : List β} (hf : ∀ a ∈ as, (f a).length = n)
    (hg : ∀ b ∈ bs, (g b).length = n) (h : as.flatMap f = bs.flatMap g) :
    List.Forall₂ (fun a b => f a = g b) as bs := by
  induction as generalizing bs with
  | nil =>
    cases bs with
    | nil => exact .nil
    | cons b bs =>
      have hlen := congrArg List.length h
      simp only [List.flatMap_nil, List.flatMap_cons, List.length_nil, List.length_append,
        hg b List.mem_cons_self] at hlen
      omega
  | cons a as ih =>
    have ha := hf a List.mem_cons_self
    cases bs with
    | nil =>
      have hlen := congrArg List.length h
      simp only [List.flatMap_nil, List.flatMap_cons, List.length_nil, List.length_append,
        ha] at hlen
      omega
    | cons b bs =>
      have hb := hg b List.mem_cons_self
      rw [List.flatMap_cons, List.flatMap_cons] at h
      obtain ⟨hhead, htail⟩ := List.append_inj h (ha.trans hb.symm)
      exact .cons hhead (ih (fun x hx => hf x (List.mem_cons_of_mem _ hx))
        (fun x hx => hg x (List.mem_cons_of_mem _ hx)) htail)

def fitsByte (operation : SyncdOperation) : Prop :=
  0 ≤ operation.number + 1 ∧ operation.number + 1 < 256

/-- The length at the end says where the key id stops. -/
theorem contentMessage_inj {m₁ m₂ : SyncdMutation} (hop₁ : fitsByte m₁.operation)
    (hop₂ : fitsByte m₂.operation) (hkey₁ : m₁.record.keyId.length + 1 < 256 ^ 8)
    (hkey₂ : m₂.record.keyId.length + 1 < 256 ^ 8) (h : contentMessage m₁ = contentMessage m₂) :
    m₁.operation = m₂.operation ∧ m₁.record.keyId = m₂.record.keyId ∧
      contentOf m₁.record.value = contentOf m₂.record.value := by
  simp only [contentMessage, List.cons_append, List.cons.injEq] at h
  obtain ⟨hop, hrest⟩ := h
  obtain ⟨hbody, hlength⟩ := List.append_inj' hrest
    (by rw [Binary.toBytesBig_length, Binary.toBytesBig_length])
  have hlen := Binary.toBytesBig_inj hkey₁ hkey₂ hlength
  obtain ⟨hkey, hcontent⟩ := List.append_inj hbody (by omega)
  have hnumber := congrArg UInt8.toNat hop
  obtain ⟨hlow₁, hhigh₁⟩ := hop₁
  obtain ⟨hlow₂, hhigh₂⟩ := hop₂
  rw [Binary.byte_toNat (by omega), Binary.byte_toNat (by omega)] at hnumber
  exact ⟨SyncdOperation.number_inj (by omega), hkey, hcontent⟩

/-- Value MACs of 32 bytes each and a version of eight leave one way to read a patch. -/
theorem patchMessage_inj {name : String} {p₁ p₂ : SyncdPatch}
    (hmac : p₁.snapshotMac = p₂.snapshotMac)
    (hversion₁ : p₁.version < 256 ^ 8) (hversion₂ : p₂.version < 256 ^ 8)
    (hmacs₁ : ∀ m ∈ p₁.mutations, (valueMacOf m.record.value).length = 32)
    (hmacs₂ : ∀ m ∈ p₂.mutations, (valueMacOf m.record.value).length = 32)
    (h : patchMessage name p₁ = patchMessage name p₂) :
    p₁.version = p₂.version ∧ List.Forall₂ (fun m₁ m₂ =>
      valueMacOf m₁.record.value = valueMacOf m₂.record.value) p₁.mutations p₂.mutations := by
  simp only [patchMessage, hmac] at h
  have hbody := List.append_cancel_right h
  obtain ⟨hfront, hversion⟩ := List.append_inj' hbody
    (by rw [Binary.toBytesBig_length, Binary.toBytesBig_length])
  have hmutations := List.append_cancel_left hfront
  exact ⟨Binary.toBytesBig_inj hversion₁ hversion₂ hversion,
    forall₂_of_flatMap_eq (by omega) hmacs₁ hmacs₂ hmutations⟩

end Parsing

section Accepted

variable {L : Libraries} {keyStore : AppStateKeyStore}

theorem toBytes8_ok {n : Nat} {data : Bytes} (h : toBytes8 n = .ok data) :
    n < 256 ^ 8 ∧ data = Binary.toBytesBig 8 n := by
  unfold toBytes8 at h
  split at h
  · rename_i hn
    cases h
    exact ⟨hn, rfl⟩
  · cases h

theorem resolveKeys_ok {keyId : Bytes} {keys : ExpandedAppStateKeys}
    (h : resolveKeys L keyStore keyId = .ok keys) :
    ∃ keyData, keyStore keyId = some keyData ∧ keys = expandAppStateKeys L keyData := by
  unfold resolveKeys at h
  split at h
  · cases h
  · rename_i keyData hkey
    cases h
    exact ⟨keyData, hkey, rfl⟩

theorem generateContentMac_ok {m : SyncdMutation} {key mac : Bytes}
    (h : generateContentMac L m.operation (contentOf m.record.value) m.record.keyId key = .ok mac) :
    fitsByte m.operation ∧ m.record.keyId.length + 1 < 256 ^ 8 ∧
      mac = (L.hmacSha512 key (contentMessage m)).take 32 := by
  unfold generateContentMac at h
  split at h
  · rename_i hop
    obtain ⟨suffix, hsuffix, h⟩ := sync_bind_ok.mp h
    obtain ⟨hlen, rfl⟩ := toBytes8_ok hsuffix
    cases h
    exact ⟨hop, hlen, rfl⟩
  · cases h

theorem checkMac_ok {computed expected : Bytes} {e : SyncError}
    (h : checkMac true computed expected e = .ok ()) : computed = expected := by
  unfold checkMac at h
  split at h
  · rename_i hc
    simpa using hc
  · cases h

theorem verifyPatchMac_ok {patch : SyncdPatch} {name : String} {key : Bytes}
    (h : verifyPatchMac L patch name key patch.version = .ok ()) :
    patch.version < 256 ^ 8 ∧
      L.primitives.hmac key (patchMessage name patch) = patch.patchMac := by
  obtain ⟨versionBytes, hversion, h⟩ := sync_bind_ok.mp h
  obtain ⟨hlt, rfl⟩ := toBytes8_ok hversion
  split at h
  · rename_i hmac
    exact ⟨hlt, hmac⟩
  · cases h

/-- A mutation that is accepted, with the sync key it was accepted under and the
plaintext that gave its index and its action. -/
structure Accepted (L : Libraries) (keyStore : AppStateKeyStore) (m : SyncdMutation)
    (keyData : Bytes) (actionData : SyncActionData) (m' : Mutation) : Prop where
  key : keyStore m.record.keyId = some keyData
  operation : fitsByte m.operation
  keyIdLength : m.record.keyId.length + 1 < 256 ^ 8
  valueMac : (L.hmacSha512 (expandAppStateKeys L keyData).valueMac (contentMessage m)).take 32 =
    valueMacOf m.record.value
  action : (aesCbcDecrypt L (expandAppStateKeys L keyData).valueEncryption
    (contentOf m.record.value) >>= fun plaintext => parsed (L.parseSyncActionData plaintext)) =
      .ok actionData
  indexMac : m.record.index =
    L.primitives.hmac (expandAppStateKeys L keyData).index actionData.index
  index : L.jsonLoads actionData.index = some m'.index
  result : m' = ⟨m.operation, m'.index, actionData.value, m.record.index,
    valueMacOf m.record.value, m.record.keyId, actionData.version⟩

theorem decodeMutation_accepted {m : SyncdMutation} {m' : Mutation}
    (h : decodeMutation L keyStore true m = .ok m') :
    ∃ keyData actionData, Accepted L keyStore m keyData actionData m' := by
  simp only [decodeMutation, sync_bind_ok] at h
  obtain ⟨keys, hkeys, _, hcontent, plaintext, hplaintext, actionData, haction, _, hindex, index,
    hjson, h⟩ := h
  obtain ⟨keyData, hkeyData, rfl⟩ := resolveKeys_ok hkeys
  cases h
  simp only [checkContentMac, if_true, sync_bind_ok] at hcontent
  obtain ⟨mac, hmac, hcheck⟩ := hcontent
  obtain ⟨hop, hlen, rfl⟩ := generateContentMac_ok hmac
  refine ⟨keyData, actionData, hkeyData, hop, hlen, checkMac_ok hcheck, ?_,
    (checkMac_ok hindex).symm, ?_, rfl⟩
  · exact sync_bind_ok.mpr ⟨plaintext, hplaintext, haction⟩
  · cases hload : L.jsonLoads actionData.index with
    | none =>
      rw [hload] at hjson
      cases hjson
    | some loaded =>
      rw [hload] at hjson
      cases hjson
      rfl

theorem Accepted.valueMac_length {m : SyncdMutation} {keyData : Bytes}
    {actionData : SyncActionData} {m' : Mutation} (h : Accepted L keyStore m keyData actionData m')
    (hlength : ∀ key data, (L.hmacSha512 key data).length = 64) :
    (valueMacOf m.record.value).length = 32 := by
  rw [← h.valueMac, List.length_take, hlength]
  rfl

/-- The operation, the key, the ciphertext and the value MAC determine the rest. -/
theorem Accepted.determined {keyStore' : AppStateKeyStore} {m₁ m₂ : SyncdMutation} {keyData : Bytes}
    {a₁ a₂ : SyncActionData} {m₁' m₂' : Mutation} (h₁ : Accepted L keyStore m₁ keyData a₁ m₁')
    (h₂ : Accepted L keyStore' m₂ keyData a₂ m₂') (hop : m₁.operation = m₂.operation)
    (hkey : m₁.record.keyId = m₂.record.keyId)
    (hcontent : contentOf m₁.record.value = contentOf m₂.record.value)
    (hmac : valueMacOf m₁.record.value = valueMacOf m₂.record.value) : m₁' = m₂' := by
  have haction : a₁ = a₂ := by
    have h := h₁.action
    rw [hcontent, h₂.action] at h
    exact (Except.ok.inj h).symm
  subst haction
  have hindex : m₁'.index = m₂'.index := Option.some.inj (h₁.index.symm.trans h₂.index)
  rw [h₁.result, h₂.result, hop, hkey, hmac, hindex, h₁.indexMac, h₂.indexMac]

theorem decodePatch_accepted {patch : SyncdPatch} {name : String} {prevState : HashState}
    {getPrevValueMac : Bytes → Option Bytes} {result : PatchDecodeResult}
    (h : decodePatch L keyStore true patch name prevState getPrevValueMac = .ok result) :
    result.state.version = patch.version ∧ patch.version < 256 ^ 8 ∧
      (∃ keyData, keyStore patch.keyId = some keyData ∧
        L.primitives.hmac (expandAppStateKeys L keyData).patchMac (patchMessage name patch) =
          patch.patchMac) ∧
      List.Forall₂ (fun m m' => ∃ keyData actionData, Accepted L keyStore m keyData actionData m')
        patch.mutations result.mutations := by
  simp only [decodePatch, sync_bind_ok] at h
  obtain ⟨keys, hkeys, _, hverify, decoded, hdecoded, h⟩ := h
  obtain ⟨keyData, hkeyData, rfl⟩ := resolveKeys_ok hkeys
  cases h
  simp only [verifyPatch, if_true, sync_bind_ok] at hverify
  obtain ⟨_, _, hpatch⟩ := hverify
  obtain ⟨hlt, hmac⟩ := verifyPatchMac_ok hpatch
  exact ⟨rfl, hlt, ⟨keyData, hkeyData, hmac⟩,
    (mapM_forall₂ hdecoded).imp fun _ _ hm => decodeMutation_accepted hm⟩

end Accepted

section Binding

variable {L : Libraries} {name : String} {keyStore₁ keyStore₂ : AppStateKeyStore}
  {patch₁ patch₂ : SyncdPatch}

/-- Equal value MACs of two accepted mutations are the MACs of one mutation. -/
theorem MacsInjective.mutation_eq
    (hmacs : MacsInjective L name keyStore₁ keyStore₂ patch₁ patch₂) {m₁ m₂ : SyncdMutation}
    (hm₁ : m₁ ∈ patch₁.mutations) (hm₂ : m₂ ∈ patch₂.mutations) {m₁' m₂' : Mutation}
    (h₁ : ∃ keyData actionData, Accepted L keyStore₁ m₁ keyData actionData m₁')
    (h₂ : ∃ keyData actionData, Accepted L keyStore₂ m₂ keyData actionData m₂')
    (hmac : valueMacOf m₁.record.value = valueMacOf m₂.record.value) : m₁' = m₂' := by
  obtain ⟨key₁, action₁, h₁⟩ := h₁
  obtain ⟨key₂, action₂, h₂⟩ := h₂
  have hinput : ((expandAppStateKeys L key₁).valueMac, contentMessage m₁) =
      ((expandAppStateKeys L key₂).valueMac, contentMessage m₂) := by
    apply hmacs.content
    · exact Or.inl ⟨m₁, hm₁, key₁, h₁.key, rfl⟩
    · exact Or.inr ⟨m₂, hm₂, key₂, h₂.key, rfl⟩
    · exact h₁.valueMac.trans (hmac.trans h₂.valueMac.symm)
  obtain ⟨hsub, hmessage⟩ := Prod.mk.inj hinput
  have hkey : key₁ = key₂ :=
    hmacs.expand (Or.inl ⟨_, h₁.key⟩) (Or.inr ⟨_, h₂.key⟩) hsub
  subst hkey
  obtain ⟨hop, hkeyId, hcontent⟩ := contentMessage_inj h₁.operation h₂.operation h₁.keyIdLength
    h₂.keyIdLength hmessage
  exact h₁.determined h₂ hop hkeyId hcontent hmac

theorem results_eq {α β : Type} {R S : α → β → Prop} {T : α → α → Prop} {as bs : List α}
    {as' bs' : List β} (hsame : ∀ a ∈ as, ∀ b ∈ bs, T a b → ∀ a' b', R a a' → S b b' → a' = b')
    (hR : List.Forall₂ R as as') (hS : List.Forall₂ S bs bs') (hT : List.Forall₂ T as bs) :
    as' = bs' := by
  induction hT generalizing as' bs' with
  | nil =>
    cases hR
    cases hS
    rfl
  | @cons a b as bs hab _ ih =>
    obtain ⟨⟩ | ⟨ha, hR⟩ := hR
    obtain ⟨⟩ | ⟨hb, hS⟩ := hS
    have hhead := hsame a List.mem_cons_self b List.mem_cons_self hab _ _ ha hb
    have htail := ih (fun x hx y hy => hsame x (List.mem_cons_of_mem _ hx) y
      (List.mem_cons_of_mem _ hy)) hR hS
    rw [hhead, htail]

theorem forall₂_left {α β : Type} {R : α → β → Prop} {p : α → Prop} (hp : ∀ a b, R a b → p a)
    {as : List α} {bs : List β} (h : List.Forall₂ R as bs) : ∀ a ∈ as, p a := by
  induction h with
  | nil => simp
  | cons hab _ ih =>
    intro x hx
    rcases List.mem_cons.mp hx with rfl | hx
    · exact hp _ _ hab
    · exact ih x hx

theorem patch_mac_binds_content (hlength : ∀ key data, (L.hmacSha512 key data).length = 64)
    (hmacs : MacsInjective L name keyStore₁ keyStore₂ patch₁ patch₂)
    {cursor₁ cursor₂ : HashState} {stored₁ stored₂ : Bytes → Option Bytes}
    {result₁ result₂ : PatchDecodeResult}
    (h₁ : decodePatch L keyStore₁ true patch₁ name cursor₁ stored₁ = .ok result₁)
    (h₂ : decodePatch L keyStore₂ true patch₂ name cursor₂ stored₂ = .ok result₂)
    (hpatchMac : patch₁.patchMac = patch₂.patchMac)
    (hsnapshotMac : patch₁.snapshotMac = patch₂.snapshotMac) :
    result₁.state.version = result₂.state.version ∧ result₁.mutations = result₂.mutations := by
  obtain ⟨hversion₁, hlt₁, ⟨key₁, hkey₁, hmac₁⟩, hall₁⟩ := decodePatch_accepted h₁
  obtain ⟨hversion₂, hlt₂, ⟨key₂, hkey₂, hmac₂⟩, hall₂⟩ := decodePatch_accepted h₂
  have hinput : ((expandAppStateKeys L key₁).patchMac, patchMessage name patch₁) =
      ((expandAppStateKeys L key₂).patchMac, patchMessage name patch₂) := by
    apply hmacs.hmac
    · exact Or.inl ⟨key₁, hkey₁, rfl⟩
    · exact Or.inr ⟨key₂, hkey₂, rfl⟩
    · exact hmac₁.trans (hpatchMac.trans hmac₂.symm)
  have hlen₁ : ∀ m ∈ patch₁.mutations, (valueMacOf m.record.value).length = 32 :=
    forall₂_left (fun _ _ ⟨_, _, h⟩ => h.valueMac_length hlength) hall₁
  have hlen₂ : ∀ m ∈ patch₂.mutations, (valueMacOf m.record.value).length = 32 :=
    forall₂_left (fun _ _ ⟨_, _, h⟩ => h.valueMac_length hlength) hall₂
  obtain ⟨hversion, hvalues⟩ := patchMessage_inj hsnapshotMac hlt₁ hlt₂ hlen₁ hlen₂
    (Prod.mk.inj hinput).2
  refine ⟨by rw [hversion₁, hversion₂, hversion], ?_⟩
  exact results_eq (fun m₁ hm₁ m₂ hm₂ hmac m₁' m₂' ha₁ ha₂ =>
    hmacs.mutation_eq hm₁ hm₂ ha₁ ha₂ hmac) hall₁ hall₂ hvalues

section Demo

def replacingPatch : SyncdPatch :=
  demoPatch 2 (demoHash [demoMutation .set 1 20, demoMutation .set 2 30])
    [demoMutation .set 1 20, demoMutation .set 2 30]

/-- The table in which the first index still has its earlier value. -/
def earlierValue : Bytes → Option Bytes := fun k =>
  if k = (demoMutation .set 1 10).record.index then
    some (valueMacOf (demoMutation .set 1 10).record.value)
  else none

def earlierCursor : HashState := ⟨1, demoHash [demoMutation .set 1 10]⟩

/-- What the patch decodes to after its predecessor and on an empty collection. -/
def replacingResult : PatchDecodeResult :=
  ((decodePatch demoLibraries demoKeyStore true replacingPatch demoName earlierCursor
    earlierValue).toOption).getD ⟨{}, []⟩

theorem demoKeyStore_eq {keyId keyData : Bytes} (h : demoKeyStore keyId = some keyData) :
    keyData = [42] := by
  unfold demoKeyStore at h
  split at h
  · exact (Option.some.inj h).symm
  · cases h

theorem replacingPatch_injective :
    MacsInjective demoLibraries demoName demoKeyStore demoKeyStore replacingPatch
      replacingPatch := by
  have hcontent : ∀ m₁ ∈ replacingPatch.mutations, ∀ m₂ ∈ replacingPatch.mutations,
      (demoLibraries.hmacSha512 demoKeys.valueMac (contentMessage m₁)).take 32 =
          (demoLibraries.hmacSha512 demoKeys.valueMac (contentMessage m₂)).take 32 →
        contentMessage m₁ = contentMessage m₂ := by
    decide +kernel
  constructor
  · rw [Set.union_self]
    rintro _ ⟨key₁, hkey₁, rfl⟩ _ ⟨key₂, hkey₂, rfl⟩ _
    rw [demoKeyStore_eq hkey₁, demoKeyStore_eq hkey₂]
  · rw [Set.union_self]
    rintro _ ⟨m₁, hm₁, key₁, hkey₁, rfl⟩ _ ⟨m₂, hm₂, key₂, hkey₂, rfl⟩ hmac
    rw [demoKeyStore_eq hkey₁, demoKeyStore_eq hkey₂] at hmac ⊢
    exact congrArg _ (hcontent m₁ hm₁ m₂ hm₂ hmac)
  · rw [Set.union_self]
    rintro key₁ ⟨_, hkey₁⟩ key₂ ⟨_, hkey₂⟩ _
    rw [demoKeyStore_eq hkey₁, demoKeyStore_eq hkey₂]

theorem patch_mac_binds_content_replacing :
    replacingResult.mutations.length = 2 ∧
      (∃ result, decodePatch demoLibraries demoKeyStore true replacingPatch demoName {}
          (fun _ => none) = .ok result ∧
        replacingResult.state.version = result.state.version ∧
        replacingResult.mutations = result.mutations) := by
  have hafter : decodePatch demoLibraries demoKeyStore true replacingPatch demoName earlierCursor
      earlierValue = .ok replacingResult := by
    decide +kernel
  have hempty : decodePatch demoLibraries demoKeyStore true replacingPatch demoName {}
      (fun _ => none) = .ok replacingResult := by
    decide +kernel
  exact ⟨by decide +kernel, replacingResult, hempty,
    patch_mac_binds_content (fun _ _ => by simp [demoLibraries, demoDigest]) replacingPatch_injective
      hafter hempty rfl rfl⟩

end Demo

end Binding

end PyWhats.AppState
