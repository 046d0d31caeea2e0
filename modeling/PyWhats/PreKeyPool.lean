import Mathlib.Data.List.Induction
import PyWhats.Receiver

/-! The pool of one-time prekeys: `PrekeyUploader` of `messaging/prekey.py` over a
`PreKeyStore` that consumption empties. The next id is read off what is left. -/

namespace PyWhats

variable {P : Primitives}

section Upload

/-- `PreKeyStore.max_id`. -/
def maxId (prekeys : OrderedMap Nat (OneTimePreKey P)) : Nat :=
  (prekeys.entries.map Prod.fst).foldl max 0

def Stores.savePreKey (opk : OneTimePreKey P) (s : Stores P) : Stores P :=
  { s with prekeys := s.prekeys.set opk.keyId opk }

def Stores.deletePreKey (keyId : Nat) (s : Stores P) : Stores P :=
  { s with prekeys := s.prekeys.erase keyId }

def minPreKeyCount : Int := 5

/-- `_id3`: the low three of four bytes. -/
def id3 (keyId : Nat) : Except PyError Bytes := do
  return (← registrationBytes keyId).drop 1

def prekeyNode (opk : OneTimePreKey P) : Except PyError Node := do
  let id ← id3 opk.keyId
  return .mk "key" [] (.nodes [.mk "id" [] (.bytes id), .mk "value" [] (.bytes opk.pair.pub)])

variable (env : Env P) (dev : Device P)

def buildPrekeyUploadNode (opks : List (OneTimePreKey P)) (iqId : String) : Except PyError Node := do
  let keys ← opks.mapM prekeyNode
  let skeyId ← id3 dev.signedPreKey.keyId
  let registration ← registrationBytes dev.registrationId
  return .mk "iq" [("id", .str iqId), ("type", .str "set"), ("xmlns", .str "encrypt"),
      ("to", .jid serverJid)]
    (.nodes [
      .mk "registration" [] (.bytes registration),
      .mk "type" [] (.bytes [0x05]),
      .mk "identity" [] (.bytes dev.identity.pub),
      .mk "list" [] (.nodes keys),
      .mk "skey" [] (.nodes [
        .mk "id" [] (.bytes skeyId),
        .mk "value" [] (.bytes dev.signedPreKey.pair.pub),
        .mk "signature" [] (.bytes dev.signedPreKey.signature)])])

def generatePreKey (keyId : Nat) : CoM P (OneTimePreKey P) := do
  return ⟨keyId, ← draw env.keyPair⟩

/-- The loop of `upload`, from `offset` on. -/
def generateBatch (base : Nat) : (offset count : Nat) → CoM P (List (OneTimePreKey P))
  | _, 0 => return []
  | offset, count + 1 => do
    let opk ← generatePreKey env (base + offset)
    update (.savePreKey opk)
    let opks ← generateBatch base (offset + 1) count
    return opk :: opks

/-- What `upload` does once its keys are stored. -/
def publish (opks : List (OneTimePreKey P)) : CoM P Nat := do
  let iqId ← draw env.messageId
  let node ← Co.lift (buildPrekeyUploadNode dev opks iqId)
  let future ← iqRegister iqId
  Co.tryFinally (do
    sendNode env node
    let _ ← Co.wait (Request.iq future)) (iqCancel iqId)
  return opks.length

def upload (count : Nat) : CoM P Nat := do
  let w ← Co.get
  let opks ← generateBatch env (maxId w.prekeys) 1 count
  publish env dev opks

def buildPrekeyCountQuery (iqId : String) : Node :=
  .mk "iq" [("id", .str iqId), ("type", .str "get"), ("xmlns", .str "encrypt"),
      ("to", .jid serverJid)]
    (.nodes [.mk "count" [] .none])

def parsePrekeyCountResponse (iq : Node) : Except PyError Int :=
  match iq.getChild "count" with
  | none => .error (.pairingFailed "prekey count iq missing <count>")
  | some count =>
    let raw := count.getStr "value"
    if raw = "" then .error (.pairingFailed "prekey count response missing value attr")
    else match PyText.int? raw.toList with
      | none => .error (.pairingFailed ("prekey count value is not an int: '" ++ raw ++ "'"))
      | some n => .ok n

def serverCount : CoM P Int := do
  let result ← queryIq env buildPrekeyCountQuery
  Co.lift (parsePrekeyCountResponse result)

def refillIfLow (count : Nat) : CoM P Nat := do
  let held ← serverCount env
  if held ≥ minPreKeyCount then return 0 else upload env dev count

end Upload

section Pool

theorem foldl_max_spec (l : List Nat) (n : Nat) :
    (l.foldl max n = n ∨ l.foldl max n ∈ l) ∧ n ≤ l.foldl max n ∧ ∀ k ∈ l, k ≤ l.foldl max n := by
  induction l generalizing n with
  | nil => simp
  | cons a l ih =>
    obtain ⟨hmem, hle, hall⟩ := ih (max n a)
    rw [List.foldl_cons]
    refine ⟨?_, by omega, fun k hk => ?_⟩
    · rcases hmem with heq | hmem
      · rw [heq]
        rcases Nat.le_total n a with h | h
        · exact .inr (by rw [Nat.max_eq_right h]; exact List.mem_cons_self)
        · exact .inl (Nat.max_eq_left h)
      · exact .inr (List.mem_cons_of_mem _ hmem)
    · rcases List.mem_cons.mp hk with rfl | hk
      · omega
      · exact hall k hk

theorem maxId_stored (prekeys : OrderedMap Nat (OneTimePreKey P)) :
    maxId prekeys = 0 ∨ ∃ opk, prekeys.get? (maxId prekeys) = some opk := by
  rcases (foldl_max_spec (prekeys.entries.map Prod.fst) 0).1 with h | h
  · exact .inl h
  · obtain ⟨e, he, hid⟩ := List.mem_map.mp h
    refine .inr ⟨e.2, OrderedMap.get?_eq_some_iff.mpr ?_⟩
    rw [maxId, ← hid]
    exact he

variable (env : Env P) (dev : Device P)

/-- The keys of a batch, the first of them made from the `drawn`-th key pair. -/
def freshKeys (base : Nat) : (drawn offset count : Nat) → List (OneTimePreKey P)
  | _, _, 0 => []
  | drawn, offset, count + 1 =>
    ⟨base + offset, env.keyPair drawn⟩ :: freshKeys base (drawn + 1) (offset + 1) count

variable {env dev}

theorem mem_freshKeys {base drawn offset count : Nat} {k : OneTimePreKey P} :
    k ∈ freshKeys env base drawn offset count ↔
      ∃ i < count, k = ⟨base + offset + i, env.keyPair (drawn + i)⟩ := by
  induction count generalizing drawn offset with
  | zero => simp [freshKeys]
  | succ count ih =>
    rw [freshKeys, List.mem_cons, ih]
    constructor
    · rintro (rfl | ⟨i, hi, rfl⟩)
      · exact ⟨0, by omega, rfl⟩
      · refine ⟨i + 1, by omega, ?_⟩
        rw [show base + offset + (i + 1) = base + (offset + 1) + i by omega,
          show drawn + (i + 1) = drawn + 1 + i by omega]
    · rintro ⟨i, hi, rfl⟩
      cases i with
      | zero => exact .inl rfl
      | succ i =>
        refine .inr ⟨i, by omega, ?_⟩
        rw [show base + offset + (i + 1) = base + (offset + 1) + i by omega,
          show drawn + (i + 1) = drawn + 1 + i by omega]

variable (env) in
theorem generateBatch_run (base offset count : Nat) (w : World P) :
    ∃ w', (generateBatch env base offset count).run w =
        (w', .done (.ok (freshKeys env base w.drawn offset count))) ∧
      w'.prekeys = (freshKeys env base w.drawn offset count).foldl
        (fun pool k => pool.set k.keyId k) w.prekeys ∧
      w'.drawn = w.drawn + count := by
  induction count generalizing offset w with
  | zero => exact ⟨w, rfl, rfl, rfl⟩
  | succ count ih =>
    let w₁ : World P := (w.put (.setDrawn (w.drawn + 1))).put
      (.savePreKey ⟨base + offset, env.keyPair w.drawn⟩)
    obtain ⟨w', hrun, hpool, hdrawn⟩ := ih (offset + 1) w₁
    refine ⟨w', ?_, hpool, ?_⟩
    · have hrest := Co.run_bind_ok (f := fun opks =>
        (pure (⟨base + offset, env.keyPair w.drawn⟩ :: opks) : CoM P _)) hrun
      exact hrest
    · rw [hdrawn]
      simp only [w₁, World.put_toStores, Stores.savePreKey, Stores.setDrawn]
      omega

/-- The pool stays and entropy goes on. -/
def PoolStill (w w' : World P) : Prop := w'.prekeys = w.prekeys ∧ w.drawn ≤ w'.drawn

theorem poolStill_run {w w' : World P} (h : Relation.ReflTransGen PoolStill w w') :
    PoolStill w w' := by
  induction h with
  | refl => exact ⟨rfl, Nat.le_refl _⟩
  | tail _ hstep ih => exact ⟨hstep.1.trans ih.1, Nat.le_trans ih.2 hstep.2⟩

theorem draw_poolStill {α : Type} (source : Nat → α) : (draw source : CoM P α).Each PoolStill :=
  ⟨fun _ => ⟨rfl, Nat.le_succ _⟩, fun _ => trivial⟩

theorem iqRegister_poolStill (iqId : String) : (iqRegister iqId : CoM P Nat).Each PoolStill := by
  refine .get_bind (fun _ => ⟨rfl, Nat.le_refl _⟩) fun w => ?_
  split
  · exact .ret _
  · exact .bind (.modify fun _ => ⟨rfl, Nat.le_refl _⟩) fun _ => .ret _

theorem iqCancel_poolStill (iqId : String) : (iqCancel iqId : CoM P Unit).Each PoolStill :=
  .modify fun _ => ⟨rfl, Nat.le_refl _⟩

variable (env) in
theorem sendNode_poolStill (node : Node) : (sendNode env node).Each PoolStill :=
  .bind (.lift _) fun _ => .wait _

variable (env dev) in
theorem publish_poolStill (opks : List (OneTimePreKey P)) : (publish env dev opks).Each PoolStill := by
  refine .bind (draw_poolStill _) fun iqId => .bind (.lift _) fun node => ?_
  refine .bind (iqRegister_poolStill iqId) fun future => .bind ?_ fun _ => .ret _
  refine .tryFinally ?_ (iqCancel_poolStill iqId)
  exact .bind (sendNode_poolStill env node) fun _ => .bind (.wait _) fun _ => .ret _

variable (env) in
theorem queryIq_poolStill (build : String → Node) : (queryIq env build).Each PoolStill := by
  refine .bind (draw_poolStill _) fun iqId => .bind (iqRegister_poolStill iqId) fun future => ?_
  refine .tryFinally ?_ (iqCancel_poolStill iqId)
  exact .bind (sendNode_poolStill env _) fun _ => .wait _

variable (env dev) in
theorem upload_run (count : Nat) (w : World P) :
    ((upload env dev count).run w).1.prekeys =
        (freshKeys env (maxId w.prekeys) w.drawn 1 count).foldl (fun pool k => pool.set k.keyId k)
          w.prekeys ∧
      w.drawn + count ≤ ((upload env dev count).run w).1.drawn := by
  obtain ⟨w', hrun, hpool, hdrawn⟩ := generateBatch_run env (maxId w.prekeys) 1 count w
  have hupload : (upload env dev count).run w =
      (publish env dev (freshKeys env (maxId w.prekeys) w.drawn 1 count)).run w' :=
    Co.run_bind_ok hrun
  obtain ⟨hsame, hmore⟩ := poolStill_run ((publish_poolStill env dev
    (freshKeys env (maxId w.prekeys) w.drawn 1 count)).run w')
  rw [hupload, hsame, hpool]
  exact ⟨rfl, hdrawn ▸ hmore⟩

variable (env dev) in
/-- The others leave the pool alone while the upload waits. -/
theorem upload_ensures (count : Nat) (w : World P) :
    (upload env dev count).Ensures PoolStill (fun _ w' => w'.prekeys =
      (freshKeys env (maxId w.prekeys) w.drawn 1 count).foldl (fun pool k => pool.set k.keyId k)
        w.prekeys) w := by
  obtain ⟨w₁, hrun, hpool, _⟩ := generateBatch_run env (maxId w.prekeys) 1 count w
  have hpublish := (publish_poolStill env dev (freshKeys env (maxId w.prekeys) w.drawn 1 count)).ensures w₁
  refine .get_bind (.run_bind hrun (hpublish.mono fun _ w' hstill => ?_))
  rw [(poolStill_run hstill).1, hpool]

theorem parsePrekeyCountResponse_ok {iq : Node} {n : Int}
    (h : parsePrekeyCountResponse iq = .ok n) :
    ∃ count, iq.getChild "count" = some count ∧
      PyText.int? (count.getStr "value").toList = some n := by
  rw [parsePrekeyCountResponse] at h
  split at h
  · cases h
  · rename_i count hcount
    simp only at h
    split at h
    · cases h
    · split at h
      · cases h
      · rename_i m hm
        cases h
        exact ⟨count, hcount, hm⟩

/-- The count is the number that the answer of the server carries. -/
theorem serverCount_reads {w w' : World P} {n : Int}
    (h : Co.EndsAmidst PoolStill (serverCount env) w (.ok n) w') :
    ∃ iq count, Co.EndsAmidst PoolStill (queryIq env buildPrekeyCountQuery) w (.ok iq) w' ∧
      iq.getChild "count" = some count ∧
      PyText.int? (count.getStr "value").toList = some n := by
  obtain ⟨iq, w₁, hquery, hparse⟩ := h.bind_inv
  generalize hresult : parsePrekeyCountResponse iq = result at hparse
  cases hparse
  obtain ⟨count, hcount, hn⟩ := parsePrekeyCountResponse_ok hresult
  exact ⟨iq, count, hquery, hcount, hn⟩

variable (env dev) in
/-- A refill stores a fresh batch exactly when the server says that it holds too few. -/
theorem refillIfLow_ensures (count : Nat) (w : World P) :
    (refillIfLow env dev count).Ensures PoolStill (fun _ w' => ∃ held w₁,
      Co.EndsAmidst PoolStill (serverCount env) w held w₁ ∧
        ((∃ n < minPreKeyCount, held = .ok n ∧ w'.prekeys =
            (freshKeys env (maxId w.prekeys) w₁.drawn 1 count).foldl
              (fun pool k => pool.set k.keyId k) w.prekeys) ∨
          (∀ n < minPreKeyCount, held ≠ .ok n) ∧ w'.prekeys = w.prekeys)) w := by
  have hcount : (serverCount env).Each PoolStill := (queryIq_poolStill env _).bind fun _ => .lift _
  have hserver : (serverCount env).Ensures PoolStill (fun held w₁ =>
      Co.EndsAmidst PoolStill (serverCount env) w held w₁ ∧ w₁.prekeys = w.prekeys) w :=
    .of_ends fun held w₁ hends => ⟨hends, (poolStill_run ((hcount.ensures w).ends hends)).1⟩
  refine hserver.bind (fun n w₁ hn => ?_) fun e w₁ he => ?_
  · by_cases hlow : n < minPreKeyCount
    · rw [if_neg (Int.not_le.mpr hlow)]
      refine (upload_ensures env dev count w₁).mono fun _ w' hpool => ?_
      rw [hn.2] at hpool
      exact ⟨.ok n, w₁, hn.1, .inl ⟨n, hlow, rfl, hpool⟩⟩
    · rw [if_pos (Int.not_lt.mp hlow)]
      refine ⟨.ok n, w₁, hn.1, .inr ⟨fun m hm heq => hlow ?_, hn.2⟩⟩
      cases heq
      exact hm
  · exact ⟨.error e, w₁, he.1, .inr ⟨by simp, he.2⟩⟩

end Pool

section Ids

/-- An upload may fail at any point once its keys are stored; the batch of one that was
cut short is the part it had stored. -/
inductive PoolOp where
  | upload (count : Nat)
  | consume (keyId : Nat)
  | restart

variable (env : Env P) (dev : Device P)

def PoolOp.run (w : World P) : PoolOp → World P
  | .upload count => ((PyWhats.upload env dev count).run w).1
  | .consume keyId => w.put (.deletePreKey keyId)
  | .restart => w.restart

def PoolOp.assigns (w : World P) : PoolOp → List (OneTimePreKey P)
  | .upload count => freshKeys env (maxId w.prekeys) w.drawn 1 count
  | .consume _ => []
  | .restart => []

def runPool (w : World P) (ops : List PoolOp) : World P := ops.foldl (PoolOp.run env dev) w

/-- Every key that was stored in the pool, with its id. -/
def assignedBy : World P → List PoolOp → List (OneTimePreKey P)
  | _, [] => []
  | w, op :: ops => op.assigns env w ++ assignedBy (op.run env dev w) ops

/-- Whenever keys are generated, the highest id assigned so far is still in the pool. -/
def HighestKept (w : World P) (ops : List PoolOp) : Prop :=
  ∀ pre count post, ops = pre ++ .upload count :: post → 0 < count →
    ∀ k ∈ assignedBy env dev w pre, k.keyId ≤ maxId (runPool env dev w pre).prekeys

variable {env dev}

theorem assignedBy_append (w : World P) (ops ops' : List PoolOp) :
    assignedBy env dev w (ops ++ ops') =
      assignedBy env dev w ops ++ assignedBy env dev (runPool env dev w ops) ops' := by
  induction ops generalizing w with
  | nil => rfl
  | cons op ops ih =>
    rw [List.cons_append, assignedBy, ih, assignedBy, List.append_assoc]
    rfl

theorem assignedBy_concat (w : World P) (ops : List PoolOp) (op : PoolOp) :
    assignedBy env dev w (ops ++ [op]) =
      assignedBy env dev w ops ++ op.assigns env (runPool env dev w ops) := by
  rw [assignedBy_append, assignedBy, assignedBy, List.append_nil]

theorem runPool_concat (w : World P) (ops : List PoolOp) (op : PoolOp) :
    runPool env dev w (ops ++ [op]) = op.run env dev (runPool env dev w ops) := by
  rw [runPool, List.foldl_append]
  rfl

/-- What the pool holds was assigned, the ids assigned have no gaps, and every key was
made from a key pair drawn before. -/
structure PoolInv (env : Env P) (assigned : List (OneTimePreKey P)) (w : World P) : Prop where
  stored : ∀ id opk, w.prekeys.get? id = some opk → ∃ k ∈ assigned, k.keyId = id
  dense : ∀ k ∈ assigned, ∀ id, 0 < id → id ≤ k.keyId → ∃ k' ∈ assigned, k'.keyId = id
  drawn : ∀ k ∈ assigned, ∃ j < w.drawn, k.pair = env.keyPair j

theorem get?_foldl_set {pool : OrderedMap Nat (OneTimePreKey P)} {keys : List (OneTimePreKey P)}
    {id : Nat} {opk : OneTimePreKey P}
    (h : (keys.foldl (fun pool k => pool.set k.keyId k) pool).get? id = some opk) :
    (∃ k ∈ keys, k.keyId = id) ∨ pool.get? id = some opk := by
  induction keys generalizing pool with
  | nil => exact .inr h
  | cons k keys ih =>
    rcases ih h with ⟨k', hk', hid⟩ | h
    · exact .inl ⟨k', List.mem_cons_of_mem _ hk', hid⟩
    · by_cases hk : id = k.keyId
      · exact .inl ⟨k, List.mem_cons_self, hk.symm⟩
      · rw [OrderedMap.get?_set_ne _ _ hk] at h
        exact .inr h

theorem PoolInv.upload {assigned : List (OneTimePreKey P)} {w : World P}
    (hinv : PoolInv env assigned w) (count : Nat) :
    PoolInv env (assigned ++ freshKeys env (maxId w.prekeys) w.drawn 1 count)
      ((PyWhats.upload env dev count).run w).1 := by
  obtain ⟨hpool, hdrawn⟩ := upload_run env dev count w
  refine ⟨fun id opk h => ?_, fun k hk id hpos hle => ?_, fun k hk => ?_⟩
  · rw [hpool] at h
    rcases get?_foldl_set h with ⟨k, hk, hid⟩ | h
    · exact ⟨k, List.mem_append_right _ hk, hid⟩
    · obtain ⟨k, hk, hid⟩ := hinv.stored id opk h
      exact ⟨k, List.mem_append_left _ hk, hid⟩
  · have hold : ∀ k ∈ assigned, id ≤ k.keyId →
        ∃ k' ∈ assigned ++ freshKeys env (maxId w.prekeys) w.drawn 1 count, k'.keyId = id := by
      intro k hk hle
      obtain ⟨k', hk', hid⟩ := hinv.dense k hk id hpos hle
      exact ⟨k', List.mem_append_left _ hk', hid⟩
    rcases List.mem_append.mp hk with hk | hk
    · exact hold k hk hle
    · obtain ⟨i, hi, rfl⟩ := mem_freshKeys.mp hk
      by_cases hnew : maxId w.prekeys < id
      · refine ⟨_, List.mem_append_right _ (mem_freshKeys.mpr
          ⟨id - maxId w.prekeys - 1, ?_, rfl⟩), ?_⟩
        · simp only at hle
          omega
        · simp only
          omega
      · rcases maxId_stored w.prekeys with hzero | ⟨opk, hopk⟩
        · omega
        · obtain ⟨k, hk, hid⟩ := hinv.stored _ opk hopk
          exact hold k hk (by omega)
  · rcases List.mem_append.mp hk with hk | hk
    · obtain ⟨j, hj, hpair⟩ := hinv.drawn k hk
      exact ⟨j, by omega, hpair⟩
    · obtain ⟨i, hi, rfl⟩ := mem_freshKeys.mp hk
      exact ⟨w.drawn + i, by omega, rfl⟩

theorem PoolInv.run {assigned : List (OneTimePreKey P)} {w : World P}
    (hinv : PoolInv env assigned w) (op : PoolOp) :
    PoolInv env (assigned ++ op.assigns env w) (op.run env dev w) := by
  cases op with
  | upload count => exact hinv.upload count
  | consume keyId =>
    rw [PoolOp.assigns, List.append_nil]
    refine ⟨fun id opk h => ?_, hinv.dense, hinv.drawn⟩
    by_cases hid : id = keyId
    · subst hid
      simp [PoolOp.run, Stores.deletePreKey] at h
    · simp only [PoolOp.run, World.put_toStores, Stores.deletePreKey] at h
      rw [OrderedMap.get?_erase_ne _ hid] at h
      exact hinv.stored id opk h
  | restart =>
    rw [PoolOp.assigns, List.append_nil]
    exact ⟨hinv.stored, hinv.dense, hinv.drawn⟩

variable (env dev) in
theorem poolInv_run {w : World P} (hpool : w.prekeys = .empty) (ops : List PoolOp) :
    PoolInv env (assignedBy env dev w ops) (runPool env dev w ops) := by
  induction ops using List.reverseRecOn with
  | nil =>
    refine ⟨fun id opk h => ?_, fun _ h => absurd h List.not_mem_nil,
      fun _ h => absurd h List.not_mem_nil⟩
    have hnone : w.prekeys.get? id = some opk := h
    rw [hpool] at hnone
    cases hnone
  | append_singleton ops op ih =>
    rw [assignedBy_concat, runPool_concat]
    exact ih.run op

theorem nodup_freshKeys (base drawn offset count : Nat) :
    ((freshKeys env base drawn offset count).map OneTimePreKey.keyId).Nodup := by
  induction count generalizing drawn offset with
  | zero => exact List.nodup_nil
  | succ count ih =>
    rw [freshKeys, List.map_cons, List.nodup_cons]
    refine ⟨fun hmem => ?_, ih _ _⟩
    obtain ⟨k, hk, hid⟩ := List.mem_map.mp hmem
    obtain ⟨i, -, rfl⟩ := mem_freshKeys.mp hk
    simp only at hid
    omega

theorem HighestKept.of_concat {w : World P} {ops : List PoolOp} {op : PoolOp}
    (h : HighestKept env dev w (ops ++ [op])) : HighestKept env dev w ops := by
  intro pre count post hops
  refine h pre count (post ++ [op]) ?_
  rw [hops, List.append_assoc, List.cons_append]

theorem HighestKept.nodup {w : World P} {ops : List PoolOp} (h : HighestKept env dev w ops) :
    ((assignedBy env dev w ops).map OneTimePreKey.keyId).Nodup := by
  induction ops using List.reverseRecOn with
  | nil => exact List.nodup_nil
  | append_singleton ops op ih =>
    rw [assignedBy_concat, List.map_append, List.nodup_append]
    refine ⟨ih h.of_concat, ?_, fun a ha b hb hab => ?_⟩
    · cases op with
      | upload count => exact nodup_freshKeys _ _ _ _
      | consume keyId => exact List.nodup_nil
      | restart => exact List.nodup_nil
    · cases op with
      | upload count =>
        obtain ⟨k, hk, rfl⟩ := List.mem_map.mp ha
        obtain ⟨k', hk', rfl⟩ := List.mem_map.mp hb
        obtain ⟨i, hi, rfl⟩ := mem_freshKeys.mp hk'
        have hle := h ops count [] rfl (by omega) k hk
        simp only at hab
        omega
      | consume keyId => exact absurd hb List.not_mem_nil
      | restart => exact absurd hb List.not_mem_nil

variable (env dev) in
theorem drawn_le_run (w : World P) (ops : List PoolOp) : w.drawn ≤ (runPool env dev w ops).drawn := by
  induction ops using List.reverseRecOn with
  | nil => exact Nat.le_refl _
  | append_singleton ops op ih =>
    rw [runPool_concat]
    refine Nat.le_trans ih ?_
    cases op with
    | upload count =>
      have hdrawn := (upload_run env dev count (runPool env dev w ops)).2
      exact Nat.le_trans (Nat.le_add_right _ _) hdrawn
    | consume keyId => exact Nat.le_refl _
    | restart => exact Nat.le_refl _

theorem prekey_ids_unique_iff {w : World P} (hpool : w.prekeys = .empty) {ops : List PoolOp}
    (hkeys : DistinctKeys env (runPool env dev w ops).drawn) :
    (∀ a ∈ assignedBy env dev w ops, ∀ b ∈ assignedBy env dev w ops,
      a.keyId = b.keyId → a.pair = b.pair) ↔ HighestKept env dev w ops := by
  constructor
  · rintro h pre count post rfl hcount k hk
    by_contra hlost
    have hinv := poolInv_run env dev hpool pre
    -- the id after the highest one left was assigned before and is assigned again
    obtain ⟨k', hk', hid⟩ := hinv.dense k hk (maxId (runPool env dev w pre).prekeys + 1)
      (Nat.succ_pos _) (by omega)
    obtain ⟨j, hj, hpair⟩ := hinv.drawn k' hk'
    have hnew : ⟨maxId (runPool env dev w pre).prekeys + 1,
        env.keyPair (runPool env dev w pre).drawn⟩ ∈
        assignedBy env dev w (pre ++ .upload count :: post) := by
      rw [assignedBy_append, assignedBy]
      refine List.mem_append_right _ (List.mem_append_left _ (mem_freshKeys.mpr ⟨0, hcount, rfl⟩))
    have hold : k' ∈ assignedBy env dev w (pre ++ .upload count :: post) := by
      rw [assignedBy_append]
      exact List.mem_append_left _ hk'
    have hsame := h k' hold _ hnew hid
    have hdrawn : (runPool env dev w pre).drawn + count ≤
        (runPool env dev w (pre ++ .upload count :: post)).drawn := by
      have hrest := drawn_le_run env dev (runPool env dev w (pre ++ [.upload count])) post
      rw [runPool_concat] at hrest
      have hsplit : runPool env dev w (pre ++ .upload count :: post) =
          runPool env dev (PoolOp.run env dev (runPool env dev w pre) (.upload count)) post := by
        rw [runPool, List.foldl_append]
        rfl
      rw [hsplit]
      exact Nat.le_trans (upload_run env dev count _).2 hrest
    have heq := hkeys j (runPool env dev w pre).drawn (by omega) (by omega)
      (by rw [← hpair, hsame])
    omega
  · intro h a ha b hb hid
    rw [List.inj_on_of_nodup_map h.nodup ha hb hid]

/-- Two keys are uploaded and the first of them is used before the refill. -/
def poolInOrder : List PoolOp := [.upload 2, .consume 1, .restart, .upload 2]

theorem demoPool_keys {ops : List PoolOp}
    (h : (runPool (demoEnv []) demoMe {} ops).drawn ≤ 10) :
    DistinctKeys (demoEnv []) (runPool (demoEnv []) demoMe {} ops).drawn := by
  have hall : ∀ i < 10, ∀ j < 10, ((demoEnv []).keyPair i).pub = ((demoEnv []).keyPair j).pub →
      i = j := by decide +kernel
  exact fun i j hi hj => hall i (by omega) j (by omega)

theorem prekey_ids_unique_in_order :
    (assignedBy (demoEnv []) demoMe {} poolInOrder).map OneTimePreKey.keyId = [1, 2, 3, 4] ∧
    ∀ a ∈ assignedBy (demoEnv []) demoMe {} poolInOrder,
      ∀ b ∈ assignedBy (demoEnv []) demoMe {} poolInOrder, a.keyId = b.keyId → a.pair = b.pair := by
  refine ⟨by decide +kernel, (prekey_ids_unique_iff rfl (demoPool_keys (by decide +kernel))).mpr ?_⟩
  intro pre count post hops _
  have hpre : pre = [] ∨ pre = [.upload 2, .consume 1, .restart] := by
    rcases pre with _ | ⟨a, _ | ⟨b, _ | ⟨c, _ | ⟨d, pre⟩⟩⟩⟩ <;> simp [poolInOrder] at hops ⊢
    exact ⟨hops.1.symm, hops.2.1.symm, hops.2.2.1.symm⟩
  rcases hpre with rfl | rfl
  · exact fun _ h => absurd h List.not_mem_nil
  · decide +kernel

/-- The key with the highest id is used before the refill. -/
def poolOutOfOrder : List PoolOp := [.upload 2, .consume 2, .upload 2]

theorem prekey_id_reused :
    (assignedBy (demoEnv []) demoMe {} poolOutOfOrder).map OneTimePreKey.keyId = [1, 2, 2, 3] ∧
    ¬ ∀ a ∈ assignedBy (demoEnv []) demoMe {} poolOutOfOrder,
      ∀ b ∈ assignedBy (demoEnv []) demoMe {} poolOutOfOrder, a.keyId = b.keyId → a.pair = b.pair := by
  have hpub : ¬ ∀ a ∈ assignedBy (demoEnv []) demoMe {} poolOutOfOrder,
      ∀ b ∈ assignedBy (demoEnv []) demoMe {} poolOutOfOrder,
        a.keyId = b.keyId → a.pair.pub = b.pair.pub := by
    decide +kernel
  refine ⟨by decide +kernel, fun h => hpub fun a ha b hb hid => ?_⟩
  rw [h a ha b hb hid]

end Ids

end PyWhats
