import PyWhats.Lib.Counters
import PyWhats.Lib.Keyrings
import PyWhats.RatchetChain

/-! Which MAC keys a ratchet derives, and which it uses. A key is derived at one
position of one chain; it is used at once or goes to the cache of skipped keys, and
it leaves the cache when it is used. -/

namespace PyWhats

variable {P : Primitives} {τ : Type}

def macKeyOf (P : Primitives) (mk : Bytes) : Bytes := (deriveMessageKeys P mk).macKey

/-- The MAC keys of `count` positions from `nr` on, when the chain stands at `ck`. -/
def chainMacKeys (P : Primitives) (id : τ) (ck : Bytes) (nr count : Nat) :
    List ((τ × Nat) × Bytes) :=
  (List.range count).map fun i => ((id, nr + i), macKeyOf P (messageKey P ck i))

namespace RatchetState

def cachedMacKeys (P : Primitives) (st : RatchetState) : List Bytes :=
  st.mkskipped.values.map (macKeyOf P)

def currentMacKeys (P : Primitives) (id : τ) (st : RatchetState) (count : Nat) :
    List ((τ × Nat) × Bytes) :=
  (st.ckr.map fun ck => chainMacKeys P id ck st.nr count).getD []

/-- The chain that a DH ratchet step with the header's key starts. -/
def newChain (P : Primitives) (st : RatchetState) (header : MessageHeader) : Option Bytes :=
  (P.x25519Exchange st.dhsPriv header.dh).map fun shared => (kdfRk P st.rk shared).2

def turns (st : RatchetState) (header : MessageHeader) : Bool :=
  (st.mkskipped.get? (header.dh, header.n)).isNone && st.dhr ≠ some header.dh

/-- What `ratchet_decrypt` derives when it accepts: nothing for a cached key, else the
keys up to the message, first on the old chain `id` and then, after a DH ratchet step,
on the new chain `id'`. -/
def derived (P : Primitives) (id id' : τ) (st : RatchetState) (header : MessageHeader) :
    List ((τ × Nat) × Bytes) :=
  if (st.mkskipped.get? (header.dh, header.n)).isSome then []
  else if st.dhr = some header.dh then st.currentMacKeys P id (header.n - st.nr + 1)
  else st.currentMacKeys P id (header.pn - st.nr) ++
    ((st.newChain P header).map fun ck => chainMacKeys P id' ck 0 (header.n + 1)).getD []

def usedMacKey (P : Primitives) (st : RatchetState) (header : MessageHeader) : Bytes :=
  match st.mkskipped.get? (header.dh, header.n) with
  | some key => macKeyOf P key
  | none =>
    if st.dhr = some header.dh then
      (st.ckr.map fun ck => macKeyOf P (messageKey P ck (header.n - st.nr))).getD []
    else ((st.newChain P header).map fun ck => macKeyOf P (messageKey P ck header.n)).getD []

def chainAfter (id id' : τ) (st : RatchetState) (header : MessageHeader) : τ :=
  if st.turns header then id' else id

/-- The position of the next key of the receiving chain. -/
def position (id : τ) (st : RatchetState) : Option (τ × Nat) := st.ckr.map fun _ => (id, st.nr)

end RatchetState

section Skip

theorem cacheSkipped_values (m : OrderedMap (Bytes × Nat) Bytes) (key : Bytes × Nat) (mk : Bytes) :
    (cacheSkipped m key mk).values.Subperm (m.values ++ [mk]) := by
  rw [cacheSkipped]
  split
  · exact ((m.set key mk).values_dropOldest_sublist.subperm).trans (m.values_set_subperm key mk)
  · exact m.values_set_subperm key mk

/-- `count` keys of the chain `ck` were skipped. -/
structure Skipped (P : Primitives) (ck : Bytes) (count : Nat) (st st' : RatchetState) : Prop where
  ckr : st'.ckr = some (chainAt P ck count)
  nr : st'.nr = st.nr + count
  rk : st'.rk = st.rk
  dhsPriv : st'.dhsPriv = st.dhsPriv
  keys : st'.mkskipped.values.Subperm
    (st.mkskipped.values ++ (List.range count).map (messageKey P ck))

theorem skipLoop_step {count : Nat} {ck : Bytes} {st st' : RatchetState}
    (h : skipLoop P (count + 1) ck st = .ok () st') :
    ∃ dhr, skipLoop P count (nextChainKey P ck) { st with
      ckr := some (nextChainKey P ck)
      mkskipped := cacheSkipped st.mkskipped (dhr, st.nr) (kdfCk P ck).1
      nr := st.nr + 1 } = .ok () st' := by
  cases hd : st.dhr with
  | none =>
    have herror : skipLoop P (count + 1) ck st =
        .error .assertionError { st with ckr := some (kdfCk P ck).2 } := by
      cases st
      subst hd
      rfl
    rw [herror] at h
    cases h
  | some dhr =>
    refine ⟨dhr, h.symm.trans ?_ |>.symm⟩
    cases st
    subst hd
    rfl

theorem skipLoop_skipped {count : Nat} {ck : Bytes} {st st' : RatchetState}
    (hck : st.ckr = some ck) (h : skipLoop P count ck st = .ok () st') :
    Skipped P ck count st st' := by
  induction count generalizing ck st with
  | zero =>
    cases h
    exact ⟨hck, rfl, rfl, rfl, by simpa using List.Subperm.refl _⟩
  | succ count ih =>
    obtain ⟨dhr, hrest⟩ := skipLoop_step h
    obtain ⟨hckr, hnr, hrk, hpriv, hkeys⟩ := ih rfl hrest
    have hchain : chainAt P (nextChainKey P ck) count = chainAt P ck (count + 1) := by
      rw [Nat.add_comm, ← chainAt_add]
      rfl
    have hmessage : ∀ i, messageKey P (nextChainKey P ck) i = messageKey P ck (i + 1) := by
      intro i
      rw [Nat.add_comm, ← messageKey_chainAt]
      rfl
    refine ⟨hckr.trans (congrArg some hchain), by simp only at hnr; omega, hrk, hpriv, ?_⟩
    refine hkeys.trans ?_
    rw [List.range_succ_eq_map, List.map_cons, List.map_map]
    have hrange : (List.range count).map (messageKey P (nextChainKey P ck)) =
        (List.range count).map (messageKey P ck ∘ Nat.succ) := List.map_congr_left fun i _ => hmessage i
    rw [hrange, ← List.singleton_append (l := (List.range count).map _), ← List.append_assoc]
    exact (List.subperm_append_right _).mpr (cacheSkipped_values _ _ _)

theorem skipMessageKeys_skipped {upTo : Nat} {ck : Bytes} {st st' : RatchetState}
    (hck : st.ckr = some ck) (h : skipMessageKeys P upTo st = .ok () st') :
    Skipped P ck (upTo - st.nr) st st' := by
  by_cases hmax : upTo ≤ st.nr + st.maxSkip
  · rw [skipMessageKeys_some hck hmax] at h
    exact skipLoop_skipped hck h
  · rw [skipMessageKeys_limit hck (Nat.not_le.mp hmax)] at h
    cases h

/-- A message was opened with the key at position `n` of the receiving chain `ck`, or
with its next key if the chain is past `n`. -/
structure OpenedAt (P : Primitives) (n : Nat) (verify : MacVerifier) (ck : Bytes)
    (st st' : RatchetState) : Prop where
  verified : verify (macKeyOf P (messageKey P ck (n - st.nr))) = .ok ()
  ckr : st'.ckr.isSome = true
  nr : st'.nr = st.nr + (n - st.nr + 1)
  keys : (messageKey P ck (n - st.nr) :: st'.mkskipped.values).Subperm
    (st.mkskipped.values ++ (List.range (n - st.nr + 1)).map (messageKey P ck))

theorem receiveAt_opened {n : Nat} {ct plaintext : Bytes} {verify : MacVerifier}
    {st st' : RatchetState} (h : receiveAt P n ct (some verify) st = .ok plaintext st') :
    ∃ ck, st.ckr = some ck ∧ OpenedAt P n verify ck st st' := by
  obtain ⟨st₁, ck₁, hskip, hck₁, hopen⟩ := receiveAt_inv h
  cases hck : st.ckr with
  | none =>
    rw [skipMessageKeys_none _ hck] at hskip
    cases hskip
    rw [hck] at hck₁
    cases hck₁
  | some ck =>
    obtain ⟨hckr, hnr, _, _, hkeys⟩ := skipMessageKeys_skipped hck hskip
    have hat : ck₁ = chainAt P ck (n - st.nr) := Option.some.inj (hck₁.symm.trans hckr)
    have hkey : (kdfCk P ck₁).1 = messageKey P ck (n - st.nr) := by rw [hat, messageKey]
    have hstate := openMessage_state hopen
    rw [hkey] at hopen
    refine ⟨ck, rfl, openMessage_verified hopen, ?_, ?_, ?_⟩
    · rw [hstate]
      rfl
    · rw [hstate]
      change st₁.nr + 1 = _
      omega
    · rw [hstate, List.range_succ, List.map_append, ← List.append_assoc, List.map_singleton]
      exact ((List.subperm_cons _).mpr hkeys).trans (List.perm_append_singleton _ _).symm.subperm

end Skip

section Use

variable {generated : KeyPair P} {header : MessageHeader} {ct ad plaintext : Bytes}
  {verify : MacVerifier} {st st' : RatchetState}

theorem chainMacKeys_keys (id : τ) (ck : Bytes) (nr count : Nat) :
    (chainMacKeys P id ck nr count).map Prod.snd =
      ((List.range count).map (messageKey P ck)).map (macKeyOf P) := by
  rw [chainMacKeys, List.map_map, List.map_map]
  rfl

theorem chainMacKeys_positions (id : τ) (ck : Bytes) (nr count : Nat) :
    (chainMacKeys P id ck nr count).map Prod.fst = (List.range count).map fun i => (id, nr + i) := by
  rw [chainMacKeys, List.map_map]
  rfl

theorem RatchetState.derived_turned (id id' : τ)
    (hk : st.mkskipped.get? (header.dh, header.n) = none) (hd : st.dhr ≠ some header.dh) {sh : Bytes}
    (hsh : P.x25519Exchange st.dhsPriv header.dh = some sh) :
    st.derived P id id' header = st.currentMacKeys P id (header.pn - st.nr) ++
      chainMacKeys P id' (kdfRk P st.rk sh).2 0 (header.n + 1) := by
  simp only [RatchetState.derived, RatchetState.newChain, hk, hd, hsh, Option.isSome_none,
    Bool.false_eq_true, if_false, Option.map_some, Option.getD_some]

theorem skipMessageKeys_cached {upTo : Nat} (id : τ) (h : skipMessageKeys P upTo st = .ok () st') :
    st'.rk = st.rk ∧ st'.dhsPriv = st.dhsPriv ∧ (st'.cachedMacKeys P).Subperm
      (st.cachedMacKeys P ++ (st.currentMacKeys P id (upTo - st.nr)).map Prod.snd) := by
  cases hck : st.ckr with
  | none =>
    rw [skipMessageKeys_none _ hck] at h
    cases h
    refine ⟨rfl, rfl, ?_⟩
    simp only [RatchetState.currentMacKeys, hck, Option.map_none, Option.getD_none, List.map_nil,
      List.append_nil]
    exact List.Subperm.refl _
  | some ck =>
    obtain ⟨_, _, hrk, hpriv, hkeys⟩ := skipMessageKeys_skipped hck h
    refine ⟨hrk, hpriv, ?_⟩
    simp only [RatchetState.currentMacKeys, hck, Option.map_some, Option.getD_some,
      chainMacKeys_keys]
    rw [RatchetState.cachedMacKeys, RatchetState.cachedMacKeys, ← List.map_append]
    exact map_subperm (macKeyOf P) hkeys

theorem OpenedAt.macKeys {n : Nat} {ck : Bytes} (h : OpenedAt P n verify ck st st') (id : τ)
    (nr : Nat) :
    (macKeyOf P (messageKey P ck (n - st.nr)) :: st'.cachedMacKeys P).Subperm
      (st.cachedMacKeys P ++ (chainMacKeys P id ck nr (n - st.nr + 1)).map Prod.snd) := by
  rw [chainMacKeys_keys, RatchetState.cachedMacKeys, RatchetState.cachedMacKeys, ← List.map_append]
  exact map_subperm (macKeyOf P) h.keys

/-- What is accepted was verified with `usedMacKey`, which is then neither in the cache
nor ahead on a chain. -/
theorem ratchetDecrypt_uses (id id' : τ)
    (h : ratchetDecrypt P generated header ct ad (some verify) st = .ok plaintext st') :
    verify (st.usedMacKey P header) = .ok () ∧
      (st.usedMacKey P header :: st'.cachedMacKeys P).Subperm
        (st.cachedMacKeys P ++ (st.derived P id id' header).map Prod.snd) := by
  cases hk : st.mkskipped.get? (header.dh, header.n) with
  | some mk =>
    rw [ratchetDecrypt_cached hk] at h
    simp only [RatchetState.usedMacKey, RatchetState.derived, hk, Option.isSome_some, if_true,
      List.map_nil, List.append_nil]
    refine ⟨openMessage_verified h, ?_⟩
    rw [openMessage_state h]
    exact ((OrderedMap.values_perm_erase hk).map (macKeyOf P)).symm.subperm
  | none =>
    by_cases hd : st.dhr = some header.dh
    · rw [ratchetDecrypt_current hk hd] at h
      obtain ⟨ck, hck, hopened⟩ := receiveAt_opened h
      simp only [RatchetState.usedMacKey, RatchetState.derived, RatchetState.currentMacKeys, hk, hd,
        hck, Option.isSome_none, Bool.false_eq_true, if_false, if_true, Option.map_some,
        Option.getD_some]
      exact ⟨hopened.verified, hopened.macKeys id st.nr⟩
    · obtain ⟨st₁, sh, sh', hskip, hsh, _, hrecv⟩ := ratchetDecrypt_turned hk hd h
      obtain ⟨hrk, hpriv, hcached⟩ := skipMessageKeys_cached id hskip
      obtain ⟨ck, hck, hopened⟩ := receiveAt_opened hrecv
      obtain rfl : ck = (kdfRk P st.rk sh).2 := by rw [← hrk]; exact (Option.some.inj hck).symm
      rw [hpriv] at hsh
      have hused : st.usedMacKey P header =
          macKeyOf P (messageKey P (kdfRk P st.rk sh).2 header.n) := by
        simp only [RatchetState.usedMacKey, RatchetState.newChain, hk, hd, hsh, if_false,
          Option.map_some, Option.getD_some]
      rw [hused, RatchetState.derived_turned id id' hk hd hsh, List.map_append, ← List.append_assoc]
      refine ⟨hopened.verified, (hopened.macKeys id' 0).trans ?_⟩
      exact (List.subperm_append_right _).mpr hcached

variable {κ : Type} [DecidableEq κ] {c : Counters κ τ} {k : κ}

theorem currentMacKeys_counts {id : τ} (hheld : c.held k = st.position id) (count : Nat) :
    Relation.ReflTransGen Counters.Step c { c with
      held := Function.update c.held k (st.ckr.map fun _ => (id, st.nr + count))
      log := c.log ++ (st.currentMacKeys P id count).map Prod.fst } := by
  rw [RatchetState.position] at hheld
  cases hck : st.ckr with
  | none =>
    rw [hck, Option.map_none] at hheld
    simp only [RatchetState.currentMacKeys, hck, Option.map_none, Option.getD_none, List.map_nil,
      List.append_nil]
    rw [← hheld, Function.update_eq_self]
  | some ck =>
    rw [hck, Option.map_some] at hheld
    simp only [RatchetState.currentMacKeys, hck, Option.map_some, Option.getD_some,
      chainMacKeys_positions]
    exact Counters.steps_uses hheld count

/-- What is derived is counted on the chains it belongs to, one of them new if there is
a DH ratchet step. -/
theorem ratchetDecrypt_counts {id id' : τ} (hheld : c.held k = st.position id)
    (hnew : st.turns header = true → id' ∉ c.used)
    (h : ratchetDecrypt P generated header ct ad (some verify) st = .ok plaintext st') :
    Relation.ReflTransGen Counters.Step c ⟨
      Function.update c.held k (st'.position (st.chainAfter id id' header)),
      if st.turns header then insert id' c.used else c.used,
      c.log ++ (st.derived P id id' header).map Prod.fst⟩ := by
  cases hk : st.mkskipped.get? (header.dh, header.n) with
  | some mk =>
    have hstays : st.turns header = false := by simp [RatchetState.turns, hk]
    rw [ratchetDecrypt_cached hk] at h
    simp only [RatchetState.chainAfter, RatchetState.derived, hk, hstays, Option.isSome_some,
      Bool.false_eq_true, if_false, if_true, List.map_nil, List.append_nil]
    have hsame : st'.position id = c.held k := by
      rw [openMessage_state h, hheld]
      rfl
    rw [hsame, Function.update_eq_self]
  | none =>
    by_cases hd : st.dhr = some header.dh
    · have hstays : st.turns header = false := by simp [RatchetState.turns, hd]
      rw [ratchetDecrypt_current hk hd] at h
      obtain ⟨ck, hck, hopened⟩ := receiveAt_opened h
      have hafter : st'.position id = st.ckr.map fun _ => (id, st.nr + (header.n - st.nr + 1)) := by
        obtain ⟨ck', hck'⟩ := Option.isSome_iff_exists.mp hopened.ckr
        rw [RatchetState.position, hck', hck, hopened.nr]
        rfl
      simp only [RatchetState.chainAfter, RatchetState.derived, hk, hd, hstays, Option.isSome_none,
        Bool.false_eq_true, if_false, if_true, hafter]
      exact currentMacKeys_counts hheld _
    · have hturns : st.turns header = true := by simp [RatchetState.turns, hk, hd]
      obtain ⟨st₁, sh, sh', hskip, hsh, _, hrecv⟩ := ratchetDecrypt_turned hk hd h
      obtain ⟨_, hpriv, _⟩ := skipMessageKeys_cached id hskip
      obtain ⟨ck, _, hopened⟩ := receiveAt_opened hrecv
      obtain ⟨ck', hck'⟩ := Option.isSome_iff_exists.mp hopened.ckr
      rw [hpriv] at hsh
      have hafter : st'.position id' = some (id', 0 + (header.n + 1)) := by
        rw [RatchetState.position, hck', hopened.nr]
        rfl
      simp only [RatchetState.chainAfter, hturns, if_true, hafter,
        RatchetState.derived_turned id id' hk hd hsh, List.map_append, chainMacKeys_positions]
      have hskipped := currentMacKeys_counts (P := P) hheld (header.pn - st.nr)
      refine hskipped.trans ?_
      refine .head (.start k 0 (hnew hturns)) ?_
      have hstarted := Counters.steps_uses (c := ⟨Function.update (Function.update c.held k
          (st.ckr.map fun _ => (id, st.nr + (header.pn - st.nr)))) k (some (id', 0)),
        insert id' c.used, c.log ++ (st.currentMacKeys P id (header.pn - st.nr)).map Prod.fst⟩)
        (Function.update_self k _ _) (header.n + 1)
      simpa only [Function.update_idem, List.append_assoc] using hstarted

end Use

end PyWhats
