import PyWhats.RatchetNet

/-! Delivery of the Double Ratchet. The DH keys of both parties form one ladder:
rung `i + 1` is made from the root key of rung `i` and the agreement of the two
keys around it, odd rungs belong to one party and even rungs to the other. A
party on rung `e` sends on chain `e` and receives on chain `e - 1`. -/

namespace PyWhats

structure Ladder (P : Primitives) where
  secret : Bytes
  key : Nat → KeyPair P

namespace Ladder

variable {P : Primitives}

def root (L : Ladder P) : Nat → Bytes
  | 0 => L.secret
  | i + 1 => (kdfRk P (L.root i) ((L.key i).agree (L.key (i + 1)))).1

def seed (L : Ladder P) : Nat → Bytes
  | 0 => []
  | i + 1 => (kdfRk P (L.root i) ((L.key i).agree (L.key (i + 1)))).2

def extend (L : Ladder P) (n : Nat) (g : KeyPair P) : Ladder P :=
  { L with key := Function.update L.key n g }

theorem extend_key_self (L : Ladder P) (n : Nat) (g : KeyPair P) : (L.extend n g).key n = g := by
  simp [extend]

theorem extend_key_ne (L : Ladder P) {n i : Nat} (g : KeyPair P) (h : i ≠ n) :
    (L.extend n g).key i = L.key i := by
  simp [extend, h]

theorem extend_root (L : Ladder P) {n i : Nat} (g : KeyPair P) (h : i < n) :
    (L.extend n g).root i = L.root i := by
  induction i with
  | zero => rfl
  | succ i ih =>
    simp only [root, ih (by omega), extend_key_ne L g (show i ≠ n by omega),
      extend_key_ne L g (show i + 1 ≠ n by omega)]

theorem extend_seed (L : Ladder P) {n i : Nat} (g : KeyPair P) (h : i < n) :
    (L.extend n g).seed i = L.seed i := by
  cases i with
  | zero => rfl
  | succ i =>
    simp only [seed, extend_root L g (show i < n by omega),
      extend_key_ne L g (show i ≠ n by omega), extend_key_ne L g (show i + 1 ≠ n by omega)]

end Ladder

section Invariant

variable {P : Primitives}

/-- A party's state is on rung `e` of the ladder; `sent j` messages were sent on
chain `j`. -/
structure OnRung (L : Ladder P) (sent : Nat → Nat) (e : Nat) (st : RatchetState) : Prop where
  dhsPriv : st.dhsPriv = (L.key e).priv
  dhsPub : st.dhsPub = (L.key e).pub
  rk : st.rk = L.root e
  dhr : st.dhr = if e = 0 then none else some (L.key (e - 1)).pub
  cks : st.cks = if e = 0 then none else some (chainAt P (L.seed e) (sent e))
  ckr : st.ckr = if e ≤ 1 then none else some (chainAt P (L.seed (e - 1)) st.nr)
  ns : st.ns = sent e
  pn : st.pn = sent (e - 2)
  nr_le : st.nr ≤ sent (e - 1)
  skipped : ∀ k mk, st.mkskipped.get? k = some mk → ∃ j, 1 ≤ j ∧ j < e ∧
    k.1 = (L.key j).pub ∧ mk = messageKey P (L.seed j) k.2 ∧ (j + 1 = e → k.2 < st.nr)

def Passed (e j n : Nat) (st : RatchetState) : Prop := j + 1 < e ∨ (j + 1 = e ∧ n < st.nr)

/-- A message in flight to a party on rung `e` from one on rung `eo`. -/
structure OnChain (L : Ladder P) (sent : Nat → Nat) (e eo : Nat) (st : RatchetState)
    (m : InFlight) (j : Nat) : Prop where
  pos : 1 ≤ j
  le : j ≤ eo
  parity : (j + eo) % 2 = 0
  dh : m.header.dh = (L.key j).pub
  pn : m.header.pn = sent (j - 2)
  lt : m.header.n < sent j
  body : (m.ciphertext, m.macKey) = encryptAesCbc P (messageKey P (L.seed j) m.header.n) m.plaintext
  cached : Passed e j m.header.n st → st.mkskipped.get? (m.header.dh, m.header.n) =
    some (messageKey P (L.seed j) m.header.n)

def KeysDistinct (L : Ladder P) (top : Nat) : Prop :=
  ∀ i j, i ≤ top → j ≤ top → (L.key i).pub = (L.key j).pub → i = j

def slot (m : InFlight) : Bytes × Nat := (m.header.dh, m.header.n)

/-- Decrypting asks the verifier about the sender's MAC key and then returns the
plaintext, in state `st'`. -/
def Opens (generated : KeyPair P) (ad : Bytes) (m : InFlight) (st st' : RatchetState) : Prop :=
  ∀ v, ratchetDecrypt P generated m.header m.ciphertext ad v st =
    verdict v m.macKey m.plaintext st'

theorem Opens.receive {generated : KeyPair P} {ad : Bytes} {m : InFlight} {st st' : RatchetState}
    (h : Opens generated ad m st st') : receive generated ad m st = .ok m.plaintext st' := by
  rw [PyWhats.receive, h]
  simp [verdict, expectMac]

structure NetInv (L : Ladder P) (sent : Nat → Nat) (e : Party → Nat) (net : Net P) : Prop where
  sent_zero : sent 0 = 0
  adjacent : ∀ p : Party, e p = e p.other + 1 ∨ e p.other = e p + 1
  keys : KeysDistinct L (max (e .alice) (e .bob))
  used : ∀ i, i ≤ max (e .alice) (e .bob) → (L.key i).pub ∈ net.usedKeys
  rung : ∀ p, OnRung L sent (e p) (net.state p)
  chain : ∀ p, ∀ m ∈ net.inbox p, ∃ j, OnChain L sent (e p) (e p.other) (net.state p) m j
  distinct : ∀ p, ((net.inbox p).map slot).Nodup
  log : ∀ d ∈ net.log, d.result = .ok d.message.plaintext ∧
    ∃ st', Opens d.generated d.associatedData d.message d.before st'

theorem Party.other_other (p : Party) : p.other.other = p := by cases p <;> rfl

theorem Party.other_ne (p : Party) : p.other ≠ p := by cases p <;> simp [Party.other]

theorem Party.eq_or_eq_other (p q : Party) : p = q ∨ q = p.other := by
  cases p <;> cases q <;> simp [Party.other]

theorem openMessage_onChain (hP : P.Lawful) {L : Ladder P} {sent : Nat → Nat} {e eo j : Nat}
    {st : RatchetState} {m : InFlight} (h : OnChain L sent e eo st m j) (v : Option MacVerifier)
    (s : RatchetState) :
    openMessage P (messageKey P (L.seed j) m.header.n) m.ciphertext v s =
      verdict v m.macKey m.plaintext s := by
  have hc := congrArg Prod.fst h.body
  have hm := congrArg Prod.snd h.body
  simp only at hc hm
  rw [hc, openMessage_encrypt hP, hm]

/-- After a delivery that stays on its rung everything else in flight can still
be received. -/
def Received (L : Ladder P) (sent : Nat → Nat) (e eo : Nat) (st st' : RatchetState)
    (m : InFlight) : Prop :=
  OnRung L sent e st' ∧ ∀ m' j, slot m' ≠ slot m →
    OnChain L sent e eo st m' j → OnChain L sent e eo st' m' j

section Receive

variable {L : Ladder P} {sent : Nat → Nat} {e eo j top : Nat} {st : RatchetState} {m : InFlight}
  {generated : KeyPair P} {ad mk : Bytes}

theorem receive_cached (generated : KeyPair P) (ad : Bytes) (hP : P.Lawful)
    (hkeys : KeysDistinct L top) (he : e ≤ top) (heo : eo ≤ top)
    (hr : OnRung L sent e st) (hm : OnChain L sent e eo st m j)
    (hk : st.mkskipped.get? (slot m) = some mk) :
    ∃ st', Opens generated ad m st st' ∧ Received L sent e eo st st' m := by
  obtain ⟨i, _, hie, hpub, hmk, _⟩ := hr.skipped _ _ hk
  have hij : i = j := hkeys i j (by omega) (Nat.le_trans hm.le heo) (hpub.symm.trans hm.dh)
  subst hij
  refine ⟨{ st with mkskipped := st.mkskipped.erase (slot m) }, ?_, ?_, ?_⟩
  · intro v
    rw [ratchetDecrypt_cached hk, hmk]
    exact openMessage_onChain hP hm v _
  · refine ⟨hr.dhsPriv, hr.dhsPub, hr.rk, hr.dhr, hr.cks, hr.ckr, hr.ns, hr.pn, hr.nr_le, ?_⟩
    intro k mk' hget
    simp only [OrderedMap.get?_erase] at hget
    split at hget
    · simp at hget
    · exact hr.skipped k mk' hget
  · intro m' j' hne h
    refine ⟨h.pos, h.le, h.parity, h.dh, h.pn, h.lt, h.body, fun hp => ?_⟩
    exact (OrderedMap.get?_erase_ne _ hne).trans (h.cached hp)

theorem receiveAt_onRung (hP : P.Lawful) (hkeys : KeysDistinct L top) (heo : eo ≤ top)
    (hr : OnRung L sent (j + 1) st) (hm : OnChain L sent (j + 1) eo st m j)
    (hn : st.nr ≤ m.header.n) (hmax : m.header.n - st.nr ≤ st.maxSkip)
    (hsize : st.mkskipped.size + (m.header.n - st.nr) ≤ maxSkippedTotal) :
    ∃ st', (∀ v, receiveAt P m.header.n m.ciphertext v st = verdict v m.macKey m.plaintext st') ∧
      Received L sent (j + 1) eo st st' m := by
  have hp := hm.pos
  have hd : st.dhr = some m.header.dh := by
    rw [hr.dhr, if_neg (by omega), hm.dh, Nat.add_sub_cancel]
  have hck : st.ckr = some (chainAt P (L.seed j) st.nr) := by
    rw [hr.ckr, if_neg (by omega), Nat.add_sub_cancel]
  obtain ⟨sk, hrun, hget⟩ := receiveAt_spec (P := P) hck hd hn (by omega) hsize
  simp only [messageKey_chainAt, chainAt_add] at hrun hget
  rw [show st.nr + (m.header.n - st.nr) = m.header.n by omega,
    show st.nr + (m.header.n - st.nr + 1) = m.header.n + 1 by omega] at hrun
  refine ⟨_, fun v => (hrun _ v).trans (openMessage_onChain hP hm v _), ?_, ?_⟩
  · refine ⟨hr.dhsPriv, hr.dhsPub, hr.rk, hr.dhr, hr.cks, ?_, hr.ns, hr.pn, hm.lt, ?_⟩
    · rw [if_neg (by omega), Nat.add_sub_cancel]
    · intro k mk' hk'
      simp only [hget] at hk'
      split at hk'
      · rename_i hreg
        refine ⟨j, hp, by omega, hreg.1.trans hm.dh, ?_, fun _ => by simp only; omega⟩
        rw [show st.nr + (k.2 - st.nr) = k.2 by omega] at hk'
        exact (Option.some.inj hk').symm
      · obtain ⟨i, h1, h2, h3, h4, h5⟩ := hr.skipped k mk' hk'
        exact ⟨i, h1, h2, h3, h4, fun hi => by have := h5 hi; simp only; omega⟩
  · intro m' j' hne h
    refine ⟨h.pos, h.le, h.parity, h.dh, h.pn, h.lt, h.body, fun hpass => ?_⟩
    simp only [hget]
    by_cases hreg : m'.header.dh = m.header.dh ∧ st.nr ≤ m'.header.n ∧ m'.header.n < m.header.n
    · have hjj : j' = j := hkeys j' j (Nat.le_trans h.le heo) (Nat.le_trans hm.le heo)
        (h.dh.symm.trans (hreg.1.trans hm.dh))
      rw [if_pos hreg, hjj, show st.nr + (m'.header.n - st.nr) = m'.header.n by omega]
    · rw [if_neg hreg]
      apply h.cached
      rcases hpass with hpass | ⟨hpass, hlt⟩
      · exact Or.inl hpass
      · obtain rfl : j' = j := by omega
        have hdh : m'.header.dh = m.header.dh := h.dh.trans hm.dh.symm
        have hnn : m'.header.n ≠ m.header.n := fun hh => hne (Prod.ext hdh hh)
        simp only at hlt
        refine Or.inr ⟨hpass, ?_⟩
        by_contra hge
        exact hreg ⟨hdh, by omega, by omega⟩

theorem receive_current (generated : KeyPair P) (ad : Bytes) (hP : P.Lawful)
    (hkeys : KeysDistinct L top) (he : e ≤ top) (heo : eo ≤ top)
    (hr : OnRung L sent e st) (hm : OnChain L sent e eo st m j)
    (hk : st.mkskipped.get? (slot m) = none) (hd : st.dhr = some m.header.dh)
    (hlim : WithinLimits st m.header) :
    ∃ st', Opens generated ad m st st' ∧ Received L sent e eo st st' m := by
  have he0 : e ≠ 0 := by
    intro h0
    rw [hr.dhr, if_pos h0] at hd
    cases hd
  have hpub : (L.key (e - 1)).pub = (L.key j).pub := by
    rw [hr.dhr, if_neg he0, Option.some.injEq, hm.dh] at hd
    exact hd
  obtain rfl : e = j + 1 := by
    have hh := hkeys (e - 1) j (by omega) (Nat.le_trans hm.le heo) hpub
    omega
  have hn : st.nr ≤ m.header.n := by
    by_contra hlt
    have hc := hm.cached (Or.inr ⟨rfl, by omega⟩)
    rw [slot, hc] at hk
    cases hk
  have hskip : skipsInNewChain st m.header = m.header.n - st.nr := by
    rw [skipsInNewChain, show (m.header.dh, m.header.n) = slot m from rfl, hk, if_pos hd]
    rfl
  have hmax := hlim.2.1
  have hsize := hlim.2.2
  rw [hskip] at hmax hsize
  obtain ⟨st', hopen, hrest⟩ := receiveAt_onRung hP hkeys heo hr hm hn hmax (by omega)
  exact ⟨st', fun v => (ratchetDecrypt_current hk hd).trans (hopen v), hrest⟩

theorem skip_onRung (hr : OnRung L sent e st) (hzero : sent 0 = 0)
    (hmax : sent (e - 1) - st.nr ≤ st.maxSkip)
    (hsize : st.mkskipped.size + (sent (e - 1) - st.nr) ≤ maxSkippedTotal) :
    ∃ ckr sk, skipMessageKeys P (sent (e - 1)) st =
        .ok () { st with ckr := ckr, nr := sent (e - 1), mkskipped := sk } ∧
      sk.size ≤ st.mkskipped.size + (sent (e - 1) - st.nr) ∧
      ∀ k : Bytes × Nat, sk.get? k =
        if 2 ≤ e ∧ k.1 = (L.key (e - 1)).pub ∧ st.nr ≤ k.2 ∧ k.2 < sent (e - 1)
        then some (messageKey P (L.seed (e - 1)) k.2) else st.mkskipped.get? k := by
  have hle := hr.nr_le
  by_cases he : e ≤ 1
  · have hc : st.ckr = none := by rw [hr.ckr, if_pos he]
    have h0 : sent (e - 1) = 0 := by rw [show e - 1 = 0 by omega, hzero]
    refine ⟨st.ckr, st.mkskipped, ?_, by omega, fun k => by rw [if_neg (by omega)]⟩
    rw [skipMessageKeys_none _ hc, show sent (e - 1) = st.nr by omega]
  · have hc : st.ckr = some (chainAt P (L.seed (e - 1)) st.nr) := by rw [hr.ckr, if_neg he]
    have hd : st.dhr = some (L.key (e - 1)).pub := by rw [hr.dhr, if_neg (by omega)]
    have hadd : st.nr + (sent (e - 1) - st.nr) = sent (e - 1) := by omega
    obtain ⟨sk, hrun, hsz, hget⟩ :=
      skipLoop_spec (P := P) (sent (e - 1) - st.nr) hc hd (by omega)
    rw [hadd] at hrun
    refine ⟨_, sk, by rw [skipMessageKeys_some hc (by omega), hrun], hsz, fun k => ?_⟩
    rw [hget k, hadd, messageKey_chainAt]
    by_cases hreg : k.1 = (L.key (e - 1)).pub ∧ st.nr ≤ k.2 ∧ k.2 < sent (e - 1)
    · rw [if_pos hreg, if_pos ⟨by omega, hreg⟩, show st.nr + (k.2 - st.nr) = k.2 by omega]
    · rw [if_neg hreg, if_neg (fun h => hreg h.2)]

/-- Rung `e + 2` is entered by skipping to the end of chain `e - 1` and a DH
ratchet step against the key of rung `e + 1`. -/
theorem dhRatcheted_onRung (generated : KeyPair P) {sh sh' : Bytes} (ckr : Option Bytes)
    {sk : OrderedMap (Bytes × Nat) Bytes} (hr : OnRung L sent e st)
    (hsh : sh = (L.key e).agree (L.key (e + 1))) (hsh' : sh' = (L.key (e + 1)).agree generated)
    (hget : ∀ k : Bytes × Nat, sk.get? k =
      if 2 ≤ e ∧ k.1 = (L.key (e - 1)).pub ∧ st.nr ≤ k.2 ∧ k.2 < sent (e - 1)
      then some (messageKey P (L.seed (e - 1)) k.2) else st.mkskipped.get? k) :
    OnRung (L.extend (e + 2) generated) (Function.update sent (e + 2) 0) (e + 2)
      (dhRatcheted P generated (L.key (e + 1)).pub sh sh'
        { st with ckr := ckr, nr := sent (e - 1), mkskipped := sk }) := by
  have hroot : (L.extend (e + 2) generated).root (e + 1) = (kdfRk P st.rk sh).1 := by
    rw [L.extend_root generated (by omega), Ladder.root, hr.rk, hsh]
  have hseed : (L.extend (e + 2) generated).seed (e + 1) = (kdfRk P st.rk sh).2 := by
    rw [L.extend_seed generated (by omega), Ladder.seed, hr.rk, hsh]
  have hkey : (L.extend (e + 2) generated).key (e + 1) = L.key (e + 1) :=
    L.extend_key_ne generated (by omega)
  have hself : (L.extend (e + 2) generated).key (e + 2) = generated := L.extend_key_self _ _
  refine ⟨by rw [hself]; rfl, by rw [hself]; rfl, ?_, ?_, ?_, ?_, ?_, ?_, Nat.zero_le _, ?_⟩
  · rw [Ladder.root, hroot, hkey, hself, ← hsh']
    rfl
  · rw [if_neg (by omega), show e + 2 - 1 = e + 1 by omega, hkey]
    rfl
  · rw [if_neg (by omega), Function.update_self, Ladder.seed, hroot, hkey, hself, ← hsh']
    rfl
  · rw [if_neg (by omega), show e + 2 - 1 = e + 1 by omega, hseed]
    rfl
  · rw [Function.update_self]
    rfl
  · rw [Nat.add_sub_cancel, Function.update_of_ne (by omega), ← hr.ns]
    rfl
  · intro k mk' hk'
    have hk'' : sk.get? k = some mk' := hk'
    rw [hget k] at hk''
    split at hk''
    · rename_i hreg
      refine ⟨e - 1, by omega, by omega, ?_, ?_, by omega⟩
      · rw [L.extend_key_ne generated (by omega)]
        exact hreg.2.1
      · rw [L.extend_seed generated (by omega)]
        exact (Option.some.inj hk'').symm
    · obtain ⟨i, h1, h2, h3, h4, _⟩ := hr.skipped k mk' hk''
      refine ⟨i, h1, by omega, ?_, ?_, by omega⟩
      · rw [L.extend_key_ne generated (by omega)]
        exact h3
      · rw [L.extend_seed generated (by omega)]
        exact h4

theorem OnChain.ratcheted (generated : KeyPair P) (st' : RatchetState)
    {sk : OrderedMap (Bytes × Nat) Bytes} {i : Nat}
    {m' : InFlight} (hkeys : KeysDistinct L top) (hetop : e + 1 ≤ top)
    (h : OnChain L sent e (e + 1) st m' i) (hnr : st'.nr = 0) (hsk : st'.mkskipped = sk)
    (hget : ∀ k : Bytes × Nat, sk.get? k =
      if 2 ≤ e ∧ k.1 = (L.key (e - 1)).pub ∧ st.nr ≤ k.2 ∧ k.2 < sent (e - 1)
      then some (messageKey P (L.seed (e - 1)) k.2) else st.mkskipped.get? k) :
    OnChain (L.extend (e + 2) generated) (Function.update sent (e + 2) 0) (e + 2) (e + 1) st' m' i := by
  have hle := h.le
  have hpos := h.pos
  have hpar := h.parity
  refine ⟨hpos, hle, hpar, ?_, ?_, ?_, ?_, ?_⟩
  · rw [L.extend_key_ne generated (by omega)]
    exact h.dh
  · rw [Function.update_of_ne (by omega)]
    exact h.pn
  · rw [Function.update_of_ne (by omega)]
    exact h.lt
  · rw [L.extend_seed generated (by omega)]
    exact h.body
  · intro hpass
    have hi : i + 1 ≤ e := by
      rcases hpass with hpass | ⟨hpass, hlt⟩ <;> omega
    rw [L.extend_seed generated (by omega), hsk, hget]
    by_cases hreg : 2 ≤ e ∧ m'.header.dh = (L.key (e - 1)).pub ∧ st.nr ≤ m'.header.n ∧
        m'.header.n < sent (e - 1)
    · have hie : i = e - 1 := hkeys i (e - 1) (by omega) (by omega) (h.dh.symm.trans hreg.2.1)
      rw [if_pos hreg, hie]
    · rw [if_neg hreg]
      apply h.cached
      by_cases hie : i + 1 < e
      · exact Or.inl hie
      · refine Or.inr ⟨by omega, ?_⟩
        have hlt := h.lt
        obtain rfl : i = e - 1 := by omega
        by_contra hge
        exact hreg ⟨by omega, h.dh, by omega, hlt⟩

/-- Every earlier chain has been passed, and the chain listened to carries another key. -/
theorem OnChain.newChain (hm : OnChain L sent e eo st m j) (hr : OnRung L sent e st)
    (hadj : e = eo + 1 ∨ eo = e + 1) (hk : st.mkskipped.get? (slot m) = none)
    (hd : st.dhr ≠ some m.header.dh) : j = e + 1 ∧ eo = e + 1 := by
  have hle := hm.le
  have hpos := hm.pos
  have hpar := hm.parity
  by_cases hje : j + 1 < e
  · rw [slot, hm.cached (Or.inl hje)] at hk
    cases hk
  · by_cases hje' : j + 1 = e
    · refine absurd ?_ hd
      rw [hr.dhr, if_neg (by omega), hm.dh, show e - 1 = j by omega]
    · omega

theorem OnChain.skipsInOldChain_eq (hm : OnChain L sent e eo st m (e + 1))
    (hr : OnRung L sent e st) (hzero : sent 0 = 0) (hk : st.mkskipped.get? (slot m) = none)
    (hd : st.dhr ≠ some m.header.dh) : skipsInOldChain st m.header = sent (e - 1) - st.nr := by
  rw [skipsInOldChain, hr.ckr, hm.pn, show e + 1 - 2 = e - 1 by omega]
  by_cases he1 : e ≤ 1
  · simp [he1, hzero]
  · simp [he1, StartsChain, show st.mkskipped.get? (m.header.dh, m.header.n) = none from hk, hd]

theorem skipsInNewChain_eq (hk : st.mkskipped.get? (slot m) = none)
    (hd : st.dhr ≠ some m.header.dh) : skipsInNewChain st m.header = m.header.n := by
  rw [skipsInNewChain, show (m.header.dh, m.header.n) = slot m from rfl, hk, if_neg hd]
  rfl

theorem receive_newChain (generated : KeyPair P) (ad : Bytes) (hP : P.Lawful)
    (hkeys : KeysDistinct L top) (heo : eo ≤ top)
    (hadj : e = eo + 1 ∨ eo = e + 1) (hzero : sent 0 = 0)
    (hr : OnRung L sent e st) (hm : OnChain L sent e eo st m j)
    (hk : st.mkskipped.get? (slot m) = none) (hd : st.dhr ≠ some m.header.dh)
    (hlim : WithinLimits st m.header) :
    eo = e + 1 ∧ ∃ st', Opens generated ad m st st' ∧
      OnRung (L.extend (e + 2) generated) (Function.update sent (e + 2) 0) (e + 2) st' ∧
      ∀ m' i, slot m' ≠ slot m → OnChain L sent e eo st m' i →
        OnChain (L.extend (e + 2) generated) (Function.update sent (e + 2) 0) (e + 2) eo st' m' i := by
  obtain ⟨rfl, rfl⟩ := hm.newChain hr hadj hk hd
  obtain ⟨hmax, hmax', hsize⟩ := hlim
  rw [hm.skipsInOldChain_eq hr hzero hk hd] at hmax hsize
  rw [skipsInNewChain_eq hk hd] at hmax' hsize
  obtain ⟨ckr, sk, hskip, hsz, hget⟩ := skip_onRung hr hzero hmax (by omega)
  have hpn : m.header.pn = sent (e - 1) := by rw [hm.pn, show e + 1 - 2 = e - 1 by omega]
  rw [← hpn] at hskip
  have hrun : ∀ v, ratchetDecrypt P generated m.header m.ciphertext ad v st =
      receiveAt P m.header.n m.ciphertext v (dhRatcheted P generated m.header.dh
        ((L.key e).agree (L.key (e + 1))) ((L.key (e + 1)).agree generated) _) := fun v =>
    ratchetDecrypt_newChain hk hd hskip
      (by simp only [hr.dhsPriv, hm.dh]; exact hP.exchange_eq _ _)
      (by rw [hm.dh, hP.exchange_eq, hP.agree_comm])
  simp only [hm.dh, hpn] at hrun
  have hr' := dhRatcheted_onRung generated ckr hr rfl rfl hget
  have hkeys' : KeysDistinct (L.extend (e + 2) generated) (e + 1) := by
    intro a b ha hb hab
    rw [L.extend_key_ne generated (by omega), L.extend_key_ne generated (by omega)] at hab
    exact hkeys a b (by omega) (by omega) hab
  have hm' := OnChain.ratcheted generated (dhRatcheted P generated
    (L.key (e + 1)).pub ((L.key e).agree (L.key (e + 1))) ((L.key (e + 1)).agree generated)
    { st with ckr := ckr, nr := sent (e - 1), mkskipped := sk }) hkeys heo hm rfl rfl hget
  obtain ⟨st', hrecv, hrung, hothers⟩ := receiveAt_onRung hP hkeys' (Nat.le_refl _) hr' hm'
    (Nat.zero_le _) (by simpa [dhRatcheted] using hmax') (by
      simp only [dhRatcheted, Nat.sub_zero]
      omega)
  refine ⟨rfl, st', fun v => ?_, hrung, fun m' i hne h => ?_⟩
  · exact (hrun v).trans (hrecv v)
  · exact hothers m' i hne (h.ratcheted generated _ hkeys heo rfl rfl hget)

end Receive

theorem NetInv.rung_le {L : Ladder P} {sent : Nat → Nat} {e : Party → Nat} {net : Net P}
    (_ : NetInv L sent e net) (p : Party) : e p ≤ max (e .alice) (e .bob) := by
  cases p <;> omega

def Party.firstRung : Party → Nat
  | .alice => 1
  | .bob => 0

theorem NetInv.established (hP : P.Lawful) {net : Net P} (h : net.Established) :
    ∃ L sent e, NetInv L sent e net := by
  obtain ⟨hinit, hresp, halice, hfresh⟩ := h
  rename_i ika eka ikb generated spk opk r r' sa
  have hv := x3dhInitiator_publish_inv hinit
  rw [x3dhInitiator_publish hP _ _ _ _ _ hv, Except.ok.injEq] at hinit
  subst hinit
  rw [x3dhResponder_pair hP, Except.ok.injEq] at hresp
  subst hresp
  let L : Ladder P := ⟨x3dhSecret P ika eka ikb spk.pair (opk.map OneTimePreKey.pair),
    fun i => if i = 0 then spk.pair else generated⟩
  have hsa : sa = {
      dhsPriv := generated.priv, dhsPub := generated.pub, dhr := some spk.pair.pub
      rk := L.root 1, cks := some (L.seed 1), ckr := none } := by
    have he := hP.exchange_eq generated spk.pair
    rw [hP.agree_comm] at he
    simp only [ratchetInitAlice, ratchetDh, publishBundle, he, bind, Except.bind, pure,
      Except.pure, Except.ok.injEq] at halice
    exact halice.symm
  subst hsa
  refine ⟨L, fun _ => 0, Party.firstRung, rfl, ?_, ?_, ?_, ?_, ?_, ?_, ?_⟩
  · intro p
    cases p <;> simp [Party.other, Party.firstRung]
  · intro i j hi hj hij
    have hi' : i = 0 ∨ i = 1 := Nat.le_one_iff_eq_zero_or_eq_one.mp hi
    have hj' : j = 0 ∨ j = 1 := Nat.le_one_iff_eq_zero_or_eq_one.mp hj
    rcases hi' with rfl | rfl <;> rcases hj' with rfl | rfl
    · rfl
    · exact absurd hij.symm hfresh
    · exact absurd hij hfresh
    · rfl
  · intro i hi
    rcases Nat.le_one_iff_eq_zero_or_eq_one.mp hi with rfl | rfl <;> simp [L]
  · intro p
    cases p
    · exact ⟨rfl, rfl, rfl, rfl, rfl, rfl, rfl, rfl, Nat.le_refl _, fun k mk h => by cases h⟩
    · exact ⟨rfl, rfl, rfl, rfl, rfl, rfl, rfl, rfl, Nat.le_refl _, fun k mk h => by cases h⟩
  · intro p m hm
    cases hm
  · intro p
    exact List.nodup_nil
  · intro d hd
    cases hd

section Send

variable {L : Ladder P} {sent : Nat → Nat} {e eo i j : Nat} {st : RatchetState} {m : InFlight}

/-- One more message on chain `i`. -/
def oneMore (sent : Nat → Nat) (i : Nat) : Nat → Nat := Function.update sent i (sent i + 1)

theorem oneMore_self (sent : Nat → Nat) (i : Nat) : oneMore sent i i = sent i + 1 := by
  rw [oneMore, Function.update_self]

theorem oneMore_ne (sent : Nat → Nat) (h : j ≠ i) : oneMore sent i j = sent j :=
  Function.update_of_ne h _ _

theorem le_oneMore (sent : Nat → Nat) (i j : Nat) : sent j ≤ oneMore sent i j := by
  by_cases h : j = i
  · rw [h, oneMore_self]
    omega
  · exact Nat.le_of_eq (oneMore_ne sent h).symm

theorem OnRung.encrypted (hr : OnRung L sent e st) (he : e ≠ 0) :
    OnRung L (oneMore sent e) e { st with
      cks := some (nextChainKey P (chainAt P (L.seed e) (sent e))), ns := st.ns + 1 } := by
  refine ⟨hr.dhsPriv, hr.dhsPub, hr.rk, hr.dhr, ?_, hr.ckr, ?_, ?_, ?_, hr.skipped⟩
  · rw [if_neg he, oneMore_self, chainAt_succ]
  · rw [oneMore_self, ← hr.ns]
  · rw [oneMore_ne sent (by omega), ← hr.pn]
  · rw [oneMore_ne sent (by omega)]
    exact hr.nr_le

theorem OnRung.encrypt_inv {plaintext ad ciphertext macKey : Bytes} {header : MessageHeader}
    {st' : RatchetState} (hr : OnRung L sent e st)
    (hs : ratchetEncrypt P plaintext ad st = .ok (header, ciphertext, macKey) st') :
    e ≠ 0 ∧ header = ⟨st.dhsPub, st.pn, st.ns⟩ ∧
      (ciphertext, macKey) = encryptAesCbc P (messageKey P (L.seed e) (sent e)) plaintext ∧
      st' = { st with
        cks := some (nextChainKey P (chainAt P (L.seed e) (sent e))), ns := st.ns + 1 } := by
  have he : e ≠ 0 := by
    intro h0
    have hcks : st.cks = none := by rw [hr.cks, if_pos h0]
    rw [ratchetEncrypt_none hcks] at hs
    cases hs
  have hck : st.cks = some (chainAt P (L.seed e) (sent e)) := by rw [hr.cks, if_neg he]
  rw [ratchetEncrypt_eq hck, EStateM.Result.ok.injEq, Prod.mk.injEq] at hs
  obtain ⟨⟨hheader, hbody⟩, hst⟩ := hs
  exact ⟨he, hheader.symm, hbody.symm, hst.symm⟩

theorem OnRung.other_encrypted (hr : OnRung L sent e st) (hown : e ≠ i) (hprev : e - 2 ≠ i) :
    OnRung L (oneMore sent i) e st := by
  refine ⟨hr.dhsPriv, hr.dhsPub, hr.rk, hr.dhr, ?_, hr.ckr, ?_, ?_, ?_, hr.skipped⟩
  · rw [oneMore_ne sent hown, hr.cks]
  · rw [oneMore_ne sent hown, hr.ns]
  · rw [oneMore_ne sent hprev, hr.pn]
  · exact Nat.le_trans hr.nr_le (le_oneMore sent i _)

theorem OnChain.encrypted (hm : OnChain L sent e eo st m j) (hprev : j - 2 ≠ i) :
    OnChain L (oneMore sent i) e eo st m j := by
  have hpn : m.header.pn = oneMore sent i (j - 2) := by rw [oneMore_ne sent hprev, hm.pn]
  exact ⟨hm.pos, hm.le, hm.parity, hm.dh, hpn, Nat.lt_of_lt_of_le hm.lt (le_oneMore sent i j),
    hm.body, hm.cached⟩

end Send

section SendNet

variable {L : Ladder P} {sent : Nat → Nat} {e : Party → Nat} {net : Net P} {p : Party}
  {plaintext ad ciphertext macKey : Bytes}

/-- The next message of `p` is the last one of the chain that `p` sends on. -/
theorem NetInv.sent_onChain (h : NetInv L sent e net) (hp0 : e p ≠ 0)
    (hbody : (ciphertext, macKey) =
      encryptAesCbc P (messageKey P (L.seed (e p)) (sent (e p))) plaintext) :
    OnChain L (oneMore sent (e p)) (e p.other) (e p) (net.state p.other)
      ⟨⟨(net.state p).dhsPub, (net.state p).pn, (net.state p).ns⟩, ciphertext, macKey, plaintext⟩
      (e p) := by
  have hr := h.rung p
  have hadj := h.adjacent p
  refine ⟨by omega, Nat.le_refl _, by omega, hr.dhsPub, ?_, ?_, ?_, ?_⟩
  · rw [oneMore_ne sent (by omega)]
    exact hr.pn
  · rw [oneMore_self]
    simp only [hr.ns]
    omega
  · simp only [hr.ns]
    exact hbody
  · intro hpass
    have hle := (h.rung p.other).nr_le
    rcases hpass with hpass | ⟨hpass, hlt⟩
    · omega
    · rw [← hpass, Nat.add_sub_cancel] at hle
      simp only [hr.ns] at hlt
      omega

/-- No message in flight has the header that `p` sends next. -/
theorem NetInv.slot_unsent (h : NetInv L sent e net) {m : InFlight} (hm : m ∈ net.inbox p.other) :
    slot m ≠ ((net.state p).dhsPub, (net.state p).ns) := by
  intro hslot
  have hr := h.rung p
  obtain ⟨j, hj⟩ := h.chain p.other m hm
  rw [Party.other_other] at hj
  have hdh : m.header.dh = (net.state p).dhsPub := congrArg Prod.fst hslot
  have hn : m.header.n = (net.state p).ns := congrArg Prod.snd hslot
  have hj' : j = e p := h.keys j (e p) (Nat.le_trans hj.le (h.rung_le p)) (h.rung_le p)
    (hj.dh.symm.trans (hdh.trans hr.dhsPub))
  have hlt := hj.lt
  rw [hj', hn, hr.ns] at hlt
  omega

theorem NetInv.send {header : MessageHeader} {st : RatchetState} (h : NetInv L sent e net)
    (hs : ratchetEncrypt P plaintext ad (net.state p) = .ok (header, ciphertext, macKey) st) :
    NetInv L (oneMore sent (e p)) e (net.sent p st ⟨header, ciphertext, macKey, plaintext⟩) := by
  have hr := h.rung p
  have hadj := h.adjacent p
  obtain ⟨hp0, rfl, hbody, rfl⟩ := hr.encrypt_inv hs
  refine ⟨by rw [oneMore_ne sent (fun h0 => hp0 h0.symm), h.sent_zero], h.adjacent, h.keys, h.used,
    ?_, ?_, ?_, h.log⟩
  · intro q
    rcases p.eq_or_eq_other q with rfl | rfl
    · simp only [Net.sent, Function.update_self]
      exact hr.encrypted hp0
    · simp only [Net.sent, Function.update_of_ne p.other_ne]
      exact (h.rung p.other).other_encrypted (by omega) (by omega)
  · intro q m hm
    rcases p.eq_or_eq_other q with rfl | rfl
    · simp only [Net.sent, Function.update_self, Function.update_of_ne p.other_ne.symm] at hm ⊢
      obtain ⟨j, hj⟩ := h.chain p m hm
      have hparity := hj.parity
      have hle := hj.le
      have hpos := hj.pos
      -- The cache is as it was, and nothing else of the state is about the message.
      have hsame := hj.encrypted (i := e p) (by omega)
      exact ⟨j, hsame.pos, hsame.le, hsame.parity, hsame.dh, hsame.pn, hsame.lt, hsame.body,
        hsame.cached⟩
    · simp only [Net.sent, Function.update_self, Function.update_of_ne p.other_ne] at hm ⊢
      rw [Party.other_other]
      rcases List.mem_append.mp hm with hm | hm
      · obtain ⟨j, hj⟩ := h.chain p.other m hm
        rw [Party.other_other] at hj
        have hle := hj.le
        exact ⟨j, hj.encrypted (by omega)⟩
      · rw [List.mem_singleton] at hm
        subst hm
        exact ⟨e p, h.sent_onChain hp0 hbody⟩
  · intro q
    rcases p.eq_or_eq_other q with rfl | rfl
    · simp only [Net.sent, Function.update_of_ne p.other_ne.symm]
      exact h.distinct p
    · simp only [Net.sent, Function.update_self, List.map_append, List.map_singleton]
      refine List.nodup_append.mpr ⟨h.distinct p.other, List.nodup_singleton _, ?_⟩
      intro a ha b hb hab
      rw [List.mem_singleton] at hb
      obtain ⟨m, hm, rfl⟩ := List.mem_map.mp ha
      exact h.slot_unsent hm (hab.trans hb)

end SendNet

theorem NetInv.lose {L : Ladder P} {sent : Nat → Nat} {e : Party → Nat} {net : Net P} {p : Party}
    {pre post : List InFlight} {m : InFlight} (h : NetInv L sent e net)
    (hin : net.inbox p = pre ++ m :: post) :
    NetInv L sent e { net with inbox := Function.update net.inbox p (pre ++ post) } := by
  have hsub : (pre ++ post).Sublist (net.inbox p) := by
    rw [hin]
    exact (List.Sublist.refl pre).append (List.sublist_cons_self m post)
  refine ⟨h.sent_zero, h.adjacent, h.keys, h.used, h.rung, ?_, ?_, h.log⟩
  · intro q m' hm'
    rcases p.eq_or_eq_other q with rfl | rfl
    · exact h.chain p m' (hsub.subset (by simpa using hm'))
    · exact h.chain p.other m' (by simpa [Function.update_of_ne p.other_ne] using hm')
  · intro q
    rcases p.eq_or_eq_other q with rfl | rfl
    · simp only [Function.update_self]
      exact (h.distinct p).sublist (hsub.map slot)
    · simp only [Function.update_of_ne p.other_ne]
      exact h.distinct p.other

section Deliver

variable {L : Ladder P} {sent : Nat → Nat} {e eo n j top : Nat} {st : RatchetState} {m : InFlight}

theorem KeysDistinct.extend (hkeys : KeysDistinct L top) {generated : KeyPair P}
    (hnew : ∀ i, i ≤ top → (L.key i).pub ≠ generated.pub) :
    KeysDistinct (L.extend (top + 1) generated) (top + 1) := by
  have hkey : ∀ i, i ≤ top → (L.extend (top + 1) generated).key i = L.key i :=
    fun i hi => L.extend_key_ne generated (by omega)
  intro a b ha hb hab
  by_cases ha' : a = top + 1
  · by_cases hb' : b = top + 1
    · omega
    · rw [ha', L.extend_key_self, hkey b (by omega)] at hab
      exact absurd hab.symm (hnew b (by omega))
  · by_cases hb' : b = top + 1
    · rw [hb', L.extend_key_self, hkey a (by omega)] at hab
      exact absurd hab (hnew a (by omega))
    · rw [hkey a (by omega), hkey b (by omega)] at hab
      exact hkeys a b (by omega) (by omega) hab

/-- A new rung changes nothing below it. -/
theorem OnRung.extend (hr : OnRung L sent e st) (hn : e < n) (generated : KeyPair P) :
    OnRung (L.extend n generated) (Function.update sent n 0) e st := by
  have hkey : ∀ i, i ≤ e → (L.extend n generated).key i = L.key i :=
    fun i hi => L.extend_key_ne generated (by omega)
  refine ⟨?_, ?_, ?_, ?_, ?_, ?_, ?_, ?_, ?_, ?_⟩
  · rw [hkey _ (by omega), hr.dhsPriv]
  · rw [hkey _ (by omega), hr.dhsPub]
  · rw [L.extend_root generated (by omega), hr.rk]
  · rw [hkey _ (by omega), hr.dhr]
  · rw [L.extend_seed generated (by omega), Function.update_of_ne (by omega), hr.cks]
  · rw [L.extend_seed generated (by omega), hr.ckr]
  · rw [Function.update_of_ne (by omega), hr.ns]
  · rw [Function.update_of_ne (by omega), hr.pn]
  · rw [Function.update_of_ne (by omega)]
    exact hr.nr_le
  · intro k mk hget
    obtain ⟨i, hpos, hlt, hdh, hmk, hlow⟩ := hr.skipped k mk hget
    refine ⟨i, hpos, hlt, ?_, ?_, hlow⟩
    · rw [hkey i (by omega), hdh]
    · rw [L.extend_seed generated (by omega), hmk]

/-- What was sent from the rung that its sender leaves. -/
theorem OnChain.extend (hm : OnChain L sent e eo st m j) (generated : KeyPair P) :
    OnChain (L.extend (eo + 2) generated) (Function.update sent (eo + 2) 0) e (eo + 2) st m j := by
  have hle := hm.le
  have hparity := hm.parity
  refine ⟨hm.pos, by omega, by omega, ?_, ?_, ?_, ?_, ?_⟩
  · rw [L.extend_key_ne generated (by omega), hm.dh]
  · rw [Function.update_of_ne (by omega), hm.pn]
  · rw [Function.update_of_ne (by omega)]
    exact hm.lt
  · rw [L.extend_seed generated (by omega)]
    exact hm.body
  · rw [L.extend_seed generated (by omega)]
    exact hm.cached

end Deliver

section Deliver

variable {L : Ladder P} {sent : Nat → Nat} {e : Party → Nat} {net : Net P} {p : Party}
  {pre post : List InFlight} {m : InFlight} {generated : KeyPair P} {ad : Bytes}
  {st' : RatchetState}

theorem NetInv.slot_ne (h : NetInv L sent e net) (hin : net.inbox p = pre ++ m :: post) :
    ∀ m' ∈ pre ++ post, slot m' ≠ slot m := by
  have hd := h.distinct p
  rw [hin, List.map_append, List.map_cons] at hd
  intro m' hm' he
  have hmem : slot m ∈ pre.map slot ++ post.map slot := by
    rw [← List.map_append, ← he]
    exact List.mem_map_of_mem hm'
  exact (List.nodup_middle.mp hd).notMem hmem

theorem NetInv.logged (h : NetInv L sent e net) (rest : List InFlight)
    (hopen : Opens generated ad m (net.state p) st') :
    ∀ d ∈ (net.delivered p generated ad m rest).log, d.result = .ok d.message.plaintext ∧
      ∃ st', Opens d.generated d.associatedData d.message d.before st' := by
  intro d hd
  rcases List.mem_append.mp hd with hd | hd
  · exact h.log d hd
  · rw [List.mem_singleton] at hd
    subst hd
    simp only [hopen.receive, outcome]
    exact ⟨trivial, st', hopen⟩

/-- A delivery that starts no chain. -/
theorem NetInv.stays (h : NetInv L sent e net) (hin : net.inbox p = pre ++ m :: post)
    (hopen : Opens generated ad m (net.state p) st')
    (hok : Received L sent (e p) (e p.other) (net.state p) st' m)
    (hstarts : ¬ StartsChain (net.state p) m.header) :
    NetInv L sent e (net.delivered p generated ad m (pre ++ post)) := by
  have hlost := h.lose hin
  have hrecv := hopen.receive
  refine ⟨h.sent_zero, h.adjacent, h.keys, ?_, ?_, ?_, hlost.distinct, h.logged _ hopen⟩
  · simp only [Net.delivered, if_neg hstarts]
    exact h.used
  · intro q
    rcases p.eq_or_eq_other q with rfl | rfl
    · simpa only [Net.delivered, Function.update_self, hrecv, finalState] using hok.1
    · simpa only [Net.delivered, Function.update_of_ne p.other_ne] using h.rung p.other
  · intro q m' hm'
    rcases p.eq_or_eq_other q with rfl | rfl
    · simp only [Net.delivered, Function.update_self, hrecv, finalState] at hm' ⊢
      obtain ⟨i, hi⟩ := hlost.chain p m' (by simpa using hm')
      exact ⟨i, hok.2 m' i (h.slot_ne hin m' hm') hi⟩
    · simpa only [Net.delivered, Function.update_of_ne p.other_ne] using
        hlost.chain p.other m' hm'

/-- A delivery that starts a chain takes its receiver two rungs up. -/
theorem NetInv.climbs (h : NetInv L sent e net) (hin : net.inbox p = pre ++ m :: post)
    (hopen : Opens generated ad m (net.state p) st') (heo : e p.other = e p + 1)
    (hstarts : StartsChain (net.state p) m.header) (hfresh : generated.pub ∉ net.usedKeys)
    (hrung : OnRung (L.extend (e p + 2) generated) (Function.update sent (e p + 2) 0) (e p + 2) st')
    (hothers : ∀ m' i, slot m' ≠ slot m →
      OnChain L sent (e p) (e p.other) (net.state p) m' i →
      OnChain (L.extend (e p + 2) generated) (Function.update sent (e p + 2) 0) (e p + 2)
        (e p.other) st' m' i) :
    NetInv (L.extend (e p + 2) generated) (Function.update sent (e p + 2) 0)
      (Function.update e p (e p + 2)) (net.delivered p generated ad m (pre ++ post)) := by
  have hlost := h.lose hin
  have hrecv := hopen.receive
  have hmax : max (e .alice) (e .bob) = e p + 1 := by
    cases p <;> simp only [Party.other] at heo <;> omega
  have hmax' : max (Function.update e p (e p + 2) .alice) (Function.update e p (e p + 2) .bob) =
      e p + 2 := by
    cases p <;> simp [Function.update, Party.other] at heo ⊢ <;> omega
  have hkeys : KeysDistinct L (e p + 1) := hmax ▸ h.keys
  have hnew : ∀ i, i ≤ e p + 1 → (L.key i).pub ≠ generated.pub := by
    intro i hi he
    exact hfresh (he ▸ h.used i (by omega))
  refine ⟨?_, ?_, ?_, ?_, ?_, ?_, hlost.distinct, h.logged _ hopen⟩
  · rw [Function.update_of_ne (by omega), h.sent_zero]
  · intro q
    rcases p.eq_or_eq_other q with rfl | rfl
    · simp only [Function.update_self, Function.update_of_ne p.other_ne]
      omega
    · simp only [Party.other_other, Function.update_self, Function.update_of_ne p.other_ne]
      omega
  · rw [hmax']
    exact hkeys.extend hnew
  · rw [hmax']
    intro i hi
    simp only [Net.delivered, if_pos hstarts, List.mem_cons]
    by_cases hi' : i = e p + 2
    · rw [hi', L.extend_key_self]
      exact Or.inl rfl
    · rw [L.extend_key_ne generated hi']
      exact Or.inr (h.used i (by omega))
  · intro q
    rcases p.eq_or_eq_other q with rfl | rfl
    · simpa only [Net.delivered, Function.update_self, hrecv, finalState] using hrung
    · simp only [Net.delivered, Function.update_of_ne p.other_ne]
      exact (h.rung p.other).extend (by omega) generated
  · intro q m' hm'
    rcases p.eq_or_eq_other q with rfl | rfl
    · simp only [Net.delivered, Function.update_self, Function.update_of_ne p.other_ne, hrecv,
        finalState] at hm' ⊢
      obtain ⟨i, hi⟩ := hlost.chain p m' (by simpa using hm')
      exact ⟨i, hothers m' i (h.slot_ne hin m' hm') hi⟩
    · simp only [Net.delivered, Function.update_of_ne p.other_ne, Party.other_other,
        Function.update_self] at hm' ⊢
      obtain ⟨i, hi⟩ := h.chain p.other m' hm'
      rw [Party.other_other] at hi
      exact ⟨i, hi.extend generated⟩

theorem NetInv.deliver (hP : P.Lawful) (h : NetInv L sent e net)
    (hin : net.inbox p = pre ++ m :: post) (hlim : WithinLimits (net.state p) m.header)
    (hfresh : StartsChain (net.state p) m.header → generated.pub ∉ net.usedKeys) :
    ∃ L' sent' e', NetInv L' sent' e' (net.delivered p generated ad m (pre ++ post)) := by
  obtain ⟨j, hm⟩ := h.chain p m (by simp [hin])
  cases hk : (net.state p).mkskipped.get? (slot m) with
  | some mk =>
    obtain ⟨st', hopen, hok⟩ := receive_cached generated ad hP h.keys
      (h.rung_le p) (h.rung_le p.other) (h.rung p) hm hk
    refine ⟨L, sent, e, h.stays hin hopen hok fun hs => ?_⟩
    rw [slot, hs.1] at hk
    cases hk
  | none =>
    by_cases hd : (net.state p).dhr = some m.header.dh
    · obtain ⟨st', hopen, hok⟩ := receive_current generated ad hP h.keys
        (h.rung_le p) (h.rung_le p.other) (h.rung p) hm hk hd hlim
      exact ⟨L, sent, e, h.stays hin hopen hok fun hs => hs.2 hd⟩
    · obtain ⟨heo, st', hopen, hrung, hothers⟩ := receive_newChain generated ad
        hP h.keys (h.rung_le p.other) (h.adjacent p) h.sent_zero (h.rung p) hm hk hd hlim
      have hstarts : StartsChain (net.state p) m.header := ⟨hk, hd⟩
      exact ⟨_, _, _, h.climbs hin hopen heo hstarts (hfresh hstarts) hrung hothers⟩

end Deliver

theorem NetInv.run (hP : P.Lawful) {net₀ net : Net P} (h₀ : net₀.Established)
    (hrun : Net.Run net₀ net) : ∃ L sent e, NetInv L sent e net := by
  induction hrun with
  | refl => exact NetInv.established hP h₀
  | tail _ hstep ih =>
    obtain ⟨L, sent, e, hinv⟩ := ih
    cases hstep with
    | send hs => exact ⟨L, _, e, hinv.send hs⟩
    | deliver generated ad hin hlimits hfresh => exact hinv.deliver hP hin hlimits hfresh
    | lose hin => exact ⟨L, sent, e, hinv.lose hin⟩

/-- Every delivered message gives back its plaintext, and the MAC key handed to
the verifier is the one the sender's call returned. -/
theorem delivered_decrypts (hP : P.Lawful) {net₀ net : Net P} (h₀ : net₀.Established)
    (hrun : Net.Run net₀ net) :
    ∀ d ∈ net.log, d.result = .ok d.message.plaintext ∧ ∀ verify : MacVerifier,
      outcome (ratchetDecrypt P d.generated d.message.header d.message.ciphertext d.associatedData
        (some verify) d.before) = (verify d.message.macKey).map (fun _ => d.message.plaintext) := by
  obtain ⟨L, sent, e, hinv⟩ := NetInv.run hP h₀ hrun
  intro d hd
  obtain ⟨hres, st', hopen⟩ := hinv.log d hd
  refine ⟨hres, fun verify => ?_⟩
  rw [hopen (some verify)]
  cases hv : verify d.message.macKey <;> simp [verdict, hv, outcome, Except.map]

section Demo

def demoAlice : RatchetState :=
  ((x3dhInitiator demoPrimitives (demoKey 1)
      (publishBundle (demoKey 2) (demoSignedPreKey 7 (demoKey 2) (demoKey 3)) none) (demoKey 4)).bind
    fun r => ratchetInitAlice demoPrimitives (demoKey 5) r.sharedSecret (demoKey 3).pub).toOption.getD
      (ratchetInitBob [] [] [])

def demoSecret : Bytes :=
  x3dhSecret demoPrimitives (demoKey 1) (demoKey 4) (demoKey 2) (demoKey 3) none

def demoNet : Net demoPrimitives where
  state := fun
    | .alice => demoAlice
    | .bob => ratchetInitBob demoSecret (demoKey 3).priv (demoKey 3).pub
  inbox _ := []
  usedKeys := [(demoKey 5).pub, (demoKey 3).pub]
  log := []

theorem demoNet_established : demoNet.Established := by
  have hv : (publishBundle (demoKey 2) (demoSignedPreKey 7 (demoKey 2) (demoKey 3))
      none).verifySignature demoPrimitives = .ok true := by decide +kernel
  have h := x3dhInitiator_publish demoPrimitives_lawful (demoKey 1) (demoKey 4) (demoKey 2) _ none hv
  have hsa : ratchetInitAlice demoPrimitives (demoKey 5) demoSecret (demoKey 3).pub =
      .ok demoAlice := by decide +kernel
  exact Net.Established.intro h
    (x3dhResponder_pair demoPrimitives_lawful (demoKey 1) (demoKey 4) _ _ _) hsa (by decide +kernel)

inductive NetMove where
  | send (p : Party) (plaintext : Bytes)
  | deliver (p : Party) (position : Nat) (key : UInt8)
  | lose (p : Party) (position : Nat)

def Net.moved (net : Net demoPrimitives) : NetMove → Option (Net demoPrimitives)
  | .send p plaintext =>
    match ratchetEncrypt demoPrimitives plaintext [] (net.state p) with
    | .ok (header, ciphertext, macKey) st =>
      some (net.sent p st ⟨header, ciphertext, macKey, plaintext⟩)
    | .error _ _ => none
  | .deliver p position key =>
    match (net.inbox p).drop position with
    | m :: post =>
      if WithinLimits (net.state p) m.header ∧
          (StartsChain (net.state p) m.header → (demoKey key).pub ∉ net.usedKeys) then
        some (net.delivered p (demoKey key) [] m ((net.inbox p).take position ++ post))
      else none
    | [] => none
  | .lose p position =>
    match (net.inbox p).drop position with
    | _ :: post =>
      some { net with inbox := Function.update net.inbox p ((net.inbox p).take position ++ post) }
    | [] => none

def Net.played (net : Net demoPrimitives) : List NetMove → Option (Net demoPrimitives)
  | [] => some net
  | move :: moves => (net.moved move).bind fun net' => net'.played moves

theorem Net.moved_step {net net' : Net demoPrimitives} {move : NetMove}
    (h : net.moved move = some net') : Net.Step net net' := by
  cases move with
  | send p plaintext =>
    simp only [Net.moved] at h
    split at h
    · rename_i hencrypt
      cases h
      exact .send hencrypt
    · cases h
  | deliver p position key =>
    simp only [Net.moved] at h
    split at h
    · rename_i m post hdrop
      split at h
      · rename_i hok
        cases h
        have hin : net.inbox p = (net.inbox p).take position ++ m :: post := by
          rw [← hdrop, List.take_append_drop]
        exact .deliver (demoKey key) [] hin hok.1 hok.2
      · cases h
    · cases h
  | lose p position =>
    simp only [Net.moved] at h
    split at h
    · rename_i m post hdrop
      cases h
      have hin : net.inbox p = (net.inbox p).take position ++ m :: post := by
        rw [← hdrop, List.take_append_drop]
      exact .lose hin
    · cases h

theorem Net.played_run {net net' : Net demoPrimitives} {moves : List NetMove}
    (h : net.played moves = some net') : Net.Run net net' := by
  induction moves generalizing net with
  | nil =>
    cases h
    exact .refl
  | cons move moves ih =>
    obtain ⟨net₁, hmoved, hrest⟩ := Option.bind_eq_some_iff.mp h
    exact .head (Net.moved_step hmoved) (ih hrest)

/-- Alice's third message comes first, her second is lost, and her first comes after Bob's
answer and the message of her next chain. -/
def demoMoves : List NetMove :=
  [.send .alice [1], .send .alice [2], .send .alice [3], .deliver .bob 2 6, .send .bob [4],
    .send .bob [5], .deliver .alice 1 7, .send .alice [6], .lose .bob 1, .deliver .bob 1 8,
    .deliver .bob 0 9, .deliver .alice 0 9]

def demoNetAfter : Net demoPrimitives := (demoNet.played demoMoves).getD demoNet

theorem delivered_decrypts_alternating :
    (demoNetAfter.log.map fun d => d.message.plaintext) = [[3], [5], [6], [1], [4]] ∧
    ∀ d ∈ demoNetAfter.log, d.result = .ok d.message.plaintext ∧ ∀ verify : MacVerifier,
      outcome (ratchetDecrypt demoPrimitives d.generated d.message.header d.message.ciphertext
        d.associatedData (some verify) d.before) =
        (verify d.message.macKey).map (fun _ => d.message.plaintext) := by
  have hplayed : (demoNet.played demoMoves).isSome = true := by decide +kernel
  have hrun : Net.Run demoNet demoNetAfter := by
    obtain ⟨net, hnet⟩ := Option.isSome_iff_exists.mp hplayed
    rw [demoNetAfter, hnet]
    exact Net.played_run hnet
  exact ⟨by decide +kernel, delivered_decrypts demoPrimitives_lawful demoNet_established hrun⟩

end Demo

end Invariant

end PyWhats
