import PyWhats.Handshake

/-! The messages that are sent before the first answer. Each carries the preamble,
and the receiver runs X3DH for each of them. -/

namespace PyWhats

variable {P : Primitives}

namespace Host

def encryptEach (a b : Host P) : List Bytes → CoM P (List (String × Bytes))
  | [] => pure []
  | plaintext :: rest => do
    let out ← a.encryptFor b plaintext
    let outs ← a.encryptEach b rest
    return out :: outs

def decryptEach (b a : Host P) : List (String × Bytes) → CoM P (List (Except PyError Bytes))
  | [] => pure []
  | out :: outs => do
    let result ← (b.decryptFrom a out).attempt
    let results ← b.decryptEach a outs
    return result :: results

end Host

section Send

variable {a b : Host P} {hs : Handshake P} {w w' : World P} {plaintexts : List Bytes}
  {outs : List (String × Bytes)} {n : Nat}

theorem encryptEach_known (hinit : hs.initiator = a.dev)
    (hs' : w.sessions.get? b.sid = some (hs.sending n)) (hm : w.peerMeta.get? b.sid = some hs.peerMeta)
    (h : (a.encryptEach b plaintexts).run w = (w', .done (.ok outs))) :
    outs.length = plaintexts.length ∧
      ∀ i m, (outs.zip plaintexts)[i]? = some m → hs.Frame a.env.pb (n + i) m.2 m.1 := by
  induction plaintexts generalizing w n outs with
  | nil =>
    cases h
    exact ⟨rfl, fun i m hi => nomatch hi⟩
  | cons plaintext rest ih =>
    obtain ⟨out, w₁, hout, h⟩ := Co.run_bind_inv h
    obtain ⟨outs', w₂, houts, h⟩ := Co.run_bind_inv h
    cases h
    obtain ⟨rfl, hwire⟩ := Co.run_done_inj (encryptForPeer_known hs' hm rfl plaintext) hout
    rw [hs.sending_next] at houts
    have hrest := fun hsession hm' => ih (n := n + 1) hsession hm' houts
    obtain ⟨hlen, hframes⟩ := hrest (OrderedMap.get?_set_self _ _ _) hm
    refine ⟨congrArg Nat.succ hlen, fun i m hi => ?_⟩
    cases i with
    | zero =>
      cases hi
      rw [← hinit] at hwire
      exact hs.frame_of_wire hwire
    | succ i =>
      have hframe := hframes i m hi
      rwa [Nat.add_assoc, Nat.add_comm 1 i] at hframe

theorem encryptEach_unknown (hP : P.Lawful) (hw : w.Unknown b.sid)
    (h : (a.encryptEach b plaintexts).run w = (w', .done (.ok outs))) :
    outs.length = plaintexts.length ∧
      ∀ i m, (outs.zip plaintexts)[i]? = some m →
        (a.handshake b w).Frame a.env.pb i m.2 m.1 := by
  cases plaintexts with
  | nil =>
    cases h
    exact ⟨rfl, fun i m hi => nomatch hi⟩
  | cons plaintext rest =>
    obtain ⟨out, w₁, hout, h⟩ := Co.run_bind_inv h
    obtain ⟨outs', w₂, houts, h⟩ := Co.run_bind_inv h
    cases h
    obtain ⟨hframe, hsession, hm, _⟩ := Host.encryptFor_unknown hP hw hout
    obtain ⟨hlen, hframes⟩ := encryptEach_known rfl hsession hm houts
    refine ⟨congrArg Nat.succ hlen, fun i m hi => ?_⟩
    cases i with
    | zero =>
      cases hi
      exact hframe
    | succ i =>
      rw [Nat.add_comm i 1]
      exact hframes i m hi

end Send

section Receive

variable {a b : Host P} {w w' : World P} {out : String × Bytes} {outs : List (String × Bytes)}
  {hs : Handshake P} {n : Nat} {plaintext : Bytes}

theorem decryptEach_cons_inv {results : List (Except PyError Bytes)}
    (h : (b.decryptEach a (out :: outs)).run w = (w', .done (.ok results))) :
    ∃ r rs w₁, results = r :: rs ∧ (b.decryptFrom a out).run w = (w₁, .done r) ∧
      (b.decryptEach a outs).run w₁ = (w', .done (.ok rs)) := by
  obtain ⟨r, w₁, hr, h⟩ := Co.run_bind_inv h
  obtain ⟨rs, w₂, hrs, h⟩ := Co.run_bind_inv h
  cases h
  exact ⟨r, rs, w₁, rfl, Co.run_attempt_inv hr, hrs⟩

/-- The frame is one of the handshake and the receiver is its responder. -/
structure FrameFor (hs : Handshake P) (b : Host P) (n : Nat) (plaintext : Bytes)
    (out : String × Bytes) : Prop where
  responder : hs.responder = b.dev
  opk : hs.opk = b.opk
  frame : hs.Frame b.env.pb n plaintext out

theorem decryptFrom_opens (hP : P.Lawful) (hpb : b.env.pb.Lawful) (h : FrameFor hs b n plaintext out)
    (hw : b.Holds w) (hn : n ≤ defaultMaxSkip) :
    ∃ w', (b.decryptFrom a out).run w = (w', .done (.ok plaintext)) ∧
      ∀ k, b.opk = some k → w'.prekeys.get? k.keyId = none := by
  have hheld : ∀ k, hs.opk = some k →
      (w.arrive a.dev.ownJid).prekeys.get? k.keyId = some k := by
    rw [World.arrive_prekeys, h.opk]
    exact hw
  obtain ⟨skipped, _, hopen⟩ := decryptPkmsg_opens hP hpb h.frame hheld hn .direct a.dev.ownJid
  rw [h.responder] at hopen
  refine ⟨_, (decryptEnc_pkmsg h.frame.1).trans hopen, fun k hk => ?_⟩
  rw [← h.opk] at hk
  simp only [Handshake.accepted, World.acceptedPrekey, World.log_toStores, Stores.acceptPrekey, hk,
    Option.map_some]
  exact OrderedMap.get?_erase_self _ _

theorem decryptFrom_limit (hP : P.Lawful) (hpb : b.env.pb.Lawful) (h : FrameFor hs b n plaintext out)
    (hw : b.Holds w) (hn : defaultMaxSkip < n) :
    ∃ w' e, (b.decryptFrom a out).run w = (w', .done (.error e)) := by
  have hheld : ∀ k, hs.opk = some k →
      (w.arrive a.dev.ownJid).prekeys.get? k.keyId = some k := by
    rw [World.arrive_prekeys, h.opk]
    exact hw
  have hlimit := decryptPkmsg_limit hP hpb h.frame hheld hn .direct a.dev.ownJid
  rw [h.responder] at hlimit
  exact ⟨_, _, (decryptEnc_pkmsg h.frame.1).trans hlimit⟩

theorem decryptFrom_gone (hP : P.Lawful) (hpb : b.env.pb.Lawful) (h : FrameFor hs b n plaintext out)
    {k : OneTimePreKey P} (hk : b.opk = some k) (hw : w.prekeys.get? k.keyId = none) :
    ∃ w' e, (b.decryptFrom a out).run w = (w', .done (.error e)) := by
  have hgone := decryptPkmsg_gone hP hpb h.frame (h.opk.trans hk)
    (w.arrive_prekeys a.dev.ownJid ▸ hw) .direct a.dev.ownJid
  rw [h.responder] at hgone
  exact ⟨_, _, (decryptEnc_pkmsg h.frame.1).trans hgone⟩

def Each (hs : Handshake P) (b : Host P) (ok : Nat → Prop) (order : List ((String × Bytes) × Bytes)) :
    Prop := ∀ m ∈ order, ∃ n, ok n ∧ FrameFor hs b n m.2 m.1

/-- Every message is returned. -/
def Host.Returns (b a : Host P) (order : List ((String × Bytes) × Bytes)) (w : World P) : Prop :=
  ((b.decryptEach a (order.map Prod.fst)).run w).2 = .done (.ok (order.map fun m => .ok m.2))

theorem returns_cons {m : (String × Bytes) × Bytes} {order : List ((String × Bytes) × Bytes)}
    (hm : (b.decryptFrom a m.1).run w = (w', .done (.ok m.2))) (h : b.Returns a order w') :
    b.Returns a (m :: order) w := by
  have hrest : (b.decryptEach a (order.map Prod.fst)).run w' = (_, .done (.ok _)) := Prod.ext rfl h
  have hrun : (b.decryptEach a ((m :: order).map Prod.fst)).run w = _ :=
    (Co.run_bind_ok (Co.run_attempt hm)).trans (Co.run_bind_ok hrest)
  exact congrArg Prod.snd hrun

theorem returns_cons_inv {m : (String × Bytes) × Bytes} {order : List ((String × Bytes) × Bytes)}
    (h : b.Returns a (m :: order) w) :
    ∃ w', (b.decryptFrom a m.1).run w = (w', .done (.ok m.2)) ∧ b.Returns a order w' := by
  have hrun : (b.decryptEach a ((m :: order).map Prod.fst)).run w = (_, .done (.ok _)) := Prod.ext rfl h
  obtain ⟨r, rs, w₁, heq, hm, hrest⟩ := decryptEach_cons_inv hrun
  cases heq
  exact ⟨w₁, hm, congrArg Prod.snd hrest⟩

theorem returns_of_no_opk (hP : P.Lawful) (hpb : b.env.pb.Lawful) (hopk : b.opk = none)
    {order : List ((String × Bytes) × Bytes)} (h : Each hs b (· ≤ defaultMaxSkip) order)
    (w : World P) : b.Returns a order w := by
  induction order generalizing w with
  | nil => rfl
  | cons m order ih =>
    obtain ⟨n, hn, hframe⟩ := h m List.mem_cons_self
    have hw : b.Holds w := fun k hk => nomatch hopk.symm.trans hk
    obtain ⟨w', hrun, _⟩ := decryptFrom_opens hP hpb hframe hw hn
    exact returns_cons hrun (ih (fun m' hm' => h m' (List.mem_cons_of_mem _ hm')) w')

theorem not_returns_of_limit (hP : P.Lawful) (hpb : b.env.pb.Lawful) (hopk : b.opk = none)
    {order : List ((String × Bytes) × Bytes)} {m : (String × Bytes) × Bytes} (hm : m ∈ order)
    (hframe : FrameFor hs b n m.2 m.1) (hn : defaultMaxSkip < n) (w : World P) :
    ¬ b.Returns a order w := by
  induction order generalizing w with
  | nil => cases hm
  | cons m' order ih =>
    intro h
    obtain ⟨w', hrun, hrest⟩ := returns_cons_inv h
    rcases List.mem_cons.mp hm with rfl | hm
    · have hw : b.Holds w := fun k hk => nomatch hopk.symm.trans hk
      obtain ⟨_, _, herror⟩ := decryptFrom_limit hP hpb hframe hw hn
      exact nomatch (Co.run_done_inj hrun herror).2
    · exact ih hm w' hrest

/-- The first message consumes the one-time prekey, and the second asks for it again. -/
theorem not_returns_twice (hP : P.Lawful) (hpb : b.env.pb.Lawful) {k : OneTimePreKey P}
    (hk : b.opk = some k) (hw : b.Holds w) {m m' : (String × Bytes) × Bytes} {n n' : Nat}
    {order : List ((String × Bytes) × Bytes)} (hm : FrameFor hs b n m.2 m.1)
    (hm' : FrameFor hs b n' m'.2 m'.1) : ¬ b.Returns a (m :: m' :: order) w := by
  intro h
  obtain ⟨w₁, hrun, h⟩ := returns_cons_inv h
  obtain ⟨w₂, hrun', _⟩ := returns_cons_inv h
  rcases Nat.lt_or_ge defaultMaxSkip n with hn | hn
  · obtain ⟨_, _, herror⟩ := decryptFrom_limit hP hpb hm hw hn
    exact nomatch (Co.run_done_inj hrun herror).2
  · obtain ⟨w₁', hopens, hconsumed⟩ := decryptFrom_opens hP hpb hm hw hn
    obtain ⟨rfl, _⟩ := Co.run_done_inj hrun hopens
    obtain ⟨_, _, herror⟩ := decryptFrom_gone hP hpb hm' hk (hconsumed k hk)
    exact nomatch (Co.run_done_inj hrun' herror).2

end Receive

/-- The messages sent before the first answer all arrive, in whatever order, just
when there is only one, or when the bundle had no one-time prekey and none of
them is beyond the skip limit. -/
theorem first_messages_arrive (hP : P.Lawful) {a b : Host P} (hpb : b.env.pb.Lawful)
    (hsame : a.env.pb = b.env.pb) {wa wa' wb : World P} (hnew : wa.Unknown b.sid)
    (hholds : b.Holds wb) {plaintexts : List Bytes} {outs : List (String × Bytes)}
    (hsome : 1 ≤ plaintexts.length)
    (hsent : (a.encryptEach b plaintexts).run wa = (wa', .done (.ok outs)))
    {order : List ((String × Bytes) × Bytes)} (horder : order.Perm (outs.zip plaintexts)) :
    b.Returns a order wb ↔
      plaintexts.length = 1 ∨ b.opk = none ∧ plaintexts.length ≤ defaultMaxSkip + 1 := by
  obtain ⟨hlen, hframes⟩ := encryptEach_unknown hP hnew hsent
  have hlength : order.length = plaintexts.length := by
    rw [horder.length_eq, List.length_zip, hlen, Nat.min_self]
  have hframe : ∀ i m, (outs.zip plaintexts)[i]? = some m →
      FrameFor (a.handshake b wa) b i m.2 m.1 := fun i m hi =>
    ⟨rfl, rfl, hsame ▸ hframes i m hi⟩
  have heach : Each (a.handshake b wa) b (· < plaintexts.length) order := by
    intro m hm
    obtain ⟨i, hi, hget⟩ := List.mem_iff_getElem.mp (horder.mem_iff.mp hm)
    refine ⟨i, ?_, hframe i m (List.getElem?_eq_some_iff.mpr ⟨hi, hget⟩)⟩
    rw [List.length_zip, hlen, Nat.min_self] at hi
    exact hi
  constructor
  · intro h
    by_contra hcond
    rw [not_or, not_and_or] at hcond
    obtain ⟨hone, hcond⟩ := hcond
    cases hopk : b.opk with
    | none =>
      have hlong := hcond.resolve_left (not_not.mpr hopk)
      have hbound : defaultMaxSkip + 1 < (outs.zip plaintexts).length := by
        rw [List.length_zip, hlen, Nat.min_self]
        omega
      have hlate := hframe _ _ (List.getElem?_eq_getElem hbound)
      exact not_returns_of_limit hP hpb hopk (horder.mem_iff.mpr (List.getElem_mem hbound)) hlate
        (Nat.lt_succ_self _) wb h
    | some k =>
      obtain ⟨m, m', rest, rfl⟩ : ∃ m m' rest, order = m :: m' :: rest := by
        match order, hlength with
        | [], hlength =>
          rw [List.length_nil] at hlength
          omega
        | [m], hlength => exact absurd hlength.symm hone
        | m :: m' :: rest, _ => exact ⟨m, m', rest, rfl⟩
      obtain ⟨n, _, hm⟩ := heach m List.mem_cons_self
      obtain ⟨n', _, hm'⟩ := heach m' (List.mem_cons_of_mem _ List.mem_cons_self)
      exact not_returns_twice hP hpb hopk hholds hm hm' h
  · rintro (hone | ⟨hopk, hlimit⟩)
    · obtain ⟨m, rfl⟩ := List.length_eq_one_iff.mp (hlength.trans hone)
      obtain ⟨n, hn, hm⟩ := heach m List.mem_cons_self
      obtain ⟨w', hrun, _⟩ := decryptFrom_opens hP hpb hm hholds (by omega)
      exact returns_cons hrun rfl
    · have hshort : Each (a.handshake b wa) b (· ≤ defaultMaxSkip) order := by
        intro m hm
        obtain ⟨n, hn, hframe⟩ := heach m hm
        exact ⟨n, by omega, hframe⟩
      exact returns_of_no_opk hP hpb hopk hshort wb

section Demo

def demoCaller : Host demoPrimitives := ⟨demoEnv [], demoMe, none⟩

def demoCallee (opk : Option (OneTimePreKey demoPrimitives)) : Host demoPrimitives :=
  ⟨demoEnv [], demoPeer, opk⟩

def demoFrames (opk : Option (OneTimePreKey demoPrimitives)) : List (String × Bytes) :=
  ((demoCaller.encryptEach (demoCallee opk) [[1], [2]]).run {}).2.ok?.getD []

theorem demoFrames_sent {opk : Option (OneTimePreKey demoPrimitives)}
    (h : ((demoCaller.encryptEach (demoCallee opk) [[1], [2]]).run {}).2.ok?.isSome = true) :
    (demoCaller.encryptEach (demoCallee opk) [[1], [2]]).run {} =
      (((demoCaller.encryptEach (demoCallee opk) [[1], [2]]).run {}).1, .done (.ok (demoFrames opk))) :=
  Co.run_getD [] h

theorem first_messages_arrive_reversed : (demoFrames none).length = 2 ∧
    (demoCallee none).Returns demoCaller ((demoFrames none).zip [[1], [2]]).reverse {} := by
  have hnew : ({} : World demoPrimitives).Unknown (demoCallee none).sid := .inl rfl
  have hholds : (demoCallee none).Holds ({} : World demoPrimitives) := by rintro k ⟨⟩
  have hshort : 2 ≤ defaultMaxSkip + 1 := by
    rw [defaultMaxSkip]
    omega
  have hsent := @demoFrames_sent none (by decide +kernel)
  have hiff := first_messages_arrive (a := demoCaller) (b := demoCallee none) demoPrimitives_lawful
    demoProtobuf_lawful rfl hnew hholds (by decide) hsent (List.reverse_perm _)
  exact ⟨by decide +kernel, hiff.mpr (.inr ⟨rfl, hshort⟩)⟩

def demoOpk : OneTimePreKey demoPrimitives := ⟨9, demoKey 30⟩

def demoStored : World demoPrimitives where
  prekeys := OrderedMap.empty.set 9 demoOpk

theorem Host.Returns.all_ok {a b : Host P} {order : List ((String × Bytes) × Bytes)} {w : World P}
    (h : b.Returns a order w) :
    ((b.decryptEach a (order.map Prod.fst)).run w).2.ok?.map (List.map Except.isOk) =
      some (order.map fun _ => true) := by
  rw [Host.Returns] at h
  rw [h]
  simp [Co.Stop.ok?, Except.isOk, Except.toBool, Function.comp_def]

/-- The second of two messages asks for a one-time prekey that the first used up. -/
theorem first_messages_lost :
    ¬ ∀ (wa wa' wb : World demoPrimitives) (plaintexts : List Bytes) (outs : List (String × Bytes))
      (order : List ((String × Bytes) × Bytes)), wa.Unknown (demoCallee (some demoOpk)).sid →
      (demoCallee (some demoOpk)).Holds wb → 1 ≤ plaintexts.length →
      (demoCaller.encryptEach (demoCallee (some demoOpk)) plaintexts).run wa = (wa', .done (.ok outs)) →
      order.Perm (outs.zip plaintexts) → (demoCallee (some demoOpk)).Returns demoCaller order wb := by
  intro h
  have hholds : (demoCallee (some demoOpk)).Holds demoStored := by
    rintro k ⟨⟩
    exact OrderedMap.get?_set_self _ _ _
  have hall := (h {} _ demoStored [[1], [2]] (demoFrames (some demoOpk)) _ (.inl rfl) hholds
    (by decide) (demoFrames_sent (by decide +kernel)) (.refl _)).all_ok
  exact absurd hall (by decide +kernel)

end Demo

end PyWhats
