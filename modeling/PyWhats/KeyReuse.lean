import PyWhats.Lib.Counters
import PyWhats.Slots

/-! No message key is used twice. The sending chain of a session is a counter named
by the public key of its chain, and the chain of a group is one named by the
group; both are held in stores that survive a crash. -/

namespace PyWhats

variable {P : Primitives}

section Logs

def Event.encryption? : Event → Option Encryption
  | .encrypt e => some e
  | _ => none

def Event.groupEncryption? : Event → Option (String × SenderKeyState × Bytes)
  | .groupEncrypt group state skmsg => some (group, state, skmsg)
  | _ => none

def World.encryptions (w : World P) : List Encryption := w.history.filterMap (·.2.encryption?)

def World.groupEncryptions (w : World P) : List (String × SenderKeyState × Bytes) :=
  w.history.filterMap (·.2.groupEncryption?)

theorem mem_encryptions {w : World P} {v : Stores P} {e : Encryption}
    (h : (v, Event.encrypt e) ∈ w.history) : e ∈ w.encryptions :=
  List.mem_filterMap.mpr ⟨_, h, rfl⟩

theorem mem_groupEncryptions {w : World P} {v : Stores P} {group : String} {state : SenderKeyState}
    {skmsg : Bytes} (h : (v, Event.groupEncrypt group state skmsg) ∈ w.history) :
    (group, state, skmsg) ∈ w.groupEncryptions :=
  List.mem_filterMap.mpr ⟨_, h, rfl⟩

theorem encryptions_log (w : World P) (e : Event) (f : Stores P → Stores P) :
    (w.log e f).encryptions = w.encryptions ++ e.encryption?.toList := by
  cases h : e.encryption? <;> simp [World.encryptions, List.filterMap_append, h]

theorem groupEncryptions_log (w : World P) (e : Event) (f : Stores P → Stores P) :
    (w.log e f).groupEncryptions = w.groupEncryptions ++ e.groupEncryption?.toList := by
  cases h : e.groupEncryption? <;> simp [World.groupEncryptions, List.filterMap_append, h]

theorem noted_logs (w : World P) (js : List JID) :
    (w.noted js).encryptions = w.encryptions ∧ (w.noted js).groupEncryptions = w.groupEncryptions ∧
      (w.noted js).drawn = w.drawn ∧ (w.noted js).senderKeys = w.senderKeys := by
  induction js generalizing w with
  | nil => exact ⟨rfl, rfl, rfl, rfl⟩
  | cons j js ih =>
    obtain ⟨henc, hgroup, hdrawn, hkeys⟩ := ih (w.log (.note (sessionId j)) (.note (sessionId j)))
    have hnote : (w.toStores.note (sessionId j)).drawn = w.drawn ∧
        (w.toStores.note (sessionId j)).senderKeys = w.senderKeys := by
      rw [Stores.note]
      split <;> exact ⟨rfl, rfl⟩
    refine ⟨henc.trans ?_, hgroup.trans ?_, hdrawn.trans hnote.1, hkeys.trans hnote.2⟩
    · rw [encryptions_log]
      exact List.append_nil _
    · rw [groupEncryptions_log]
      exact List.append_nil _

end Logs

section Ratchets

variable (env : Env P) (dev : Device P)

def Session.counter (session : Session) : Option (Bytes × Nat) :=
  session.state.cks.map fun _ => (session.state.dhsPub, session.state.ns)

def Encryption.position (e : Encryption) : Bytes × Nat := (e.header.dh, e.header.n)

/-- The sending chains of all sessions. The public keys drawn so far are used up. -/
def World.ratchetCounters (w : World P) : Counters String Bytes where
  held sid := (w.sessions.get? sid).bind Session.counter
  used := { t | ∃ i < w.drawn, t = (env.keyPair i).pub }
  log := w.encryptions.map Encryption.position

abbrev RatchetSteps (w w' : World P) : Prop :=
  Relation.ReflTransGen Counters.Step (w.ratchetCounters env) (w'.ratchetCounters env)

variable {env dev} {w w' : World P} {sid : String} {x x' : Session}

theorem used_mono (h : w.drawn ≤ w'.drawn) :
    (w.ratchetCounters env).used ⊆ (w'.ratchetCounters env).used := by
  rintro t ⟨i, hi, ht⟩
  exact ⟨i, Nat.lt_of_lt_of_le hi h, ht⟩

theorem ratchetSteps_of (held : String → Option (Bytes × Nat)) (log : List (Bytes × Nat))
    (hheld : (w'.ratchetCounters env).held = held) (hlog : w'.encryptions.map Encryption.position = log)
    (h : Relation.ReflTransGen Counters.Step (w.ratchetCounters env)
      ⟨held, (w'.ratchetCounters env).used, log⟩) : RatchetSteps env w w' := by
  subst hheld hlog
  exact h

theorem ratchetSteps_still (hdrawn : w.drawn ≤ w'.drawn)
    (hheld : (w'.ratchetCounters env).held = (w.ratchetCounters env).held)
    (hlog : w'.encryptions = w.encryptions) : RatchetSteps env w w' :=
  ratchetSteps_of _ _ hheld (congrArg _ hlog) (.single (.widen (used_mono hdrawn)))

theorem held_set (hset : ∀ k, w'.sessions.get? k = (w.sessions.set sid x').get? k) :
    (w'.ratchetCounters env).held =
      Function.update (w.ratchetCounters env).held sid x'.counter := by
  funext k
  by_cases hk : k = sid
  · subst hk
    simp [World.ratchetCounters, hset]
  · simp [World.ratchetCounters, hset, hk, OrderedMap.get?_set_ne]

theorem held_of_get (env : Env P) (h : w.sessions.get? sid = some x) :
    (w.ratchetCounters env).held sid = x.counter := by
  simp [World.ratchetCounters, h]

/-- A session takes the place of whatever was there. Its sending chain, if it has
one, has a newly drawn key. -/
theorem ratchetSteps_start {bound i : Nat} (hkeys : DistinctKeys env bound)
    (hbound : w'.drawn ≤ bound) (hi : w.drawn ≤ i) (hi' : i < w'.drawn)
    (hset : ∀ k, w'.sessions.get? k = (w.sessions.set sid x').get? k)
    (hlog : w'.encryptions = w.encryptions)
    (hx : x'.state.dhsPub = (env.keyPair i).pub ∨ x'.state.cks = none) : RatchetSteps env w w' := by
  have hle : w.drawn ≤ w'.drawn := by omega
  refine ratchetSteps_of _ _ (held_set hset) (congrArg _ hlog) ?_
  cases hc : x'.state.cks with
  | none =>
    simp only [Session.counter, hc, Option.map_none]
    exact Counters.Step.then_widen (.clear sid) (used_mono hle)
  | some ck =>
    have hpub := hx.resolve_right (by rw [hc]; exact Option.some_ne_none ck)
    have hnew : (env.keyPair i).pub ∉ (w.ratchetCounters env).used := by
      rintro ⟨j, hj, heq⟩
      have := hkeys i j (by omega) (by omega) heq
      omega
    simp only [Session.counter, hc, Option.map_some, hpub]
    refine Counters.Step.then_widen (.start sid x'.state.ns hnew) ?_
    rintro t (rfl | ht)
    · exact ⟨i, hi', rfl⟩
    · exact used_mono hle ht

theorem ratchetSteps_same (hdrawn : w.drawn ≤ w'.drawn) (hold : w.sessions.get? sid = some x)
    (hset : ∀ k, w'.sessions.get? k = (w.sessions.set sid x').get? k)
    (hlog : w'.encryptions = w.encryptions)
    (hx : SameSending x.state x'.state) : RatchetSteps env w w' := by
  refine ratchetSteps_still hdrawn ((held_set hset).trans ?_) hlog
  have hcounter : x'.counter = x.counter := by
    simp only [Session.counter, hx.cks, hx.dhsPub, hx.ns]
  rw [hcounter, ← held_of_get env hold, Function.update_eq_self]

theorem ratchetSteps_drop (hdrawn : w.drawn ≤ w'.drawn) (herase : w'.sessions = w.sessions.erase sid)
    (hlog : w'.encryptions = w.encryptions) : RatchetSteps env w w' := by
  refine ratchetSteps_of (Function.update (w.ratchetCounters env).held sid none) _ ?_
    (congrArg _ hlog) (Counters.Step.then_widen (.clear sid) (used_mono hdrawn))
  funext k
  by_cases hk : k = sid
  · subst hk
    simp [World.ratchetCounters, herase]
  · simp [World.ratchetCounters, herase, hk, OrderedMap.get?_erase_ne]

theorem ratchetSteps_migrate {pn lid : String} (hdrawn : w.drawn ≤ w'.drawn)
    (hpn : w.sessions.get? pn = some x) (hmove : w'.sessions = (w.sessions.set lid x).erase pn)
    (hlog : w'.encryptions = w.encryptions) : RatchetSteps env w w' := by
  refine ratchetSteps_of (Function.update (Function.update (w.ratchetCounters env).held lid
      ((w.ratchetCounters env).held pn)) pn none) _ ?_ (congrArg _ hlog)
    (Counters.Step.then_widen (.move pn lid) (used_mono hdrawn))
  funext k
  by_cases hk : k = pn
  · subst hk
    simp [World.ratchetCounters, hmove]
  · by_cases hl : k = lid
    · subst hl
      simp [World.ratchetCounters, hmove, hk, OrderedMap.get?_erase_ne, hpn]
    · simp [World.ratchetCounters, hmove, hk, hl, OrderedMap.get?_erase_ne, OrderedMap.get?_set_ne]

theorem Encryption.Made.counter {e : Encryption} {state : RatchetState} (h : e.Made dev state) :
    e.session.counter = some e.position ∧
      Session.counter { e.session with state := state } = some (e.header.dh, e.header.n + 1) := by
  cases hck : e.session.state.cks with
  | none =>
    rw [Encryption.Made, ratchetEncrypt_none hck] at h
    cases h
  | some ck =>
    rw [Encryption.Made, ratchetEncrypt_eq hck] at h
    injection h with hout hstate
    have hheader : e.header = ⟨e.session.state.dhsPub, e.session.state.pn, e.session.state.ns⟩ :=
      (congrArg Prod.fst hout).symm
    subst hstate
    simp only [Session.counter, hck, Option.map_some, Encryption.position, hheader, and_self]

theorem ratchetSteps_encrypt {e : Encryption} {state : RatchetState} (he : e.Made dev state)
    (hdrawn : w.drawn ≤ w'.drawn) (hold : w.sessions.get? e.sid = some e.session)
    (hset : ∀ k, w'.sessions.get? k =
      (w.sessions.set e.sid { e.session with state := state }).get? k)
    (hlog : w'.encryptions = w.encryptions ++ [e]) : RatchetSteps env w w' := by
  obtain ⟨hbefore, hafter⟩ := he.counter
  have hheld := (held_of_get env hold).trans hbefore
  refine ratchetSteps_of _ (w.encryptions.map Encryption.position ++ [e.position]) (held_set hset)
    (by rw [hlog, List.map_append, List.map_singleton]) ?_
  rw [hafter]
  exact Counters.Step.then_widen (.use hheld) (used_mono hdrawn)

theorem InitiatorRun.Made.dhsPub {generated : KeyPair P} {run : InitiatorRun}
    (h : run.Made dev generated) : run.start.dhsPub = generated.pub := by
  have hr := h.ratchet
  simp only [ratchetInitAlice, except_bind_ok] at hr
  obtain ⟨shared, _, hstart⟩ := hr
  rw [← Except.ok.inj hstart]

theorem Decrypts.accepted {generated : KeyPair P} {start state : RatchetState}
    (hstart : ∃ secret priv pub, start = ratchetInitBob secret priv pub)
    (h : Decrypts P generated start state) :
    state.dhsPub = generated.pub ∨ state.cks = none := by
  obtain ⟨secret, priv, pub, rfl⟩ := hstart
  obtain ⟨header, ct, ad, verify, plaintext, hdec⟩ := h
  rcases ratchetDecrypt_sending hdec with hsame | ⟨hpub, _⟩
  · exact .inr hsame.cks
  · exact .inl hpub

theorem ratchetSteps_receive {bound i : Nat} (hkeys : DistinctKeys env bound)
    (hbound : w'.drawn ≤ bound) (hi : w.drawn ≤ i) (hi' : i < w'.drawn)
    (hold : w.sessions.get? sid = some x)
    (hset : ∀ k, w'.sessions.get? k = (w.sessions.set sid x').get? k)
    (hlog : w'.encryptions = w.encryptions)
    (hdec : Decrypts P (env.keyPair i) x.state x'.state) : RatchetSteps env w w' := by
  obtain ⟨header, ct, ad, verify, plaintext, hdec⟩ := hdec
  rcases ratchetDecrypt_sending hdec with hsame | ⟨hpub, _⟩
  · exact ratchetSteps_same (by omega) hold hset hlog hsame
  · exact ratchetSteps_start hkeys hbound hi hi' hset hlog (.inl hpub)

theorem acceptedPrekey_steps {bound i n : Nat} {opk : Option Nat} {start state : RatchetState}
    {identityKey : Bytes} {channel : Channel} (js : List JID) (hkeys : DistinctKeys env bound)
    (hbound : ((w.acceptedPrekey n sid opk start state identityKey channel).noted js).drawn ≤ bound)
    (hi : w.drawn ≤ i) (hn : i < n)
    (hstart : ∃ secret priv pub, start = ratchetInitBob secret priv pub)
    (hdec : Decrypts P (env.keyPair i) start state) :
    RatchetSteps env w ((w.acceptedPrekey n sid opk start state identityKey channel).noted js) := by
  obtain ⟨henc, _, hdrawn, _⟩ :=
    noted_logs (w.acceptedPrekey n sid opk start state identityKey channel) js
  have hset : ∀ k, ((w.acceptedPrekey n sid opk start state identityKey channel).noted
      js).sessions.get? k = (w.sessions.set sid ⟨state, .accepted identityKey start, true⟩).get? k := by
    rw [noted_sessions]
    exact fun _ => rfl
  refine ratchetSteps_start hkeys hbound hi (hdrawn ▸ hn) hset (henc.trans ?_) (hdec.accepted hstart)
  rw [World.acceptedPrekey, encryptions_log]
  exact List.append_nil _

theorem acceptedMessage_steps {bound i n : Nat} {state : RatchetState} {channel : Channel}
    (js : List JID) (hkeys : DistinctKeys env bound)
    (hbound : ((w.acceptedMessage n sid x state channel).noted js).drawn ≤ bound)
    (hi : w.drawn ≤ i) (hn : i < n) (hsession : w.sessions.get? sid = some x)
    (hdec : Decrypts P (env.keyPair i) x.state state) :
    RatchetSteps env w ((w.acceptedMessage n sid x state channel).noted js) := by
  obtain ⟨henc, _, hdrawn, _⟩ := noted_logs (w.acceptedMessage n sid x state channel) js
  have hset : ∀ k, ((w.acceptedMessage n sid x state channel).noted js).sessions.get? k =
      (w.sessions.set sid { x with state := state, heard := true }).get? k := by
    rw [noted_sessions]
    exact fun _ => rfl
  refine ratchetSteps_receive hkeys hbound hi (hdrawn ▸ hn) hsession hset (henc.trans ?_) hdec
  rw [World.acceptedMessage, encryptions_log]
  exact List.append_nil _

theorem encryptions_of_history {e : Event} {s : Stores P} (h : w'.history = w.history ++ [(s, e)])
    (he : e.encryption? = none) : w'.encryptions = w.encryptions := by
  simp [World.encryptions, h, List.filterMap_append, he]

theorem Trans.ratchetSteps {bound : Nat} (hkeys : DistinctKeys env bound)
    (h : Trans env dev w w') (hbound : w'.drawn ≤ bound) : RatchetSteps env w w' := by
  cases h with
  | quiet h =>
    refine ratchetSteps_still h.drawn ?_ rfl
    simp only [World.ratchetCounters, World.put_toStores, h.sessions]
  | @initiate run e state i n hi hn hrun hsession hmeta he =>
    have hstart : RatchetSteps env w ((w.put (.setDrawn n)).put (.setSession e.sid e.session)) := by
      refine ratchetSteps_start hkeys hbound hi hn (fun _ => rfl) rfl (.inl ?_)
      rw [hsession]
      exact hrun.dhsPub
    refine hstart.trans (ratchetSteps_encrypt he (Nat.le_refl n) ?_ (fun k => ?_) ?_)
    · exact OrderedMap.get?_set_self _ _ _
    · simp only [World.log_toStores, World.put_toStores, Stores.setSession, Stores.setIdentity,
        Stores.setMeta, Stores.setDrawn, OrderedMap.get?_set]
      split <;> rfl
    · rw [encryptions_log]
      exact congrArg (· ++ [e]) (encryptions_of_history rfl rfl)
  | install hreceipt hid hi hn hrun =>
    refine ratchetSteps_start hkeys hbound hi hn (fun _ => rfl) ?_ (.inl hrun.dhsPub)
    exact encryptions_of_history rfl rfl
  | rehydrate hsession hmeta hid =>
    exact ratchetSteps_still (Nat.le_refl _) rfl (encryptions_of_history rfl rfl)
  | encrypt hsession hmeta he =>
    exact ratchetSteps_encrypt he (Nat.le_refl _) hsession (fun _ => rfl) (encryptions_log _ _ _)
  | drop => exact ratchetSteps_drop (Nat.le_refl _) rfl (encryptions_of_history rfl rfl)
  | acceptPrekey hi hn hstart hdec =>
    exact acceptedPrekey_steps [] hkeys hbound hi hn hstart hdec
  | acceptPrekeyNoted hi hn hstart hdec =>
    exact acceptedPrekey_steps _ hkeys hbound hi hn hstart hdec
  | acceptMessage hi hn hsession hdec =>
    exact acceptedMessage_steps [] hkeys hbound hi hn hsession hdec
  | acceptMessageNoted hi hn hsession hdec =>
    exact acceptedMessage_steps _ hkeys hbound hi hn hsession hdec
  | migrate hserver hserver' hpn hlid =>
    exact ratchetSteps_migrate (Nat.le_refl _) hpn rfl (encryptions_of_history rfl rfl)
  | cacheSent => exact .refl
  | resend h => exact ratchetSteps_still (Nat.le_refl _) rfl (encryptions_of_history rfl rfl)
  | groupEncrypt hn hstate henc => exact ratchetSteps_still hn rfl (encryptions_of_history rfl rfl)
  | learnSenderKey h => exact .refl
  | advanceSenderKey h => exact .refl
  | transmit h => exact ratchetSteps_still (Nat.le_refl _) rfl (encryptions_of_history rfl rfl)

theorem Part.ratchetSteps {bound : Nat} (hkeys : DistinctKeys env bound)
    (h : Part env dev w w') (hbound : w'.drawn ≤ bound) : RatchetSteps env w w' := by
  cases h with
  | initiateMeta hn => exact ratchetSteps_still hn rfl (encryptions_of_history rfl rfl)
  | initiateIdentity hn => exact ratchetSteps_still hn rfl (encryptions_of_history rfl rfl)
  | install hi hn hrun =>
    refine ratchetSteps_start hkeys hbound hi hn (fun _ => rfl) ?_ (.inl hrun.dhsPub)
    exact encryptions_of_history rfl rfl
  | dropSession => exact ratchetSteps_drop (Nat.le_refl _) rfl (encryptions_of_history rfl rfl)
  | dropMeta => exact ratchetSteps_drop (Nat.le_refl _) rfl (encryptions_of_history rfl rfl)
  | acceptPrekey hi hn hstart hdec js =>
    exact acceptedPrekey_steps _ hkeys hbound hi hn hstart hdec
  | acceptMessage hi hn hsession hdec js =>
    exact acceptedMessage_steps _ hkeys hbound hi hn hsession hdec

end Ratchets

section Groups

variable (dev : Device P)

def Device.senderKeyOf (group : String) : String × String := (group, sessionId dev.ownJid)

def SenderKeyState.counter (group : String) (state : SenderKeyState) : Option (String × Nat) :=
  state.signingPrivate.map fun _ => (group, state.iteration)

/-- The own chains of all groups. A group with any state is used up. -/
def World.groupCounters (w : World P) : Counters String String where
  held group := (w.senderKeys.get? (dev.senderKeyOf group)).bind (SenderKeyState.counter group)
  used := { group | (w.senderKeys.get? (dev.senderKeyOf group)).isSome }
  log := w.groupEncryptions.map fun e => (e.1, e.2.1.iteration)

abbrev GroupSteps (w w' : World P) : Prop :=
  Relation.ReflTransGen Counters.Step (w.groupCounters dev) (w'.groupCounters dev)

variable {dev} {env : Env P} {w w' : World P}

theorem groupEncryptions_of_history {e : Event} {s : Stores P}
    (h : w'.history = w.history ++ [(s, e)]) (he : e.groupEncryption? = none) :
    w'.groupEncryptions = w.groupEncryptions := by
  simp [World.groupEncryptions, h, List.filterMap_append, he]

theorem groupSteps_still (hkeys : w'.senderKeys = w.senderKeys)
    (hlog : w'.groupEncryptions = w.groupEncryptions) : GroupSteps dev w w' := by
  have heq : w'.groupCounters dev = w.groupCounters dev := by
    simp only [World.groupCounters, hkeys, hlog]
  rw [GroupSteps, heq]

theorem groupSteps_noted {v : World P} {js : List JID} {e : Event} {s : Stores P}
    (hkeys : v.senderKeys = w.senderKeys) (hv : v.history = w.history ++ [(s, e)])
    (he : e.groupEncryption? = none) : GroupSteps dev w (v.noted js) := by
  obtain ⟨_, hgroup, _, hkeys'⟩ := noted_logs v js
  exact groupSteps_still (hkeys'.trans hkeys) (hgroup.trans (groupEncryptions_of_history hv he))

theorem groupSteps_of (group : String) (state : SenderKeyState) (log : List (String × Nat))
    (hset : w'.senderKeys = w.senderKeys.set (dev.senderKeyOf group) state)
    (hlog : w'.groupEncryptions.map (fun e => (e.1, e.2.1.iteration)) = log)
    (h : Relation.ReflTransGen Counters.Step (w.groupCounters dev)
      ⟨Function.update (w.groupCounters dev).held group (state.counter group),
        insert group (w.groupCounters dev).used, log⟩) : GroupSteps dev w w' := by
  have hheld : (w'.groupCounters dev).held =
      Function.update (w.groupCounters dev).held group (state.counter group) := by
    funext k
    by_cases hk : k = group
    · subst hk
      simp [World.groupCounters, hset]
    · have hne : dev.senderKeyOf k ≠ dev.senderKeyOf group := fun h => hk (congrArg Prod.fst h)
      simp [World.groupCounters, hset, hk, OrderedMap.get?_set_ne _ _ hne]
  have hused : (w'.groupCounters dev).used = insert group (w.groupCounters dev).used := by
    ext k
    by_cases hk : k = group
    · subst hk
      simp [World.groupCounters, hset]
    · have hne : dev.senderKeyOf k ≠ dev.senderKeyOf group := fun h => hk (congrArg Prod.fst h)
      simp [World.groupCounters, hset, hk, OrderedMap.get?_set_ne _ _ hne]
  rw [← hheld, ← hused, ← hlog] at h
  exact h

theorem insert_used_of_get {group : String} {state : SenderKeyState}
    (h : w.senderKeys.get? (dev.senderKeyOf group) = some state) :
    insert group (w.groupCounters dev).used = (w.groupCounters dev).used :=
  Set.insert_eq_of_mem (by simp [World.groupCounters, h])

theorem groupSteps_groupEncrypt {group : String} {state state' : SenderKeyState}
    {nonce content skmsg : Bytes} {s : Stores P}
    (hstate : w.senderKeys.get? (dev.senderKeyOf group) = some state ∨
      w.senderKeys.get? (dev.senderKeyOf group) = none)
    (henc : groupEncrypt P env.pb nonce state content = .ok (skmsg, state'))
    (hset : w'.senderKeys = w.senderKeys.set (dev.senderKeyOf group) state')
    (hhistory : w'.history = w.history ++ [(s, .groupEncrypt group state skmsg)]) :
    GroupSteps dev w w' := by
  obtain ⟨hsign, rfl⟩ := groupEncrypt_inv henc
  obtain ⟨signing, hsign⟩ := Option.isSome_iff_exists.mp hsign
  refine groupSteps_of group _ ((w.groupCounters dev).log ++ [(group, state.iteration)]) hset
    (by simp [World.groupCounters, World.groupEncryptions, hhistory, List.filterMap_append,
      Event.groupEncryption?]) ?_
  have hcounter : SenderKeyState.counter group { state with
      iteration := state.iteration + 1, chainKey := nextSenderChainKey P state.chainKey } =
      some (group, state.iteration + 1) := by simp [SenderKeyState.counter, hsign]
  rw [hcounter]
  rcases hstate with hstate | hnone
  · have hheld : (w.groupCounters dev).held group = some (group, state.iteration) := by
      simp [World.groupCounters, hstate, SenderKeyState.counter, hsign]
    rw [insert_used_of_get hstate]
    exact .single (.use hheld)
  · have hnew : group ∉ (w.groupCounters dev).used := by simp [World.groupCounters, hnone]
    have huse := Counters.Step.use (c := ⟨Function.update (w.groupCounters dev).held group
        (some (group, state.iteration)), insert group (w.groupCounters dev).used,
        (w.groupCounters dev).log⟩) (Function.update_self group _ _)
    rw [Function.update_idem] at huse
    exact (Relation.ReflTransGen.single (.start group state.iteration hnew)).tail huse

theorem groupSteps_other {key : String × String} {state : SenderKeyState}
    (hkey : key.2 ≠ sessionId dev.ownJid) (hset : w'.senderKeys = w.senderKeys.set key state)
    (hlog : w'.groupEncryptions = w.groupEncryptions) : GroupSteps dev w w' := by
  have hget : ∀ group, w'.senderKeys.get? (dev.senderKeyOf group) =
      w.senderKeys.get? (dev.senderKeyOf group) := by
    intro group
    rw [hset]
    refine OrderedMap.get?_set_ne _ _ ?_
    rintro rfl
    exact hkey rfl
  have heq : w'.groupCounters dev = w.groupCounters dev := by
    simp only [World.groupCounters, hget, hlog]
  rw [GroupSteps, heq]

theorem Trans.groupSteps (h : Trans env dev w w') : GroupSteps dev w w' := by
  cases h with
  | quiet h => exact groupSteps_still h.senderKeys rfl
  | initiate hi hn hrun hsession hmeta he =>
    refine groupSteps_still rfl ?_
    simp [World.groupEncryptions, List.filterMap_append, Event.groupEncryption?]
  | acceptPrekeyNoted hi hn hstart hdec =>
    exact groupSteps_noted (v := World.acceptedPrekey _ _ _ _ _ _ _ _) rfl rfl rfl
  | acceptMessageNoted hi hn hsession hdec =>
    exact groupSteps_noted (v := World.acceptedMessage _ _ _ _ _ _) rfl rfl rfl
  | cacheSent => exact .refl
  | groupEncrypt hn hstate henc =>
    exact groupSteps_groupEncrypt (hstate.imp_right And.left) henc rfl rfl
  | @learnSenderKey key state h =>
    by_cases hkey : key.2 = sessionId dev.ownJid
    · obtain ⟨group, owner⟩ := key
      obtain rfl : owner = sessionId dev.ownJid := hkey
      refine groupSteps_of group state _ rfl rfl ?_
      simp only [SenderKeyState.counter, h, Option.map_none]
      exact Counters.Step.then_widen (.clear group) (Set.subset_insert _ _)
    · exact groupSteps_other hkey rfl rfl
  | @advanceSenderKey key state n h =>
    by_cases hkey : key.2 = sessionId dev.ownJid
    · obtain ⟨group, owner⟩ := key
      obtain rfl : owner = sessionId dev.ownJid := hkey
      refine groupSteps_of group _ _ rfl rfl ?_
      rw [insert_used_of_get h]
      cases hsign : state.signingPrivate with
      | none =>
        simp only [SenderKeyState.counter, Option.map_none]
        exact .single (.clear group)
      | some signing =>
        have hheld : (w.groupCounters dev).held group = some (group, state.iteration) := by
          simp [World.groupCounters, Device.senderKeyOf, h, SenderKeyState.counter, hsign]
        simp only [SenderKeyState.counter, Option.map_some]
        exact .single (.skip hheld (n + 1))
    · exact groupSteps_other hkey rfl rfl
  | _ => exact groupSteps_still rfl (groupEncryptions_of_history rfl rfl)

theorem Part.groupSteps (h : Part env dev w w') : GroupSteps dev w w' := by
  cases h with
  | acceptPrekey hi hn hstart hdec js =>
    exact groupSteps_noted (v := World.acceptedPrekey _ _ _ _ _ _ _ _) rfl rfl rfl
  | acceptMessage hi hn hsession hdec js =>
    exact groupSteps_noted (v := World.acceptedMessage _ _ _ _ _ _) rfl rfl rfl
  | _ => exact groupSteps_still rfl (groupEncryptions_of_history rfl rfl)

end Groups

section Lives

variable {env : Env P} {dev : Device P} {w w' : World P}

theorem noted_drawn_le {v : World P} {js : List JID} (h : w.drawn ≤ v.drawn) :
    w.drawn ≤ (v.noted js).drawn := by
  rw [(noted_logs v js).2.2.1]
  exact h

theorem Trans.drawn_le (h : Trans env dev w w') : w.drawn ≤ w'.drawn := by
  cases h with
  | quiet h => exact h.drawn
  | initiate hi hn hrun hsession hmeta he => exact hi.trans hn.le
  | install hreceipt hid hi hn hrun => exact hi.trans hn.le
  | acceptPrekey hi hn hstart hdec => exact hi.trans hn.le
  | acceptPrekeyNoted hi hn hstart hdec => exact noted_drawn_le (hi.trans hn.le)
  | acceptMessage hi hn hsession hdec => exact hi.trans hn.le
  | acceptMessageNoted hi hn hsession hdec => exact noted_drawn_le (hi.trans hn.le)
  | groupEncrypt hn hstate henc => exact hn
  | _ => exact Nat.le_refl _

theorem Part.drawn_le (h : Part env dev w w') : w.drawn ≤ w'.drawn := by
  cases h with
  | initiateMeta hn => exact hn
  | initiateIdentity hn => exact hn
  | install hi hn hrun => exact hi.trans hn.le
  | acceptPrekey hi hn hstart hdec js => exact noted_drawn_le (hi.trans hn.le)
  | acceptMessage hi hn hsession hdec js => exact noted_drawn_le (hi.trans hn.le)
  | _ => exact Nat.le_refl _

theorem lives_drawn_le (h : EndpointLives env dev w w') : w.drawn ≤ w'.drawn := by
  rcases h with h | ⟨t, rfl | hpart, rfl⟩
  · exact h.drawn_le
  · exact Nat.le_refl _
  · exact hpart.drawn_le

theorem restart_ratchetSteps : RatchetSteps env w w.restart :=
  ratchetSteps_still (Nat.le_refl _) rfl (encryptions_of_history rfl rfl)

theorem lives_ratchetSteps {bound : Nat} (hkeys : DistinctKeys env bound)
    (h : Relation.ReflTransGen (EndpointLives env dev) w w') (hbound : w'.drawn ≤ bound) :
    RatchetSteps env w w' := by
  induction h with
  | refl => exact .refl
  | tail _ hstep ih =>
    refine (ih ((lives_drawn_le hstep).trans hbound)).trans ?_
    rcases hstep with h | ⟨t, rfl | hpart, rfl⟩
    · exact h.ratchetSteps hkeys hbound
    · exact restart_ratchetSteps
    · exact (hpart.ratchetSteps hkeys hbound).trans restart_ratchetSteps

theorem lives_groupSteps (h : Relation.ReflTransGen (EndpointLives env dev) w w') :
    GroupSteps dev w w' := by
  induction h with
  | refl => exact .refl
  | @tail u u' _ hstep ih =>
    refine ih.trans ?_
    have hrestart : ∀ t : World P, GroupSteps dev t t.restart := fun t =>
      groupSteps_still rfl (groupEncryptions_of_history rfl rfl)
    rcases hstep with h | ⟨t, rfl | hpart, rfl⟩
    · exact h.groupSteps
    · exact hrestart t
    · exact hpart.groupSteps.trans (hrestart t)

variable (env dev w)

def SentUnder (ciphertext : Bytes) (key : Option Bytes) : Prop :=
  ∃ v node purpose device s e kind, (v, Event.transmit node purpose) ∈ w.history ∧
    (device, ciphertext) ∈ participantCiphertexts node ∧ (s, Event.encrypt e) ∈ w.history ∧
    e.peer = device ∧ e.wire env dev = .ok (kind, ciphertext) ∧ e.messageKey P = key

def SkmsgUnder (skmsg chainKey : Bytes) : Prop :=
  ∃ v node chat s group state, (v, Event.transmit node (.group chat)) ∈ w.history ∧
    skmsgOf node = some skmsg ∧ (s, Event.groupEncrypt group state skmsg) ∈ w.history ∧
    state.chainKey = chainKey

/-- All that was sent was made under some key, and nothing else under the same one. -/
structure KeysUsedOnce : Prop where
  sent : ∀ v node purpose d, (v, Event.transmit node purpose) ∈ w.history →
    d ∈ participantCiphertexts node → ∃ key, SentUnder env dev w d.2 key
  sentGroup : ∀ v node chat, (v, Event.transmit node (.group chat)) ∈ w.history →
    ∃ skmsg chainKey, skmsgOf node = some skmsg ∧ SkmsgUnder w skmsg chainKey
  once : ∀ key ct ct', SentUnder env dev w ct key → SentUnder env dev w ct' key → ct = ct'
  onceGroup : ∀ chainKey skmsg skmsg', SkmsgUnder w skmsg chainKey →
    SkmsgUnder w skmsg' chainKey → skmsg = skmsg'

/-- The message keys of the run do not collide: one key stands for one place of one
sending chain. -/
def DistinctMessageKeys : Prop :=
  ∀ e ∈ w.encryptions, ∀ e' ∈ w.encryptions, e.messageKey P = e'.messageKey P →
    e.position = e'.position

def DistinctChainKeys : Prop :=
  ∀ e ∈ w.groupEncryptions, ∀ e' ∈ w.groupEncryptions, e.2.1.chainKey = e'.2.1.chainKey →
    (e.1, e.2.1.iteration) = (e'.1, e'.2.1.iteration)

variable {env dev w}

theorem encryption_unique (hnodup : (w.encryptions.map Encryption.position).Nodup)
    (hkdf : DistinctMessageKeys w) {e e' : Encryption} (he : e ∈ w.encryptions)
    (he' : e' ∈ w.encryptions) (hkey : e.messageKey P = e'.messageKey P) : e = e' :=
  List.inj_on_of_nodup_map hnodup he he' (hkdf e he e' he' hkey)

/-- Over any number of processes, each stopped at any point, no key is used for two
ciphertexts that are sent. -/
theorem keys_used_once {m : ClientMachine P} (hsessions : w.sessions = .empty)
    (hsenderKeys : w.senderKeys = .empty) (hhistory : w.history = [])
    (hlife : ClientLife env dev w m) (hkeys : DistinctKeys env m.state.drawn)
    (hkdf : DistinctMessageKeys m.state) (hchain : DistinctChainKeys m.state) :
    KeysUsedOnce env dev m.state := by
  have hbacked := allBacked_of_lives hhistory hlife.lives
  have hratchet : (m.state.encryptions.map Encryption.position).Nodup := by
    refine (Counters.inv_of_steps (lives_ratchetSteps hkeys hlife.lives (Nat.le_refl _)) ?_).nodup
    have hinit : w.ratchetCounters env = ⟨fun _ => none, (w.ratchetCounters env).used, []⟩ := by
      simp [World.ratchetCounters, World.encryptions, hsessions, hhistory]
    rw [hinit]
    exact Counters.inv_empty
  have hgroup : (m.state.groupEncryptions.map fun e => (e.1, e.2.1.iteration)).Nodup := by
    refine (Counters.inv_of_steps (lives_groupSteps hlife.lives) ?_).nodup
    have hinit : w.groupCounters dev = ⟨fun _ => none, (w.groupCounters dev).used, []⟩ := by
      simp [World.groupCounters, World.groupEncryptions, hsenderKeys, hhistory]
    rw [hinit]
    exact Counters.inv_empty
  have hproduced : ∀ v node purpose d, (v, Event.transmit node purpose) ∈ m.state.history →
      d ∈ participantCiphertexts node → Produced env dev m.state.history d.1 d.2 := by
    intro v node purpose d hmem hd
    have hb := hbacked v node purpose hmem
    cases purpose with
    | body chat => exact (hb d hd).1
    | group chat => exact hb.1 d hd
  constructor
  · intro v node purpose d hmem hd
    obtain ⟨s, e, kind, henc, hpeer, hwire⟩ := hproduced v node purpose d hmem hd
    exact ⟨_, v, node, purpose, d.1, s, e, kind, hmem, hd, henc, hpeer, hwire, rfl⟩
  · intro v node chat hmem
    obtain ⟨_, s, group, state, skmsg, henc, hnode⟩ := hbacked v node _ hmem
    exact ⟨skmsg, _, hnode, v, node, chat, s, group, state, hmem, hnode, henc, rfl⟩
  · rintro key ct ct' ⟨_, _, _, _, s, e, kind, _, _, henc, _, hwire, hkey⟩
      ⟨_, _, _, _, s', e', kind', _, _, henc', _, hwire', hkey'⟩
    obtain rfl := encryption_unique hratchet hkdf (mem_encryptions henc) (mem_encryptions henc')
      (hkey.trans hkey'.symm)
    rw [hwire] at hwire'
    cases hwire'
    rfl
  · rintro chainKey skmsg skmsg' ⟨_, _, _, s, group, state, _, _, henc, hkey⟩
      ⟨_, _, _, s', group', state', _, _, henc', hkey'⟩
    have hmem := mem_groupEncryptions henc
    have hmem' := mem_groupEncryptions henc'
    have heq := List.inj_on_of_nodup_map hgroup hmem hmem'
      (hchain _ hmem _ hmem' (hkey.trans hkey'.symm))
    cases heq
    rfl

end Lives

section Demo

def demoNoDevices (iqId : String) : Node :=
  .mk "iq" [("id", .str iqId), ("type", .str "result")] (.nodes [
    .mk "usync" [] (.nodes [.mk "list" [] (.nodes [])])])

def demoAnswers : List Node := [demoAnswer, demoNoDevices "m15", demoNoDevices "m20"]

def demoGroupSend (answer : UInt8) : List (ClientTurn (demoEnv demoAnswers) demoMe) :=
  [.start _ (.sendGroupText { user := "555", server := "g.us" } "hi" []), .resume,
    .receive [answer], .resume]

def demoTwoSent : ClientMachine demoPrimitives :=
  clientAfter (demoEnv demoAnswers) demoMe {} (demoFirst demoAnswers ++ [demoSend demoAnswers])

def demoThreeSent : ClientMachine demoPrimitives :=
  clientAfter (demoEnv demoAnswers) demoMe demoTwoSent.state.restart (demoGroupSend 1)

def demoFourSent : ClientMachine demoPrimitives :=
  clientAfter (demoEnv demoAnswers) demoMe demoThreeSent.state.restart (demoGroupSend 2)

theorem demoFourSent_life : ClientLife (demoEnv demoAnswers) demoMe {} demoFourSent :=
  ((clientAfter_run _ _).life.restart (m := demoTwoSent) (clientAfter_run _ _)).restart
    (m := demoThreeSent) (clientAfter_run _ _)

theorem demoKeys_distinct : DistinctKeys (demoEnv demoAnswers) 21 := by
  have h : ∀ i < 21, ∀ j < 21, ((demoEnv demoAnswers).keyPair i).pub =
      ((demoEnv demoAnswers).keyPair j).pub → i = j := by decide +kernel
  exact fun i j hi hj => h i hi j hj

theorem demoFourSent_messageKeys : DistinctMessageKeys demoFourSent.state := by
  unfold DistinctMessageKeys
  decide +kernel

theorem demoFourSent_chainKeys : DistinctChainKeys demoFourSent.state := by
  unfold DistinctChainKeys
  decide +kernel

theorem keys_used_once_four :
    (demoFourSent.state.encryptions.length = 2 ∧ demoFourSent.state.groupEncryptions.length = 2) ∧
      KeysUsedOnce (demoEnv demoAnswers) demoMe demoFourSent.state := by
  have hdrawn : demoFourSent.state.drawn = 21 := by decide +kernel
  refine ⟨by decide +kernel, keys_used_once rfl rfl rfl demoFourSent_life ?_
    demoFourSent_messageKeys demoFourSent_chainKeys⟩
  rw [hdrawn]
  exact demoKeys_distinct

end Demo

end PyWhats
