import PyWhats.Delivery
import PyWhats.FirstMessages
import PyWhats.SqliteTransactions

/-! `_decrypt_enc` statement by statement on SQLite. It refines the call on the stores:
what a crash or a failing statement leaves is the stores before the call, after the
arrival of the sender or after the whole call. -/

namespace PyWhats.Storage

open AppState (SyncError)
open Transactional (Db Script Run Meets)

variable {P : Primitives}

section Script

def raising {α : Type} (r : Except PyError α) : SqlScript α := .ret (r.mapError .raised)

def lidMapGetPn (lidUser : String) : SqlScript (Option String) :=
  readFacet fun t => .ok ((t.lidMap.entries.find? fun e => e.2 = lidUser).map Prod.fst)

/-- The one-time prekey of a row that holds a key pair. -/
def storedOpk (P : Primitives) (keyId : Nat) (row : StoredPreKey) :
    Except SyncError (OneTimePreKey P) :=
  if h : row.priv.length = 32 ∧ row.pub = P.x25519Public row.priv then
    .ok ⟨keyId, ⟨row.priv, row.pub, h.1, h.2⟩⟩
  else .error (.valueError "not a key pair")

def prekeysLoad (P : Primitives) (keyId : Nat) : SqlScript (Option (OneTimePreKey P)) :=
  readFacet fun t =>
    match sqlitePreKeyStore.load t.prekeys keyId with
    | .error e => .error e
    | .ok none => .ok none
    | .ok (some row) => (storedOpk P keyId row).map some

def sqliteLookupOpk (P : Primitives) : Option Nat → SqlScript (Option (OneTimePreKey P))
  | none => pure none
  | some keyId => do
    match ← prekeysLoad P keyId with
    | none => raising (.error (.valueError ("unknown one-time pre-key id " ++ toString keyId)))
    | some opk => pure (some opk)

def sqliteMigrateKnownLid (sender : JID) : SqlScript Unit := do
  if sender.server ≠ "lid" then pure ()
  else
    match ← sessionsLoad (sessionId sender) with
    | some _ => pure ()
    | none =>
      match ← lidMapGetPn sender.user with
      | none => pure ()
      | some pnUser =>
        let pn : JID := { user := pnUser, server := "s.whatsapp.net", device := sender.device }
        Script.transaction (migratePnSession (sessionId pn) (sessionId sender))

variable (env : Env P) (dev : Device P) (generated : KeyPair P)

def sqliteDecryptPkmsg (sender : JID) (ciphertext : Bytes) : SqlScript Bytes := do
  let pkmsg ← raising (PreKeySignalMessage.decode env.pb ciphertext)
  let spk ← raising (getSignedPreKey dev pkmsg.signedPreKeyId)
  let opk ← sqliteLookupOpk P pkmsg.oneTimePreKeyId
  let result ← raising (x3dhResponder P dev.identity spk opk pkmsg.identityKey pkmsg.baseKey)
  match ratchetDecrypt P generated pkmsg.message.header pkmsg.message.ciphertext
      (pkmsg.identityKey ++ dev.identity.pub)
      (some (pkmsg.message.verifyMac P pkmsg.identityKey dev.identity.pub))
      (ratchetInitBob result.sharedSecret spk.pair.priv spk.pair.pub) with
  | .error e _ => raising (.error e)
  | .ok plaintext state => do
    acceptPrekey (sessionId sender) pkmsg.oneTimePreKeyId state pkmsg.identityKey
    pure plaintext

def sqliteDecryptMsg (sender : JID) (ciphertext : Bytes) : SqlScript Bytes := do
  match ← sessionsLoad (sessionId sender) with
  | none => raising (.error (.valueError ("no session for peer " ++ sender.str)))
  | some session =>
    match ← identitiesLoad (sessionId sender) with
    | none => raising (.error (.valueError ("no cached peer identity for " ++ sender.str)))
    | some peerIdentity => do
      let inner ← raising (SignalMessage.decode env.pb ciphertext)
      match ratchetDecrypt P generated inner.header inner.ciphertext
          (peerIdentity ++ dev.identity.pub)
          (some (inner.verifyMac P peerIdentity dev.identity.pub)) session with
      | .error e _ => raising (.error e)
      | .ok plaintext state => do
        sessionsSave (sessionId sender) state
        pure plaintext

def sqliteDecryptEnc (sender : JID) (encType : String) (ciphertext : Bytes) : SqlScript Bytes := do
  sqliteMigrateKnownLid sender
  if encType = "pkmsg" then sqliteDecryptPkmsg env dev generated sender ciphertext
  else if encType = "msg" then sqliteDecryptMsg env dev generated sender ciphertext
  else raising (.error (.valueError ("unsupported enc.type '" ++ encType ++ "'")))

end Script

section Holding

/-- The tables hold the persistent stores of the model. -/
structure Holds (t : Tables) (s : Stores P) : Prop where
  consistent : Consistent t
  sessions : ∀ sid, t.sessions.get? sid =
    (s.sessions.get? sid).map fun session => sessionText (serializeState session.state)
  identities : ∀ sid, t.identities.get? sid = s.identities.get? sid
  prekeys : ∀ keyId : Nat, t.prekeys.get? keyId =
    (s.prekeys.get? keyId).map fun opk => (opk.pair.priv, opk.pair.pub)
  keyIds : ∀ (keyId : Nat) (opk : OneTimePreKey P), s.prekeys.get? keyId = some opk →
    opk.keyId = keyId ∧ fitsSqlite keyId
  lids : LidsMatch t.lidMap s.lidMap

variable {t : Tables} {s : Stores P}

theorem holds_empty : Holds {} ({} : Stores P) where
  consistent := consistent_empty
  sessions _ := rfl
  identities _ := rfl
  prekeys _ := rfl
  keyIds _ _ h := by cases h
  lids := ⟨fun _ => rfl, fun _ _ => iff_of_false (fun h => by cases h) fun h => by cases h⟩

theorem Holds.savePrekey (h : Holds t s) {opk : OneTimePreKey P} (hfits : fitsSqlite opk.keyId) :
    Holds { t with prekeys := t.prekeys.set opk.keyId (opk.pair.priv, opk.pair.pub) }
      { s with prekeys := s.prekeys.set opk.keyId opk } where
  consistent := h.consistent.congr rfl rfl rfl
  sessions := h.sessions
  identities := h.identities
  prekeys keyId := by
    simp only [OrderedMap.get?_set, Int.natCast_inj]
    split
    · rfl
    · exact h.prekeys keyId
  keyIds keyId opk' hget := by
    rw [OrderedMap.get?_set] at hget
    by_cases hkey : keyId = opk.keyId
    · rw [if_pos hkey] at hget
      cases hget
      exact ⟨hkey.symm, hkey ▸ hfits⟩
    · rw [if_neg hkey] at hget
      exact h.keyIds keyId opk' hget
  lids := h.lids

theorem Holds.acceptPrekey (h : Holds t s) {sid : String} {oneTimePreKeyId : Option Nat}
    (session : Session) {identityKey : Bytes} (hlen : identityKey.length = 32) :
    Holds (t.accepted sid oneTimePreKeyId session.state identityKey)
      (s.acceptPrekey sid oneTimePreKeyId session identityKey) where
  consistent := h.consistent.accepted hlen
  sessions sid' := by
    simp only [Tables.accepted, Stores.acceptPrekey, OrderedMap.get?_set]
    split
    · rfl
    · exact h.sessions sid'
  identities sid' := by
    simp only [Tables.accepted, Stores.acceptPrekey, OrderedMap.get?_set, h.identities sid']
  prekeys keyId := by
    cases oneTimePreKeyId with
    | none => exact h.prekeys keyId
    | some used =>
      simp only [Tables.accepted, Stores.acceptPrekey, unconsumed, OrderedMap.get?_erase]
      by_cases hk : keyId = used
      · rw [if_pos hk, if_pos (by rw [hk])]
        rfl
      · rw [if_neg hk, if_neg (by simpa using hk)]
        exact h.prekeys keyId
  keyIds keyId opk hopk := by
    cases oneTimePreKeyId with
    | none => exact h.keyIds keyId opk hopk
    | some used =>
      simp only [Stores.acceptPrekey, OrderedMap.get?_erase] at hopk
      split at hopk
      · cases hopk
      · exact h.keyIds keyId opk hopk
  lids := h.lids

theorem Holds.setDrawn (h : Holds t s) (n : Nat) : Holds t (s.setDrawn n) :=
  ⟨h.consistent, h.sessions, h.identities, h.prekeys, h.keyIds, h.lids⟩

theorem Holds.setSession (h : Holds t s) {sid : String} (session : Session)
    (hpinned : (t.identities.get? sid).isSome) :
    Holds { t with sessions := t.sessions.set sid (sessionText (serializeState session.state)) }
      (s.setSession sid session) where
  consistent := h.consistent.setSession hpinned session.state
  sessions sid' := by
    rw [Stores.setSession, OrderedMap.get?_set, OrderedMap.get?_set]
    split
    · rfl
    · exact h.sessions sid'
  identities := h.identities
  prekeys := h.prekeys
  keyIds := h.keyIds
  lids := h.lids

theorem repinned_get? {m m' : OrderedMap String Bytes} (h : ∀ sid, m.get? sid = m'.get? sid)
    (pn lid sid : String) : (repinned m pn lid).get? sid = (repinned m' pn lid).get? sid := by
  rw [repinned, repinned, h pn]
  cases m'.get? pn with
  | none => exact h sid
  | some identityPublic =>
    simp only
    rw [OrderedMap.get?_set, OrderedMap.get?_set, h sid]

theorem Holds.migrate (h : Holds t s) {pn lid : String} {session : Session}
    (hpn : s.sessions.get? pn = some session) (hlid : s.sessions.get? lid = none) :
    Holds (t.migrated pn lid) (s.migrate pn lid session) := by
  have hrow : t.sessions.get? pn = some (sessionText (serializeState session.state)) := by
    rw [h.sessions pn, hpn]
    rfl
  have hfree : t.sessions.get? lid = none := by
    rw [h.sessions lid, hlid]
    rfl
  have hmigrated : t.migrated pn lid =
      { t with
        sessions := (t.sessions.set lid (sessionText (serializeState session.state))).erase pn
        identities := (repinned t.identities pn lid).erase pn } := by
    rw [Tables.migrated, hrow, hfree]
  have hconsistent := h.consistent.migrated pn lid
  rw [hmigrated] at hconsistent ⊢
  refine ⟨hconsistent, fun sid => ?_, fun sid => ?_, h.prekeys, h.keyIds, h.lids⟩
  · simp only [Stores.migrate, OrderedMap.get?_erase, OrderedMap.get?_set]
    by_cases hsid : sid = pn
    · rw [if_pos hsid, if_pos hsid]
      rfl
    · rw [if_neg hsid, if_neg hsid]
      split
      · rfl
      · exact h.sessions sid
  · have hsame : (s.migrate pn lid session).identities = (repinned s.identities pn lid).erase pn :=
      rfl
    rw [hsame, OrderedMap.get?_erase, OrderedMap.get?_erase, repinned_get? h.identities]

end Holding

section Rules

variable {refused : SyncError} {α β : Type} {H E C : Tables → Prop} {Q : β → Tables → Prop}

theorem meets_raising_bind (r : Except PyError α) {f : α → SqlScript β}
    (hok : ∀ a, r = .ok a → Meets refused H (f a) Q E C) (herr : ∀ t, H t → E t ∧ C t) :
    Meets refused H ((raising r).bind f) Q E C := by
  cases r with
  | ok a => exact hok a rfl
  | error e => exact Transactional.meets_raise herr

/-- A read that answers `a` wherever `H` holds, or fails. -/
theorem meets_readFacet_bind {read : Tables → Except SyncError α} {a : α}
    {f : α → SqlScript β} (hread : ∀ t, H t → read t = .ok a)
    (hf : Meets refused H (f a) Q E C) (hkeep : ∀ t, H t → E t ∧ C t) :
    Meets refused H ((readFacet read).bind f) Q E C := by
  refine Transactional.meets_update hkeep (fun _ => rfl) fun t u ht hu => ?_
  cases hu
  intro v o db hv hrun
  subst hv
  have hnext : Run refused ⟨v, none⟩ ((Script.ret (read v)).bind f) o db := hrun
  rw [hread v ht] at hnext
  exact hf v o db ht hnext

end Rules

section Refinement

variable {env : Env P} {dev : Device P} {refused : SyncError} {w : World P} {sender : JID}
  {channel : Channel} {ciphertext : Bytes}

theorem sessionsLoad_holds (sid : String) (t : Tables) (h : Holds t w.toStores) :
    (sqliteSessionStore.load t.sessions sid).mapError SyncError.raised =
      .ok ((w.sessions.get? sid).map Session.state) := by
  rw [KeyedStore.load_of_bind rfl, h.sessions sid]
  cases w.sessions.get? sid with
  | none => rfl
  | some session =>
    simp only [Option.map_some, (sqliteSessionStore_keeps sid session.state).decode]
    rfl

theorem identitiesLoad_holds (sid : String) (t : Tables) (h : Holds t w.toStores) :
    (identityStore.load t.identities sid).mapError SyncError.raised =
      .ok (w.identities.get? sid) := by
  rw [KeyedStore.load_of_bind rfl, h.identities sid]
  cases w.identities.get? sid <;> rfl

theorem lidMapGetPn_holds (lidUser : String) (t : Tables) (h : Holds t w.toStores) :
    (t.lidMap.entries.find? fun e => e.2 = lidUser).map Prod.fst = w.lidMap.getPn lidUser :=
  h.lids.select_pn lidUser

theorem prekeysLoad_holds {keyId : Nat} (t : Tables) (h : Holds t w.toStores)
    (hfits : fitsSqlite keyId) :
    (match sqlitePreKeyStore.load t.prekeys keyId with
      | .error e => Except.error e
      | .ok none => .ok none
      | .ok (some row) => (storedOpk P keyId row).map some) = .ok (w.prekeys.get? keyId) := by
  rw [KeyedStore.load_of_bind (sqliteInteger_ok hfits), h.prekeys keyId]
  cases hopk : w.prekeys.get? keyId with
  | none => rfl
  | some opk =>
    obtain ⟨opkId, priv, pub, hpriv, hpub⟩ := opk
    have hid : opkId = keyId := (h.keyIds keyId _ hopk).1
    have hstored : storedOpk P keyId ⟨keyId, priv, pub⟩ =
        .ok ⟨keyId, ⟨priv, pub, hpriv, hpub⟩⟩ := dif_pos ⟨hpriv, hpub⟩
    rw [hid]
    exact congrArg (Except.map some) hstored

theorem Holds.arrive {t : Tables} (h : Holds t w.toStores) {pnUser : String}
    (hnot : ¬ (sender.server ≠ "lid" ∨ (w.sessions.get? (sessionId sender)).isSome))
    (hpn : w.lidMap.getPn sender.user = some pnUser) :
    Holds (t.migrated
        (sessionId { user := pnUser, server := "s.whatsapp.net", device := sender.device })
        (sessionId sender))
      (w.arrive sender).toStores := by
  have hfree : w.sessions.get? (sessionId sender) = none := by simpa using (not_or.mp hnot).2
  generalize hpnJid : ({ user := pnUser, server := "s.whatsapp.net", device := sender.device } :
    JID) = pn
  have hmoves : w.movesFrom sender =
      (w.sessions.get? (sessionId pn)).map fun session => (sessionId pn, session) := by
    rw [World.movesFrom, if_neg hnot, hpn, Option.bind_some, hpnJid]
  rw [World.arrive, hmoves]
  cases hsession : w.sessions.get? (sessionId pn) with
  | none =>
    have hrow : t.sessions.get? (sessionId pn) = none := by
      rw [h.sessions, hsession]
      rfl
    rw [Tables.migrated, hrow]
    exact h
  | some session => exact h.migrate hsession hfree

theorem migrateKnownLid_refines :
    Meets refused (fun t => Holds t w.toStores) (sqliteMigrateKnownLid sender)
      (fun _ t => Holds t (w.arrive sender).toStores) (fun t => Holds t w.toStores)
      (fun t => Holds t w.toStores ∨ Holds t (w.arrive sender).toStores) := by
  have hstay : w.movesFrom sender = none → Meets refused (fun t => Holds t w.toStores)
      (pure () : SqlScript Unit) (fun _ t => Holds t (w.arrive sender).toStores)
      (fun t => Holds t w.toStores)
      (fun t => Holds t w.toStores ∨ Holds t (w.arrive sender).toStores) := by
    intro hmoves
    rw [World.arrive, hmoves]
    exact Transactional.meets_ret fun t ht => ⟨ht, Or.inl ht⟩
  rw [sqliteMigrateKnownLid]
  by_cases hserver : sender.server ≠ "lid"
  · rw [if_pos hserver]
    exact hstay (if_pos (Or.inl hserver))
  · rw [if_neg hserver]
    refine meets_readFacet_bind (sessionsLoad_holds (sessionId sender)) ?_ fun t ht => ⟨ht, Or.inl ht⟩
    cases hsession : w.sessions.get? (sessionId sender) with
    | some session => exact hstay (if_pos (Or.inr (by rw [hsession]; rfl)))
    | none =>
      have hnot : ¬ (sender.server ≠ "lid" ∨ (w.sessions.get? (sessionId sender)).isSome) := by
        rw [hsession]
        simpa using hserver
      refine meets_readFacet_bind (fun t ht => congrArg Except.ok (lidMapGetPn_holds sender.user t ht))
        ?_ fun t ht => ⟨ht, Or.inl ht⟩
      cases hpn : w.lidMap.getPn sender.user with
      | none => exact hstay (by rw [World.movesFrom, if_neg hnot, hpn]; rfl)
      | some pnUser =>
        refine Transactional.meets_transaction (plain_migratePnSession _ _)
          (fun t ht => ⟨ht, Or.inl ht⟩) fun t a u ht hu => ?_
        have hmigrated : Holds u (w.arrive sender).toStores := by
          rw [within_migratePnSession refused ht.consistent] at hu
          cases hu
          exact ht.arrive hnot hpn
        exact ⟨hmigrated, Or.inr hmigrated⟩

theorem lookupOpk_refines (oneTimePreKeyId : Option Nat) :
    Meets refused (fun t => Holds t w.toStores) (sqliteLookupOpk P oneTimePreKeyId)
      (fun opk t => Holds t w.toStores ∧
        (lookupOneTimePreKey oneTimePreKeyId).run w = (w, .done (.ok opk)))
      (fun t => Holds t w.toStores) (fun t => Holds t w.toStores) := by
  cases oneTimePreKeyId with
  | none => exact Transactional.meets_ret fun t ht => ⟨⟨ht, rfl⟩, ht⟩
  | some keyId =>
    by_cases hfits : fitsSqlite keyId
    · refine meets_readFacet_bind (fun t ht => prekeysLoad_holds t ht hfits) ?_ fun t ht => ⟨ht, ht⟩
      cases hopk : w.prekeys.get? keyId with
      | none => exact Transactional.meets_raise fun t ht => ⟨ht, ht⟩
      | some opk =>
        refine Transactional.meets_ret fun t ht => ⟨⟨ht, ?_⟩, ht⟩
        rw [lookupOneTimePreKey, Co.run_get_bind, hopk]
        rfl
    · have hbind : sqlitePreKeyStore.bind (keyId : Int) = .error .overflowError := if_neg hfits
      refine Transactional.meets_update (fun t ht => ⟨ht, ht⟩) (fun _ => rfl) fun t u ht hu => ?_
      cases hu
      simp only [KeyedStore.load, hbind]
      refine (Transactional.meets_raise (P := fun t => Holds t w.toStores)
        (e := SyncError.overflowError) fun t ht => ⟨ht, ht⟩).mono ?_ (fun _ _ h => h) (fun _ h => h) (fun _ h => h)
      rintro _ rfl
      exact ht

/-- A call of `_decrypt_enc` that went through, and what it left. -/
def Landed (call : CoM P Bytes) (w : World P) (plaintext : Bytes) (t : Tables) : Prop :=
  ∃ w', call.run w = (w', .done (.ok plaintext)) ∧ Holds t w'.toStores

theorem decryptPkmsg_run {pkmsg : PreKeySignalMessage} {spk : SignedPreKey P}
    {opk : Option (OneTimePreKey P)} {result : X3DHResponderResult} {plaintext : Bytes}
    {state : RatchetState} (hdecode : PreKeySignalMessage.decode env.pb ciphertext = .ok pkmsg)
    (hspk : getSignedPreKey dev pkmsg.signedPreKeyId = .ok spk)
    (hopk : (lookupOneTimePreKey pkmsg.oneTimePreKeyId).run w = (w, .done (.ok opk)))
    (hx3dh : x3dhResponder P dev.identity spk opk pkmsg.identityKey pkmsg.baseKey = .ok result)
    (hdec : ratchetDecrypt P (env.keyPair w.drawn) pkmsg.message.header pkmsg.message.ciphertext
      (pkmsg.identityKey ++ dev.identity.pub)
      (some (pkmsg.message.verifyMac P pkmsg.identityKey dev.identity.pub))
      (ratchetInitBob result.sharedSecret spk.pair.priv spk.pair.pub) = .ok plaintext state) :
    (decryptPkmsg env dev channel sender ciphertext).run w =
      (w.acceptedPrekey (w.drawn + 1) (sessionId sender) pkmsg.oneTimePreKeyId
        (ratchetInitBob result.sharedSecret spk.pair.priv spk.pair.pub) state pkmsg.identityKey
        channel, .done (.ok plaintext)) := by
  rw [decryptPkmsg, Co.run_lift_bind hdecode, Co.run_lift_bind hspk, Co.run_bind_ok hopk,
    Co.run_lift_bind hx3dh]
  refine (Co.run_bind_ok rfl).trans ?_
  rw [hdec]
  rfl

theorem decryptPkmsg_refines :
    Meets refused (fun t => Holds t w.toStores)
      (sqliteDecryptPkmsg env dev (env.keyPair w.drawn) sender ciphertext)
      (Landed (decryptPkmsg env dev channel sender ciphertext) w) (fun t => Holds t w.toStores)
      (fun t => Holds t w.toStores ∨
        ∃ plaintext, Landed (decryptPkmsg env dev channel sender ciphertext) w plaintext t) := by
  have hkeep : ∀ t, Holds t w.toStores → Holds t w.toStores ∧ (Holds t w.toStores ∨
      ∃ plaintext, Landed (decryptPkmsg env dev channel sender ciphertext) w plaintext t) :=
    fun t ht => ⟨ht, Or.inl ht⟩
  refine meets_raising_bind _ (fun pkmsg hdecode => ?_) hkeep
  refine meets_raising_bind _ (fun spk hspk => ?_) hkeep
  refine Transactional.Meets.bind ((lookupOpk_refines pkmsg.oneTimePreKeyId).mono (fun _ h => h)
    (fun _ _ h => h) (fun _ h => h) fun _ h => Or.inl h) fun opk => ?_
  refine meets_raising_bind _ (fun result hx3dh => ?_) fun t ht => hkeep t ht.1
  cases hdec : ratchetDecrypt P (env.keyPair w.drawn) pkmsg.message.header pkmsg.message.ciphertext
      (pkmsg.identityKey ++ dev.identity.pub)
      (some (pkmsg.message.verifyMac P pkmsg.identityKey dev.identity.pub))
      (ratchetInitBob result.sharedSecret spk.pair.priv spk.pair.pub) with
  | error e state => exact Transactional.meets_raise fun t ht => hkeep t ht.1
  | ok plaintext state =>
    have hland : ∀ t u, (Holds t w.toStores ∧
        (lookupOneTimePreKey pkmsg.oneTimePreKeyId).run w = (w, .done (.ok opk))) →
        (landAccepted (sessionId sender) pkmsg.oneTimePreKeyId state pkmsg.identityKey).within
          refused t = .ok ((), u) →
        Landed (decryptPkmsg env dev channel sender ciphertext) w plaintext u := by
      rintro t u ⟨ht, hopk⟩ hu
      obtain ⟨hlen, rfl⟩ := within_landAccepted hu
      refine ⟨w.acceptedPrekey (w.drawn + 1) (sessionId sender) pkmsg.oneTimePreKeyId
        (ratchetInitBob result.sharedSecret spk.pair.priv spk.pair.pub) state pkmsg.identityKey
        channel, ?_, ?_⟩
      · exact decryptPkmsg_run hdecode hspk hopk hx3dh hdec
      · exact (ht.setDrawn (w.drawn + 1)).acceptPrekey ⟨state, .accepted pkmsg.identityKey
          (ratchetInitBob result.sharedSecret spk.pair.priv spk.pair.pub), true⟩ hlen
    refine Transactional.Meets.bind (Q := fun _ => Landed
      (decryptPkmsg env dev channel sender ciphertext) w plaintext) ?_ fun _ => ?_
    · refine Transactional.meets_transaction (plain_landAccepted _ _ _ _)
        (fun t ht => hkeep t ht.1) fun t a u ht hu => ?_
      exact ⟨hland t u ht hu, Or.inr ⟨plaintext, hland t u ht hu⟩⟩
    · exact Transactional.meets_ret fun t ht => ⟨ht, Or.inr ⟨plaintext, ht⟩⟩

theorem decryptMsg_run {session : Session} {identity plaintext : Bytes} {inner : SignalMessage}
    {state : RatchetState} (hsession : w.sessions.get? (sessionId sender) = some session)
    (hidentity : w.identities.get? (sessionId sender) = some identity)
    (hdecode : SignalMessage.decode env.pb ciphertext = .ok inner)
    (hdec : ratchetDecrypt P (env.keyPair w.drawn) inner.header inner.ciphertext
      (identity ++ dev.identity.pub) (some (inner.verifyMac P identity dev.identity.pub))
      session.state = .ok plaintext state) :
    (decryptMsg env dev channel sender ciphertext).run w =
      (w.acceptedMessage (w.drawn + 1) (sessionId sender) session state channel,
        .done (.ok plaintext)) := by
  rw [decryptMsg, Co.run_get_bind, hsession]
  simp only [hidentity]
  rw [Co.run_lift_bind hdecode]
  refine (Co.run_bind_ok rfl).trans ?_
  rw [hdec]
  rfl

theorem decryptMsg_refines :
    Meets refused (fun t => Holds t w.toStores)
      (sqliteDecryptMsg env dev (env.keyPair w.drawn) sender ciphertext)
      (Landed (decryptMsg env dev channel sender ciphertext) w) (fun t => Holds t w.toStores)
      (fun t => Holds t w.toStores ∨
        ∃ plaintext, Landed (decryptMsg env dev channel sender ciphertext) w plaintext t) := by
  have hkeep : ∀ t, Holds t w.toStores → Holds t w.toStores ∧ (Holds t w.toStores ∨
      ∃ plaintext, Landed (decryptMsg env dev channel sender ciphertext) w plaintext t) :=
    fun t ht => ⟨ht, Or.inl ht⟩
  refine meets_readFacet_bind (sessionsLoad_holds (sessionId sender)) ?_ hkeep
  cases hsession : w.sessions.get? (sessionId sender) with
  | none => exact Transactional.meets_raise hkeep
  | some session =>
    refine meets_readFacet_bind (identitiesLoad_holds (sessionId sender)) ?_ hkeep
    cases hidentity : w.identities.get? (sessionId sender) with
    | none => exact Transactional.meets_raise hkeep
    | some identity =>
      refine meets_raising_bind _ (fun inner hdecode => ?_) hkeep
      cases hdec : ratchetDecrypt P (env.keyPair w.drawn) inner.header inner.ciphertext
          (identity ++ dev.identity.pub) (some (inner.verifyMac P identity dev.identity.pub))
          session.state with
      | error e state => exact Transactional.meets_raise hkeep
      | ok plaintext state =>
        refine Transactional.Meets.bind (Q := fun _ => Landed
          (decryptMsg env dev channel sender ciphertext) w plaintext) ?_ fun _ => ?_
        · refine Transactional.meets_write hkeep fun t u ht hu => ?_
          cases hu
          have hpinned : (t.identities.get? (sessionId sender)).isSome := by
            rw [ht.identities, hidentity]
            rfl
          have hland : Landed (decryptMsg env dev channel sender ciphertext) w plaintext
              { t with
                sessions := t.sessions.set (sessionId sender)
                  (sessionText (serializeState state)) } :=
            ⟨_, decryptMsg_run hsession hidentity hdecode hdec,
              (ht.setDrawn (w.drawn + 1)).setSession { session with state := state, heard := true }
                hpinned⟩
          exact ⟨hland, Or.inr ⟨plaintext, hland⟩⟩
        · exact Transactional.meets_ret fun t ht => ⟨ht, Or.inr ⟨plaintext, ht⟩⟩

theorem World.arrive_drawn (w : World P) (sender : JID) : (w.arrive sender).drawn = w.drawn := by
  rw [World.arrive]
  split <;> rfl

/-- The database after a call, a failing statement or a crash is the one before it, the
one after the sender's session moved, or the one that the whole call leaves. -/
theorem decryptEnc_meets (env : Env P) (dev : Device P) (channel : Channel) (sender : JID)
    (encType : String) (ciphertext : Bytes) (w : World P) (refused : SyncError) :
    Meets refused (fun t => Holds t w.toStores)
      (sqliteDecryptEnc env dev (env.keyPair w.drawn) sender encType ciphertext)
      (Landed (decryptEnc env dev channel sender encType ciphertext) w)
      (fun t => Holds t w.toStores ∨ Holds t (w.arrive sender).toStores)
      (fun t => Holds t w.toStores ∨ Holds t (w.arrive sender).toStores ∨
        ∃ plaintext, Landed (decryptEnc env dev channel sender encType ciphertext) w plaintext t) := by
  have hafter : ∀ (call : CoM P Bytes) (script : SqlScript Bytes),
      (decryptEnc env dev channel sender encType ciphertext).run w = call.run (w.arrive sender) →
      Meets refused (fun t => Holds t (w.arrive sender).toStores) script
        (Landed call (w.arrive sender)) (fun t => Holds t (w.arrive sender).toStores)
        (fun t => Holds t (w.arrive sender).toStores ∨
          ∃ plaintext, Landed call (w.arrive sender) plaintext t) →
      Meets refused (fun t => Holds t (w.arrive sender).toStores) script
        (Landed (decryptEnc env dev channel sender encType ciphertext) w)
        (fun t => Holds t w.toStores ∨ Holds t (w.arrive sender).toStores)
        (fun t => Holds t w.toStores ∨ Holds t (w.arrive sender).toStores ∨ ∃ plaintext,
          Landed (decryptEnc env dev channel sender encType ciphertext) w plaintext t) := by
    intro call script hcall hscript
    have hlanded : ∀ plaintext t, Landed call (w.arrive sender) plaintext t →
        Landed (decryptEnc env dev channel sender encType ciphertext) w plaintext t := by
      rintro plaintext t ⟨w', hrun, ht⟩
      exact ⟨w', hcall.trans hrun, ht⟩
    refine hscript.mono (fun _ h => h) hlanded (fun _ h => Or.inr h) ?_
    rintro t (ht | ⟨plaintext, ht⟩)
    · exact Or.inr (Or.inl ht)
    · exact Or.inr (Or.inr ⟨plaintext, hlanded plaintext t ht⟩)
  refine Transactional.Meets.bind (Q := fun _ t => Holds t (w.arrive sender).toStores)
    (migrateKnownLid_refines.mono (fun _ h => h) (fun _ _ h => h) (fun _ h => Or.inl h) ?_)
    fun _ => ?_
  · rintro t (ht | ht)
    · exact Or.inl ht
    · exact Or.inr (Or.inl ht)
  have hrun : (decryptEnc env dev channel sender encType ciphertext).run w = _ :=
    Co.run_bind_ok (migrateKnownLidSender_arrive w sender)
  rw [← World.arrive_drawn w sender]
  by_cases hpkmsg : encType = "pkmsg"
  · rw [if_pos hpkmsg] at hrun ⊢
    exact hafter _ _ hrun decryptPkmsg_refines
  · rw [if_neg hpkmsg] at hrun ⊢
    by_cases hmsg : encType = "msg"
    · rw [if_pos hmsg] at hrun ⊢
      exact hafter _ _ hrun decryptMsg_refines
    · rw [if_neg hmsg] at hrun ⊢
      exact Transactional.meets_raise fun t ht => ⟨Or.inr ht, Or.inr (Or.inl ht)⟩

end Refinement

section Performance

variable {env : Env P} {dev : Device P} {refused : SyncError} {w w' : World P} {sender : JID}
  {channel : Channel} {ciphertext plaintext : Bytes} {t : Tables}

theorem perform_readFacet {α β : Type} {read : Tables → Except SyncError α} {a : α}
    {f : α → SqlScript β} (hread : read t = .ok a) :
    ((readFacet read).bind f).perform refused ⟨t, none⟩ = (f a).perform refused ⟨t, none⟩ := by
  refine Script.perform_bind_ok ?_
  rw [← hread]
  rfl

theorem within_landAccepted_of (refused : SyncError) (t : Tables) (sid : String)
    {oneTimePreKeyId : Option Nat} (state : RatchetState) {identityKey : Bytes}
    (hlen : identityKey.length = 32)
    (hfits : ∀ keyId, oneTimePreKeyId = some keyId → fitsSqlite keyId) :
    (landAccepted sid oneTimePreKeyId state identityKey).within refused t =
      .ok ((), t.accepted sid oneTimePreKeyId state identityKey) := by
  have hconsume : (consumeOpk oneTimePreKeyId).within refused t =
      .ok ((), { t with prekeys := unconsumed t.prekeys oneTimePreKeyId }) := by
    cases oneTimePreKeyId with
    | none => rfl
    | some keyId =>
      rw [consumeOpk, prekeysDelete, Script.within_write,
        KeyedStore.delete_of_bind (sqliteInteger_ok (hfits keyId rfl))]
      rfl
  refine (Script.within_bind_ok hconsume).trans ?_
  refine (Script.within_bind_ok (within_sessionsSave refused sid _ state)).trans ?_
  exact within_identitiesSave refused sid _ identityKey hlen

theorem x3dhResponder_length {spk : SignedPreKey P} {opk : Option (OneTimePreKey P)}
    {identityKey baseKey : Bytes} {result : X3DHResponderResult}
    (h : x3dhResponder P dev.identity spk opk identityKey baseKey = .ok result) :
    identityKey.length = 32 := by
  by_contra hlen
  have hraise : x3dhDh P spk.pair.priv identityKey =
      .error (.signalCryptoError "invalid key length for DH") := if_pos (Or.inr hlen)
  rw [x3dhResponder, hraise] at h
  cases h

theorem perform_raising {α β : Type} {r : Except PyError α} {a : α} {f : α → SqlScript β}
    {db : Db Tables} (hr : r = .ok a) :
    ((raising r).bind f).perform refused db = (f a).perform refused db := by
  rw [hr]
  rfl

theorem perform_lookupOpk (refused : SyncError) {oneTimePreKeyId : Option Nat}
    {opk : Option (OneTimePreKey P)}
    (h : Holds t w.toStores) (hopk : oneTimePreKeyId.bind w.prekeys.get? = opk)
    (hheld : opk.isSome = oneTimePreKeyId.isSome) :
    (sqliteLookupOpk P oneTimePreKeyId).perform refused ⟨t, none⟩ = (.ok opk, ⟨t, none⟩) ∧
      ∀ keyId, oneTimePreKeyId = some keyId → fitsSqlite keyId := by
  cases oneTimePreKeyId with
  | none =>
    cases hopk
    exact ⟨rfl, fun keyId hid => by cases hid⟩
  | some keyId =>
    rw [Option.bind_some] at hopk
    cases opk with
    | none => cases hheld
    | some opk =>
      have hfits := (h.keyIds keyId opk hopk).2
      have hload := prekeysLoad_holds t h hfits
      rw [hopk] at hload
      refine ⟨(perform_readFacet hload).trans rfl, fun keyId' hid => ?_⟩
      cases hid
      exact hfits

theorem performs_pkmsg {pkmsg : PreKeySignalMessage} {spk : SignedPreKey P}
    {opk : Option (OneTimePreKey P)} {result : X3DHResponderResult} {state : RatchetState}
    (h : Holds t w.toStores) (hdecode : PreKeySignalMessage.decode env.pb ciphertext = .ok pkmsg)
    (hspk : getSignedPreKey dev pkmsg.signedPreKeyId = .ok spk)
    (hopk : pkmsg.oneTimePreKeyId.bind w.prekeys.get? = opk)
    (hheld : opk.isSome = pkmsg.oneTimePreKeyId.isSome)
    (hx3dh : x3dhResponder P dev.identity spk opk pkmsg.identityKey pkmsg.baseKey = .ok result)
    (hdec : ratchetDecrypt P (env.keyPair w.drawn) pkmsg.message.header pkmsg.message.ciphertext
      (pkmsg.identityKey ++ dev.identity.pub)
      (some (pkmsg.message.verifyMac P pkmsg.identityKey dev.identity.pub))
      (ratchetInitBob result.sharedSecret spk.pair.priv spk.pair.pub) = .ok plaintext state) :
    (sqliteDecryptPkmsg env dev (env.keyPair w.drawn) sender ciphertext).perform refused ⟨t, none⟩ =
      (.ok plaintext,
        ⟨t.accepted (sessionId sender) pkmsg.oneTimePreKeyId state pkmsg.identityKey, none⟩) := by
  obtain ⟨hlookup, hfits⟩ := perform_lookupOpk refused h hopk hheld
  refine (perform_raising hdecode).trans ?_
  refine (perform_raising hspk).trans ?_
  refine (Script.perform_bind_ok hlookup).trans ?_
  refine (perform_raising hx3dh).trans ?_
  rw [hdec]
  have hland := Script.perform_transaction (plain_landAccepted _ _ _ _)
    (within_landAccepted_of refused t (sessionId sender) state (x3dhResponder_length hx3dh) hfits)
  exact Script.perform_bind_ok hland

theorem performs_msg {session : Session} {identity : Bytes} {inner : SignalMessage}
    {state : RatchetState} (h : Holds t w.toStores)
    (hsession : w.sessions.get? (sessionId sender) = some session)
    (hidentity : w.identities.get? (sessionId sender) = some identity)
    (hdecode : SignalMessage.decode env.pb ciphertext = .ok inner)
    (hdec : ratchetDecrypt P (env.keyPair w.drawn) inner.header inner.ciphertext
      (identity ++ dev.identity.pub) (some (inner.verifyMac P identity dev.identity.pub))
      session.state = .ok plaintext state) :
    (sqliteDecryptMsg env dev (env.keyPair w.drawn) sender ciphertext).perform refused ⟨t, none⟩ =
      (.ok plaintext,
        ⟨{ t with
          sessions := t.sessions.set (sessionId sender) (sessionText (serializeState state)) },
          none⟩) := by
  have hload := sessionsLoad_holds (sessionId sender) t h
  have hpeer := identitiesLoad_holds (sessionId sender) t h
  rw [hsession] at hload
  rw [hidentity] at hpeer
  refine (perform_readFacet hload).trans ?_
  refine (perform_readFacet hpeer).trans ?_
  refine (perform_raising hdecode).trans ?_
  rw [hdec]
  rfl

theorem perform_migrateKnownLid (refused : SyncError) (sender : JID) (h : Holds t w.toStores) :
    ∃ u, (sqliteMigrateKnownLid sender).perform refused ⟨t, none⟩ = (.ok (), ⟨u, none⟩) ∧
      Holds u (w.arrive sender).toStores := by
  have hstay : w.movesFrom sender = none → Holds t (w.arrive sender).toStores := by
    intro hmoves
    rw [World.arrive, hmoves]
    exact h
  rw [sqliteMigrateKnownLid]
  by_cases hserver : sender.server ≠ "lid"
  · rw [if_pos hserver]
    exact ⟨t, rfl, hstay (if_pos (Or.inl hserver))⟩
  · rw [if_neg hserver]
    have hload := sessionsLoad_holds (sessionId sender) t h
    cases hsession : w.sessions.get? (sessionId sender) with
    | some session =>
      rw [hsession] at hload
      exact ⟨t, (perform_readFacet hload).trans rfl,
        hstay (if_pos (Or.inr (by rw [hsession]; rfl)))⟩
    | none =>
      have hnot : ¬ (sender.server ≠ "lid" ∨ (w.sessions.get? (sessionId sender)).isSome) := by
        rw [hsession]
        simpa using hserver
      have hgetPn := congrArg (@Except.ok SyncError _) (lidMapGetPn_holds sender.user t h)
      rw [hsession] at hload
      cases hpn : w.lidMap.getPn sender.user with
      | none =>
        rw [hpn] at hgetPn
        refine ⟨t, (perform_readFacet hload).trans ?_,
          hstay (by rw [World.movesFrom, if_neg hnot, hpn]; rfl)⟩
        exact (perform_readFacet hgetPn).trans rfl
      | some pnUser =>
        rw [hpn] at hgetPn
        refine ⟨_, (perform_readFacet hload).trans ?_, h.arrive hnot hpn⟩
        refine (perform_readFacet hgetPn).trans ?_
        exact Script.perform_transaction (plain_migratePnSession _ _)
          (within_migratePnSession refused h.consistent _ _)

theorem decryptEnc_performs {encType : String} (h : Holds t w.toStores)
    (hrun : (decryptEnc env dev channel sender encType ciphertext).run w =
      (w', .done (.ok plaintext))) :
    ∃ u, (sqliteDecryptEnc env dev (env.keyPair w.drawn) sender encType ciphertext).perform refused
      ⟨t, none⟩ = (.ok plaintext, ⟨u, none⟩) ∧ Holds u w'.toStores := by
  obtain ⟨w₁, r, hrun₁, hout⟩ := decryptEnc_received env dev channel sender ciphertext w encType
  obtain ⟨rfl, rfl⟩ := Co.run_done_inj hrun hrun₁
  obtain ⟨v, hmigrate, hv⟩ := perform_migrateKnownLid refused sender h
  rw [← World.arrive_drawn w sender]
  cases hout with
  | @message session identity _ inner state hsession hidentity hdecode hdec =>
    have hpinned : (v.identities.get? (sessionId sender)).isSome := by
      rw [hv.identities, hidentity]
      rfl
    exact ⟨_, (Script.perform_bind_ok hmigrate).trans
      (performs_msg hv hsession hidentity hdecode hdec), (hv.setDrawn _).setSession
        { session with state := state, heard := true } hpinned⟩
  | @prekey pkmsg spk opk result _ state hdecode hspk hopk hheld hx3dh hdec =>
    generalize hstart : ratchetInitBob result.sharedSecret spk.pair.priv spk.pair.pub = start
    exact ⟨_, (Script.perform_bind_ok hmigrate).trans
      (performs_pkmsg hv hdecode hspk hopk hheld hx3dh hdec), (hv.setDrawn _).acceptPrekey
        ⟨state, .accepted pkmsg.identityKey start, true⟩ (x3dhResponder_length hx3dh)⟩

/-- The database refines the stores: whatever fails or is cut off, it holds the stores of
before the call, of after the arrival or of after the whole call; and when no statement
fails it accepts what the call on the stores accepts. -/
theorem sqlite_decrypt_refines (env : Env P) (dev : Device P) (channel : Channel) (sender : JID)
    (encType : String) (ciphertext : Bytes) (w : World P) (refused : SyncError) :
    Meets refused (fun t => Holds t w.toStores)
        (sqliteDecryptEnc env dev (env.keyPair w.drawn) sender encType ciphertext)
        (Landed (decryptEnc env dev channel sender encType ciphertext) w)
        (fun t => Holds t w.toStores ∨ Holds t (w.arrive sender).toStores)
        (fun t => Holds t w.toStores ∨ Holds t (w.arrive sender).toStores ∨ ∃ plaintext,
          Landed (decryptEnc env dev channel sender encType ciphertext) w plaintext t) ∧
      ∀ t plaintext w', Holds t w.toStores →
        (decryptEnc env dev channel sender encType ciphertext).run w =
          (w', .done (.ok plaintext)) →
        ∃ u, (sqliteDecryptEnc env dev (env.keyPair w.drawn) sender encType ciphertext).perform
          refused ⟨t, none⟩ = (.ok plaintext, ⟨u, none⟩) ∧ Holds u w'.toStores :=
  ⟨decryptEnc_meets env dev channel sender encType ciphertext w refused,
    fun _ _ _ h hrun => decryptEnc_performs h hrun⟩

end Performance

section Demo

def demoOpened : World demoPrimitives × Co.Stop (World demoPrimitives) Request.Reply PyError Bytes :=
  let out := (demoFrames (some demoOpk)).headD ("", [])
  (decryptEnc (demoEnv []) demoPeer .direct demoMe.ownJid out.1 out.2).run demoStored

/-- A database with the prekey that a first message asks for ends with its session. -/
theorem sqlite_decrypt_refines_first :
    ∃ t u, Holds t demoStored.toStores ∧
      (sqliteDecryptEnc (demoEnv []) demoPeer ((demoEnv []).keyPair 0) demoMe.ownJid
        ((demoFrames (some demoOpk)).headD ("", [])).1
        ((demoFrames (some demoOpk)).headD ("", [])).2).perform .overflowError ⟨t, none⟩ =
          (.ok [1], ⟨u, none⟩) ∧
      Holds u demoOpened.1.toStores ∧
      (u.identities.get? (sessionId demoMe.ownJid)).isSome = true := by
  have hfits : fitsSqlite demoOpk.keyId := ⟨by decide, by decide⟩
  have hheld := (holds_empty (P := demoPrimitives)).savePrekey hfits
  have hopened : demoOpened.2.ok? = some [1] := by decide +kernel
  have hrun : demoOpened = (demoOpened.1, .done (.ok [1])) := by
    have hall := Co.run_getD [] (p := decryptEnc (demoEnv []) demoPeer .direct demoMe.ownJid
      ((demoFrames (some demoOpk)).headD ("", [])).1 ((demoFrames (some demoOpk)).headD ("", [])).2)
      (s := demoStored) (by
        change demoOpened.2.ok?.isSome = true
        rw [hopened]
        rfl)
    change demoOpened = (demoOpened.1, .done (.ok (demoOpened.2.ok?.getD []))) at hall
    rwa [hopened] at hall
  obtain ⟨-, hperforms⟩ := sqlite_decrypt_refines (demoEnv []) demoPeer .direct demoMe.ownJid
    ((demoFrames (some demoOpk)).headD ("", [])).1 ((demoFrames (some demoOpk)).headD ("", [])).2
    demoStored .overflowError
  obtain ⟨u, hu, hholds⟩ := hperforms _ _ _ hheld hrun
  refine ⟨_, u, hheld, hu, hholds, ?_⟩
  rw [hholds.identities]
  decide +kernel

end Demo

end PyWhats.Storage
