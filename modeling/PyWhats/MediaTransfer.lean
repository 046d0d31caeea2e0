import PyWhats.Directory
import PyWhats.Lib.Base64
import PyWhats.Lib.Conversation
import PyWhats.Media

/-! Attachments on their way (`media/upload.py`, `media/download.py`): the file is posted to
the first host of the server's list, and fetched from the hosts of a later list in turn
until one of them has it. -/

namespace PyWhats.Media

open AppState (Libraries)

def mediaImage : String := "WhatsApp Image Keys"

def mediaVideo : String := "WhatsApp Video Keys"

def mediaAudio : String := "WhatsApp Audio Keys"

def mediaDocument : String := "WhatsApp Document Keys"

def mediaHistory : String := "WhatsApp History Keys"

def mediaAppState : String := "WhatsApp App State Keys"

/-- `MMS_TYPE.get(media_type, "")`. -/
def mmsTypeOf (mediaType : String) : String :=
  if mediaType = mediaImage then "image"
  else if mediaType = mediaVideo then "video"
  else if mediaType = mediaAudio then "audio"
  else if mediaType = mediaDocument then "document"
  else if mediaType = mediaHistory then "md-msg-hist"
  else if mediaType = mediaAppState then "md-app-state"
  else ""

inductive TransferError where
  | media (failure : MediaFailure)
  | raised (e : PyError)
  deriving DecidableEq

def TransferError.isException : TransferError → Bool
  | .media _ => true
  | .raised e => e.isException

inductive Transfer where
  | iq (node : Node)
  | get (url : String)
  | post (url : String) (body : Bytes)

abbrev Transfer.Reply : Transfer → Type
  | .iq _ => Node
  | .get _ => Bytes
  | .post _ _ => Bytes

/-- A list of hosts is never empty. -/
structure MediaConn where
  hosts : List String
  auth : String
  ttl : Int
  hosts_ne : hosts ≠ []

/-- The connection a downloader keeps, and how often randomness was asked for. -/
structure TransferState where
  conn : Option MediaConn := none
  drawn : Nat := 0

abbrev TransferM := Co TransferState Transfer.Reply TransferError

structure MediaInfo where
  directPath : String
  mediaKey : Bytes
  fileSha256 : Bytes
  fileEncSha256 : Bytes
  mediaType : String
  mmsType : String := ""

/-- What the CDN answers to an upload, where each field is a string or absent. -/
structure UploadReply where
  url : Option String
  directPath : Option String
  handle : Option String

structure UploadResult where
  url : String
  directPath : String
  handle : String
  mediaKey : Bytes
  fileEncSha256 : Bytes
  fileSha256 : Bytes
  fileLength : Nat

def buildMediaConnIq (iqId : String) : Node :=
  .mk "iq" [("id", .str iqId), ("type", .str "set"), ("xmlns", .str "w:m"), ("to", .jid serverJid)]
    (.nodes [.mk "media_conn" [] .none])

def parseMediaConn (iq : Node) : Except PyError MediaConn :=
  match iq.getChild "media_conn" with
  | none => .error (.valueError "media_conn response missing <media_conn>")
  | some mc =>
    let hosts := ((mc.getChildren "host").map fun h => h.getStr "hostname").filter (· ≠ "")
    if h : hosts = [] then .error (.valueError "media_conn response has no hosts")
    else if mc.getStr "ttl" = "" then .ok ⟨hosts, mc.getStr "auth", 0, h⟩
    else
      match PyText.int? (mc.getStr "ttl").toList with
      | none => .error (.valueError "invalid literal for int() with base 10")
      | some ttl => .ok ⟨hosts, mc.getStr "auth", ttl, h⟩

def urlsafeB64encode (data : Bytes) : String :=
  String.ofList ((Base64.encode data).map fun c => if c = '+' then '-' else if c = '/' then '_' else c)

def buildDownloadUrl (host directPath : String) (encFileHash : Bytes) (mmsType : String) :
    Except TransferError String :=
  if directPath.toList.head? = some '/' then
    .ok ("https://" ++ host ++ directPath ++ "&hash=" ++ urlsafeB64encode encFileHash ++
      "&mms-type=" ++ mmsType ++ "&__wa-mms=")
  else .error (.raised (.valueError ("media direct_path must start with '/': '" ++ directPath ++ "'")))

def percentDigit (n : Nat) : Char := "0123456789ABCDEF".toList.getD n '0'

/-- `urllib.parse.quote_plus`. -/
def quotePlus (text : String) : String :=
  String.ofList ((Binary.utf8Encode text).flatMap fun b =>
    let c := Char.ofNat b.toNat
    if c.isAlphanum ∨ c ∈ ['_', '.', '-', '~'] then [c]
    else if c = ' ' then ['+']
    else ['%', percentDigit (b.toNat / 16), percentDigit (b.toNat % 16)])

def buildUploadUrl (host mmsType : String) (fileEncSha256 : Bytes) (auth : String) : String :=
  let token := urlsafeB64encode fileEncSha256
  "https://" ++ host ++ "/mms/" ++ mmsType ++ "/" ++ token ++ "?auth=" ++ quotePlus auth ++
    "&token=" ++ quotePlus token

section Pipeline

/-- Randomness, and `json.loads` of an upload's answer. -/
structure TransferEnv where
  token : Nat → Bytes
  newId : Nat → String
  loads : Bytes → Except PyError UploadReply

variable (L : Libraries) (sha256 : Bytes → Bytes) (env : TransferEnv)

def drawn {α : Type} (source : Nat → α) : TransferM α :=
  .act (fun s => { s with drawn := s.drawn + 1 }) fun s => .ret (.ok (source s.drawn))

def raising {α : Type} (r : Except PyError α) : Except TransferError α := r.mapError .raised

/-- `MediaUploader.upload`. -/
def upload (plaintext : Bytes) (mediaType : String) : TransferM UploadResult := do
  let token ← drawn env.token
  let enc := encryptMedia L sha256 token plaintext mediaType none
  let iqId ← drawn env.newId
  let resp ← Co.wait (Transfer.iq (buildMediaConnIq iqId))
  let conn ← Co.lift (raising (parseMediaConn resp))
  let url := buildUploadUrl (conn.hosts.head conn.hosts_ne) (mmsTypeOf mediaType) enc.fileEncSha256
    conn.auth
  let raw ← Co.wait (Transfer.post url enc.encData)
  let parsed ← Co.lift (raising (env.loads raw))
  return {
    url := parsed.url.getD ""
    directPath := parsed.directPath.getD ""
    handle := parsed.handle.getD ""
    mediaKey := enc.mediaKey
    fileEncSha256 := enc.fileEncSha256
    fileSha256 := enc.fileSha256
    fileLength := enc.fileLength }

/-- `MediaDownloader._media_conn`. -/
def mediaConn : TransferM MediaConn := do
  let s ← Co.get
  match s.conn with
  | some conn => return conn
  | none => do
    let iqId ← drawn env.newId
    let resp ← Co.wait (Transfer.iq (buildMediaConnIq iqId))
    let conn ← Co.lift (raising (parseMediaConn resp))
    Co.modify fun s => { s with conn := some conn }
    return conn

variable (info : MediaInfo)

def MediaInfo.mms (info : MediaInfo) : String :=
  if info.mmsType ≠ "" then info.mmsType else mmsTypeOf info.mediaType

def MediaInfo.urlAt (info : MediaInfo) (host : String) : Except TransferError String :=
  buildDownloadUrl host info.directPath info.fileEncSha256 info.mms

def decrypted (encFile : Bytes) : Except TransferError Bytes :=
  (decryptMedia L sha256 encFile info.mediaKey info.mediaType info.fileEncSha256
    info.fileSha256).mapError .media

/-- One host: what `except Exception` catches is reported as a value. -/
def tryHost (url : String) : TransferM (Except TransferError Bytes) :=
  Co.tryCatch
    (do let encFile ← Co.wait (Transfer.get url)
        let plaintext ← Co.lift (decrypted L sha256 info encFile)
        return Except.ok plaintext)
    (fun e => if e.isException then return Except.error e else Co.raise e)

/-- The loop over the hosts; the last argument is the `last_error` so far. -/
def tryHosts : List String → Option TransferError → TransferM Bytes
  | [], last => Co.raise (last.getD (.raised (.runtimeError "no media hosts to try")))
  | host :: rest, _ => do
    let url ← Co.lift (info.urlAt host)
    match ← tryHost L sha256 info url with
    | .ok plaintext => return plaintext
    | .error e => tryHosts rest (some e)

/-- `MediaDownloader.download`. -/
def download : TransferM Bytes := do
  let conn ← mediaConn env
  tryHosts L sha256 info conn.hosts none

end Pipeline

section Talks

abbrev TransferTalk := List (Co.Exchange Transfer.Reply TransferError)

def getOf : Co.Exchange Transfer.Reply TransferError → Option (String × Except TransferError Bytes)
  | ⟨.get url, answer⟩ => some (url, answer)
  | _ => none

/-- The hosts that were asked, with their answers. -/
def gets (said : TransferTalk) : List (String × Except TransferError Bytes) := said.filterMap getOf

def postOf : Co.Exchange Transfer.Reply TransferError → Option Bytes
  | ⟨.post _ body, _⟩ => some body
  | _ => none

/-- The files that were posted. -/
def posts (said : TransferTalk) : List Bytes := said.filterMap postOf

/-- The hosts of the connection that was kept, or of the one that the server gave just now. -/
def Listed (kept : Option MediaConn) (said : TransferTalk) (hosts : List String) : Prop :=
  match kept with
  | some conn => (∀ node answer, ⟨.iq node, answer⟩ ∉ said) ∧ hosts = conn.hosts
  | none => ∃ iqId resp conn, said.head? = some ⟨.iq (buildMediaConnIq iqId), .ok resp⟩ ∧
    parseMediaConn resp = .ok conn ∧ hosts = conn.hosts

/-- No connection was kept, and the server gave none. -/
def Unlisted (kept : Option MediaConn) (said : TransferTalk) (e : TransferError) : Prop :=
  kept = none ∧ ∃ iqId answer, said = [⟨.iq (buildMediaConnIq iqId), answer⟩] ∧
    (answer >>= fun resp => raising (parseMediaConn resp)) = .error e

variable (L : Libraries) (sha256 : Bytes → Bytes) (info : MediaInfo)

def opened (answer : Except TransferError Bytes) : Except TransferError Bytes :=
  answer >>= decrypted L sha256 info

/-- The hosts asked so far are the first ones of the list, and none of them had the file. -/
structure Asked (hosts : List String) (said : TransferTalk) : Prop where
  urls : (gets said).map (fun g => .ok g.1) = (hosts.take (gets said).length).map info.urlAt
  failed : ∀ g ∈ gets said, ∃ e, opened L sha256 info g.2 = .error e ∧ e.isException = true

variable (kept : Option MediaConn)

def DownloadAsks (said : TransferTalk) : Transfer → Prop
  | .iq node => kept = none ∧ said = [] ∧ ∃ iqId, node = buildMediaConnIq iqId
  | .get url => ∃ hosts host, Listed kept said hosts ∧ Asked L sha256 info hosts said ∧
    hosts[(gets said).length]? = some host ∧ info.urlAt host = .ok url
  | .post _ _ => False

/-- The last host asked had the file, or there was nothing to ask, or the hosts have run out. -/
def DownloadEnds (said : TransferTalk) : Except TransferError Bytes → Prop
  | .ok plaintext => ∃ hosts earlier url answer, said = earlier ++ [⟨.get url, answer⟩] ∧
    Listed kept said hosts ∧ Asked L sha256 info hosts earlier ∧
    opened L sha256 info answer = .ok plaintext
  | .error e => (∀ g ∈ gets said, ∃ e, opened L sha256 info g.2 = .error e) ∧
    (e.isException = true → Unlisted kept said e ∨
      (info.directPath.toList.head? ≠ some '/' ∧ gets said = []) ∨
      ∃ hosts, Listed kept said hosts ∧ Asked L sha256 info hosts said ∧
        (gets said).length = hosts.length)

end Talks

section Downloads

variable {L : Libraries} {sha256 : Bytes → Bytes} {env : TransferEnv} {info : MediaInfo}
  {kept : Option MediaConn}

theorem gets_append (said : TransferTalk) (url : String) (answer : Except TransferError Bytes) :
    gets (said ++ [⟨.get url, answer⟩]) = gets said ++ [(url, answer)] := List.filterMap_append

theorem Listed.get {said : TransferTalk} {hosts : List String} (h : Listed kept said hosts)
    (url : String) (answer : Except TransferError Bytes) :
    Listed kept (said ++ [⟨.get url, answer⟩]) hosts := by
  cases kept with
  | some conn =>
    refine ⟨fun node answer' hmem => ?_, h.2⟩
    rcases List.mem_append.mp hmem with hmem | hmem
    · exact h.1 node answer' hmem
    · rw [List.mem_singleton] at hmem
      cases hmem
  | none =>
    obtain ⟨iqId, resp, conn, hhead, hconn⟩ := h
    refine ⟨iqId, resp, conn, ?_, hconn⟩
    rw [List.head?_append, hhead]
    rfl

theorem urlAt_error {host : String} {e : TransferError} (h : info.urlAt host = .error e) :
    info.directPath.toList.head? ≠ some '/' := by
  intro hpath
  rw [MediaInfo.urlAt, buildDownloadUrl, if_pos hpath] at h
  cases h

/-- With a bad path there is no host to ask. -/
theorem Asked.gets_nil {hosts : List String} {said : TransferTalk}
    (h : Asked L sha256 info hosts said) (hpath : info.directPath.toList.head? ≠ some '/') :
    gets said = [] := by
  by_contra hgets
  obtain ⟨g, hg⟩ := List.exists_mem_of_ne_nil _ hgets
  have hurl : (Except.ok g.1 : Except TransferError String) ∈
      (hosts.take (gets said).length).map info.urlAt := by
    rw [← h.urls]
    exact List.mem_map.mpr ⟨g, hg, rfl⟩
  obtain ⟨host, _, hhost⟩ := List.mem_map.mp hurl
  rw [MediaInfo.urlAt, buildDownloadUrl, if_neg hpath] at hhost
  cases hhost

theorem Asked.length_le {hosts : List String} {said : TransferTalk}
    (h : Asked L sha256 info hosts said) : (gets said).length ≤ hosts.length := by
  have hlength := congrArg List.length h.urls
  rw [List.length_map, List.length_map, List.length_take] at hlength
  omega

theorem Asked.append {hosts : List String} {said : TransferTalk} {host url : String}
    {answer : Except TransferError Bytes} {e : TransferError}
    (h : Asked L sha256 info hosts said) (hhost : hosts[(gets said).length]? = some host)
    (hurl : info.urlAt host = .ok url) (hopened : opened L sha256 info answer = .error e)
    (he : e.isException = true) : Asked L sha256 info hosts (said ++ [⟨.get url, answer⟩]) where
  urls := by
    rw [gets_append, List.length_append, List.length_singleton, List.map_append, h.urls,
      List.take_add_one, hhost, List.map_append]
    simp [hurl]
  failed g hg := by
    rw [gets_append] at hg
    rcases List.mem_append.mp hg with hg | hg
    · exact h.failed g hg
    · rw [List.mem_singleton.mp hg]
      exact ⟨e, hopened, he⟩

/-- One host is one request. -/
theorem tryHost_bind {α : Type} (url : String) (f : Except TransferError Bytes → TransferM α) :
    (tryHost L sha256 info url >>= f) = .await (.get url) fun answer =>
      match opened L sha256 info answer with
      | .ok plaintext => f (.ok plaintext)
      | .error e => if e.isException = true then f (.error e) else .ret (.error e) := by
  refine congrArg (Co.await (Transfer.get url)) (funext fun answer => ?_)
  cases answer with
  | error e =>
    change Co.bind f (if e.isException = true then _ else _) =
      if e.isException = true then _ else _
    by_cases he : e.isException = true
    · rw [if_pos he, if_pos he]
      rfl
    · rw [if_neg he, if_neg he]
      rfl
  | ok encFile =>
    have hopened : opened L sha256 info (.ok encFile) = decrypted L sha256 info encFile := rfl
    rw [hopened]
    change Co.bind f ((Co.bind _ (Co.ret (decrypted L sha256 info encFile))).tryCatch _) = _
    cases decrypted L sha256 info encFile with
    | ok plaintext => rfl
    | error e =>
      change Co.bind f (if e.isException = true then _ else _) =
        if e.isException = true then _ else _
      by_cases he : e.isException = true
      · rw [if_pos he, if_pos he]
        rfl
      · rw [if_neg he, if_neg he]
        rfl

theorem tryHosts_follows {hosts rest : List String} {last : Option TransferError}
    {said : TransferTalk} (hlisted : Listed kept said hosts)
    (hasked : Asked L sha256 info hosts said) (hrest : hosts.drop (gets said).length = rest) :
    (tryHosts L sha256 info rest last).Follows (DownloadAsks L sha256 info kept)
      (DownloadEnds L sha256 info kept) said := by
  have hfailed : ∀ g ∈ gets said, ∃ e, opened L sha256 info g.2 = .error e := fun g hg => by
    obtain ⟨e, he, _⟩ := hasked.failed g hg
    exact ⟨e, he⟩
  induction rest generalizing said last with
  | nil =>
    have hall := List.drop_eq_nil_iff.mp hrest
    refine ⟨hfailed, fun _ => Or.inr (Or.inr ⟨hosts, hlisted, hasked, ?_⟩)⟩
    exact Nat.le_antisymm hasked.length_le hall
  | cons host rest ih =>
    have hhost : hosts[(gets said).length]? = some host := by
      rw [← List.head?_drop, hrest]
      rfl
    refine Co.follows_lift_bind (fun url hurl => ?_) fun e he => ⟨hfailed, fun _ => ?_⟩
    · rw [tryHost_bind]
      refine ⟨⟨hosts, host, hlisted, hasked, hhost, hurl⟩, fun answer => ?_⟩
      cases hopened : opened L sha256 info answer with
      | ok plaintext =>
        simp only [hopened]
        exact Co.follows_ret ⟨hosts, said, url, answer, rfl, hlisted.get url answer, hasked, hopened⟩
      | error e =>
        simp only [hopened]
        by_cases he : e.isException = true
        · have hnext := hasked.append hhost hurl hopened he
          rw [if_pos he]
          refine ih (hlisted.get url answer) hnext ?_ fun g hg => ?_
          · rw [gets_append, List.length_append, List.length_singleton, ← List.drop_drop, hrest]
            rfl
          · obtain ⟨e', he', _⟩ := hnext.failed g hg
            exact ⟨e', he'⟩
        · rw [if_neg he]
          refine Co.follows_ret ⟨fun g hg => ?_, fun hexc => absurd hexc he⟩
          rw [gets_append] at hg
          rcases List.mem_append.mp hg with hg | hg
          · exact hfailed g hg
          · rw [List.mem_singleton.mp hg]
            exact ⟨e, hopened⟩
    · have hpath := urlAt_error he
      exact Or.inr (Or.inl ⟨hpath, hasked.gets_nil hpath⟩)

theorem tryHosts_start {conn : MediaConn} {said : TransferTalk} (hlisted : Listed kept said conn.hosts)
    (hgets : gets said = []) :
    (tryHosts L sha256 info conn.hosts none).Follows (DownloadAsks L sha256 info kept)
      (DownloadEnds L sha256 info kept) said := by
  refine tryHosts_follows hlisted ⟨?_, ?_⟩ ?_
  · rw [hgets]
    rfl
  · rw [hgets]
    exact fun g hg => by cases hg
  · rw [hgets]
    rfl

/-- What a download says from its start on, whatever the server and the hosts answer. -/
theorem download_follows (s : TransferState) :
    ((download L sha256 env info).run s).2.rest.Follows (DownloadAsks L sha256 info s.conn)
      (DownloadEnds L sha256 info s.conn) [] := by
  obtain ⟨conn, n⟩ := s
  cases conn with
  | some conn =>
    have hlisted : Listed (some conn) [] conn.hosts := ⟨fun _ _ => List.not_mem_nil, rfl⟩
    exact (tryHosts_start hlisted rfl).run ⟨some conn, n⟩
  | none =>
    refine ⟨⟨rfl, rfl, env.newId n, rfl⟩, fun answer => ?_⟩
    have hfail : ∀ e, (answer >>= fun resp => raising (parseMediaConn resp)) = .error e →
        DownloadEnds L sha256 info none [⟨.iq (buildMediaConnIq (env.newId n)), answer⟩]
          (.error e) := fun e he =>
      ⟨fun g hg => (by cases hg), fun _ => Or.inl ⟨rfl, _, answer, rfl, he⟩⟩
    cases answer with
    | error e => exact hfail e rfl
    | ok resp =>
      change ((Co.lift (raising (parseMediaConn resp)) >>= fun conn =>
        (Co.modify (fun s => { s with conn := some conn }) : TransferM Unit) >>= fun _ =>
          pure conn) >>= fun conn => tryHosts L sha256 info conn.hosts none).Follows _ _ _
      rw [bind_assoc]
      refine Co.follows_lift_bind (fun conn hparse _ => tryHosts_start ?_ rfl) hfail
      cases hp : parseMediaConn resp with
      | error e =>
        rw [hp] at hparse
        cases hparse
      | ok conn' =>
        rw [hp] at hparse
        cases hparse
        exact ⟨env.newId n, resp, conn, rfl, hp, rfl⟩

end Downloads

section Uploads

variable {L : Libraries} {sha256 : Bytes → Bytes} {env env' : TransferEnv}

/-- What a message says of its attachment, for the receiver to download it. -/
def UploadResult.info (result : UploadResult) (mediaType mmsType : String) : MediaInfo where
  directPath := result.directPath
  mediaKey := result.mediaKey
  fileSha256 := result.fileSha256
  fileEncSha256 := result.fileEncSha256
  mediaType := mediaType
  mmsType := mmsType

/-- The talk of an upload that returned: one query and one file. -/
structure Uploads (L : Libraries) (sha256 : Bytes → Bytes) (plaintext : Bytes) (mediaType : String)
    (said : TransferTalk) (file : Bytes) (result : UploadResult) : Prop where
  talk : ∃ iqId resp conn raw, parseMediaConn resp = .ok conn ∧
    said = [⟨.iq (buildMediaConnIq iqId), .ok resp⟩,
      ⟨.post (buildUploadUrl (conn.hosts.head conn.hosts_ne) (mmsTypeOf mediaType)
        result.fileEncSha256 conn.auth) file, .ok raw⟩]
  file : ∃ token, encryptMedia L sha256 token plaintext mediaType none =
    ⟨file, result.mediaKey, result.fileEncSha256, result.fileSha256, result.fileLength⟩

theorem path_ret_inv {α : Type} {r r' : Except TransferError α} {said : TransferTalk}
    (h : Co.Path (Co.ret r : TransferM α) said (.ret r')) : said = [] ∧ r = r' := by
  cases h
  exact ⟨rfl, rfl⟩

theorem upload_uploads {plaintext : Bytes} {mediaType : String} {said : TransferTalk}
    {result : UploadResult}
    (h : Co.Path (upload L sha256 env plaintext mediaType) said (.ret (.ok result))) :
    ∃ file, Uploads L sha256 plaintext mediaType said file result := by
  rcases h.act_inv with h | ⟨s, h⟩
  · cases h
  · rcases h.act_inv with h | ⟨s', h⟩
    · cases h
    · cases h with
      | await r h =>
        cases r with
        | error e => cases (path_ret_inv h).2
        | ok resp =>
          change Co.Path (Co.lift (raising (parseMediaConn resp)) >>= _) _ _ at h
          cases hparse : parseMediaConn resp with
          | error e =>
            rw [hparse] at h
            cases (path_ret_inv h).2
          | ok conn =>
            rw [hparse] at h
            cases h with
            | await r h =>
              cases r with
              | error e => cases (path_ret_inv h).2
              | ok raw =>
                change Co.Path (Co.lift (raising (env.loads raw)) >>= _) _ _ at h
                cases hloads : env.loads raw with
                | error e =>
                  rw [hloads] at h
                  cases (path_ret_inv h).2
                | ok parsed =>
                  rw [hloads] at h
                  obtain ⟨rfl, hresult⟩ := path_ret_inv h
                  cases hresult
                  exact ⟨_, ⟨_, resp, conn, raw, hparse, rfl⟩, ⟨_, rfl⟩⟩

/-- What was encrypted decrypts with the key and the digests of the result. -/
theorem decrypted_encrypted (hL : Lawful L.primitives) {token plaintext file : Bytes}
    {mediaType : String} (mms : String) {result : UploadResult}
    (h : encryptMedia L sha256 token plaintext mediaType none =
      ⟨file, result.mediaKey, result.fileEncSha256, result.fileSha256, result.fileLength⟩) :
    decrypted L sha256 (result.info mediaType mms) file = .ok plaintext := by
  obtain ⟨hiv, hkey⟩ := mediaKeys_length hL result.mediaKey mediaType
  have hmac := fileMac_length hL (deriveMediaKeys L result.mediaKey mediaType)
  have hpos := List.length_pos_iff.mpr (pkcs7Pad_ne_nil plaintext)
  have hlength := hL.encrypt_length _ _ (pkcs7Pad plaintext) hkey hiv (pkcs7Pad_length_mod _)
  simp only [encryptMedia, Option.getD_none, EncryptedMedia.mk.injEq] at h
  obtain ⟨hfile, rfl, henc, hsha, -⟩ := h
  have hcut : file.length - macLength = (L.primitives.aesCbcEncrypt
      (deriveMediaKeys L result.mediaKey mediaType).cipherKey
      (deriveMediaKeys L result.mediaKey mediaType).iv (pkcs7Pad plaintext)).length := by
    rw [← hfile, List.length_append, hmac, Nat.add_sub_cancel]
  have hdecrypt : decryptMedia L sha256 file result.mediaKey mediaType result.fileEncSha256
      result.fileSha256 = .ok plaintext := by
    refine decryptMedia_ok_iff.mpr ⟨?_, .inr (hfile ▸ henc), ?_, ?_, .inr hsha⟩
    · rw [← hfile, List.length_append, hmac]
      omega
    · rw [hcut, ← hfile, List.take_left, List.drop_left]
    · rw [hcut, ← hfile, List.take_left]
      exact (aesCbcDecrypt_iff hL hkey hiv).mpr rfl
  rw [decrypted]
  exact congrArg (Except.mapError TransferError.media) hdecrypt

theorem decrypted_inv {info : MediaInfo} {encFile data : Bytes}
    (h : decrypted L sha256 info encFile = .ok data) :
    decryptMedia L sha256 encFile info.mediaKey info.mediaType info.fileEncSha256
      info.fileSha256 = .ok data := by
  rw [decrypted] at h
  cases hd : decryptMedia L sha256 encFile info.mediaKey info.mediaType info.fileEncSha256
      info.fileSha256 with
  | error e =>
    rw [hd] at h
    cases h
  | ok data' =>
    rw [hd] at h
    cases h
    rfl

/-- Two files that are not told apart by the digest. -/
def Collide (sha256 : Bytes → Bytes) (data data' : Bytes) : Prop :=
  data ≠ data' ∧ sha256 data = sha256 data'

/-- What decrypts is the file, or else one that has its digest too. -/
theorem decrypted_unique (hL : Lawful L.primitives) (hsha : ∀ data, (sha256 data).length = 32)
    {token plaintext file encFile data : Bytes} {mediaType mms : String} {result : UploadResult}
    (h : encryptMedia L sha256 token plaintext mediaType none =
      ⟨file, result.mediaKey, result.fileEncSha256, result.fileSha256, result.fileLength⟩)
    (hdata : decrypted L sha256 (result.info mediaType mms) encFile = .ok data) :
    data = plaintext ∨ Collide sha256 encFile file ∧ Collide sha256 data plaintext := by
  have hne : ∀ data : Bytes, sha256 data ≠ [] := by
    intro data hnil
    have hlength := hsha data
    rw [hnil, List.length_nil] at hlength
    omega
  have hsame := decrypted_encrypted hL mms h
  simp only [encryptMedia, Option.getD_none, EncryptedMedia.mk.injEq] at h
  obtain ⟨hfile, -, henc, hdigest, -⟩ := h
  rw [hfile] at henc
  obtain ⟨-, hencHash, -, -, hhash⟩ := decryptMedia_ok_iff.mp (decrypted_inv hdata)
  have hencHash' : sha256 encFile = sha256 file := by
    have hresult : result.fileEncSha256 ≠ [] := henc ▸ hne file
    exact (hencHash.resolve_left hresult).trans henc.symm
  have hhash' : sha256 data = sha256 plaintext := by
    have hresult : result.fileSha256 ≠ [] := hdigest ▸ hne plaintext
    exact (hhash.resolve_left hresult).trans hdigest.symm
  by_cases heq : data = plaintext
  · exact .inl heq
  · have hfiles : encFile ≠ file := by
      rintro rfl
      rw [hdata] at hsame
      cases hsame
      exact heq rfl
    exact .inr ⟨⟨hfiles, hencHash'⟩, heq, hhash'⟩

/-- An attachment survives the CDN. Whatever the server and the hosts answer to the upload
and to a later download, the download returns the uploaded bytes as soon as a host has
the posted file; what else it could return has the same digests as the attachment; and
it gives up with an exception when there is no connection, when the path is bad, or after each
host of the connection was asked once, in order. -/
theorem media_transfers (hL : Lawful L.primitives) (hsha : ∀ data, (sha256 data).length = 32)
    {plaintext : Bytes} {mediaType : String} {said : TransferTalk} {result : UploadResult}
    (hup : Co.Path (upload L sha256 env plaintext mediaType) said (.ret (.ok result)))
    (mms : String) :
    ∃ file, Uploads L sha256 plaintext mediaType said file result ∧
      ∀ (s : TransferState) (said' : TransferTalk) r,
        Co.Path ((download L sha256 env' (result.info mediaType mms)).run s).2.rest said' (.ret r) →
        ((∃ url, (url, .ok file) ∈ gets said') → r = .ok plaintext) ∧
        (∀ data, r = .ok data → data = plaintext ∨ ∃ url encFile,
          (gets said').getLast? = some (url, .ok encFile) ∧ Collide sha256 encFile file ∧
            Collide sha256 data plaintext) ∧
        ∀ e, r = .error e → e.isException = true → Unlisted s.conn said' e ∨
          (result.directPath.toList.head? ≠ some '/' ∧ gets said' = []) ∨
          ∃ hosts, Listed s.conn said' hosts ∧ (gets said').map (fun g => .ok g.1) =
            hosts.map (result.info mediaType mms).urlAt := by
  obtain ⟨file, huploads⟩ := upload_uploads hup
  obtain ⟨token, hfile⟩ := huploads.file
  refine ⟨file, huploads, fun s said' r hdown => ?_⟩
  have hends : DownloadEnds L sha256 (result.info mediaType mms) s.conn said' r :=
    (download_follows s).path hdown
  have hopens : opened L sha256 (result.info mediaType mms) (.ok file) = .ok plaintext :=
    decrypted_encrypted hL mms hfile
  cases r with
  | error e =>
    refine ⟨fun hgot => ?_, fun data hr => (by cases hr), fun e' hr he => ?_⟩
    · obtain ⟨url, hgot⟩ := hgot
      obtain ⟨e', he'⟩ := hends.1 _ hgot
      cases hopens.symm.trans he'
    · cases hr
      refine (hends.2 he).imp id (Or.imp id fun ⟨hosts, hlisted, hasked, hall⟩ => ?_)
      refine ⟨hosts, hlisted, ?_⟩
      rw [hasked.urls, hall, List.take_length]
  | ok data =>
    obtain ⟨hosts, earlier, url', answer, rfl, -, hasked, hopened⟩ := hends
    rw [gets_append]
    refine ⟨fun hgot => ?_, fun data' hr => ?_, fun e hr => (by cases hr)⟩
    · obtain ⟨url, hgot⟩ := hgot
      rcases List.mem_append.mp hgot with hgot | hgot
      · obtain ⟨e, he, _⟩ := hasked.failed _ hgot
        cases hopens.symm.trans he
      · cases List.mem_singleton.mp hgot
        exact hopened.symm.trans hopens
    · cases hr
      cases answer with
      | error e => cases hopened
      | ok encFile =>
        refine (decrypted_unique hL hsha hfile hopened).imp id fun hcollide => ?_
        exact ⟨url', encFile, by rw [List.getLast?_concat], hcollide⟩

end Uploads

section Demo

open AppState (demoLibraries)

def demoHosts : Node :=
  .mk "iq" [] (.nodes [.mk "media_conn" [("auth", .str "a")] (.nodes [
    .mk "host" [("hostname", .str "h1")] .none, .mk "host" [("hostname", .str "h2")] .none])])

def demoTransferEnv : TransferEnv where
  token _ := [1]
  newId _ := "1"
  loads _ := .ok ⟨some "u", some "/d", none⟩

/-- The first host is down, the other has the file. -/
def demoHave (file : Bytes) (s : TransferState) (q : Transfer) :
    Except TransferError q.Reply × TransferState :=
  match q with
  | .iq _ => (.ok demoHosts, s)
  | .get url => (if url.startsWith "https://h2/" then .ok file else .error (.raised .timeoutError), s)
  | .post _ _ => (.ok [], s)

def demoUploading : TransferTalk × Except TransferError UploadResult :=
  (upload demoLibraries (demoDigest 32) demoTransferEnv [7] mediaImage).talk (demoHave []) {}

def demoUpload : UploadResult := demoUploading.2.toOption.getD ⟨"", "", "", [], [], [], 0⟩

def demoFile : Bytes :=
  (encryptMedia demoLibraries (demoDigest 32) [1] [7] mediaImage none).encData

def demoDownloading : TransferTalk × Except TransferError Bytes :=
  (download demoLibraries (demoDigest 32) demoTransferEnv (demoUpload.info mediaImage "")).talk
    (demoHave demoFile) {}

def demoKept : TransferState := { conn := some ⟨["h1", "h3"], "a", 0, by decide⟩ }

/-- No host has the file. -/
def demoMissing : TransferTalk × Except TransferError Bytes :=
  (download demoLibraries (demoDigest 32) demoTransferEnv (demoUpload.info mediaImage "")).talk
    (demoHave demoFile) demoKept

theorem media_transfers_fallback :
    ((gets demoDownloading.1).length = 2 ∧ demoDownloading.2 = .ok [7]) ∧
    (gets demoMissing.1).map (fun g => .ok g.1) =
      ["h1", "h3"].map (demoUpload.info mediaImage "").urlAt := by
  have hup : Co.Path (upload demoLibraries (demoDigest 32) demoTransferEnv [7] mediaImage)
      demoUploading.1 (.ret (.ok demoUpload)) := Co.path_talk _ _ _
  obtain ⟨file, huploads, hdownloads⟩ :=
    media_transfers demoLibraries_lawful (fun data => by simp [demoDigest]) hup ""
  obtain ⟨iqId, resp, conn, raw, -, htalk⟩ := huploads.talk
  have hposted : posts demoUploading.1 = [demoFile] := by decide +kernel
  rw [htalk] at hposted
  cases hposted
  have hfetched : ∃ g ∈ gets demoDownloading.1, g.2 = .ok demoFile := by decide +kernel
  obtain ⟨⟨url, answer⟩, hmem, rfl⟩ := hfetched
  obtain ⟨hgot, -, -⟩ := hdownloads {} _ _ (Co.path_talk_run (demoHave demoFile) _ _)
  obtain ⟨-, -, hmissed⟩ := hdownloads demoKept _ _ (Co.path_talk_run (demoHave demoFile) _ _)
  refine ⟨⟨by decide +kernel, hgot ⟨url, hmem⟩⟩, ?_⟩
  have hpath : demoUpload.directPath.toList.head? = some '/' := by decide +kernel
  rcases hmissed (.raised .timeoutError) (by decide +kernel) rfl with
    ⟨hkept, -⟩ | ⟨hbad, -⟩ | ⟨hosts, hlisted, hasked⟩
  · cases hkept
  · exact absurd hpath hbad
  · rw [hlisted.2] at hasked
    exact hasked

end Demo

end PyWhats.Media
