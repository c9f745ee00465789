import PirateServer.Lib.Retry
import PirateServer.UploadSession.Alone

/-! The desktop client's resumable uploads, to the file storage and to the deploy server. The client
makes one request after the other, so each is alone at the server; an answer may be lost on its way
back, and then the client makes the request again. -/
namespace PirateServer.UploadSession
open Lib

/-! Errors, as the client reads them. -/

/-- What a failing `send` tells: its text and the text of its cause, and of what kind it is. -/
structure SendError where
  text : String
  source : Option String
  isConnect : Bool
  isTimeout : Bool
  deriving DecidableEq, Repr

def SendError.message (e : SendError) : String :=
  match e.source with
  | none => e.text
  | some src => e.text++": "++src

/-- What `fmt_reqwest_send_err` adds. -/
def SendError.hint (e : SendError) : String :=
  let el := Text.toAsciiLowercase e.message
  if Text.contains el "receiver is gone" || Text.contains el "connection reset" ||
      Text.contains el "broken pipe" then
    " — the HTTP connection closed while sending or reading the body (unstable network, proxy/nginx "++
      "timeout, or server closed the connection). "++
      "Smaller chunks or upgrading to resumable upload (…/deploy-artifact/session) avoids losing "++
      "the whole transfer."
  else if e.isConnect then
    " — cannot reach control-api at this URL (wrong port/host, firewall, or use the HTTP base nginx "++
      "exposes; set DEPLOY_CONTROL_API_PUBLIC_URL on deploy-server so GetStatus advertises the "++
      "right base)."
  else if e.isTimeout then
    " — request timed out "++"(increase proxy/client timeouts for very large artifacts)."
  else ""

def fmtReqwestSendErr (e : SendError) (url : String) : String :=
  let s := e.message++e.hint
  if Text.contains s url then s else s++(" (url: "++url++")")

def isRetryableUploadError (e : String) : Bool :=
  ["timed out","timeout","receiver is gone","connection reset","broken pipe","channel closed",
    "connect error","connection closed","http 502","http 503","http 504","http 408","http 429"].any
    (Text.contains (Text.toAsciiLowercase e))

def retryStatus (status : ℕ) : Bool := status ∈ [408,429,500,502,503,504]

def canonicalReason : ℕ → String
  | 400 => "Bad Request"
  | 401 => "Unauthorized"
  | 403 => "Forbidden"
  | 404 => "Not Found"
  | 409 => "Conflict"
  | 412 => "Precondition Failed"
  | 500 => "Internal Server Error"
  | 501 => "Not Implemented"
  | 502 => "Bad Gateway"
  | 503 => "Service Unavailable"
  | 507 => "Insufficient Storage"
  | _ => "<unknown status code>"

def jsonChar (c : Char) : List Char :=
  if c = '"' then ['\\','"']
  else if c = '\\' then ['\\','\\']
  else if c = '\n' then ['\\','n']
  else if c = '\r' then ['\\','r']
  else if c = '\t' then ['\\','t']
  else if c.toNat = 8 then ['\\','b']
  else if c.toNat = 12 then ['\\','f']
  else if c.toNat < 32 then ['\\','u','0','0']++(Nat.toDigits 16 c.toNat).leftpad 2 '0'
  else [c]

def jsonString (s : String) : String := "\""++String.ofList (s.toList.flatMap jsonChar)++"\""

/-- The body of an answer with an error: `ApiErrorBody`. -/
def ApiError.body (e : ApiError) : String :=
  "\x7b\"error\":\x7b\"code\":"++jsonString e.code++",\"message\":"++jsonString
    e.message++"\x7d\x7d"

/-- What the client has of a request: an answer of the server, or an error of its own. -/
abbrev Reply (α : Type) := Except SendError (Except ApiError α)

/-- How the client takes a reply, in each of its loops: `what` and `place` are for the text of the
error, of which at most `limit` characters of the body are part. -/
def readReply {α : Type} (what place : String) (limit : ℕ) (url : String) : Reply α → Trial String α
  | .error e =>
    let err := fmtReqwestSendErr e url
    if isRetryableUploadError err then .again err else .stop err
  | .ok (.error e) =>
    if e.status = 401 then .stop "control-api returned 401; sign in again"
    else
      let err := what++" HTTP "++e.status.repr++" "++canonicalReason e.status++place++": "++
        String.ofList (e.body.toList.take limit)
      if retryStatus e.status || isRetryableUploadError err then .again err else .stop err
  | .ok (.ok a) => .done a

/-! The session is created. -/

def reservedTmp : String := ".pirate-tmp"

def maxPathComponents : ℕ := 64

def maxNameBytes : ℕ := 255

def checkSegment (p : String) : Except String String :=
  if p = ".." then .error "parent path segments not allowed"
  else if p = "." then .error "'.' segment not allowed"
  else if maxNameBytes < p.utf8ByteSize then .error p
  else if p = reservedTmp then .error "reserved name"
  else .ok p

def normalizeRelPath (raw : String) : Except String String :=
  let t := Text.trim raw
  if t = "" then .ok ""
  else if t.toList.any (fun c => c.toNat = 0 || c = '\\') then
    .error "NUL or backslash not allowed"
  else do
    let out ← ((Text.split '/' t).filter (· ≠ "")).mapM checkSegment
    if maxPathComponents < out.length then .error "path too deep"
    else .ok ("/".intercalate out)

/-- What the client uploads a file for: a path in the storage, or a version of a project. -/
inductive Purpose
  | storage (remoteRel : String)
  | deploy (version : String) (manifestToml : Option String)
  deriving DecidableEq, Repr

namespace Purpose

def service : Purpose → Service
  | storage _ => .storage
  | deploy .. => .deploy

/-- What the session is for. The client trims the path and the version, and the server the path
again. -/
def target (projectId : String) : Purpose → Target
  | storage p => .storage (Text.trim (Text.trim p))
  | deploy v m => .deploy projectId (Text.trim v) m

end Purpose

/-- A local file, and the pieces in which it is read with a buffer of some size from some place on.
Only at its end is a piece empty. -/
structure LocalFile where
  data : Bytes
  reads : (buffer offset : ℕ) → List Bytes
  whole : ∀ buffer offset, 0 < buffer → (reads buffer offset).flatten = data.drop offset
  nonempty : ∀ buffer offset, ∀ p ∈ reads buffer offset, p ≠ []
  fits : ∀ buffer offset, 0 < buffer → ∀ p ∈ reads buffer offset, p.length ≤ buffer

structure Upload where
  purpose : Purpose
  caller : Caller
  file : LocalFile

/-- The server, and the network: `lost j k` is the error that the client has of attempt `k` at its
request `j` if the answer is lost. -/
structure Setting where
  ttlSecs : UInt64
  digest : Bytes → String
  /-- The longest file. -/
  limit : ℕ
  chunkBytes : ℕ
  root : Root
  /-- The identifiers of the sessions, in the order in which they are drawn. -/
  uuid : ℕ → String
  /-- The time at which the server handles its requests, one after the other. -/
  clock : ℕ → Int64
  /-- The address of the sessions. -/
  sessionsUrl : String
  lost : ℕ → ℕ → Option SendError

/-- The sessions that the server has created, and how many requests it has handled. -/
structure World where
  sessions : List Sys
  handled : ℕ

variable (cfg : Setting) (u : Upload)

def Upload.config : Config := ⟨u.purpose.service,cfg.ttlSecs,cfg.digest⟩

structure CreateOut where
  uploadId : ℕ
  chunkBytes : ℕ
  receivedBytes : ℕ
  deriving DecidableEq, Repr

def checkSize : Except ApiError Unit :=
  if u.file.data.length = 0 || cfg.limit < u.file.data.length then
    .error (badRequest (match u.purpose with
      | .storage _ => "file_bytes must be between 1 and "++cfg.limit.repr++" (per-file cap)"
      | .deploy .. => "artifact_bytes must be between 1 and "++cfg.limit.repr))
  else .ok ()

def checkFileSha256 : Except ApiError Unit :=
  if !isSha256Hex (cfg.digest u.file.data) then
    .error (badRequest (match u.purpose with
      | .storage _ => "file_sha256 must be a 64-char hex string"
      | .deploy .. => "artifact_sha256 must be a 64-char hex string"))
  else .ok ()

def checkPurpose : Purpose → Except ApiError Unit
  | .storage p =>
    match normalizeRelPath (Text.trim p) with
    | .error e => .error (badRequest e)
    | .ok rel => if rel = "" then .error (badRequest "path required for upload session") else .ok ()
  | .deploy v _ => (Deploy.validateVersion (Text.trim v)).mapError badRequest

/-- The tests of `api_storage_upload_session_create` and `api_deploy_artifact_session_create`. -/
def checkCreate : Except ApiError Unit := do
  admitCaller u.purpose.service u.caller
  storageCfg u.purpose.service cfg.root
  match u.purpose with
  | .storage _ =>
    checkSize cfg u
    checkFileSha256 cfg u
    checkPurpose u.purpose
  | .deploy .. =>
    checkPurpose u.purpose
    checkSize cfg u
    checkFileSha256 cfg u

/-- `api_storage_upload_session_create`, `api_deploy_artifact_session_create`. Before each request
the server also forgets the expired sessions of others, which changes nothing that is in use or has
been taken over. -/
def uploadSessionCreate (now : Int64) (sessions : List Sys) :
    List Sys × Except ApiError CreateOut :=
  match checkCreate cfg u with
  | .error e => (sessions,.error e)
  | .ok () =>
    (sessions++[.create (u.purpose.target u.caller.projectId) u.file.data.length
      (Text.toAsciiLowercase (cfg.digest u.file.data)) now],.ok ⟨sessions.length,cfg.chunkBytes,0⟩)

/-! A request for a session. -/

def Sys.answer (s : Sys) (i : ℕ) : Option Answer :=
  match s.tasks[i]? with
  | some (.answered a) => some a
  | _ => none

/-- Request `i` goes on until it is answered, for at most `n` steps; no operation fails. -/
def Sys.drive (cfg : Config) (now : Int64) (i : ℕ) : ℕ → Sys → Option (Sys × Answer)
  | 0,s => (s.answer i).map (fun a => (s,a))
  | n+1,s =>
    match s.answer i with
    | some a => some (s,a)
    | none => s.tasks[i]?.bind (fun t =>
        (s.step cfg (.act i (t.wants now (.ok ())))).bind (Sys.drive cfg now i n))

/-- A request comes and is answered; none takes more than ten steps. -/
def Sys.serve (cfg : Config) (now : Int64) (r : Request) (s : Sys) : Option (Sys × Answer) :=
  (s.step cfg (.request r)).bind (Sys.drive cfg now s.tasks.length 10)

def serveSession (cfg : Config) (id : ℕ) (r : Request) (now : Int64) (sessions : List Sys) :
    Option (List Sys × Answer) :=
  sessions[id]?.bind (fun s => (s.serve cfg now r).map (fun (s',a) => (sessions.set id s',a)))

/-! The client. -/

/-- What reaches the client of an answer. -/
def delivered {α : Type} (a : Except ApiError α) : Option SendError → Reply α
  | some e => .error e
  | none => .ok a

/-- Attempt `k` at request `j`: the server handles it, and the client takes the answer if it is not
lost. -/
def ask {α : Type} (cfg : Setting) (j : ℕ)
    (handle : Int64 → List Sys → Option (List Sys × Except ApiError α))
    (read : Reply α → Trial String α) (k : ℕ) (w : World) : Option (World × Trial String α) :=
  (handle (cfg.clock w.handled) w.sessions).map (fun (sessions,a) =>
    (⟨sessions,w.handled+1⟩,read (delivered a (cfg.lost j k))))

namespace Service

def client : Service → String
  | storage => "storage session "
  | deploy => "deploy-artifact session "

def creating : Service → String
  | storage => "storage upload-sessions create"
  | deploy => "deploy-artifact session create"

def sessionsMissing : String :=
  "storage resumable upload API (POST /api/v1/storage/upload-sessions) is not available; "++
    "upgrade control-api, or set a lower max upload / split the file"

end Service

namespace Upload
variable (cfg : Setting) (u : Upload)

def readCreate : Reply CreateOut → Trial String CreateOut
  | .ok (.error e) =>
    if u.purpose.service = .storage && e.status = 404 then .stop Service.sessionsMissing
    else readReply u.purpose.service.creating "" 500 cfg.sessionsUrl (.ok (.error e))
  | reply => readReply u.purpose.service.creating "" 500 cfg.sessionsUrl reply

def createOnce : ℕ → World → Option (World × Trial String CreateOut) :=
  ask cfg 0 (fun now sessions => some (uploadSessionCreate cfg u now sessions)) (u.readCreate cfg)

def sessionUrl (id : ℕ) : String := cfg.sessionsUrl++"/"++Text.trim (cfg.uuid id)

def chunkRequest (offset : ℕ) (chunk : Bytes) : Request :=
  .chunk ⟨u.caller,some offset.repr,some (some (cfg.digest chunk)),chunk⟩

def chunkOnce (id j offset : ℕ) (chunk : Bytes) : ℕ → World → Option (World × Trial String Done) :=
  ask cfg j (serveSession (u.config cfg) id (u.chunkRequest cfg offset chunk))
    (readReply (u.purpose.service.client++"chunk") (" at offset "++offset.repr) 240
      (sessionUrl cfg id++"/chunk?offset="++offset.repr))

def completeOnce (id j : ℕ) : ℕ → World → Option (World × Trial String Done) :=
  ask cfg j (serveSession (u.config cfg) id (.complete u.caller cfg.root))
    (readReply (u.purpose.service.client++"complete") "" 500 (sessionUrl cfg id++"/complete"))

/-- The loop over the chunks; request `j` is the next one. The result is the number of the one that
follows. -/
def sendChunks (id : ℕ) : List Bytes → (j offset : ℕ) → World → Option (World × Except String ℕ)
  | [],j,_,w => some (w,.ok j)
  | chunk::chunks,j,offset,w =>
    if offset < u.file.data.length then
      proceed (attempts (u.chunkOnce cfg id j offset chunk)
        (u.purpose.service.client++"chunk failed after retries") 0 5 w) (fun done w =>
        match done with
        | .received bytes =>
          if bytes < offset then
            some (w,.error (u.purpose.service.client++"chunk regressed received_bytes="++bytes.repr++
              " < offset="++offset.repr))
          else sendChunks id chunks (j+1) bytes w
        -- the answer to another request: it lacks the field
        | _ => some (w,.error (u.purpose.service.client++"chunk JSON")))
    else some (w,.ok j)

/-- `control_api_storage_upload_resumable`, `control_api_deploy_artifact_session_chunked`. -/
def run (w : World) : Option (World × Except String Done) :=
  proceed (attempts (u.createOnce cfg) (u.purpose.service.client++"create failed after retries") 0 5 w)
    (fun out w =>
      if Text.trim (cfg.uuid out.uploadId) = "" then
        some (w,.error (u.purpose.service.client++"create returned empty upload_id"))
      else if u.file.data.length < out.receivedBytes then
        some (w,.error (match u.purpose with
          | .storage _ => "storage session create: received_bytes="++out.receivedBytes.repr++
              " > file size "++u.file.data.length.repr
          | .deploy .. => "deploy-artifact session create returned received_bytes="++
              out.receivedBytes.repr++" > artifact_bytes="++u.file.data.length.repr))
      else
        proceed (u.sendChunks cfg out.uploadId
          (u.file.reads (if out.chunkBytes = 0 then 1024*1024 else out.chunkBytes)
            out.receivedBytes)
          1 out.receivedBytes w) (fun j w =>
          attempts (u.completeOnce cfg out.uploadId j)
            (u.purpose.service.client++"complete failed after retries") 0 5 w))

end Upload

/-! What has been taken over: the files of the storage, and what the deploy server has accepted. -/

def takenOver (x : Slot) (sent : Option Bytes) : List Bytes :=
  (if x.place = .committed then [x.data] else [])++sent.toList

def Sys.commits (s : Sys) : List Bytes := takenOver s.slot s.streamed

def World.commits (w : World) : List Bytes := w.sessions.flatMap Sys.commits

/-! A timeout is a reason to make a request again. -/

variable {a b : String}

lemma isRetryable_of_infix (hab : a.toList <:+: b.toList)
    (h : isRetryableUploadError a = true) : isRetryableUploadError b = true := by
  obtain ⟨part,hpart,hcontains⟩ := List.any_eq_true.mp h
  refine List.any_eq_true.mpr ⟨part,hpart,?_⟩
  simp only [Text.contains,Text.toAsciiLowercase,String.toList_ofList,decide_eq_true_eq]
    at hcontains ⊢
  exact hcontains.trans (hab.map _)

lemma isRetryable_left (b : String) (h : isRetryableUploadError a = true) :
    isRetryableUploadError (a++b) = true :=
  isRetryable_of_infix (by simpa using (List.prefix_append _ _).isInfix) h

lemma isRetryable_right (a : String) (h : isRetryableUploadError b = true) :
    isRetryableUploadError (a++b) = true :=
  isRetryable_of_infix (by simpa using (List.suffix_append _ _).isInfix) h

lemma isRetryable_hint {e : SendError} (htimeout : e.isTimeout = true)
    (hconnect : e.isConnect = false) :
    isRetryableUploadError e.hint = true := by
  unfold SendError.hint
  simp only [hconnect,htimeout,Bool.false_eq_true,if_false,if_true]
  split_ifs
  · exact isRetryable_left _ (isRetryable_left _ (isRetryable_right _ (by decide +kernel)))
  · exact isRetryable_left _ (by decide +kernel)

lemma isRetryable_timeout {e : SendError} (url : String) (htimeout : e.isTimeout = true)
    (hconnect : e.isConnect = false) : isRetryableUploadError (fmtReqwestSendErr e url) = true := by
  have h : isRetryableUploadError (e.message++e.hint) = true :=
    isRetryable_right e.message (isRetryable_hint htimeout hconnect)
  unfold fmtReqwestSendErr
  simp only
  split_ifs
  · exact h
  · exact isRetryable_left _ h

end PirateServer.UploadSession
