import PirateServer.Deploy.Layout
import PirateServer.Lib.Census
import PirateServer.Lib.Run
import PirateServer.Lib.Wrapping

/-! The resumable uploads of the control service: a file is sent in chunks to a temporary file and
taken over when it is complete. The handlers for the file storage and for artifacts differ in their
texts and in what becomes of the file. Sessions share only the lock of their table, so this is one
session with any number of requests. A step is what a request does under the lock, or one operation
on the file. -/
namespace PirateServer.UploadSession
open Lib Option

abbrev Bytes := List UInt8

inductive Service
  | storage
  | deploy
  deriving DecidableEq, Repr

structure ApiError where
  status : ℕ
  code : String
  message : String
  deriving DecidableEq, Repr

def badRequest (message : String) : ApiError := ⟨400,"bad_request",message⟩

def unauthorized (message : String) : ApiError := ⟨401,"unauthorized",message⟩

def internal (message : String) : ApiError := ⟨500,"internal",message⟩

def serviceUnavailable (message : String) : ApiError := ⟨503,"service_unavailable",message⟩

namespace Service

def session : Service → String
  | storage => "storage upload session"
  | deploy => "upload session"

def bytesField : Service → String
  | storage => "file_bytes"
  | deploy => "artifact_bytes"

def file : Service → String
  | storage => "storage session "
  | deploy => "artifact "

def mismatch : Service → String
  | storage => "file sha256 mismatch at complete step"
  | deploy => "artifact sha256 mismatch at complete step"

end Service

/-- What a complete file is for. -/
inductive Target
  | storage (relPath : String)
  | deploy (projectId version : String) (manifestToml : Option String)
  deriving DecidableEq, Repr

/-- `StorageUploadSessionState` and `DeployUploadSessionState`, without the path of the temporary
file. -/
structure Session where
  target : Target
  fileBytes : ℕ
  fileSha256 : String
  receivedBytes : ℕ
  updatedAtMs : Int64
  deriving DecidableEq, Repr

structure Config where
  service : Service
  ttlSecs : UInt64
  /-- The SHA-256 hash in lower-case hexadecimal. -/
  digest : Bytes → String

/-- `session_is_expired_ms`, `session_is_expired`. -/
def sessionIsExpired (cfg : Config) (sess : Session) (now : Int64) : Bool :=
  Wrapping.saturate (cfg.ttlSecs.toInt64.toInt*1000) <
    Wrapping.saturate (now.toInt-sess.updatedAtMs.toInt)

def isSha256Hex (s : String) : Bool :=
  s.utf8ByteSize = 64 && s.toList.all (fun c => (Text.hexDigitValue c).isSome)

/-- Who sends a request: the result of `check_api_bearer`, and the project of the path. -/
structure Caller where
  authorized : Bool
  projectId : String
  deriving DecidableEq, Repr

structure ChunkRequest where
  caller : Caller
  /-- The parameter `offset`. -/
  offset : Option String
  /-- The header `x-chunk-sha256`, which need not be text. -/
  sha256 : Option (Option String)
  body : Bytes
  deriving DecidableEq, Repr

/-- The root of the storage, as `storage_cfg` finds it. -/
inductive Root
  | missing
  | noDirectory
  | directory
  deriving DecidableEq, Repr

inductive Request
  | chunk (r : ChunkRequest)
  | complete (caller : Caller) (root : Root)
  | delete (caller : Caller)
  deriving DecidableEq, Repr

def admitCaller (v : Service) (c : Caller) : Except ApiError Unit :=
  if !c.authorized then .error (unauthorized "missing or invalid Authorization Bearer token")
  else
    match v with
    | .storage => .ok ()
    | .deploy => (Deploy.validateProjectId c.projectId).mapError badRequest

def storageCfg (v : Service) (root : Root) : Except ApiError Unit :=
  match v,root with
  | .deploy,_ | .storage,.directory => .ok ()
  | .storage,.missing =>
    .error (serviceUnavailable "Pirate storage is not configured (PIRATE_STORAGE_ROOT)")
  | .storage,.noDirectory => .error (serviceUnavailable
      "Pirate storage root is not a directory; create PIRATE_STORAGE_ROOT on the host")

def parseOffset (offset : Option String) : Except ApiError ℕ :=
  match offset with
  | none => .error (badRequest "missing query parameter `offset`")
  | some text =>
    match Text.parseUnsigned 64 text with
    | none => .error (badRequest "invalid query parameter `offset`")
    | some n => .ok n

/-- `u64::saturating_add`. -/
def saturatingAdd (a b : ℕ) : ℕ := min (a+b) (2^64-1)

def invalidOffset (current offset : ℕ) : ApiError :=
  badRequest ("invalid offset: expected current="++current.repr++" got offset="++offset.repr)

variable (cfg : Config)

def checkSha256 (r : ChunkRequest) : Except ApiError Unit :=
  match r.sha256 with
  | none => .ok ()
  | some none => .error (badRequest "invalid x-chunk-sha256 header")
  | some (some expected) =>
    if !isSha256Hex expected then
      .error (badRequest "x-chunk-sha256 must be a 64-char hex string")
    else if cfg.digest r.body ≠ Text.toAsciiLowercase expected then
      .error (badRequest "x-chunk-sha256 mismatch")
    else .ok ()

/-- The tests of a chunk against the snapshot of the session; the result is `next`. -/
def checkChunk (snapshot : Session) (offset : ℕ) (r : ChunkRequest) :
    Except ApiError ℕ :=
  if offset ≠ snapshot.receivedBytes then .error (invalidOffset snapshot.receivedBytes offset)
  else if r.body = [] then .error (badRequest "chunk body must not be empty")
  else
    let next := saturatingAdd offset r.body.length
    if snapshot.fileBytes < next then
      .error (badRequest ("chunk exceeds declared "++cfg.service.bytesField++" (declared="++
        snapshot.fileBytes.repr++", attempted_end="++next.repr++")"))
    else (checkSha256 cfg r).map (fun _ => next)

/-- A chunk that has passed the tests. -/
structure Passed where
  offset : ℕ
  next : ℕ
  body : Bytes
  deriving DecidableEq, Repr

inductive Done
  | received (bytes : ℕ)
  | committed (bytes : ℕ)
  | deployed
  | deleted
  deriving DecidableEq, Repr

abbrev Answer := Except ApiError Done

/-- How far a request is: before and after the sweep of expired sessions; with a file to be removed
before the answer; a chunk before the file is opened, while its body is written, and before the
counter is updated; a complete session, taken out of the table, while its file is read, when the
digest is right, around the renaming; or while it is sent to the deploy server, and after that. -/
inductive Task
  | arrived (r : Request)
  | sweeping (r : Request)
  | swept (r : Request)
  | dropping (a : Answer)
  | opening (c : Passed)
  | writing (c : Passed) (rest : Bytes)
  | updating (c : Passed)
  | taken (sess : Session)
  | hashing (sess : Session) (read : Bytes)
  | checked (sess : Session)
  | committing (sess : Session) (bytes : ℕ)
  | reconciling (bytes : ℕ)
  | streaming (sess : Session) (sent : Bytes)
  | replying (sent : Bytes) (last : Bool)
  | answered (a : Answer)
  deriving DecidableEq, Repr

inductive Place
  | temporary
  | committed
  | removed
  deriving DecidableEq, Repr

/-- The entry of the table, and the file that was made for it, which an open handle reaches
wherever it is. -/
structure Slot where
  session : Option Session
  place : Place
  data : Bytes
  deriving DecidableEq, Repr

/-- `remove_file` on the path of the temporary file. -/
def Slot.unlink (x : Slot) : Slot :=
  { x with place := if x.place = .temporary then .removed else x.place }

def unknownSession (v : Service) : ApiError := badRequest ("unknown "++v.session)

def expiredSession (v : Service) : ApiError := badRequest (v.session++" expired")

def foreignSession : ApiError := badRequest "upload session does not belong to project"

/-- Is a session for a project; those of the storage have none. -/
def Target.belongsTo (projectId : String) : Target → Bool
  | storage _ => true
  | deploy p _ _ => p = projectId

/-! What a request does while it holds the lock: the entry that it leaves, and where it goes on. -/

/-- `cleanup_expired_storage_upload_sessions`, `cleanup_expired_upload_sessions`. -/
def lockSweep (now : Int64) (r : Request) : Option Session → Option Session × Task
  | some sess => if sessionIsExpired cfg sess now then (none,.sweeping r) else (some sess,.swept r)
  | none => (none,.swept r)

/-- The first part of `api_storage_upload_session_chunk`, `api_deploy_artifact_session_chunk`. -/
def lockChunk (now : Int64) (r : ChunkRequest) (session : Option Session) :
    Option Session × Task :=
  match admitCaller cfg.service r.caller with
  | .error e => (session,.answered (.error e))
  | .ok () =>
    match parseOffset r.offset with
    | .error e => (session,.answered (.error e))
    | .ok offset =>
      match session with
      | none => (none,.answered (.error (unknownSession cfg.service)))
      | some sess =>
        if !sess.target.belongsTo r.caller.projectId then
          (some sess,.answered (.error foreignSession))
        else if sessionIsExpired cfg sess now then
          (none,.dropping (.error (expiredSession cfg.service)))
        else
          match checkChunk cfg sess offset r with
          | .error e => (some sess,.answered (.error e))
          | .ok next => (some sess,.opening ⟨offset,next,r.body⟩)

/-- The last part of the same handlers. -/
def lockUpdate (now : Int64) (c : Passed) : Option Session → Option Session × Task
  | none => (none,.answered (.error (unknownSession cfg.service)))
  | some sess =>
    if sess.receivedBytes ≠ c.offset then
      (some sess,.answered (.error (invalidOffset sess.receivedBytes c.offset)))
    else
      (some { sess with receivedBytes := c.next, updatedAtMs := now },
        .answered (.ok (.received c.next)))

/-- The first part of `api_storage_upload_session_complete`,
`api_deploy_artifact_session_complete`. -/
def lockComplete (now : Int64) (caller : Caller) (root : Root)
    (session : Option Session) : Option Session × Task :=
  match admitCaller cfg.service caller with
  | .error e => (session,.answered (.error e))
  | .ok () =>
    match storageCfg cfg.service root with
    | .error e => (session,.answered (.error e))
    | .ok () =>
      match session with
      | none => (none,.answered (.error (unknownSession cfg.service)))
      | some sess =>
        if !sess.target.belongsTo caller.projectId then (none,.dropping (.error foreignSession))
        else if sessionIsExpired cfg sess now then
          (none,.dropping (.error (expiredSession cfg.service)))
        else if sess.receivedBytes ≠ sess.fileBytes then
          (none,.dropping (.error (badRequest ("upload incomplete: received="++
            sess.receivedBytes.repr++" expected="++sess.fileBytes.repr))))
        else (none,.taken sess)

/-- `api_storage_upload_session_delete`, `api_deploy_artifact_session_delete`. The session of
another project is gone as well, but its file is left. -/
def lockDelete (caller : Caller) (session : Option Session) : Option Session × Task :=
  match admitCaller cfg.service caller with
  | .error e => (session,.answered (.error e))
  | .ok () =>
    match session with
    | none => (none,.answered (.ok .deleted))
    | some sess =>
      if !sess.target.belongsTo caller.projectId then (none,.answered (.error foreignSession))
      else (none,.dropping (.ok .deleted))

def locked (now : Int64) : Task → Option Session → Option (Option Session × Task)
  | .arrived r,session => some (lockSweep cfg now r session)
  | .swept (.chunk r),session => some (lockChunk cfg now r session)
  | .swept (.complete caller root),session => some (lockComplete cfg now caller root session)
  | .swept (.delete caller),session => some (lockDelete cfg caller session)
  | .updating c,session => some (lockUpdate cfg now c session)
  | _,_ => none

/-! Operations on the file. -/

def maxFileBytes : ℕ := 2^63-1

/-- What comes next of a file when `sofar` has been read. -/
def nextPiece (data sofar : Bytes) (n : ℕ) : Bytes := (data.drop sofar.length).take (n+1)

/-- An operation succeeds, with `n+1` bytes at most if it reads or writes, or it fails. The result
of a removal is not looked at. -/
def operated (outcome : Except String ℕ) (x : Slot) : Task → Option (Slot × Task)
  | .sweeping r =>
    match outcome with
    | .ok _ => some (x.unlink,.swept r)
    | .error _ => some (x,.swept r)
  | .dropping a =>
    match outcome with
    | .ok _ => some (x.unlink,.answered a)
    | .error _ => some (x,.answered a)
  | .opening c =>
    match outcome with
    | .ok _ => if x.place = .temporary then some (x,.writing c c.body) else none
    | .error e => some (x,.answered (.error (internal (cfg.service.file++"append open: "++e))))
  | .writing c [] =>
    match outcome with
    | .ok _ => some (x,.updating c)
    | .error e => some (x,.answered (.error (internal (cfg.service.file++"append fsync: "++e))))
  | .writing c (b::rest) =>
    match outcome with
    | .ok n =>
      if x.data.length+((b::rest).take (n+1)).length ≤ maxFileBytes then
        some ({ x with data := x.data++(b::rest).take (n+1) },.writing c ((b::rest).drop (n+1)))
      else none
    | .error e => some (x,.answered (.error (internal (cfg.service.file++"append write: "++e))))
  | .taken sess =>
    match outcome with
    | .ok _ => if x.place = .temporary then some (x,.hashing sess []) else none
    | .error e => some (x,.answered (.error (internal (cfg.service.file++"open for sha256: "++e))))
  | .hashing sess read =>
    match outcome with
    | .ok n =>
      if nextPiece x.data read n ≠ [] then some (x,.hashing sess (read++nextPiece x.data read n))
      else if cfg.digest read ≠ sess.fileSha256 then
        some (x,.dropping (.error (badRequest cfg.service.mismatch)))
      else some (x,.checked sess)
    | .error e => some (x,.answered (.error (internal (cfg.service.file++"read for sha256: "++e))))
  | .committing _ bytes =>
    match outcome with
    | .ok _ =>
      if x.place = .temporary then some ({ x with place := .committed },
        .reconciling bytes) else none
    | .error e => some (x,.dropping (.error (internal e)))
  | .streaming sess sent =>
    match outcome with
    | .ok n =>
      if nextPiece x.data sent n = [] then some (x,.replying sent false)
      else if (sent++nextPiece x.data sent n).length = sess.fileBytes then
        some (x,.replying (sent++nextPiece x.data sent n) true)
      else some (x,.streaming sess (sent++nextPiece x.data sent n))
    | .error _ => some (x,.replying sent false)
  | _ => none

/-- What `commit_uploaded_temp_file` finds before and after it renames the file, or the connection
to the deploy server and its answer. The deploy server accepts no upload without a last chunk. -/
def judged (verdict : Except ApiError Unit) (x : Slot) : Task → Option Task
  | .checked sess =>
    match verdict,cfg.service with
    | .error e,_ => some (.dropping (.error e))
    | .ok _,.storage => some (.committing sess x.data.length)
    | .ok _,.deploy => if x.place = .temporary then some (.streaming sess []) else none
  | .reconciling bytes =>
    match verdict with
    | .error e => some (.dropping (.error e))
    | .ok _ => some (.answered (.ok (.committed bytes)))
  | .replying _ last =>
    match verdict with
    | .error e => some (.dropping (.error e))
    | .ok _ => if last then some (.dropping (.ok .deployed)) else none
  | _ => none

/-- The session and its file, the requests, and what the program has no use for: the bodies of the
chunks that were answered with success, what the file was when it was renamed, and what was sent to
the deploy server when it accepted. -/
structure Sys where
  slot : Slot
  tasks : List Task
  accepted : List Bytes
  renamed : Option Bytes
  streamed : Option Bytes
  deriving DecidableEq, Repr

inductive Act
  | lock (now : Int64)
  | file (outcome : Except String ℕ)
  | judge (verdict : Except ApiError Unit)
  deriving DecidableEq

inductive Label
  | request (r : Request)
  | act (i : ℕ) (a : Act)
  deriving DecidableEq

def turned (x : Slot) (t : Task) : Act → Option (Slot × Task)
  | .lock now => (locked cfg now t x.session).map (fun (session,t') =>
      ({ x with session := session },t'))
  | .file outcome => operated cfg outcome x t
  | .judge verdict => (judged cfg verdict x t).map (fun t' => (x,t'))

def Sys.create (target : Target) (fileBytes : ℕ) (fileSha256 : String) (now : Int64) : Sys :=
  ⟨⟨some ⟨target,fileBytes,fileSha256,0,now⟩,.temporary,[]⟩,[],[],none,none⟩

def Task.acceptedBy : Task → Task → List Bytes
  | updating c,answered (.ok _) => [c.body]
  | _,_ => []

def Task.renames (x : Slot) : Task → Task → Option Bytes
  | committing _ _,reconciling _ => some x.data
  | _,_ => none

def Task.delivers : Task → Task → Option Bytes
  | replying sent _,dropping (.ok _) => some sent
  | _,_ => none

namespace Sys

/-- A request goes on from `t` to `t'`. -/
def turn (s : Sys) (i : ℕ) (t : Task) (x : Slot) (t' : Task) : Sys where
  slot := x
  tasks := s.tasks.set i t'
  accepted := s.accepted++t.acceptedBy t'
  renamed := (t.renames s.slot t').or s.renamed
  streamed := (t.delivers t').or s.streamed

def step (cfg : Config) (s : Sys) : Label → Option Sys
  | .request r => some { s with tasks := s.tasks++[.arrived r] }
  | .act i a => s.tasks[i]?.bind (fun t =>
      (turned cfg s.slot t a).map (fun (x,t') => s.turn i t x t'))

end Sys

/-! What one request does in a step. -/

namespace Task

/-- Has not begun, or is over. -/
def waits : Task → Bool
  | arrived _ | swept _ | answered _ => true
  | _ => false

/-- Has passed the tests of a chunk and is not over. -/
def busy : Task → Bool
  | opening _ | writing .. | updating _ => true
  | _ => false

def closes : Task → Bool
  | sweeping _ | dropping _ | taken _ | hashing .. | checked _ | committing .. | reconciling _
  | streaming .. | replying .. => true
  | _ => false

def succeeds : Task → Bool
  | answered (.ok (.received _)) | answered (.ok (.committed _)) | answered (.ok .deployed)
  | dropping (.ok (.committed _)) | dropping (.ok .deployed) => true
  | _ => false

end Task

inductive Turn (cfg : Config) (x : Slot) : Act → Task → Slot → Task → Prop
  | wait {now t t'} (before : t.waits = true) (after : t'.waits = true) (fails : t'.succeeds = false) :
      Turn cfg x (.lock now) t x t'
  | dismiss {now t t'} (before : t.waits = true) (after : t'.waits = true ∨
      (∃ r, t' = .sweeping r) ∨ ∃ b, t' = .dropping b) (fails : t'.succeeds = false) :
      Turn cfg x (.lock now) t { x with session := none } t'
  | pass {now r sess c} (found : x.session = some sess)
      (passed : checkChunk cfg sess c.offset r = .ok c.next) (body : c.body = r.body)
      (looked : lockChunk cfg now r x.session = (x.session,.opening c)) :
      Turn cfg x (.lock now) (.swept (.chunk r)) x (.opening c)
  | start {n c} (there : x.place = .temporary) :
      Turn cfg x (.file (.ok n)) (.opening c) x (.writing c c.body)
  | write {n c rest} (more : rest ≠ []) (fits : x.data.length+(rest.take (n+1)).length ≤ maxFileBytes) :
      Turn cfg x (.file (.ok n)) (.writing c rest) { x with data := x.data++rest.take (n+1) }
        (.writing c (rest.drop (n+1)))
  | sync {n c} : Turn cfg x (.file (.ok n)) (.writing c []) x (.updating c)
  | quit {error t e} (before : (∃ c, t = .opening c) ∨ ∃ c rest, t = .writing c rest) :
      Turn cfg x (.file (.error error)) t x (.answered (.error e))
  | late {now c e} (differ : ∀ sess, x.session = some sess → sess.receivedBytes ≠ c.offset) :
      Turn cfg x (.lock now) (.updating c) x (.answered (.error e))
  | update {now c sess} (found : x.session = some sess) (same : sess.receivedBytes = c.offset) :
      Turn cfg x (.lock now) (.updating c)
        { x with session := some { sess with receivedBytes := c.next, updatedAtMs := now } }
        (.answered (.ok (.received c.next)))
  | take {now caller root sess} (found : x.session = some sess)
      (whole : sess.receivedBytes = sess.fileBytes)
      (looked : lockComplete cfg now caller root x.session = (none,.taken sess)) :
      Turn cfg x (.lock now) (.swept (.complete caller root)) { x with session := none }
        (.taken sess)
  | hash {n sess} : Turn cfg x (.file (.ok n)) (.taken sess) x (.hashing sess [])
  | read {n sess read} : Turn cfg x (.file (.ok n)) (.hashing sess read) x
      (.hashing sess (read++nextPiece x.data read n))
  | check {n sess read} (ended : nextPiece x.data read n = [])
      (same : cfg.digest read = sess.fileSha256) :
      Turn cfg x (.file (.ok n)) (.hashing sess read) x (.checked sess)
  | commit {verdict sess} :
      Turn cfg x (.judge verdict) (.checked sess) x (.committing sess x.data.length)
  | rename {n sess bytes} (there : x.place = .temporary) :
      Turn cfg x (.file (.ok n)) (.committing sess bytes) { x with place := .committed }
        (.reconciling bytes)
  | finish {verdict bytes} :
      Turn cfg x (.judge verdict) (.reconciling bytes) x (.answered (.ok (.committed bytes)))
  | stream {verdict sess} : Turn cfg x (.judge verdict) (.checked sess) x (.streaming sess [])
  | send {n sess sent} : Turn cfg x (.file (.ok n)) (.streaming sess sent) x
      (.streaming sess (sent++nextPiece x.data sent n))
  | last {n sess sent} (whole : (sent++nextPiece x.data sent n).length = sess.fileBytes) :
      Turn cfg x (.file (.ok n)) (.streaming sess sent) x
        (.replying (sent++nextPiece x.data sent n) true)
  | cut {outcome sess sent} :
      Turn cfg x (.file outcome) (.streaming sess sent) x (.replying sent false)
  | deliver {verdict sent} :
      Turn cfg x (.judge verdict) (.replying sent true) x (.dropping (.ok .deployed))
  | abandon {a t t' e} (before : t.closes = true) (after : t' = .dropping (.error e) ∨
      t' = .answered (.error e)) : Turn cfg x a t x t'
  | unlink {outcome t t' y} (gone : y = x ∨ y = x.unlink)
      (move : (∃ r, t = .sweeping r ∧ t' = .swept r) ∨ ∃ a, t = .dropping a ∧ t' = .answered a) :
      Turn cfg x (.file outcome) t y t'

variable {cfg : Config} {x y : Slot} {t t' : Task} {a : Act} {now : Int64}

lemma turn_lockSweep {r : Request} (h : turned cfg x (.arrived r) (.lock now) = some (y,t')) :
    Turn cfg x (.lock now) (.arrived r) y t' := by
  obtain ⟨session,place,data⟩ := x
  cases session with
  | none =>
    cases h
    exact .wait rfl rfl rfl
  | some sess =>
    simp only [turned,locked,lockSweep,map_some] at h
    split_ifs at h
    · cases h
      exact .dismiss rfl (.inr (.inl ⟨_,rfl⟩)) rfl
    · cases h
      exact .wait rfl rfl rfl

lemma turn_lockChunk {r : ChunkRequest}
    (h : turned cfg x (.swept (.chunk r)) (.lock now) = some (y,t')) :
    Turn cfg x (.lock now) (.swept (.chunk r)) y t' := by
  obtain ⟨session,place,data⟩ := x
  simp only [turned,locked,map_some,Option.some.injEq] at h
  cases hlook : lockChunk cfg now r session with
  | mk session' u =>
    rw [hlook] at h
    cases h
    have hlooked := hlook
    unfold lockChunk at hlook
    split at hlook
    · cases hlook
      exact .wait rfl rfl rfl
    split at hlook
    · cases hlook
      exact .wait rfl rfl rfl
    split at hlook
    · cases hlook
      exact .wait rfl rfl rfl
    split_ifs at hlook
    · cases hlook
      exact .wait rfl rfl rfl
    · cases hlook
      exact .dismiss rfl (.inr (.inr ⟨_,rfl⟩)) rfl
    split at hlook
    · cases hlook
      exact .wait rfl rfl rfl
    · rename_i hcheck
      cases hlook
      exact .pass rfl hcheck rfl hlooked

lemma turn_lockUpdate {c : Passed} (h : turned cfg x (.updating c) (.lock now) = some (y,t')) :
    Turn cfg x (.lock now) (.updating c) y t' := by
  obtain ⟨session,place,data⟩ := x
  cases session with
  | none =>
    cases h
    exact .late (by simp)
  | some sess =>
    simp only [turned,locked,lockUpdate,map_some] at h
    split_ifs at h with hsame
    · cases h
      refine .late (fun sess' hsess => ?_)
      cases hsess
      exact hsame
    · cases h
      exact .update rfl (not_not.mp hsame)

lemma turn_lockComplete {caller : Caller} {root : Root}
    (h : turned cfg x (.swept (.complete caller root)) (.lock now) = some (y,t')) :
    Turn cfg x (.lock now) (.swept (.complete caller root)) y t' := by
  obtain ⟨session,place,data⟩ := x
  simp only [turned,locked,map_some,Option.some.injEq] at h
  cases hlook : lockComplete cfg now caller root session with
  | mk session' u =>
    rw [hlook] at h
    cases h
    have hlooked := hlook
    unfold lockComplete at hlook
    split at hlook
    · cases hlook
      exact .wait rfl rfl rfl
    split at hlook
    · cases hlook
      exact .wait rfl rfl rfl
    split at hlook
    · cases hlook
      exact .wait rfl rfl rfl
    split_ifs at hlook with _ _ hwhole
    · cases hlook
      exact .dismiss rfl (.inr (.inr ⟨_,rfl⟩)) rfl
    · cases hlook
      exact .dismiss rfl (.inr (.inr ⟨_,rfl⟩)) rfl
    · cases hlook
      exact .dismiss rfl (.inr (.inr ⟨_,rfl⟩)) rfl
    · cases hlook
      exact .take rfl (not_not.mp hwhole) hlooked

lemma turn_lockDelete {caller : Caller}
    (h : turned cfg x (.swept (.delete caller)) (.lock now) = some (y,t')) :
    Turn cfg x (.lock now) (.swept (.delete caller)) y t' := by
  obtain ⟨session,place,data⟩ := x
  simp only [turned,locked,map_some,Option.some.injEq] at h
  cases hlook : lockDelete cfg caller session with
  | mk session' u =>
    rw [hlook] at h
    cases h
    unfold lockDelete at hlook
    split at hlook
    · cases hlook
      exact .wait rfl rfl rfl
    split at hlook
    · cases hlook
      exact .wait rfl rfl rfl
    split_ifs at hlook
    · cases hlook
      exact .dismiss rfl (.inl rfl) rfl
    · cases hlook
      exact .dismiss rfl (.inr (.inr ⟨_,rfl⟩)) rfl

lemma turn_file {outcome : Except String ℕ} (h : turned cfg x t (.file outcome) = some (y,t')) :
    Turn cfg x (.file outcome) t y t' := by
  simp only [turned] at h
  cases t with
  | arrived r | swept r | updating c | checked sess | reconciling bytes
  | replying sent last | answered a => cases h
  | sweeping r =>
    cases outcome with
    | error e =>
      cases h
      exact .unlink (.inl rfl) (.inl ⟨r,rfl,rfl⟩)
    | ok n =>
      cases h
      exact .unlink (.inr rfl) (.inl ⟨r,rfl,rfl⟩)
  | dropping a =>
    cases outcome with
    | error e =>
      cases h
      exact .unlink (.inl rfl) (.inr ⟨a,rfl,rfl⟩)
    | ok n =>
      cases h
      exact .unlink (.inr rfl) (.inr ⟨a,rfl,rfl⟩)
  | opening c =>
    cases outcome with
    | error e =>
      cases h
      exact .quit (.inl ⟨c,rfl⟩)
    | ok n =>
      simp only [operated] at h
      split_ifs at h with hplace
      cases h
      exact .start hplace
  | writing c rest =>
    cases outcome with
    | error e =>
      cases rest with
      | nil =>
        cases h
        exact .quit (.inr ⟨c,[],rfl⟩)
      | cons b rest =>
        cases h
        exact .quit (.inr ⟨c,b::rest,rfl⟩)
    | ok n =>
      cases rest with
      | nil =>
        cases h
        exact .sync
      | cons b rest =>
        simp only [operated] at h
        split_ifs at h with hfits
        cases h
        exact .write (by simp) hfits
  | taken sess =>
    cases outcome with
    | error e =>
      cases h
      exact .abandon rfl (.inr rfl)
    | ok n =>
      simp only [operated] at h
      split_ifs at h
      cases h
      exact .hash
  | hashing sess read =>
    cases outcome with
    | error e =>
      cases h
      exact .abandon rfl (.inr rfl)
    | ok n =>
      simp only [operated] at h
      split_ifs at h with hmore hsame
      · cases h
        exact .read
      · cases h
        exact .abandon rfl (.inl rfl)
      · cases h
        exact .check (not_not.mp hmore) (not_not.mp hsame)
  | committing sess bytes =>
    cases outcome with
    | error e =>
      cases h
      exact .abandon rfl (.inl rfl)
    | ok n =>
      simp only [operated] at h
      split_ifs at h with hplace
      cases h
      exact .rename hplace
  | streaming sess sent =>
    cases outcome with
    | error e =>
      cases h
      exact .cut
    | ok n =>
      simp only [operated] at h
      split_ifs at h with _ hwhole
      · cases h
        exact .cut
      · cases h
        exact .last hwhole
      · cases h
        exact .send

lemma turn_judge {verdict : Except ApiError Unit}
    (h : turned cfg x t (.judge verdict) = some (y,t')) : Turn cfg x (.judge verdict) t y t' := by
  obtain ⟨u,hu,heq⟩ := Option.map_eq_some_iff.mp h
  cases heq
  cases t with
  | checked sess =>
    simp only [judged] at hu
    split at hu
    · cases hu
      exact .abandon rfl (.inl rfl)
    · cases hu
      exact .commit
    · split_ifs at hu
      cases hu
      exact .stream
  | reconciling bytes =>
    cases verdict with
    | error e =>
      cases hu
      exact .abandon rfl (.inl rfl)
    | ok v =>
      cases hu
      exact .finish
  | replying sent last =>
    cases verdict with
    | error e =>
      cases hu
      exact .abandon rfl (.inl rfl)
    | ok v =>
      cases last with
      | false => cases hu
      | true =>
        cases hu
        exact .deliver
  | _ => cases hu

lemma turned_turn (h : turned cfg x t a = some (y,t')) : Turn cfg x a t y t' := by
  cases a with
  | lock now =>
    cases t with
    | arrived r => exact turn_lockSweep h
    | swept r =>
      cases r with
      | chunk r => exact turn_lockChunk h
      | complete caller root => exact turn_lockComplete h
      | delete caller => exact turn_lockDelete h
    | updating c => exact turn_lockUpdate h
    | _ => cases h
  | file outcome => exact turn_file h
  | judge verdict => exact turn_judge h

lemma step_turn {s s' : Sys} {l : Label} (h : s.step cfg l = some s') :
    (∃ r, l = .request r ∧ s' = { s with tasks := s.tasks++[.arrived r] }) ∨
      ∃ i a t x t', l = .act i a ∧ s.tasks[i]? = some t ∧ Turn cfg s.slot a t x t' ∧
        s' = s.turn i t x t' := by
  cases l with
  | request r =>
    cases h
    exact .inl ⟨r,rfl,rfl⟩
  | act i a =>
    obtain ⟨t,ht,hturn⟩ := Option.bind_eq_some_iff.mp h
    obtain ⟨⟨x,t'⟩,hx,rfl⟩ := Option.map_eq_some_iff.mp hturn
    exact .inr ⟨i,a,t,x,t',rfl,ht,turned_turn hx,rfl⟩

def Sys.orderly (cfg : Config) (s : Sys) : Label → Bool
  | .act i (.lock now) =>
    match s.tasks[i]? with
    | some (.swept (.chunk r)) =>
      !(lockChunk cfg now r s.slot.session).2.busy || s.tasks.all (fun t => !t.busy)
    | _ => true
  | .act i (.file (.error _)) =>
    match s.tasks[i]? with
    | some (.writing c rest) => rest = c.body
    | _ => true
  | _ => true

end PirateServer.UploadSession
