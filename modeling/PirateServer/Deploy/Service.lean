import PirateServer.Deploy.Layout
import PirateServer.Lib.FileScript
import PirateServer.ProxySession.Policy

/-! The requests of the deploy server that change its directories: Upload, Rollback and
RemoveProject, each as the sequence of its operations on the file system. Programs that the server
starts, and what other packages compute, come in with the request. -/
namespace PirateServer.Deploy
open Lib FileTree ProxySession

abbrev Bytes := List UInt8

inductive RunState
  | running
  | stopped
  | error
  deriving DecidableEq, Repr

/-- `child` is the version that the running process was started from. -/
structure AppState where
  child : Option String
  currentVersion : String
  state : RunState
  lastError : Option String
  deriving DecidableEq, Repr

def AppState.default : AppState := ⟨none,"",.stopped,none⟩

def States : Type := String → AppState

abbrev Handler := Script Bytes States Status

def internal (text : String) : Status := ⟨.internal,text⟩

def invalidArgument (text : String) : Status := ⟨.invalidArgument,text⟩

def io {α : Type} (context : String) (op : Op Bytes α) : Handler α :=
  (Script.call op).mapError (fun e => internal (context++e.text))

def quietly (op : Op Bytes Unit) : Handler Unit := (Script.call op).ignore

def updateState (key : String) (f : AppState → AppState) : Handler Unit :=
  .remember (fun m => Function.update m key (f (m key)))

/-- What `write_nginx_snippet` has to write: nothing, a text made from the manifest, or a template
that is read and filled in. -/
inductive Snippet
  | none
  | generated (content : Except String Bytes)
  | custom (fill : Disk Bytes → Except String Bytes)

/-- What is written of a manifest: the text of `run.sh`, the manifest itself, the compose file if
any of the services is on, and the nginx snippet. -/
structure Manifest where
  runSh : Bytes
  toml : Except String Bytes
  compose : Option Bytes
  snippet : Snippet

/-- What comes from outside of the server: the entries that the program `tar` unpacks, and whether
it succeeds; those that the tar package reads, and the error at which it stops; the manifest in a
text; the vhost state to keep, if the scripts for nginx have succeeded; whether the process can be
started; the runtime state as text; and the ports that are still in use. -/
structure Outside where
  tar : List (Entry Bytes) × Bool
  tarEntries : List (Entry Bytes) × Option String
  parse : Bytes → Except String Manifest
  nginxState : Option Bytes
  spawn : Except String Unit
  runtimeState : Bytes
  busyPorts : List ℕ

/-- The limits and names of the server, and the functions of other packages that it uses. -/
structure Config where
  base : String
  maxUploadBytes : ℕ
  binaryFallback : String
  sha256 : Bytes → Bytes
  hexDecode : String → Option Bytes

/-- `Path::display` of a path below the base directory. -/
def Config.display (cfg : Config) (path : List String) : String := "/".intercalate (cfg.base::path)

structure Chunk where
  data : Bytes
  version : String
  isLast : Bool
  sha256Hex : String
  projectId : String
  manifestToml : String
  deriving DecidableEq, Repr

/-- `stamp` is the time in the name of the temporary file. -/
structure Upload where
  metaVersion : Option String
  metaProject : Option String
  stream : List (Except String Chunk)
  stamp : ℕ
  outside : Outside

/-- What the loop of `upload` has collected. -/
structure Receiving where
  version : String
  projectKey : String
  root : Place
  tempPath : Place
  received : Bytes
  written : ℕ
  expectedShaHex : Option String
  manifestToml : Option String
  deriving DecidableEq, Repr

/-! The loop over the chunks. -/

def checkFirst (r : Upload) (chunk : Chunk) : Except Status Unit :=
  if chunk.version = "" then .error (invalidArgument "first chunk must set version")
  else if r.metaVersion.any (· ≠ chunk.version) then
    .error (invalidArgument "first chunk version must match x-deploy-version metadata")
  else do
    (validateVersion chunk.version).mapError invalidArgument
    (validateProjectId chunk.projectId).mapError invalidArgument
    match r.metaProject with
    | some m =>
      if normalizeProjectId m ≠ normalizeProjectId chunk.projectId then
        .error (invalidArgument "project_id mismatch between metadata and first chunk")
      else .ok ()
    | none =>
      if normalizeProjectId chunk.projectId ≠ "default" then
        .error (invalidArgument "non-default project_id requires x-deploy-project metadata")
      else .ok ()

def tempName (stamp : ℕ) : String := "upload_"++toString stamp++".tar.gz"

def openUpload (r : Upload) (chunk : Chunk) : Handler Receiving := do
  .ofExcept (checkFirst r chunk)
  let root := projectDeployRoot chunk.projectId
  io "staging dir: " (createDirAll (stagingDir root))
  let tp := stagingDir root++[tempName r.stamp]
  io "temp file: " (write tp (fun _ => []))
  pure ⟨chunk.version,normalizeProjectId chunk.projectId,root,tp,[],0,none,none⟩

def discard {α : Type} (u : Receiving) (status : Status) : Handler α := do
  quietly (removeFile u.tempPath)
  .fail status

/-- A chunk is counted; the last one brings the hash and maybe a manifest. -/
def Receiving.add (u : Receiving) (chunk : Chunk) : Receiving :=
  { u with
    received := u.received++chunk.data
    written := saturatingAdd u.written chunk.data.length
    expectedShaHex := if chunk.isLast then some chunk.sha256Hex else u.expectedShaHex
    manifestToml :=
      if chunk.isLast ∧ chunk.manifestToml ≠ "" then some chunk.manifestToml else u.manifestToml }

def acceptChunk (cfg : Config) (u : Receiving) (chunk : Chunk) : Handler Receiving :=
  if cfg.maxUploadBytes < saturatingAdd u.written chunk.data.length then
    discard u ⟨.resourceExhausted,
      "artifact exceeds limit of "++toString cfg.maxUploadBytes++" bytes"⟩
  else do
    io "write: " (write u.tempPath (fun old => old.getD []++chunk.data))
    if chunk.isLast ∧ chunk.sha256Hex = "" then
      discard u (invalidArgument "sha256_hex required when is_last is true")
    else pure (u.add chunk)

def nextChunk (cfg : Config) (r : Upload) (u : Option Receiving) (chunk : Chunk) :
    Handler Receiving :=
  match u with
  | none => openUpload r chunk >>= fun u => acceptChunk cfg u chunk
  | some u =>
    if chunk.version ≠ "" ∧ chunk.version ≠ u.version then
      discard u (invalidArgument "version mismatch between chunks")
    else acceptChunk cfg u chunk

def receive (cfg : Config) (r : Upload) :
    Option Receiving → List (Except String Chunk) → Handler (Option Receiving)
  | u,[] => pure u
  | u,item::items => do
    let chunk ← .ofExcept (item.mapError internal)
    let u' ← nextChunk cfg r u chunk
    receive cfg r (some u') items

def verifyHash (cfg : Config) (u : Receiving) : Handler Unit :=
  match u.expectedShaHex with
  | none => discard u (invalidArgument "stream must end with is_last=true and sha256_hex")
  | some hex =>
    match cfg.hexDecode (Text.trim hex) with
    | none => discard u (invalidArgument "invalid sha256_hex (not hex)")
    | some expected =>
      if expected.length ≠ 32 then discard u (invalidArgument "sha256 must be 32 bytes")
      else if cfg.sha256 u.received ≠ expected then
        discard u (invalidArgument "SHA-256 mismatch")
      else pure ()

/-! The release directory. -/

/-- The program `tar` goes on after an entry that it cannot unpack, and fails in the end. -/
def runTar (dst : List String) : List (Entry Bytes) → Handler Bool
  | [] => pure true
  | e::es => do
    let x ← (Script.call (extract dst e)).attempt
    let rest ← runTar dst es
    pure (x.isOk && rest)

def unpackEntries (dst : List String) : List (Entry Bytes) → Handler Unit
  | [] => pure ()
  | e::es =>
    if ".." ∈ e.path then .fail (internal "path traversal in tar entry")
    else do
      io "" (extract dst e)
      unpackEntries dst es

def unpackTarGzRust (o : Outside) (dst : List String) : Handler Unit := do
  io "" (createDirAll dst)
  unpackEntries dst o.tarEntries.1
  match o.tarEntries.2 with
  | none => pure ()
  | some e => .fail (internal e)

def unpackTarGz (o : Outside) (dst : List String) : Handler Unit := do
  io "" (createDirAll dst)
  let ok ← runTar dst o.tar.1
  if ok && o.tar.2 then pure () else unpackTarGzRust o dst

def ensureRunShExecutable (releaseDir : List String) : Handler Unit := do
  let found ← .look (fun t => t.pathExists (releaseDir++["run.sh"]))
  (quietly (setPermissions (releaseDir++["run.sh"]) 0o755)).when found

def unpackRelease (o : Outside) (tempPath releaseDir : List String) : Handler Unit := do
  let found ← .look (fun t => t.pathExists releaseDir)
  (io "" (removeDirAll releaseDir)).when found
  io "" (createDirAll releaseDir)
  unpackTarGz o releaseDir
  ensureRunShExecutable releaseDir
  io "" (removeFile tempPath)

/-- `Path::parent`, which does not see a dot. -/
def parent (path : List String) : List String :=
  match path.filter (· ≠ ".") with
  | [] => [".."]
  | names => names.dropLast

variable (releaseDir : List String) (m : Manifest)

def generateRunSh : Handler Unit := do
  io "" (write (releaseDir++["run.sh"]) (fun _ => m.runSh))
  io "" (setPermissions (releaseDir++["run.sh"]) 0o755)

def ensureManifestInRelease : Handler Unit := do
  let toml ← .ofExcept (m.toml.mapError internal)
  io "" (write (releaseDir++["pirate.toml"]) (fun _ => toml))

def writeServiceCompose (projectRoot : List String) (m : Manifest) : Handler Unit :=
  match m.compose with
  | none => pure ()
  | some lines => io "" (write (projectRoot++["docker-compose.pirate.yml"]) (fun _ => lines))

def writeNginxSnippet : Handler Unit :=
  match m.snippet with
  | .none => pure ()
  | .generated content => do
    let content ← .ofExcept (content.mapError internal)
    io "" (write (releaseDir++["pirate-nginx-snippet.conf"]) (fun _ => content))
  | .custom fill => do
    let content ← .look fill
    let content ← .ofExcept (content.mapError internal)
    io "" (write (releaseDir++["pirate-nginx-snippet.conf"]) (fun _ => content))

def applySidecarManifest : Handler Unit := do
  generateRunSh releaseDir m
  ensureManifestInRelease releaseDir m
  (writeServiceCompose (parent (parent releaseDir)) m).ignore
  writeNginxSnippet releaseDir m

def readManifest (o : Outside) (releaseDir : List String) (sidecar : Option String) :
    Handler (Option Manifest) :=
  match sidecar.filter (fun raw => Text.trim raw ≠ "") with
  | some raw => do
    let m ← .ofExcept ((o.parse raw.toUTF8.toList).mapError internal)
    pure (some m)
  | none => do
    let found ← .look (fun t => t.isFile (releaseDir++["pirate.toml"]))
    if found then do
      let raw ← .look (fun t => t.read (releaseDir++["pirate.toml"]))
      let raw ← .ofExcept (raw.mapError (fun e => internal e.text))
      let m ← .ofExcept ((o.parse raw).mapError internal)
      pure (some m)
    else pure none

def storeRelease (r : Upload) (u : Receiving) : Handler (Option Manifest) := do
  let releaseDir := releaseDirForVersion u.root u.version
  io "releases dir: " (createDirAll (releasesDir u.root))
  unpackRelease r.outside u.tempPath releaseDir
  let manifest ← readManifest r.outside releaseDir u.manifestToml
  match manifest with
  | none => pure none
  | some m => do
    applySidecarManifest releaseDir m
    pure (some m)

/-! The switch to a release. -/

def setCurrentSymlink (root : Place) (version : String) : Script Bytes States IoError Unit := do
  (Script.call (removeFile (root++[".current.tmp"])) : Script Bytes States IoError Unit).ignore
  Script.call (symlink ["releases",version] (root++[".current.tmp"]))
  Script.call (rename (root++[".current.tmp"]) (root++["current"]))

/-- `write_runtime_state` and `write_nginx_vhost_state`: a new text takes the place of the old. -/
def replaceState (root : Place) (name temp : String) (text : Bytes) : Handler Unit := do
  io "" (createDirAll (pirateDir root))
  io "" (write (pirateDir root++[temp]) (fun _ => text))
  io "" (rename (pirateDir root++[temp]) (pirateDir root++[name]))

def writeRuntimeState (root : Place) (text : Bytes) : Handler Unit :=
  replaceState root "runtime_state.json" "runtime_state.json.tmp" text

def writeNginxVhostState (root : Place) (text : Bytes) : Handler Unit :=
  replaceState root "nginx_vhost_state.json" "nginx_vhost_state.json.tmp" text

section
variable (cfg : Config)

/-- The log is made empty before it is known whether there is anything to start. -/
def spawnRelease (o : Outside) (root : Place) (version : String) : Handler Unit := do
  io ("create "++cfg.display (pirateDir root)++": ") (createDirAll (pirateDir root))
  let log := pirateDir root++["runtime.log"]
  io ("open "++cfg.display log++": ") (write log (fun _ => []))
  let releaseDir := releaseDirForVersion root version
  let found ← .look (fun t => t.pathExists (releaseDir++["run.sh"]) ||
    t.pathExists (releaseDir++Text.split '/' cfg.binaryFallback))
  if found then .ofExcept (o.spawn.mapError (fun e => internal ("spawn failed: "++e)))
  else
    .fail ⟨.failedPrecondition,
      "neither run.sh nor "++cfg.display releaseDir++"/"++cfg.binaryFallback++" found"⟩

def failed (key : String) (e : Status) : Handler Unit := do
  updateState key (fun st => { st with state := .error, lastError := some e.message })
  .fail e

/-- `set_current_symlink` with the child stopped before. -/
def switchCurrent (key : String) (root : Place) (version : String) : Handler Unit := do
  updateState key (fun st => { st with child := none })
  let linked ← (setCurrentSymlink root version).attempt
  match linked with
  | .ok _ => pure ()
  | .error e => do
    updateState key (fun st => { st with state := .error, lastError := some e.text })
    .fail (internal ("symlink: "++e.text))

def startRelease (o : Outside) (key : String) (root : Place) (version : String) :
    Handler Unit := do
  let started ← (spawnRelease cfg o root version).attempt
  match started with
  | .ok _ => updateState key (fun _ => ⟨some version,version,.running,none⟩)
  | .error e => failed key e

def applyVhost (o : Outside) (root : Place) (manifest : Option Manifest) : Handler Unit :=
  match manifest,o.nginxState with
  | some _,some text => (writeNginxVhostState root text).ignore
  | _,_ => pure ()

def activate (o : Outside) (u : Receiving) (manifest : Option Manifest) :
    Handler Unit := do
  switchCurrent u.projectKey u.root u.version
  applyVhost o u.root manifest
  startRelease cfg o u.projectKey u.root u.version
  ((writeRuntimeState u.root o.runtimeState).ignore).when manifest.isSome

def upload (r : Upload) : Handler Unit := do
  let received ← receive cfg r none r.stream
  match received with
  | none => .fail (invalidArgument "no version in stream")
  | some u => do
    verifyHash cfg u
    let manifest ← storeRelease r u
    activate cfg r.outside u manifest

structure Rollback where
  projectId : String
  version : String
  outside : Outside

def rollback (r : Rollback) : Handler Unit := do
  .ofExcept ((validateProjectId r.projectId).mapError invalidArgument)
  .ofExcept ((validateVersion r.version).mapError invalidArgument)
  let root := projectDeployRoot r.projectId
  let found ← .look (fun t => t.isDir (releaseDirForVersion root r.version))
  if found then do
    switchCurrent (normalizeProjectId r.projectId) root r.version
    startRelease cfg r.outside (normalizeProjectId r.projectId) root r.version
  else .fail ⟨.notFound,"release "++r.version++" not found"⟩

structure RemoveProject where
  projectId : String
  outside : Outside

/-- The base directory loses only what belongs to the default project. -/
def clearDefault (root : Place) : Handler Unit := do
  let current ← .look (fun t => t.pathExists (root++["current"]))
  (quietly (removeFile (root++["current"]))).when current
  let releases ← .look (fun t => t.pathExists (releasesDir root))
  (io "remove releases: " (removeDirAll (releasesDir root))).when releases
  let runtime ← .look (fun t => t.pathExists (pirateDir root))
  (quietly (removeDirAll (pirateDir root))).when runtime

def removeProject (r : RemoveProject) : Handler Unit := do
  .ofExcept ((validateProjectId r.projectId).mapError invalidArgument)
  let key := normalizeProjectId r.projectId
  let root := projectDeployRoot r.projectId
  updateState key (fun st => { st with child := none })
  if r.outside.busyPorts ≠ [] then
    updateState key (fun st => { st with
      state := .error
      lastError := some
        ("RemoveProject: ports still listening after stop: "++toString r.outside.busyPorts) })
    .fail ⟨.failedPrecondition,
      "ports still listening after stop: "++toString r.outside.busyPorts⟩
  else do
    updateState key (fun st => { st with currentVersion := "", state := .stopped, lastError := none })
    if key = "default" then clearDefault root
    else do
      let found ← .look (fun t => t.pathExists root)
      (io "remove project root: " (removeDirAll root)).when found

inductive Request
  | upload (r : Upload)
  | rollback (r : Rollback)
  | removeProject (r : RemoveProject)

def handle : Request → Handler Unit
  | .upload r => upload cfg r
  | .rollback r => rollback cfg r
  | .removeProject r => removeProject r

def step (w : World Bytes States) (a : Request × List (Option Fault)) :
    Option (World Bytes States) :=
  some (handle cfg a.1 { w with faults := a.2 }).2

end

end PirateServer.Deploy
