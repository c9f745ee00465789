import PirateServer.Deploy.FailedUpload

/-! The requests of the deploy server that are about the running process: GetStatus, StopProcess and
RestartProcess. With Upload, Rollback and RemoveProject they are all the requests that change the
state of a project. -/
namespace PirateServer.Deploy
open Lib FileTree Script ProxySession

/-- What `try_wait` says of a child: how it has ended, that it runs, or that it cannot be asked. -/
inductive Waited
  | exited (success : Bool) (status : String)
  | alive
  | failed (text : String)
  deriving DecidableEq, Repr

def refreshProcessState (x : Waited) (st : AppState) : AppState :=
  match st.child with
  | some _ =>
    match x with
    | .exited true _ => { st with child := none, state := .stopped }
    | .exited false status =>
      { st with child := none, state := .error, lastError := some ("process exited: "++status) }
    | .alive => { st with state := .running }
    | .failed text => { st with child := none, state := .error, lastError := some text }
  | none => if st.currentVersion = "" then { st with state := .stopped } else st

def readCurrentVersionFromSymlink (root : Place) (t : Disk Bytes) : Option String :=
  (t.readLink (root++["current"])).bind fileName

/-- `listeners` are the ports with the processes that listen on them. -/
structure ProcessRequest where
  projectId : String
  waited : Waited
  listeners : List String
  outside : Outside

def getStatus (r : ProcessRequest) : Handler Unit := do
  .ofExcept ((validateProjectId r.projectId).mapError invalidArgument)
  updateState (normalizeProjectId r.projectId) (refreshProcessState r.waited)

def adoptVersion (linked : Option String) (st : AppState) : AppState :=
  if st.currentVersion = "" then
    match linked with
    | some v => { st with currentVersion := v }
    | none => st
  else st

def stopProcess (r : ProcessRequest) : Handler Unit := do
  .ofExcept ((validateProjectId r.projectId).mapError invalidArgument)
  let key := normalizeProjectId r.projectId
  let root := projectDeployRoot r.projectId
  updateState key (refreshProcessState r.waited)
  updateState key (fun st => { st with child := none, state := .stopped, lastError := none })
  let linked ← .look (readCurrentVersionFromSymlink root)
  updateState key (adoptVersion linked)

def failedPrecondition (text : String) : Status := ⟨.failedPrecondition,text⟩

def versionToRestart (st : AppState) (linked : Option String) : String :=
  if st.currentVersion = "" then linked.getD "" else st.currentVersion

def restartProcess (cfg : Config) (r : ProcessRequest) : Handler Unit := do
  .ofExcept ((validateProjectId r.projectId).mapError invalidArgument)
  let key := normalizeProjectId r.projectId
  let root := projectDeployRoot r.projectId
  updateState key (refreshProcessState r.waited)
  let st ← .consult (fun m => m key)
  let linked ← .look (readCurrentVersionFromSymlink root)
  let ver := versionToRestart st linked
  if ver = "" then .fail (failedPrecondition "no active release; deploy or rollback first")
  else do
    let found ← .look (fun t => t.isDir (releaseDirForVersion root ver))
    if !found then .fail (failedPrecondition ("release directory for "++ver++" missing"))
    else do
      updateState key (fun st => { st with child := none })
      let busy := toString r.outside.busyPorts
      let pids := ", ".intercalate r.listeners
      if r.outside.busyPorts ≠ [] then do
        updateState key (fun st => { st with
          state := .error
          lastError := some ("ports still listening after stop: "++busy++" ("++pids++")") })
        .fail (failedPrecondition
          ("ports still listening after stop: "++busy++"; free them or kill listeners ("++pids++")"))
      else startRelease cfg r.outside key root ver

inductive Action
  | change (r : Request)
  | getStatus (r : ProcessRequest)
  | stop (r : ProcessRequest)
  | restart (r : ProcessRequest)

def act (cfg : Config) : Action → Handler Unit
  | .change r => handle cfg r
  | .getStatus r => getStatus r
  | .stop r => stopProcess r
  | .restart r => restartProcess cfg r

/-- One request, with the failures that it meets. -/
def actStep (cfg : Config) (w : World Bytes States) (a : Action × List (Option Fault)) :
    Option (World Bytes States) :=
  some (act cfg a.1 { w with faults := a.2 }).2

end PirateServer.Deploy
