import PirateServer.TaskQueue.Threads

/-! A worker session of a task queue: the loop of `pirate tunnel` and `task_queue_session_loop`,
joined by two reliable first-in-first-out streams. The environment adds and removes the task queue,
lets time pass, and runs everything else that touches the queues, `prune_all` included. -/
namespace PirateServer.TaskSession
open Lib TaskQueue

/-- `task_client_msg::Msg`; `unset` is a message without the `oneof`. The phase of a status
update is left out: the server does not read it. -/
inductive ClientMsg
  | claimPull (waitMs : UInt64)
  | statusUpdate (requestId detail : String) (progressPct : UInt32)
  | completePart (part : TaskComplete)
  | unset
  deriving DecidableEq

/-- `task_server_msg::Msg`, likewise. -/
inductive ServerMsg
  | ready (ok : Bool)
  | assigned (envelope : Option BusRequestEnvelope)
  | ack (requestId ackKind : String)
  | error (text : String)
  | unset
  deriving DecidableEq

/-- What the server puts into its channel: a message, or a status that ends the stream. -/
inductive Item
  | msg (m : ServerMsg)
  | fail (status : Status)
  deriving DecidableEq

/-- What `inbound.message()` of the worker gives: an item, or the end of the stream. -/
inductive Received
  | item (i : Item)
  | closed

/-- How the worker's `run` ends. -/
inductive WorkerError
  | emptyServerStream
  | serverErrorOnOpen (text : String)
  | unexpectedHandshake (m : ServerMsg)
  | outboundClosed
  | stream (status : Status)
  | serverStreamEnded
  deriving DecidableEq

/-- The arguments of the worker that its messages depend on. -/
structure Args where
  pullWaitMs : UInt64
  targetHost : String
  targetPort : UInt16

/-- Program points of the worker. At a `part` that `pump_completes` sends, a closed stream ends
the exchange; at the single part that reports a failed upstream call it does not. -/
inductive WorkerPc
  | handshake
  | claim
  | awaitClaim
  | status (envelope : BusRequestEnvelope)
  | awaitStatus (envelope : BusRequestEnvelope)
  | upstream (envelope : BusRequestEnvelope)
  | part (pump : Bool) (part : TaskComplete) (rest : List TaskComplete)
  | awaitPart (rest : List TaskComplete)
  | ended (error : WorkerError)
  deriving DecidableEq

/-- `COMPLETE_CHUNK`. -/
def completeChunk : ℕ := 48 * 1024

/-- The parts that carry a body that is not empty; `status` is sent with the first of them. -/
def bodyParts (rid : String) : UInt32 → List (List UInt8) → List TaskComplete
  | _,[] => []
  | status,[chunk] => [⟨rid,status,[],chunk,true,""⟩]
  | status,chunk::chunks => ⟨rid,status,[],chunk,false,""⟩::bodyParts rid 0 chunks

/-- Everything that `pump_completes` sends. -/
def pumpCompletes (rid : String) (status : UInt32) (headers : List BusKv) (body : List UInt8) :
    TaskComplete × List TaskComplete :=
  (⟨rid,status,headers,[],false,""⟩,
    if body = [] then [⟨rid,status,[],[],true,""⟩]
    else bodyParts rid status (body.toChunks completeChunk))

namespace WorkerPc

def waits : WorkerPc → Bool
  | handshake | awaitClaim | awaitStatus _ | awaitPart _ => true
  | _ => false

def hasEnded : WorkerPc → Bool
  | ended _ => true
  | _ => false

/-- The `send` of each sending point, and the point behind it. -/
def send (args : Args) : WorkerPc → Option (ClientMsg × WorkerPc)
  | claim => some (.claimPull (min (max args.pullWaitMs 500) 120000),awaitClaim)
  | status env =>
    some (.statusUpdate env.requestId
      ("upstream " ++ args.targetHost ++ ":" ++ args.targetPort.toNat.repr) 25,awaitStatus env)
  | part _ p rest => some (.completePart p,awaitPart rest)
  | _ => none

/-- The same `send` once the stream is closed. -/
def sendClosed : WorkerPc → Option WorkerPc
  | claim => some (ended .outboundClosed)
  | status env => some (awaitStatus env)
  | part true _ _ => some claim
  | part false _ rest => some (awaitPart rest)
  | _ => none

/-- The point after `pump_completes` has been acknowledged once more. -/
def nextPart : List TaskComplete → WorkerPc
  | [] => claim
  | p::rest => part true p rest

/-- One iteration of `discard_until_ack_rx`, whose result is ignored. -/
def discardUntilAck (done again : WorkerPc) : Received → WorkerPc
  | .item (.msg (.ack _ _)) => done
  | .item (.msg _) => again
  | .item (.fail _) => done
  | .closed => done

def receive : WorkerPc → Received → Option WorkerPc
  | handshake,.item (.msg (.ready true)) => some claim
  | handshake,.item (.msg (.error text)) => some (ended (.serverErrorOnOpen text))
  | handshake,.item (.msg m) => some (ended (.unexpectedHandshake m))
  | handshake,.item (.fail st) => some (ended (.stream st))
  | handshake,.closed => some (ended .emptyServerStream)
  | awaitClaim,.item (.msg (.assigned (some env))) =>
    some (if env.requestId = "" then claim else status env)
  | awaitClaim,.item (.msg _) => some claim
  | awaitClaim,.item (.fail st) => some (ended (.stream st))
  | awaitClaim,.closed => some (ended .serverStreamEnded)
  | awaitStatus env,r => some (discardUntilAck (upstream env) (awaitStatus env) r)
  | awaitPart rest,r => some (discardUntilAck (nextPart rest) (awaitPart rest) r)
  | _,_ => none

/-- The point after `run_upstream`, whose result is given from outside. -/
def afterUpstream (env : BusRequestEnvelope) :
    Except String (UInt16 × List BusKv × List UInt8) → WorkerPc
  | .ok (code,headers,body) =>
    let parts := pumpCompletes env.requestId code.toUInt32 headers body
    part true parts.1 parts.2
  | .error e => part false ⟨env.requestId,502,[],[],true,e⟩ []

end WorkerPc

/-- Program points of `task_queue_session_loop`. A queue is named by its number; the server
keeps the one that it has looked up. -/
inductive ServerPc
  | recv
  | lookup (m : ClientMsg)
  | claiming (q : ℕ) (deadline : ℕ)
  | status (q : ℕ) (requestId detail : String) (progressPct : UInt32)
  | complete (q : ℕ) (part : TaskComplete)
  | ended
  deriving DecidableEq

/-- `queues` lists every queue that the profile has had, `current` is the one in the map.
`downOpen` says that the server can still send. -/
structure Sys where
  clock : ℕ
  queues : List (Config × Queue)
  current : Option ℕ
  worker : WorkerPc
  server : ServerPc
  up : List ClientMsg
  down : List Item
  downOpen : Bool

/-- The handler has sent `Ready(true)` and has started the loop. -/
def Sys.init (clock : ℕ) (queues : List (Config × Queue)) (current : Option ℕ) : Sys :=
  ⟨clock,queues,current,.handshake,.recv,[],[.msg (.ready true)],true⟩

/-- `others` replaces the contents of a queue by what other calls have made of it. `closed` is a
failing `send` of the worker. -/
inductive Label
  | tick (d : ℕ)
  | create (cfg : Config)
  | remove
  | others (q : ℕ) (queue : Queue)
  | work
  | closed
  | upstream (result : Except String (UInt16 × List BusKv × List UInt8))
  | serve
  | timeout

/-- The time that `claim_next` waits, as the session loop and `claim_next` clamp it. -/
def claimWait (waitMs : UInt64) : ℕ := clampWait (max 100 (min waitMs.toNat 120000) * 1000000)

/-- `apply_status`: the argument is trimmed once more and must not be empty. -/
def applyStatus (now : ℕ) (worker : PubKey) (requestId : String) (detail : Option String)
    (progressPct : UInt32) (hm : Tasks) : Except Status Tasks :=
  if Text.trim requestId = "" then .error ⟨.invalidArgument,"empty request_id"⟩
  else statusTasks now worker (Text.trim requestId) detail progressPct hm

/-- `apply_complete`. -/
def applyComplete (worker : PubKey) (part : TaskComplete) (hm : Tasks) :
    Except Status (Option StoredTaskPhase) × Tasks :=
  if Text.trim part.requestId = "" then (.error ⟨.invalidArgument,"empty request_id"⟩,hm)
  else completeTasks worker part hm

namespace Sys

/-- `tx.send` of the server, whose failure is ignored, and the way to the next `message()`. -/
def reply (s : Sys) (m : ServerMsg) : Sys :=
  { s with
    server := .recv
    down := if s.downOpen then s.down ++ [.msg m] else s.down }

/-- `tx.send(Err(..))`: the status closes the stream behind it, the loop goes on. -/
def refuse (s : Sys) (status : Status) : Sys :=
  { s with
    server := .recv
    down := if s.downOpen then s.down ++ [.fail status] else s.down
    downOpen := false }

/-- The loop is left: both ends of the streams are dropped. -/
def leave (s : Sys) : Sys := { s with server := .ended, downOpen := false }

def setQueue (s : Sys) (q : ℕ) (cfg : Config) (queue : Queue) : Sys :=
  { s with queues := s.queues.set q (cfg,queue) }

/-- The answer to a `ClaimPull` once `claim_next` has returned. -/
def answerClaim (s : Sys) : Except Status BusRequestEnvelope → Sys
  | .ok env => s.reply (.assigned (some env))
  | .error status =>
    if status.code = .cancelled then s.reply (.error "pull_timeout") else (s.refuse status).leave

variable (worker : PubKey) (s : Sys) (q : ℕ)

/-- One iteration of `try_claim_one`, or a pause when no id waits. -/
def claimOne (cfg : Config) (queue : Queue) : Option Sys :=
  match queue.dequeIds with
  | [] => none
  | id::rest =>
    let r := attemptClaimId cfg s.clock worker id queue.tasks
    match r.1 with
    | .taken env => some ((s.setQueue q cfg ⟨rest,r.2.1⟩).answerClaim (.ok env))
    | .skip => some (s.setQueue q cfg ⟨rest,r.2.1⟩)
    | .requeueFront => some (s.setQueue q cfg ⟨id::rest,r.2.1⟩)

/-- The answer to a `StatusUpdate`. -/
def answerStatus (requestId detail : String)
    (progressPct : UInt32) (cfg : Config) (queue : Queue) : Sys :=
  let rid := Text.trim requestId
  let dd := Text.trim detail
  match applyStatus s.clock worker rid (if dd = "" then none else some dd) progressPct
    queue.tasks with
  | .ok hm => (s.setQueue q cfg { queue with tasks := hm }).reply (.ack rid "status")
  | .error e => s.refuse e

/-- The answer to a `CompletePart`. -/
def answerComplete (part : TaskComplete) (cfg : Config)
    (queue : Queue) : Sys :=
  let r := applyComplete worker part queue.tasks
  let s' := s.setQueue q cfg { queue with tasks := r.2 }
  match r.1 with
  | .ok _ => s'.reply (.ack (Text.trim part.requestId) "complete")
  | .error e => s'.refuse e

def dispatch (s : Sys) : ClientMsg → Sys
  | .unset => s
  | m => { s with server := .lookup m }

def found (clock q : ℕ) : ClientMsg → ServerPc
  | .claimPull waitMs => .claiming q (clock + claimWait waitMs)
  | .statusUpdate requestId detail progressPct => .status q requestId detail progressPct
  | .completePart part => .complete q part
  | .unset => .recv

/-- `task_queue_session_loop` from one program point to the next. -/
def serve (worker : PubKey) (s : Sys) : Option Sys :=
  match s.server with
  | .recv =>
    match s.up with
    | m::rest => some ({ s with up := rest }.dispatch m)
    | [] => if s.worker.hasEnded then some s.leave else none
  | .lookup m =>
    match s.current with
    | none => some (s.reply (.error "no task queue for profile"))
    | some q => some { s with server := found s.clock q m }
  | .claiming q _ => s.queues[q]?.bind (fun c => s.claimOne worker q c.1 c.2)
  | .status q rid detail pct =>
    s.queues[q]?.map (fun c => s.answerStatus worker q rid detail pct c.1 c.2)
  | .complete q part => s.queues[q]?.map (fun c => s.answerComplete worker q part c.1 c.2)
  | .ended => none

/-- `inbound.message()` of the worker. -/
def message (s : Sys) : Option (Received × Sys) :=
  match s.down with
  | i::rest => some (.item i,{ s with down := rest })
  | [] => if s.downOpen then none else some (.closed,s)

def work (args : Args) (s : Sys) : Option Sys :=
  match s.worker.send args with
  | some (m,pc) => some { s with up := s.up ++ [m], worker := pc }
  | none =>
    if s.worker.waits then
      s.message.bind (fun r => (s.worker.receive r.1).map (fun pc => { r.2 with worker := pc }))
    else none

end Sys

variable (args : Args) (worker : PubKey)

def step (s : Sys) : Label → Option Sys
  | .tick d => some { s with clock := s.clock + d }
  | .create cfg =>
    if s.current = none then
      some { s with queues := s.queues ++ [(cfg,Queue.empty)], current := some s.queues.length }
    else none
  | .remove => some { s with current := none }
  | .others q queue => s.queues[q]?.map (fun c => s.setQueue q c.1 queue)
  | .work => s.work args
  | .closed =>
    if s.server = .ended then s.worker.sendClosed.map (fun pc => { s with worker := pc }) else none
  | .upstream result =>
    match s.worker with
    | .upstream env => some { s with worker := WorkerPc.afterUpstream env result }
    | _ => none
  | .serve => s.serve worker
  | .timeout =>
    match s.server with
    | .claiming _ deadline =>
      if deadline ≤ s.clock then
        some (s.answerClaim (.error ⟨.cancelled,"pull_timeout"⟩))
      else none
    | _ => none

/-- The states that the session reaches by steps that all meet `ok`, whatever queues the profile
has had when it starts. -/
def ReachableBy (ok : Sys → Label → Prop) (s : Sys) : Prop :=
  ∃ clock queues current, Run (step args worker) ok (Sys.init clock queues current) s

def Reachable (s : Sys) : Prop :=
  ReachableBy args worker anyStep s

end PirateServer.TaskSession
