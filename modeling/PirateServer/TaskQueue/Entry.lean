import PirateServer.Auth.Types
import PirateServer.Lib.Table
import PirateServer.Lib.Text

/-! The data of a listener's task queue: stored tasks, the deque of waiting request ids,
and the counters of `GlobalStats` that the queue updates. Instants and durations are
counted in one unit from an arbitrary origin. -/
namespace PirateServer.TaskQueue
open Lib

inductive StoredTaskPhase
  | queued
  | claimed
  | running
  | completed
  | failed
  | expired
  deriving DecidableEq, Repr

/-- The phases that `wait_terminal` reports as final. -/
def StoredTaskPhase.terminal : StoredTaskPhase → Bool
  | .completed | .failed | .expired => true
  | .queued | .claimed | .running => false

def StoredTaskPhase.active : StoredTaskPhase → Bool
  | .claimed | .running => true
  | .queued | .completed | .failed | .expired => false

structure BusKv where
  key : String
  value : String
  deriving DecidableEq, Repr

structure BusRequestEnvelope where
  requestId : String
  traceId : String
  hopId : UInt32
  sourceNodeId : String
  targetNodeId : String
  method : String
  scheme : String
  host : String
  path : String
  headers : List BusKv
  bodyChunk : List UInt8
  bodyFinished : Bool
  createdAtMs : Int64
  deriving DecidableEq, Repr

structure TaskComplete where
  requestId : String
  status : UInt32
  headers : List BusKv
  bodyChunk : List UInt8
  finished : Bool
  error : String
  deriving DecidableEq, Repr

/-- A stored task. The notifier `done` carries no data and is left out. -/
structure TaskEntry where
  profileId : String
  envelope : BusRequestEnvelope
  queuedAt : ℕ
  phase : StoredTaskPhase
  claimant : Option PubKey
  leaseUntil : Option ℕ
  detail : Option String
  progressPct : UInt32
  responseStatus : Option UInt32
  responseHeaders : List BusKv
  responseBody : List UInt8
  terminalError : Option String
  deriving DecidableEq

/-- The immutable part of `TaskQueueInner`. -/
structure Config where
  profileId : String
  cap : ℕ
  ttl : ℕ
  lease : ℕ
  cap_pos : 0 < cap

/-- `TaskQueue::new`. -/
def Config.new (profileId : String) (cap ttl lease : ℕ) : Config :=
  ⟨Text.trim profileId,max cap 1,ttl,lease,by omega⟩

abbrev Tasks := Table String TaskEntry

/-- The two values behind the two mutexes `deque_ids` and `tasks`. -/
structure Queue where
  dequeIds : List String
  tasks : Tasks

def Queue.empty : Queue := ⟨[],∅⟩

/-- The `task_queue_*` counters of `GlobalStats`. -/
structure Stats where
  submitted : ℕ := 0
  claimed : ℕ := 0
  claimTimeout : ℕ := 0
  statusUpdates : ℕ := 0
  completed : ℕ := 0
  failed : ℕ := 0
  expired : ℕ := 0
  leaseRequeue : ℕ := 0
  deriving DecidableEq, Repr

def Stats.ended (s : Stats) : ℕ := s.completed + s.failed + s.expired

/-- The gRPC codes of the `tonic::Status` errors built by the queue. -/
inductive Code
  | invalidArgument
  | notFound
  | permissionDenied
  | failedPrecondition
  | cancelled
  deriving DecidableEq, Repr

structure Status where
  code : Code
  message : String
  deriving DecidableEq, Repr

namespace Queue

/-- The task `id` is stored with phase `Queued`. -/
def Queued (q : Queue) (id : String) : Prop := ∃ e, q.tasks.lookup id = some e ∧ e.phase = .queued

def queuedIds (q : Queue) : Finset String :=
  q.tasks.keys.toFinset.filter (fun id => (q.tasks.lookup id).any (fun e => e.phase = .queued))

@[simp] lemma mem_queuedIds {q : Queue} {id : String} : id ∈ q.queuedIds ↔ q.Queued id := by
  simp only [queuedIds,Finset.mem_filter,List.mem_toFinset,Table.mem_keys_iff_lookup,Queued,
    Option.any_eq_true,decide_eq_true_eq]
  constructor
  · rintro ⟨_,e,he,hp⟩
    exact ⟨e,he,hp⟩
  · rintro ⟨e,he,hp⟩
    exact ⟨⟨e,he⟩,e,he,hp⟩

end Queue
end PirateServer.TaskQueue
