import PirateServer.Lib.Run
import PirateServer.TaskQueue.Section

/-! Any number of threads that run the four operations of one `TaskQueue`. Taking a guard is a step,
and the code under a guard together with its release is one. The guard of the `if let` scrutinee in
`discard_ttl_expired` lives to the end of the block, so it is still held at the second
`tasks.lock()`. A ghost log records what happened to whom. -/
namespace PirateServer.TaskQueue
open Lib

inductive Mutex
  | dequeIds
  | tasks
  deriving DecidableEq, Repr

abbrev Tid := ℕ

/-- The arguments of `enqueue`, with the readings of the wall clock and of `OsRng`. -/
structure Submit where
  envelope : BusRequestEnvelope
  unixMs : Int64
  createdMs : Int64
  random : UInt64

def Submit.rid (a : Submit) : String := assignRequestId a.envelope a.unixMs a.random

structure StatusUpdate where
  worker : PubKey
  requestId : String
  detail : Option String
  progressPct : UInt32

structure CompletePart where
  worker : PubKey
  part : TaskComplete

def CompletePart.rid (a : CompletePart) : String := Text.trim a.part.requestId

/-- A call of one of the four operations; `wait` is in nanoseconds. -/
inductive Op
  | enqueue (a : Submit)
  | claimNext (worker : PubKey) (wait : ℕ)
  | applyStatus (a : StatusUpdate)
  | applyComplete (a : CompletePart)

/-- What a call still has to do after `prune_all`. -/
inductive Rest
  | enqueue (a : Submit)
  | claimNext (worker : PubKey) (deadline : ℕ)
  | applyStatus (a : StatusUpdate)
  | applyComplete (a : CompletePart)

/-- What a call returned. -/
inductive Outcome
  | enqueued (r : Except String String)
  | claimed (r : Except Status BusRequestEnvelope)
  | updated (r : Except Status Unit)
  | completed (r : Except Status Unit)

/-- Program points. Those with a mutex stand right before the guard is taken. -/
inductive Pc
  | idle (last : Option Outcome)
  | recycleStart (c : Rest)
  | recycleTasks (c : Rest) (now : ℕ)
  | recyclePush (c : Rest) (ids : List String)
  | discardStart (c : Rest)
  | discardFront (c : Rest) (now : ℕ)
  | discardStale (c : Rest) (now : ℕ) (id : String)
  | discardPop (c : Rest) (now : ℕ) (id : String)
  | discardRemove (c : Rest) (now : ℕ) (id : String)
  | discardReinsert (c : Rest) (now : ℕ) (id : String) (e : TaskEntry)
  | enqueueCap (a : Submit)
  | enqueueInsert (a : Submit)
  | enqueuePush (rid : String)
  | claimPop (worker : PubKey) (deadline : ℕ)
  | claimStart (worker : PubKey) (deadline : ℕ) (id : String)
  | claimAttempt (worker : PubKey) (deadline : ℕ) (id : String) (now : ℕ)
  | claimRequeue (worker : PubKey) (deadline : ℕ) (id : String)
  | claimWait (worker : PubKey) (deadline : ℕ)
  | statusTasks (a : StatusUpdate)
  | completeTasks (a : CompletePart)

namespace Pc

def mutex : Pc → Option Mutex
  | idle _ | recycleStart _ | discardStart _ | claimStart .. | claimWait .. => none
  | recycleTasks .. | discardStale .. | discardRemove .. | discardReinsert ..
  | enqueueInsert _ | claimAttempt .. | statusTasks _ | completeTasks _ => some .tasks
  | recyclePush .. | discardFront .. | discardPop .. | enqueueCap _ | enqueuePush _
  | claimPop .. | claimRequeue .. => some .dequeIds

/-- No operation is in progress. -/
def isIdle : Pc → Bool
  | idle _ => true
  | _ => false

/-- The thread waits for a call or, in `claim_next`, for time to pass, and holds no guard. -/
def parked : Pc → Bool
  | idle _ | claimWait .. => true
  | _ => false

/-- The second `tasks.lock()` of `discard_ttl_expired`, inside the `if let` block. -/
def inIfLet : Pc → Bool
  | discardReinsert .. => true
  | _ => false

/-- The ids of queued tasks that are outside `deque_ids` because this thread has them. -/
def held : Pc → List String
  | recyclePush _ ids => ids
  | discardRemove _ _ id => [id]
  | enqueuePush rid => [rid]
  | claimStart _ _ id | claimAttempt _ _ id _ | claimRequeue _ _ id => [id]
  | _ => []

end Pc

/-- The program point after `prune_all`. -/
def Rest.resume : Rest → Pc
  | .enqueue a => .enqueueCap a
  | .claimNext worker deadline => .claimPop worker deadline
  | .applyStatus a => .statusTasks a
  | .applyComplete a => .completeTasks a

/-- `wait.clamp(50 ms, 120 s)`. -/
def clampWait (wait : ℕ) : ℕ := max 50000000 (min wait 120000000000)

/-- From the entry of an operation to its `prune_all`. -/
def Op.start (clock : ℕ) : Op → Pc
  | .enqueue a => .recycleStart (.enqueue a)
  | .claimNext worker wait => .recycleStart (.claimNext worker (clock + clampWait wait))
  | .applyStatus a =>
    if Text.trim a.requestId = "" then
      .idle (some (.updated (.error ⟨.invalidArgument,"empty request_id"⟩)))
    else .recycleStart (.applyStatus a)
  | .applyComplete a =>
    if a.rid = "" then
      .idle (some (.completed (.error ⟨.invalidArgument,"empty request_id"⟩)))
    else .recycleStart (.applyComplete a)

/-- Ghost events: a claim, a part that reached its entry, a task counted as ended. -/
inductive Event
  | claimed (id : String) (worker : PubKey)
  | part (id : String) (worker : PubKey) (part : TaskComplete) (accepted : Bool)
  | ended (id : String)
  deriving DecidableEq

/-- What one step of a thread does to the shared state and where it leaves the thread. -/
structure Effect where
  queue : Queue
  stats : Stats
  pc : Pc
  events : List Event := []

def CompletePart.reaches (a : CompletePart) (hm : Tasks) : Bool :=
  (hm.lookup a.rid).any (fun e => some a.worker = e.claimant)

/-- `apply_complete` under `tasks`, with its counters. -/
def completeEffect (q : Queue) (st : Stats) (a : CompletePart) : Effect :=
  let r := completeTasks a.worker a.part q.tasks
  let q' : Queue := { q with tasks := r.2 }
  match r.1 with
  | .error status =>
    ⟨q',st,.idle (some (.completed (.error status))),
      if a.reaches q.tasks then [.part a.rid a.worker a.part false] else []⟩
  | .ok none => ⟨q',st,.idle (some (.completed (.ok ()))),[.part a.rid a.worker a.part true]⟩
  | .ok (some .failed) =>
    ⟨q',{ st with failed := st.failed + 1 },.idle (some (.completed (.ok ()))),
      [.ended a.rid,.part a.rid a.worker a.part true]⟩
  | .ok (some _) =>
    ⟨q',{ st with completed := st.completed + 1 },.idle (some (.completed (.ok ()))),
      [.ended a.rid,.part a.rid a.worker a.part true]⟩

/-- `attempt_claim_id` under `tasks` and the match of `try_claim_one` on its result. -/
def claimEffect (cfg : Config) (q : Queue) (st : Stats) (worker : PubKey) (deadline : ℕ)
    (id : String) (now : ℕ) : Effect :=
  let r := attemptClaimId cfg now worker id q.tasks
  let q' : Queue := { q with tasks := r.2.1 }
  let st' : Stats := { st with expired := st.expired + r.2.2 }
  match r.1 with
  | .taken envelope =>
    ⟨q',{ st' with claimed := st'.claimed + 1 },.idle (some (.claimed (.ok envelope))),
      [.claimed id worker]⟩
  | .skip => ⟨q',st',.claimPop worker deadline,if r.2.2 = 0 then [] else [.ended id]⟩
  | .requeueFront => ⟨q',st',.claimRequeue worker deadline id,[]⟩

/-- The scrutinee and the body of the `if let` in `discard_ttl_expired`. -/
def removeEffect (q : Queue) (st : Stats) (c : Rest) (now : ℕ) (id : String) : Effect :=
  let r := discardRemove id q.tasks
  let q' : Queue := { q with tasks := r.1 }
  match r.2 with
  | none => ⟨q',st,.discardFront c now,[]⟩
  | some e =>
    if (q.tasks.lookup id).any (fun e => e.phase = .queued) then
      ⟨q',{ st with expired := st.expired + 1 },.discardReinsert c now id e,[.ended id]⟩
    else ⟨q',st,.discardReinsert c now id e,[]⟩

variable (cfg : Config) (clock : ℕ) (order : List String) (q : Queue) (st : Stats)

def advance : Pc → Effect
  | .idle last => ⟨q,st,.idle last,[]⟩
  | .recycleStart c => ⟨q,st,.recycleTasks c clock,[]⟩
  | .recycleTasks c now =>
    let r := recycleTasks now order q.tasks
    ⟨{ q with tasks := r.1 },{ st with leaseRequeue := st.leaseRequeue + r.2.length },
      if r.2 = [] then .discardStart c else .recyclePush c r.2,[]⟩
  | .recyclePush c ids =>
    ⟨{ q with dequeIds := pushFrontMissing ids q.dequeIds },st,.discardStart c,[]⟩
  | .discardStart c => ⟨q,st,.discardFront c clock,[]⟩
  | .discardFront c now =>
    match q.dequeIds.head? with
    | none => ⟨q,st,c.resume,[]⟩
    | some id => ⟨q,st,.discardStale c now id,[]⟩
  | .discardStale c now id =>
    if (q.tasks.lookup id).any (TaskEntry.stale cfg.ttl now) then ⟨q,st,.discardPop c now id,[]⟩
    else ⟨q,st,c.resume,[]⟩
  | .discardPop c now id =>
    -- an id other than the one that was read is popped all the same
    ⟨{ q with dequeIds := q.dequeIds.tail },st,
      if q.dequeIds.head? = some id then .discardRemove c now id else .discardFront c now,[]⟩
  | .discardRemove c now id => removeEffect q st c now id
  | .discardReinsert c now id e =>
    ⟨{ q with tasks := q.tasks.insert id e },st,.discardFront c now,[]⟩
  | .enqueueCap a =>
    if cfg.cap ≤ q.dequeIds.length then
      ⟨q,st,.idle (some (.enqueued (.error "task_queue_full"))),[]⟩
    else ⟨q,st,.enqueueInsert a,[]⟩
  | .enqueueInsert a =>
    if a.rid ∈ q.tasks then
      ⟨q,st,.idle (some (.enqueued (.error "duplicate_request_id"))),[]⟩
    else
      ⟨{ q with tasks := q.tasks.insert a.rid (newEntry cfg a.rid a.envelope a.createdMs clock) },st,
        .enqueuePush a.rid,[]⟩
  | .enqueuePush rid =>
    ⟨{ q with dequeIds := q.dequeIds ++ [rid] },{ st with submitted := st.submitted + 1 },
      .idle (some (.enqueued (.ok rid))),[]⟩
  | .claimPop worker deadline =>
    match q.dequeIds with
    | [] => ⟨q,st,.claimWait worker deadline,[]⟩
    | id::rest => ⟨{ q with dequeIds := rest },st,.claimStart worker deadline id,[]⟩
  | .claimStart worker deadline id => ⟨q,st,.claimAttempt worker deadline id clock,[]⟩
  | .claimAttempt worker deadline id now => claimEffect cfg q st worker deadline id now
  | .claimRequeue worker deadline id =>
    ⟨{ q with dequeIds := id::q.dequeIds },st,.claimPop worker deadline,[]⟩
  | .claimWait worker deadline =>
    if deadline ≤ clock then
      ⟨q,{ st with claimTimeout := st.claimTimeout + 1 },
        .idle (some (.claimed (.error ⟨.cancelled,"pull_timeout"⟩))),[]⟩
    else ⟨q,st,.recycleStart (.claimNext worker deadline),[]⟩
  | .statusTasks a =>
    match statusTasks clock a.worker (Text.trim a.requestId) a.detail a.progressPct q.tasks with
    | .error status => ⟨q,st,.idle (some (.updated (.error status))),[]⟩
    | .ok hm =>
      ⟨{ q with tasks := hm },{ st with statusUpdates := st.statusUpdates + 1 },
        .idle (some (.updated (.ok ()))),[]⟩
  | .completeTasks a => completeEffect q st a

/-- Where one step can lead a thread, and what it has seen in the queue. -/
inductive PcStep (cfg : Config) (clock : ℕ) (order : List String) (q : Queue) : Pc → Pc → Prop
  | idle {o} : PcStep cfg clock order q (.idle o) (.idle o)
  | recycleStart {c} : PcStep cfg clock order q (.recycleStart c) (.recycleTasks c clock)
  | recycleNone {c now} (none : (recycleTasks now order q.tasks).2 = []) :
      PcStep cfg clock order q (.recycleTasks c now) (.discardStart c)
  | recycleSome {c now} (some : (recycleTasks now order q.tasks).2 ≠ []) :
      PcStep cfg clock order q (.recycleTasks c now)
        (.recyclePush c (recycleTasks now order q.tasks).2)
  | recyclePush {c ids} : PcStep cfg clock order q (.recyclePush c ids) (.discardStart c)
  | discardStart {c} : PcStep cfg clock order q (.discardStart c) (.discardFront c clock)
  | frontNone {c now p} (front : q.dequeIds.head? = none) (resume : c.resume = p) :
      PcStep cfg clock order q (.discardFront c now) p
  | frontSome {c now id} (front : q.dequeIds.head? = some id) :
      PcStep cfg clock order q (.discardFront c now) (.discardStale c now id)
  | stale {c now id} (old : (q.tasks.lookup id).any (TaskEntry.stale cfg.ttl now) = true) :
      PcStep cfg clock order q (.discardStale c now id) (.discardPop c now id)
  | fresh {c now id p} (young : (q.tasks.lookup id).any (TaskEntry.stale cfg.ttl now) = false)
      (resume : c.resume = p) : PcStep cfg clock order q (.discardStale c now id) p
  | pop {c now id} (front : q.dequeIds.head? = some id) :
      PcStep cfg clock order q (.discardPop c now id) (.discardRemove c now id)
  | popOther {c now id} (front : q.dequeIds.head? ≠ some id) :
      PcStep cfg clock order q (.discardPop c now id) (.discardFront c now)
  | removeNone {c now id} (gone : q.tasks.lookup id = none) :
      PcStep cfg clock order q (.discardRemove c now id) (.discardFront c now)
  | remove {c now id e} (found : (discardRemove id q.tasks).2 = some e) :
      PcStep cfg clock order q (.discardRemove c now id) (.discardReinsert c now id e)
  | reinsert {c now id e} :
      PcStep cfg clock order q (.discardReinsert c now id e) (.discardFront c now)
  | capFull {a o} : PcStep cfg clock order q (.enqueueCap a) (.idle o)
  | cap {a} (room : q.dequeIds.length < cfg.cap) :
      PcStep cfg clock order q (.enqueueCap a) (.enqueueInsert a)
  | insertDuplicate {a o} : PcStep cfg clock order q (.enqueueInsert a) (.idle o)
  | insert {a} (fresh : a.rid ∉ q.tasks) :
      PcStep cfg clock order q (.enqueueInsert a) (.enqueuePush a.rid)
  | push {rid o} : PcStep cfg clock order q (.enqueuePush rid) (.idle o)
  | claimNone {w d} (front : q.dequeIds = []) :
      PcStep cfg clock order q (.claimPop w d) (.claimWait w d)
  | claimSome {w d id rest} (front : q.dequeIds = id::rest) :
      PcStep cfg clock order q (.claimPop w d) (.claimStart w d id)
  | claimStart {w d id} :
      PcStep cfg clock order q (.claimStart w d id) (.claimAttempt w d id clock)
  | taken {w d id now o} : PcStep cfg clock order q (.claimAttempt w d id now) (.idle o)
  | skip {w d id now} : PcStep cfg clock order q (.claimAttempt w d id now) (.claimPop w d)
  | requeueFront {w d id now e} (found : q.tasks.lookup id = some e) (other : e.phase ≠ .queued) :
      PcStep cfg clock order q (.claimAttempt w d id now) (.claimRequeue w d id)
  | requeue {w d id} : PcStep cfg clock order q (.claimRequeue w d id) (.claimPop w d)
  | timeout {w d o} (late : d ≤ clock) : PcStep cfg clock order q (.claimWait w d) (.idle o)
  | retry {w d} (early : clock < d) :
      PcStep cfg clock order q (.claimWait w d) (.recycleStart (.claimNext w d))
  | status {a o} : PcStep cfg clock order q (.statusTasks a) (.idle o)
  | complete {a o} : PcStep cfg clock order q (.completeTasks a) (.idle o)

lemma claimEffect_pc {cfg : Config} {clock : ℕ} {order : List String} {q : Queue} {st : Stats}
    {w : PubKey} {d : ℕ} {id : String} {now : ℕ} :
    PcStep cfg clock order q (.claimAttempt w d id now) (claimEffect cfg q st w d id now).pc := by
  cases hl : q.tasks.lookup id with
  | none => simpa only [claimEffect,attemptClaimId,hl] using .skip
  | some e =>
    by_cases hq : e.phase = .queued
    · by_cases httl : cfg.ttl < now - e.queuedAt
      · simpa [claimEffect,attemptClaimId,hl,hq,httl] using .skip
      · simpa [claimEffect,attemptClaimId,hl,hq,httl] using .taken
    · simpa [claimEffect,attemptClaimId,hl,hq] using .requeueFront hl hq

lemma removeEffect_pc {cfg : Config} {clock : ℕ} {order : List String} {q : Queue} {st : Stats}
    {c : Rest} {now : ℕ} {id : String} :
    PcStep cfg clock order q (.discardRemove c now id) (removeEffect q st c now id).pc := by
  cases hl : q.tasks.lookup id with
  | none => simpa only [removeEffect,discardRemove,hl,Option.map_none] using .removeNone hl
  | some e =>
    have hr : (discardRemove id q.tasks).2 = some (if e.phase = .queued then e.expire else e) := by
      simp [discardRemove,hl]
    simp only [removeEffect,hr]
    split <;> exact .remove hr

theorem advance_pc (p : Pc) : PcStep cfg clock order q p (advance cfg clock order q st p).pc := by
  cases p with
  | idle => exact .idle
  | recycleStart => exact .recycleStart
  | recycleTasks c now =>
    simp only [advance]
    split
    · exact .recycleNone ‹_›
    · exact .recycleSome ‹_›
  | recyclePush => exact .recyclePush
  | discardStart => exact .discardStart
  | discardFront c now =>
    simp only [advance]
    split
    · exact .frontNone ‹_› rfl
    · exact .frontSome ‹_›
  | discardStale c now id =>
    simp only [advance]
    split
    · exact .stale ‹_›
    · exact .fresh (Bool.eq_false_of_not_eq_true ‹_›) rfl
  | discardPop c now id =>
    simp only [advance]
    split
    · exact .pop ‹_›
    · exact .popOther ‹_›
  | discardRemove c now id => exact removeEffect_pc
  | discardReinsert => exact .reinsert
  | enqueueCap a =>
    simp only [advance]
    split
    · exact .capFull
    · exact .cap (by omega)
  | enqueueInsert a =>
    simp only [advance]
    split
    · exact .insertDuplicate
    · exact .insert ‹_›
  | enqueuePush => exact .push
  | claimPop w d =>
    simp only [advance]
    split
    · exact .claimNone ‹_›
    · exact .claimSome ‹_›
  | claimStart => exact .claimStart
  | claimAttempt w d id now => exact claimEffect_pc
  | claimRequeue => exact .requeue
  | claimWait w d =>
    simp only [advance]
    split
    · exact .timeout ‹_›
    · exact .retry (by omega)
  | statusTasks a =>
    simp only [advance]
    split <;> exact .status
  | completeTasks a =>
    simp only [advance,completeEffect]
    split <;> exact .complete

/-- One queue with all its threads. -/
structure Sys where
  clock : ℕ
  queue : Queue
  stats : Stats
  owner : Mutex → Option Tid
  pc : Tid → Pc
  entered : Tid → Bool
  log : List Event

def Sys.init (clock : ℕ) : Sys :=
  ⟨clock,.empty,{},fun _ => none,fun _ => .idle none,fun _ => false,[]⟩

/-- Time passes, a thread calls an operation, takes the guard it needs, or goes on. -/
inductive Label
  | tick (d : ℕ)
  | call (t : Tid) (op : Op)
  | acquire (t : Tid)
  | exec (t : Tid) (order : List String)

namespace Sys

variable (s : Sys) (t : Tid)

def orderOk (order : List String) : Bool :=
  match s.pc t with
  | .recycleTasks .. => order.Perm s.queue.tasks.keys
  | _ => true

/-- The thread can go on: it is in an operation and has the guard it needs. -/
def ready (order : List String) : Bool :=
  (s.pc t).isIdle = false && ((s.pc t).mutex.isNone || s.entered t) && s.orderOk t order

def effect (cfg : Config) (s : Sys) (t : Tid) (order : List String) : Effect :=
  advance cfg s.clock order s.queue s.stats (s.pc t)

/-- The guard is dropped with the section, except for the one that the `if let` keeps. -/
def release (next : Pc) : Mutex → Option Tid :=
  match (s.pc t).mutex with
  | none => s.owner
  | some m => if next.inIfLet then s.owner else Function.update s.owner m none

def apply (eff : Effect) : Sys where
  clock := s.clock
  queue := eff.queue
  stats := eff.stats
  owner := s.release t eff.pc
  pc := Function.update s.pc t eff.pc
  entered := Function.update s.entered t false
  log := eff.events ++ s.log

end Sys

def step (cfg : Config) (s : Sys) : Label → Option Sys
  | .tick d => some { s with clock := s.clock + d }
  | .call t op =>
    if (s.pc t).isIdle then some { s with pc := Function.update s.pc t (op.start s.clock) } else none
  | .acquire t =>
    match (s.pc t).mutex with
    | none => none
    | some m =>
      if s.entered t = false ∧ s.owner m = none then
        some { s with
          owner := Function.update s.owner m (some t)
          entered := Function.update s.entered t true }
      else none
  | .exec t order => if s.ready t order then some (s.apply t (s.effect cfg t order)) else none

/-- States that the threads can reach when every step meets `ok`. -/
def ReachableBy (cfg : Config) (ok : Sys → Label → Prop) (s : Sys) : Prop :=
  ∃ clock, Run (step cfg) ok (Sys.init clock) s

def Reachable (cfg : Config) (s : Sys) : Prop := ReachableBy cfg anyStep s

variable {ok : Sys → Label → Prop}

lemma ReachableBy.reachable {cfg : Config} {s : Sys}
    (h : ReachableBy cfg ok s) : Reachable cfg s := by
  obtain ⟨c,hr⟩ := h
  exact ⟨c,hr.weaken⟩

lemma ReachableBy.run {cfg : Config} {s t : Sys}
    (h : ReachableBy cfg ok s) (hr : Run (step cfg) ok s t) : ReachableBy cfg ok t := by
  obtain ⟨c,hc⟩ := h
  exact ⟨c,hc.trans hr⟩

variable {cfg : Config} {s s' : Sys} {t : Tid} {order : List String}

/-- An executed section: the thread was in an operation, held the guard, and used an order
of the keys. -/
lemma step_exec (h : step cfg s (.exec t order) = some s') :
    (s.pc t).isIdle = false ∧ (∀ m, (s.pc t).mutex = some m → s.entered t = true) ∧
      s.orderOk t order = true ∧ s' = s.apply t (s.effect cfg t order) := by
  simp only [step] at h
  split at h
  swap
  · cases h
  rename_i hr
  simp only [Sys.ready,Bool.and_eq_true,decide_eq_true_eq,Bool.or_eq_true] at hr
  obtain ⟨⟨hi,hm⟩,ho⟩ := hr
  refine ⟨by simpa using hi,?_,ho,(Option.some.inj h).symm⟩
  intro m hpm
  rcases hm with hm | hm
  · simp [hpm] at hm
  · exact hm

lemma step_acquire (h : step cfg s (.acquire t) = some s') :
    ∃ m, (s.pc t).mutex = some m ∧ s.entered t = false ∧ s.owner m = none ∧ s' = { s with
        owner := Function.update s.owner m (some t)
        entered := Function.update s.entered t true } := by
  simp only [step] at h
  split at h
  · cases h
  · rename_i m hm
    split at h
    · rename_i hc
      exact ⟨m,hm,hc.1,hc.2,(Option.some.inj h).symm⟩
    · cases h

lemma step_call {op : Op} (h : step cfg s (.call t op) = some s') : (s.pc t).isIdle = true ∧
      s' = { s with pc := Function.update s.pc t (op.start s.clock) } := by
  simp only [step] at h
  split at h
  · rename_i hc
    exact ⟨hc,(Option.some.inj h).symm⟩
  · cases h

lemma Op.start_cases (clock : ℕ) (op : Op) :
    (∃ c, op.start clock = .recycleStart c) ∨ ∃ o, op.start clock = .idle o := by
  cases op with
  | enqueue a | claimNext worker wait => exact Or.inl ⟨_,rfl⟩
  | applyStatus a | applyComplete a =>
    simp only [Op.start]
    split
    · exact Or.inr ⟨_,rfl⟩
    · exact Or.inl ⟨_,rfl⟩

lemma exec_pc (hs : step cfg s (.exec t order) = some s') :
    PcStep cfg s.clock order s.queue (s.pc t) (s'.pc t) := by
  obtain ⟨_,_,_,rfl⟩ := step_exec hs
  simp only [Sys.apply,Function.update_self]
  exact advance_pc _ _ _ _ _ _

def Label.tid : Label → Option Tid
  | .tick _ => none
  | .call t _ | .acquire t | .exec t _ => some t

lemma step_pc_of_ne {a : Label} {u : Tid} (hu : a.tid ≠ some u)
    (hs : step cfg s a = some s') : s'.pc u = s.pc u := by
  cases a with
  | tick d => cases hs; rfl
  | call t op =>
    obtain ⟨_,rfl⟩ := step_call hs
    exact Function.update_of_ne (fun h => hu (congrArg some h.symm)) _ _
  | acquire t =>
    obtain ⟨_,_,_,_,rfl⟩ := step_acquire hs
    rfl
  | exec t order =>
    obtain ⟨_,_,_,rfl⟩ := step_exec hs
    exact Function.update_of_ne (fun h => hu (congrArg some h.symm)) _ _

lemma step_pc {a : Label} (hs : step cfg s a = some s') (t : Tid) : s'.pc t = s.pc t ∨
      (∃ op, a = .call t op ∧ (s.pc t).isIdle = true ∧ s'.pc t = op.start s.clock) ∨
      ∃ order, a = .exec t order ∧ PcStep cfg s.clock order s.queue (s.pc t) (s'.pc t) := by
  by_cases ha : a.tid = some t
  swap
  · exact Or.inl (step_pc_of_ne ha hs)
  cases a with
  | tick => cases ha
  | call u op =>
    cases ha
    obtain ⟨hidle,rfl⟩ := step_call hs
    exact Or.inr (Or.inl ⟨op,rfl,hidle,Function.update_self ..⟩)
  | acquire u =>
    obtain ⟨_,_,_,_,rfl⟩ := step_acquire hs
    exact Or.inl rfl
  | exec u order =>
    cases ha
    exact Or.inr (Or.inr ⟨order,rfl,exec_pc hs⟩)

variable {as : List Label}

lemma execute_pc [∀ s a, Decidable (ok s a)] {u : Tid} (hu : some u ∉ as.map Label.tid)
    (h : execute (step cfg) ok as s = some s') : s'.pc u = s.pc u := by
  induction as generalizing s with
  | nil => cases h; rfl
  | cons a as ih =>
    simp only [List.map_cons,List.mem_cons,not_or] at hu
    simp only [execute] at h
    split at h
    · obtain ⟨v,hv,ht⟩ := Option.bind_eq_some_iff.mp h
      rw [ih hu.2 ht,step_pc_of_ne (fun h => hu.1 h.symm) hv]
    · cases h

lemma execute_idle [∀ s a, Decidable (ok s a)] {clock : ℕ} (n : ℕ)
    (h : execute (step cfg) ok as (Sys.init clock) = some s)
    (hn : ∀ a ∈ as, a.tid.all (fun t => t < n) = true)
    (hidle : ∀ t < n, (s.pc t).isIdle = true) (t : Tid) : (s.pc t).isIdle = true := by
  by_cases ht : t < n
  · exact hidle t ht
  rw [execute_pc ?_ h]
  · rfl
  · intro hmem
    obtain ⟨a,ha,hat⟩ := List.mem_map.mp hmem
    have hlt := hn a ha
    rw [hat] at hlt
    exact ht (by simpa using hlt)

/-- No thread but thread 0 has ever been called. -/
def Sys.Sole (s : Sys) : Prop := ∀ u, u ≠ 0 → s.pc u = .idle none

lemma execute_run_sole {ok' : Sys → Label → Prop} [∀ s a, Decidable (ok' s a)]
    (hok : ∀ s a, s.Sole → a.tid.all (fun t => t = 0) = true → ok' s a → ok s a)
    {clock : ℕ}
    (h : execute (step cfg) (fun s a => a.tid.all (fun t => t = 0) = true ∧ ok' s a) as
      (Sys.init clock) = some s) : ReachableBy cfg ok s ∧ s.Sole := by
  have hsole : ∀ {u}, Run (step cfg) (fun s a => a.tid.all (fun t => t = 0) = true ∧ ok' s a)
      (Sys.init clock) u → u.Sole := by
    intro u hr
    refine hr.invariant ?_ (fun u _ => rfl)
    rintro u a u' hsole ⟨ha,_⟩ hs v hv
    rw [step_pc_of_ne ?_ hs,hsole v hv]
    intro hat
    rw [hat] at ha
    exact hv (by simpa using ha)
  refine ⟨⟨clock,(execute_run h).mono ?_⟩,hsole (execute_run h)⟩
  rintro u a hr ⟨ha,hok'⟩
  exact hok u a (hsole hr) ha hok'

/-! Schedules of one thread, from which runs are put together. -/

variable (t : Tid)

/-- Take the guard and run the section under it. -/
def locked (order : List String) : List Label := [.acquire t,.exec t order]

/-- `recycle_expired_leases` when no lease has run out. -/
def recycleNone (order : List String) : List Label := .exec t []::locked t order

/-- `recycle_expired_leases` when some lease has run out. -/
def recycleSome (order : List String) : List Label := recycleNone t order ++ locked t []

/-- `discard_ttl_expired` on an empty deque. -/
def discardEmpty : List Label := .exec t []::locked t []

/-- `discard_ttl_expired` when the front is not stale, or up to the pop when it is. -/
def discardFresh : List Label := discardEmpty t ++ locked t []

/-- `enqueue` after `prune_all`, when the task is accepted. -/
def enqueueRest : List Label := locked t [] ++ locked t [] ++ locked t []

/-- One iteration of `try_claim_one` on a waiting id. -/
def claimOnce : List Label := locked t [] ++ .exec t []::locked t []

/-- A request with the given id. -/
def Submit.ofId (id : String) : Submit where
  envelope := ⟨id,"",0,"","","","","","",[],[],false,0⟩
  unixMs := 0
  createdMs := 0
  random := 0

def workerKey (b : UInt8) : PubKey := List.Vector.replicate 32 b

def minuteTtl : Config := Config.new "p" 8 60000000000 60000000000

def halfMinuteLease (cap : ℕ) : Config := Config.new "p" cap 60000000000 30000000000

/-- Thread 0 stores `a` and, 40 s later, `b`. -/
def storeTwo : List Label :=
  [.call 0 (.enqueue (.ofId "a"))] ++ recycleNone 0 [] ++ discardEmpty 0 ++ enqueueRest 0 ++
  [.tick 40000000000,.call 0 (.enqueue (.ofId "b"))] ++ recycleNone 0 ["a"] ++ discardFresh 0 ++
  enqueueRest 0

/-- Thread 0 stores `a` and thread 1 claims it. -/
def storeAndClaim : List Label :=
  [.call 0 (.enqueue (.ofId "a"))] ++ recycleNone 0 [] ++ discardEmpty 0 ++ enqueueRest 0 ++
  [.call 1 (.claimNext (workerKey 1) 0)] ++ recycleNone 1 ["a"] ++ discardFresh 1 ++ claimOnce 1

/-- A call of `apply_complete` on an empty deque, when no lease has run out. -/
def applyPart (order : List String) (worker : PubKey) (part : TaskComplete) :
    List Label :=
  [.call t (.applyComplete ⟨worker,part⟩)] ++ recycleNone t order ++ discardEmpty t ++ locked t []

end PirateServer.TaskQueue
