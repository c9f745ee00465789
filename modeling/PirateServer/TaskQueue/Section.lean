import PirateServer.TaskQueue.Entry

/-! The code that runs under each guard of `task_queue.rs`, as functions of the value that
the guard protects. A hash map is iterated in an order that is given from outside. -/
namespace PirateServer.TaskQueue
open Lib

/-- The body of the loop in `recycle_expired_leases`; `none` leaves the entry alone. -/
def TaskEntry.recycle (now : ℕ) (e : TaskEntry) : Option TaskEntry :=
  if e.phase.active then
    match e.leaseUntil with
    | none => none
    | some deadline =>
      if deadline < now then
        some { e with
          phase := .queued
          claimant := none
          leaseUntil := none
          detail := some "lease_expired_requeued" }
      else none
  else none

/-- `recycle_expired_leases` under `tasks`: the updated map and the ids to requeue. -/
def recycleTasks (now : ℕ) : List String → Tasks → Tasks × List String
  | [],hm => (hm,[])
  | id::order,hm =>
    match (hm.lookup id).bind (TaskEntry.recycle now) with
    | none => recycleTasks now order hm
    | some e =>
      let rest := recycleTasks now order (hm.insert id e)
      (rest.1,id::rest.2)

/-- `recycle_expired_leases` under `deque_ids`. -/
def pushFrontMissing : List String → List String → List String
  | [],dq => dq
  | id::ids,dq => pushFrontMissing ids (if id ∈ dq then dq else id::dq)

/-- The test `is_stale` of `discard_ttl_expired`. -/
def TaskEntry.stale (ttl now : ℕ) (e : TaskEntry) : Bool :=
  e.phase = .queued && ttl < now - e.queuedAt

def TaskEntry.expire (e : TaskEntry) : TaskEntry :=
  { e with phase := .expired, terminalError := some "queued_ttl_expired" }

/-- The scrutinee of the `if let` in `discard_ttl_expired` and its body up to the second
`tasks.lock()`: the entry leaves the map and is marked as expired when it was queued. -/
def discardRemove (id : String) (hm : Tasks) : Tasks × Option TaskEntry :=
  (hm.erase id,(hm.lookup id).map (fun e => if e.phase = .queued then e.expire else e))

/-- The request id under which `enqueue` stores a task. -/
def assignRequestId (envelope : BusRequestEnvelope) (unixMs : Int64) (random : UInt64) : String :=
  if Text.trim envelope.requestId = "" then
    "tq-" ++ Text.decimal unixMs ++ "-" ++ Text.hex16 random
  else Text.trim envelope.requestId

/-- The entry that `enqueue` inserts. -/
def newEntry (cfg : Config) (rid : String) (envelope : BusRequestEnvelope) (createdMs : Int64)
    (now : ℕ) : TaskEntry where
  profileId := cfg.profileId
  envelope := { envelope with
    requestId := rid
    bodyFinished := true
    createdAtMs := if envelope.createdAtMs = 0 then createdMs else envelope.createdAtMs }
  queuedAt := now
  phase := .queued
  claimant := none
  leaseUntil := none
  detail := none
  progressPct := 0
  responseStatus := none
  responseHeaders := []
  responseBody := []
  terminalError := none

inductive ClaimAttempt
  | taken (envelope : BusRequestEnvelope)
  | skip
  | requeueFront

def TaskEntry.claim (cfg : Config) (now : ℕ) (worker : PubKey) (e : TaskEntry) : TaskEntry :=
  { e with phase := .claimed, claimant := some worker, leaseUntil := some (now + cfg.lease) }

/-- `attempt_claim_id`; the number is what it adds to `task_queue_expired`. -/
def attemptClaimId (cfg : Config) (now : ℕ) (worker : PubKey) (id : String) (hm : Tasks) :
    ClaimAttempt × Tasks × ℕ :=
  match hm.lookup id with
  | none => (.skip,hm,0)
  | some e =>
    if e.phase ≠ .queued then (.requeueFront,hm,0)
    else if cfg.ttl < now - e.queuedAt then (.skip,hm.insert id e.expire,1)
    else (.taken e.envelope,hm.insert id (e.claim cfg now worker),0)

/-- `apply_status` under `tasks`. -/
def statusTasks (now : ℕ) (worker : PubKey) (rid : String) (detail : Option String)
    (progressPct : UInt32) (hm : Tasks) : Except Status Tasks :=
  match hm.lookup rid with
  | none => .error ⟨.notFound,"unknown task"⟩
  | some e =>
    if some worker ≠ e.claimant then
      .error ⟨.permissionDenied,"wrong worker for task status update"⟩
    else if e.phase.active = false then
      .error ⟨.failedPrecondition,"task not claimable/active"⟩
    else if e.leaseUntil.getD now < now then
      .error ⟨.failedPrecondition,"lease expired"⟩
    else
      .ok (hm.insert rid { e with phase := .running, detail := detail, progressPct := progressPct })

def TaskEntry.fail (part : TaskComplete) (e : TaskEntry) : TaskEntry :=
  { e with
    phase := .failed
    terminalError := some (Text.trim part.error)
    responseBody := e.responseBody ++ part.bodyChunk }

/-- Status and headers replace what is stored unless they are absent; the chunk is appended. -/
def TaskEntry.absorb (part : TaskComplete) (e : TaskEntry) : TaskEntry :=
  { e with
    responseStatus := if part.status ≠ 0 then some part.status else e.responseStatus
    responseHeaders := if part.headers ≠ [] then part.headers else e.responseHeaders
    responseBody := e.responseBody ++ part.bodyChunk }

def TaskEntry.complete (e : TaskEntry) : TaskEntry :=
  { e with responseStatus := some (e.responseStatus.getD 200), phase := .completed }

/-- The part reports a failure: `finished` with a non-blank error. -/
def TaskComplete.reportsFailure (part : TaskComplete) : Bool :=
  part.finished && Text.trim part.error ≠ ""

/-- `apply_complete` under `tasks`. An accepted final part says which counter it adds to. Both
branches of the source look the task up and check the claimant in the same way. -/
def completeTasks (worker : PubKey) (part : TaskComplete) (hm : Tasks) :
    Except Status (Option StoredTaskPhase) × Tasks :=
  let rid := Text.trim part.requestId
  match hm.lookup rid with
  | none => (.error ⟨.notFound,"unknown task"⟩,hm)
  | some e =>
    if some worker ≠ e.claimant then
      (.error ⟨.permissionDenied,"wrong worker for task complete"⟩,hm)
    else if part.reportsFailure then (.ok (some .failed),hm.insert rid (e.fail part))
    else if part.finished = false then (.ok none,hm.insert rid (e.absorb part))
    else if (e.absorb part).responseStatus = none ∧ (e.absorb part).responseBody = [] then
      -- the fields are already overwritten when this check fails
      (.error ⟨.invalidArgument,"task complete missing status and body"⟩,
        hm.insert rid (e.absorb part))
    else (.ok (some .completed),hm.insert rid (e.absorb part).complete)

variable {worker : PubKey} {part : TaskComplete} {hm : Tasks} {e : TaskEntry}

lemma completeTasks_unknown (hl : hm.lookup (Text.trim part.requestId) = none) :
    completeTasks worker part hm = (.error ⟨.notFound,"unknown task"⟩,hm) := by
  simp only [completeTasks,hl]

lemma completeTasks_wrongWorker (hl : hm.lookup (Text.trim part.requestId) = some e)
    (hw : e.claimant ≠ some worker) : completeTasks worker part hm =
      (.error ⟨.permissionDenied,"wrong worker for task complete"⟩,hm) := by
  simp only [completeTasks,hl]
  exact if_pos hw.symm

lemma completeTasks_own (hl : hm.lookup (Text.trim part.requestId) = some e)
    (hw : e.claimant = some worker) : completeTasks worker part hm = if part.reportsFailure then
        (.ok (some .failed),hm.insert (Text.trim part.requestId) (e.fail part))
      else if part.finished = false then
        (.ok none,hm.insert (Text.trim part.requestId) (e.absorb part))
      else if (e.absorb part).responseStatus = none ∧ (e.absorb part).responseBody = [] then
        (.error ⟨.invalidArgument,"task complete missing status and body"⟩,
          hm.insert (Text.trim part.requestId) (e.absorb part)) else
        (.ok (some .completed),hm.insert (Text.trim part.requestId) (e.absorb part).complete) := by
  simp only [completeTasks,hl]
  exact if_neg (not_not.mpr hw.symm)

variable {now : ℕ} {order : List String}

/-- The lease of the task `id` has run out. -/
def leaseExpired (now : ℕ) (hm : Tasks) (id : String) : Bool :=
  ((hm.lookup id).bind (TaskEntry.recycle now)).isSome

lemma TaskEntry.recycle_eq_some {e' : TaskEntry} (h : e.recycle now = some e') :
    e.phase.active = true ∧ e' = { e with
      phase := .queued
      claimant := none
      leaseUntil := none
      detail := some "lease_expired_requeued" } := by
  unfold TaskEntry.recycle at h
  split at h
  · rename_i hp
    split at h
    · cases h
    · split at h
      · cases h; exact ⟨hp,rfl⟩
      · cases h
  · cases h

lemma TaskEntry.recycle_eq_none_of_inactive (h : e.phase.active = false) :
    e.recycle now = none := by simp [TaskEntry.recycle,h]

lemma bind_recycle_insert {id j : String} (h : j ≠ id) :
    ((hm.insert id e).lookup j).bind (TaskEntry.recycle now) =
      (hm.lookup j).bind (TaskEntry.recycle now) := by
  rw [AList.lookup_insert_ne h]

theorem recycleTasks_requeue (hnd : order.Nodup) :
    (recycleTasks now order hm).2 = order.filter (leaseExpired now hm) := by
  induction order generalizing hm with
  | nil => rfl
  | cons id order ih =>
    obtain ⟨hid,hnd⟩ := List.nodup_cons.mp hnd
    cases hb : (hm.lookup id).bind (TaskEntry.recycle now) with
    | none =>
      have he : leaseExpired now hm id = false := by simp [leaseExpired,hb]
      simp only [recycleTasks,hb,List.filter_cons,he]
      exact ih hnd
    | some e =>
      have he : leaseExpired now hm id = true := by simp [leaseExpired,hb]
      have hrest : order.filter (leaseExpired now (hm.insert id e)) =
          order.filter (leaseExpired now hm) := by
        apply List.filter_congr
        intro j hj
        have hji : j ≠ id := fun hji => hid (hji ▸ hj)
        simp only [leaseExpired,bind_recycle_insert hji]
      simp only [recycleTasks,hb,List.filter_cons,he,ih hnd,hrest,if_true]

/-- What the loop leaves under each key. -/
theorem lookup_recycleTasks (hnd : order.Nodup) (j : String) :
    (recycleTasks now order hm).1.lookup j =
      if j ∈ order then (hm.lookup j).map (fun e => (e.recycle now).getD e) else hm.lookup j := by
  induction order generalizing hm with
  | nil => simp [recycleTasks]
  | cons id order ih =>
    obtain ⟨hid,hnd⟩ := List.nodup_cons.mp hnd
    cases hb : (hm.lookup id).bind (TaskEntry.recycle now) with
    | none =>
      simp only [recycleTasks,hb,ih hnd]
      by_cases hj : j = id
      · subst hj
        cases hl : hm.lookup j with
        | none => simp
        | some e =>
          rw [hl] at hb
          have hr : e.recycle now = none := hb
          simp [hid,hr]
      · simp [hj]
    | some e =>
      simp only [recycleTasks,hb,ih hnd]
      by_cases hj : j = id
      · subst hj
        obtain ⟨e₀,hl,hr⟩ := Option.bind_eq_some_iff.mp hb
        simp [hid,hl,hr]
      · simp [hj,AList.lookup_insert_ne hj]

/-- A full iteration recycles every expired lease. -/
theorem lookup_recycleTasks_of_perm (h : order.Perm hm.keys) (j : String) :
    (recycleTasks now order hm).1.lookup j =
      (hm.lookup j).map (fun e => (e.recycle now).getD e) := by
  rw [lookup_recycleTasks (h.nodup_iff.mpr hm.keys_nodup)]
  split
  · rfl
  rename_i hj
  have hn : hm.lookup j = none := by
    apply AList.lookup_eq_none.mpr
    rw [AList.mem_keys]
    exact fun hm' => hj (h.mem_iff.mpr hm')
  simp [hn]

lemma pushFrontMissing_eq {ids dq : List String} (hnd : ids.Nodup) (h : ∀ id ∈ ids, id ∉ dq) :
    pushFrontMissing ids dq = ids.reverse ++ dq := by
  induction ids generalizing dq with
  | nil => rfl
  | cons id ids ih =>
    obtain ⟨hid,hnd⟩ := List.nodup_cons.mp hnd
    simp only [pushFrontMissing,if_neg (h id List.mem_cons_self)]
    rw [ih hnd]
    · simp
    · intro j hj hm
      rcases List.mem_cons.mp hm with rfl | hm
      · exact hid hj
      · exact h j (List.mem_cons_of_mem _ hj) hm

end PirateServer.TaskQueue
