import PirateServer.TaskQueue.Growth

/-! Whole calls of `apply_status` and `apply_complete`, and what a refused one leaves behind. Every
refusal comes before the first assignment, except the last one of `apply_complete`: it comes after
the headers of the part have replaced those of the task. -/
namespace PirateServer.TaskQueue
open Lib StateTransition Option

/-- The instants that a call reads: for the leases, for the time in the queue, and for the lease
of the task that it is about. -/
structure Readings where
  recycle : ℕ
  discard : ℕ
  check : ℕ

/-- `prune_all`. It has no result where `discard_ttl_expired` locks `tasks` for a second time. -/
def pruneAll (cfg : Config) (now : Readings) (order : List String) (q : Queue) : Option Queue :=
  let q := recycleExpiredLeases now.recycle order q
  if staleFront cfg now.discard q then none else some q

inductive WorkerCall
  | status (a : StatusUpdate)
  | complete (a : CompletePart)

namespace WorkerCall

def rid : WorkerCall → String
  | status a => Text.trim a.requestId
  | complete a => a.rid

/-- The call after `prune_all`. -/
def apply (check : ℕ) (q : Queue) : WorkerCall → Except Status Unit × Queue
  | status a =>
    match statusTasks check a.worker (Text.trim a.requestId) a.detail a.progressPct q.tasks with
    | .error e => (.error e,q)
    | .ok hm => (.ok (),{ q with tasks := hm })
  | complete a =>
    let r := completeTasks a.worker a.part q.tasks
    (r.1.map (fun _ => ()),{ q with tasks := r.2 })

def run (cfg : Config) (now : Readings) (order : List String) (q : Queue) (call : WorkerCall) :
    Option (Except Status Unit × Queue) :=
  if call.rid = "" then some (.error ⟨.invalidArgument,"empty request_id"⟩,q)
  else (pruneAll cfg now order q).map (fun q => call.apply now.check q)

end WorkerCall

variable {cfg : Config} {now : Readings} {order : List String} {q pruned after : Queue}
  {call : WorkerCall} {status : Status}

lemma lookup_pruneAll (horder : order.Perm q.tasks.keys)
    (h : pruneAll cfg now order q = some pruned) (id : String) : pruned.tasks.lookup id =
      (q.tasks.lookup id).map (fun e => (e.recycle now.recycle).getD e) := by
  simp only [pruneAll] at h
  split_ifs at h
  simp only [Option.some.injEq] at h
  subst h
  exact lookup_recycleTasks_of_perm horder id

def WorkerCall.BringsHeaders (now : ℕ) (q : Queue) : WorkerCall → Prop
  | .status _ => False
  | .complete a => ∃ e, q.tasks.lookup a.rid = some e ∧ e.recycle now = none ∧
      e.claimant = some a.worker ∧ a.part.headers ≠ [] ∧ a.part.headers ≠ e.responseHeaders

lemma TaskEntry.absorb_eq_self_iff {part : TaskComplete} {e : TaskEntry}
    (hstatus : (e.absorb part).responseStatus = none) (hbody : (e.absorb part).responseBody = []) :
    e.absorb part = e ↔ ¬(part.headers ≠ [] ∧ part.headers ≠ e.responseHeaders) := by
  have hzero : part.status = 0 := by
    by_contra hne
    simp [TaskEntry.absorb,hne] at hstatus
  have hchunk : part.bodyChunk = [] := (List.append_eq_nil_iff.mp hbody).2
  have habsorb : e.absorb part = { e with
      responseHeaders := if part.headers ≠ [] then part.headers else e.responseHeaders } := by
    simp [TaskEntry.absorb,hzero,hchunk]
  rw [habsorb]
  constructor
  · rintro heq ⟨hne,hother⟩
    have hheaders := congrArg TaskEntry.responseHeaders heq
    simp only [if_pos hne] at hheaders
    exact hother hheaders
  · intro hno
    by_cases hne : part.headers = []
    · simp [hne]
    · have hsame : part.headers = e.responseHeaders := by
        by_contra hother
        exact hno ⟨hne,hother⟩
      simp [hsame]

lemma entry_of_pruned {now : ℕ} {o : Option TaskEntry} {e : TaskEntry} {w : PubKey}
    (h : o.map (fun e => (e.recycle now).getD e) = some e) (hw : e.claimant = some w) :
    o = some e ∧ e.recycle now = none := by
  obtain ⟨e₀,rfl,heq⟩ := Option.map_eq_some_iff.mp h
  cases hr : e₀.recycle now with
  | none =>
    rw [hr,getD_none] at heq
    subst heq
    exact ⟨rfl,hr⟩
  | some e' =>
    rw [hr,getD_some] at heq
    obtain ⟨-,hqueued⟩ := TaskEntry.recycle_eq_some hr
    rw [← heq,hqueued] at hw
    cases hw

lemma recycled_eq_iff (now : ℕ) (o : Option TaskEntry) :
    o = o.map (fun e => (e.recycle now).getD e) ↔ o.bind (TaskEntry.recycle now) = none := by
  cases o with
  | none => simp
  | some e =>
    simp only [map_some,Option.some.injEq,bind_some]
    cases hr : e.recycle now with
    | none => simp
    | some e' =>
      obtain ⟨hactive,hqueued⟩ := TaskEntry.recycle_eq_some hr
      refine iff_of_false (fun heq => ?_) (by simp)
      rw [getD_some] at heq
      rw [heq,hqueued] at hactive
      cases hactive

/-- After `prune_all`, a refused call has changed its task exactly when it brought headers. -/
lemma refused_apply_iff (horder : order.Perm q.tasks.keys)
    (hprune : pruneAll cfg now order q = some pruned)
    (h : call.apply now.check pruned = (.error status,after)) :
    after.tasks.lookup call.rid = pruned.tasks.lookup call.rid ↔
      ¬call.BringsHeaders now.recycle q := by
  have hlook := lookup_pruneAll horder hprune call.rid
  cases call with
  | status a =>
    simp only [WorkerCall.apply] at h
    split at h
    · simp only [Prod.mk.injEq] at h
      rw [← h.2]
      simp [WorkerCall.BringsHeaders]
    · simp at h
  | complete a =>
    simp only [WorkerCall.apply,Prod.mk.injEq] at h
    obtain ⟨herr,hafter⟩ := h
    have htasks : after.tasks = (completeTasks a.worker a.part pruned.tasks).2 := by rw [← hafter]
    simp only [WorkerCall.rid] at hlook ⊢
    rw [htasks]
    cases he : pruned.tasks.lookup a.rid with
    | none =>
      rw [completeTasks_unknown he,he]
      refine iff_of_true rfl ?_
      rintro ⟨e,hq,-⟩
      rw [he,hq] at hlook
      cases hlook
    | some e =>
      by_cases hw : e.claimant = some a.worker
      · obtain ⟨hq,hlease⟩ := entry_of_pruned (hlook.symm.trans he) hw
        have hbrings : (WorkerCall.complete a).BringsHeaders now.recycle q ↔
            a.part.headers ≠ [] ∧ a.part.headers ≠ e.responseHeaders := by
          constructor
          · rintro ⟨e₀,hq₀,-,-,hheaders⟩
            rw [hq,Option.some.injEq] at hq₀
            rwa [hq₀]
          · exact fun hheaders => ⟨e,hq,hlease,hw,hheaders⟩
        rw [completeTasks_own he hw] at herr ⊢
        split_ifs at herr ⊢ with hfail hmore hempty
        · simp [Except.map] at herr
        · simp [Except.map] at herr
        · have hafter' : (pruned.tasks.insert (Text.trim a.part.requestId)
              (e.absorb a.part)).lookup a.rid = some (e.absorb a.part) := AList.lookup_insert _
          rw [hafter',Option.some.injEq,hbrings]
          exact TaskEntry.absorb_eq_self_iff hempty.1 hempty.2
        · simp [Except.map] at herr
      · rw [completeTasks_wrongWorker he hw,he]
        refine iff_of_true rfl ?_
        rintro ⟨e₀,hq,hlease,hclaim,-⟩
        rw [hq,map_some,hlease,getD_none,he,Option.some.injEq] at hlook
        rw [hlook] at hw
        exact hw hclaim

lemma assignRequestId_ne_empty (envelope : BusRequestEnvelope) (unixMs : Int64) (random : UInt64) :
    assignRequestId envelope unixMs random ≠ "" := by
  unfold assignRequestId
  split_ifs with h
  · intro heq
    have hlist := congrArg String.toList heq
    simp at hlist
  · exact h

theorem Reachable.empty_id_unused {s : Sys} (h : Reachable cfg s) :
    s.queue.tasks.lookup "" = none := by
  obtain ⟨c,hr⟩ := h
  refine hr.invariant_of (I := fun s => s.queue.tasks.lookup "" = none)
    (fun u hu => Reachable.guardInv ⟨c,hu⟩) (fun s a s' hg hi _ hs => ?_) rfl
  rcases step_quiet hs with hquiet | ⟨t,order,rfl⟩
  · rwa [hquiet.queue]
  have hentry := exec_entry hg hs ""
  rw [hi] at hentry
  generalize s'.queue.tasks.lookup "" = o at hentry ⊢
  generalize about "" (s.effect cfg t order).events = evs at hentry
  cases hentry with
  | same => rfl
  | created _ hrid => exact absurd hrid (assignRequestId_ne_empty _ _ _)

/-- A refused call leaves its task as `prune_all` does exactly when it is not a part of the
claimant that brings other headers. A call with an empty id returns before `prune_all`, and no
task is stored under that id. -/
theorem call_errors_atomic_iff (cfg : Config) :
    (∀ (now : Readings) (order : List String) (q pruned after : Queue) (call : WorkerCall)
      (status : Status), order.Perm q.tasks.keys → pruneAll cfg now order q = some pruned →
      call.run cfg now order q = some (.error status,after) →
      (after.tasks.lookup call.rid = pruned.tasks.lookup call.rid ↔
        if call.rid = "" then (q.tasks.lookup "").bind (TaskEntry.recycle now.recycle) = none
        else ¬call.BringsHeaders now.recycle q)) ∧
    ∀ s, Reachable cfg s → s.queue.tasks.lookup "" = none := by
  refine ⟨fun now order q pruned after call status horder hprune hrun => ?_,
    fun s hs => hs.empty_id_unused⟩
  unfold WorkerCall.run at hrun
  by_cases hblank : call.rid = ""
  · simp only [hblank,if_true,Option.some.injEq,Prod.mk.injEq] at hrun ⊢
    rw [← hrun.2,hblank,lookup_pruneAll horder hprune]
    exact recycled_eq_iff _ _
  · simp only [if_neg hblank,hprune,map_some,Option.some.injEq] at hrun ⊢
    exact refused_apply_iff horder hprune hrun

def headersOnly : TaskComplete := ⟨"a",0,[⟨"x","1"⟩],[],true,""⟩

/-- The call is refused, and `prune_all` alone returns. -/
def WorkerCall.refusedAlone (call : WorkerCall) (q : Queue) : Bool :=
  (pruneAll minuteTtl ⟨0,0,0⟩ ["a"] q).isSome &&
    (call.run minuteTtl ⟨0,0,0⟩ ["a"] q).any (fun r => !r.1.isOk)

lemma WorkerCall.refusedAlone_iff : call.refusedAlone q = true ↔ ∃ pruned status after,
      pruneAll minuteTtl ⟨0,0,0⟩ ["a"] q = some pruned ∧
      call.run minuteTtl ⟨0,0,0⟩ ["a"] q = some (.error status,after) := by
  rw [refusedAlone,Bool.and_eq_true,isSome_iff_exists,Option.any_eq_true]
  constructor
  · rintro ⟨⟨pruned,hprune⟩,⟨r,after⟩,hrun,herr⟩
    cases r with
    | error status => exact ⟨pruned,status,after,hprune,hrun⟩
    | ok u => cases herr
  · rintro ⟨pruned,status,after,hprune,hrun⟩
    exact ⟨⟨pruned,hprune⟩,_,hrun,rfl⟩

theorem call_error_atomic_other_worker : ∃ s pruned status after, Reachable minuteTtl s ∧
    pruneAll minuteTtl ⟨0,0,0⟩ ["a"] s.queue = some pruned ∧
    (WorkerCall.complete ⟨workerKey 2,headersOnly⟩).run minuteTtl ⟨0,0,0⟩ ["a"] s.queue =
      some (.error status,after) ∧ after.tasks.lookup "a" = pruned.tasks.lookup "a" := by
  obtain ⟨s,hs,hkeys,hother,hrefused⟩ : ∃ s, Run (step minuteTtl) anyStep (Sys.init 0) s ∧
      s.queue.tasks.keys = ["a"] ∧
      (s.queue.tasks.lookup "a").all (fun e => e.claimant ≠ some (workerKey 2)) = true ∧
      (WorkerCall.complete ⟨workerKey 2,headersOnly⟩).refusedAlone s.queue = true :=
    exists_run storeAndClaim (by decide +kernel)
  obtain ⟨pruned,status,after,hprune,hrun⟩ := WorkerCall.refusedAlone_iff.mp hrefused
  have hperm : ["a"].Perm s.queue.tasks.keys := by rw [hkeys]
  have hrid : (WorkerCall.complete ⟨workerKey 2,headersOnly⟩).rid = "a" := by decide +kernel
  have hiff := (call_errors_atomic_iff minuteTtl).1 ⟨0,0,0⟩
      ["a"] s.queue pruned after _ status hperm
    hprune hrun
  rw [hrid,if_neg (by decide)] at hiff
  refine ⟨s,pruned,status,after,⟨0,hs⟩,hprune,hrun,hiff.mpr ?_⟩
  rintro ⟨e,he,-,hclaim,-⟩
  have hlook : s.queue.tasks.lookup "a" = some e := by
    rw [← hrid]
    exact he
  rw [hlook,all_some] at hother
  exact of_decide_eq_true hother hclaim

theorem refused_part_leaves_headers : ∃ s pruned status after, Reachable minuteTtl s ∧
    pruneAll minuteTtl ⟨0,0,0⟩ ["a"] s.queue = some pruned ∧
    (WorkerCall.complete ⟨workerKey 1,headersOnly⟩).run minuteTtl ⟨0,0,0⟩ ["a"] s.queue =
      some (.error status,after) ∧ after.tasks.lookup "a" ≠ pruned.tasks.lookup "a" := by
  obtain ⟨s,hs,hrefused,hkept,hblank⟩ : ∃ s, Run (step minuteTtl) anyStep (Sys.init 0) s ∧
      (WorkerCall.complete ⟨workerKey 1,headersOnly⟩).refusedAlone s.queue = true ∧
      ((WorkerCall.complete ⟨workerKey 1,headersOnly⟩).run minuteTtl ⟨0,0,0⟩ ["a"] s.queue).all
        (fun r => (r.2.tasks.lookup "a").any (fun e => e.responseHeaders ≠ [])) = true ∧
      (pruneAll minuteTtl ⟨0,0,0⟩ ["a"] s.queue).all
        (fun p => (p.tasks.lookup "a").all (fun e => e.responseHeaders = [])) = true :=
    exists_run storeAndClaim (by decide +kernel)
  obtain ⟨pruned,status,after,hprune,hrun⟩ := WorkerCall.refusedAlone_iff.mp hrefused
  refine ⟨s,pruned,status,after,⟨0,hs⟩,hprune,hrun,fun heq => ?_⟩
  rw [hrun,all_some,heq] at hkept
  rw [hprune,all_some] at hblank
  obtain ⟨e,he,hne⟩ := (Option.any_eq_true _ _).mp hkept
  rw [he,all_some] at hblank
  exact of_decide_eq_true hne (of_decide_eq_true hblank)

end PirateServer.TaskQueue
