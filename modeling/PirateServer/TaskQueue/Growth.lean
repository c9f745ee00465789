import PirateServer.TaskQueue.Alone

/-! The map `tasks` only grows. No operation takes a task out of it for good, so that a
finished task stays and its request id is refused ever after, and one worker that finishes all
its tasks at once is enough to fill the map beyond any bound. -/
namespace PirateServer.TaskQueue
open Lib StateTransition

def Label.worker : Label → Option PubKey
  | .call _ (.claimNext worker _) => some worker
  | .call _ (.applyStatus a) => some a.worker
  | .call _ (.applyComplete a) => some a.worker
  | _ => none

def onlyWorkers (ws : List PubKey) (_ : Sys) (a : Label) : Prop := ∀ w ∈ a.worker, w ∈ ws

variable {cfg : Config} {order : Tasks → List String} {ws : List PubKey} {t : Tid} {s s' : Sys}

lemma run_of_soloStep (h : Reaches (soloStep cfg order t) s s') :
    Run (step cfg) (onlyWorkers ws) s s' := by
  induction h with
  | refl => exact .refl _
  | tail _ hstep ih =>
    simp only [soloStep] at hstep
    split at hstep
    · cases hstep
    · refine .tail ih ?_ hstep
      intro w hw
      simp only [Sys.next] at hw
      split at hw <;> cases hw

lemma call_run {op : Op} {c : Rest} {q q' : Queue} {st st' : Stats} {o o' : Option Outcome}
    (hord : ∀ hm, (order hm).Perm hm.keys) (hop : ∀ w ∈ (Label.call t op).worker, w ∈ ws)
    (h : View.Of s.clock t ⟨q,st,.idle o⟩ s) (hstart : op.start s.clock = .recycleStart c)
    (hv : Reaches (View.step cfg s.clock order) ⟨q,st,.recycleStart c⟩ ⟨q',st',.idle o'⟩) :
    ∃ s', Run (step cfg) (onlyWorkers ws) s s' ∧ View.Of s.clock t ⟨q',st',.idle o'⟩ s' := by
  let s₁ : Sys := { s with pc := Function.update s.pc t (.recycleStart c) }
  have hcall : step cfg s (.call t op) = some s₁ := by
    simp only [step,h.pc,Pc.isIdle,if_true,hstart]
    rfl
  have hof : View.Of s.clock t ⟨q,st,.recycleStart c⟩ s₁ :=
    ⟨rfl,h.queue,h.stats,Function.update_self ..,h.out,h.owner⟩
  obtain ⟨s',hs',hreach⟩ := tr_reaches (view_respects hord) hof hv
  exact ⟨s',(Run.tail (.refl s) hop hcall).trans (run_of_soloStep hreach),hs'⟩

variable {clock : ℕ} {dq : List String} {hm : Tasks} {st : Stats} {c : Rest} {rid : String}

lemma recycleTasks_none {now : ℕ} {ids : List String}
    (h : ∀ id e, hm.lookup id = some e → e.recycle now = none) :
      recycleTasks now ids hm = (hm,[]) := by
  induction ids with
  | nil => rfl
  | cons id ids ih =>
    have hb : (hm.lookup id).bind (TaskEntry.recycle now) = none := by
      rw [Option.bind_eq_none_iff]
      exact fun e he => h id e he
    simp only [recycleTasks,hb,ih]

lemma view_prune (h : ∀ id e, hm.lookup id = some e → e.recycle clock = none)
    (hfresh : staleFront cfg clock ⟨dq,hm⟩ = false) :
    ∃ st', Reaches (View.step cfg clock order) ⟨⟨dq,hm⟩,st,.recycleStart c⟩
      ⟨⟨dq,hm⟩,st',c.resume⟩ := by
  obtain ⟨st',hrec⟩ := view_recycle cfg clock order ⟨dq,hm⟩ st c
  have hq : recycleExpiredLeases clock (order hm) ⟨dq,hm⟩ = ⟨dq,hm⟩ := by
    simp only [recycleExpiredLeases,recycleTasks_none h,pushFrontMissing]
  rw [hq] at hrec
  exact ⟨st',Relation.ReflTransGen.trans hrec (view_discard_fresh c hfresh)⟩

lemma view_enqueue {a : Submit} (hnew : a.rid ∉ hm) :
    ∃ st' o, Reaches (View.step cfg clock order) ⟨⟨[],hm⟩,st,.enqueueCap a⟩
      ⟨⟨[a.rid],hm.insert a.rid (newEntry cfg a.rid a.envelope a.createdMs clock)⟩,st',
        .idle o⟩ := by
  refine ⟨{ st with submitted := st.submitted + 1 },some (.enqueued (.ok a.rid)),?_⟩
  apply View.reaches_advance rfl rfl
  have hcap : ¬cfg.cap ≤ ([] : List String).length := Nat.not_le.mpr cfg.cap_pos
  simp only [advance,hcap,if_false]
  apply View.reaches_advance rfl rfl
  simp only [advance,hnew,if_false]
  apply View.reaches_advance rfl rfl
  exact .refl

variable {e : TaskEntry}

lemma view_take {w : PubKey} {d : ℕ} (hl : hm.lookup rid = some e)
    (hq : e.phase = .queued) (hyoung : clock - e.queuedAt ≤ cfg.ttl) :
    ∃ st' o, Reaches (View.step cfg clock order) ⟨⟨[rid],hm⟩,st,.claimPop w d⟩
      ⟨⟨[],hm.insert rid (e.claim cfg clock w)⟩,st',.idle o⟩ := by
  refine ⟨{ st with claimed := st.claimed + 1 },some (.claimed (.ok e.envelope)),?_⟩
  apply View.reaches_advance rfl rfl
  apply View.reaches_advance rfl rfl
  apply View.reaches_advance rfl rfl
  have hold : ¬cfg.ttl < clock - e.queuedAt := by omega
  simp only [advance,claimEffect,attemptClaimId,hl,hq,ne_eq,not_true,if_false,hold]
  exact .refl

lemma view_finish {a : CompletePart} (hl : hm.lookup a.rid = some e)
    (hown : e.claimant = some a.worker) (hfin : a.part.finished = true)
    (herr : a.part.reportsFailure = false) (hstatus : a.part.status ≠ 0) :
    ∃ st' o, Reaches (View.step cfg clock order) ⟨⟨dq,hm⟩,st,.completeTasks a⟩
      ⟨⟨dq,hm.insert a.rid (e.absorb a.part).complete⟩,st',.idle o⟩ := by
  refine ⟨{ st with completed := st.completed + 1 },some (.completed (.ok ())),?_⟩
  apply View.reaches_advance rfl rfl
  have hsome : (e.absorb a.part).responseStatus = some a.part.status := by
    simp [TaskEntry.absorb,hstatus]
  simp only [advance,completeEffect,completeTasks_own hl hown,herr,hfin,hsome,reduceCtorEq,
    false_and,if_false]
  exact .refl

/-- The queue is empty, thread 0 runs no operation, and all tasks have ended. -/
structure Settled (n : ℕ) (s : Sys) : Prop where
  view : ∃ hm st o, View.Of s.clock 0 ⟨⟨[],hm⟩,st,.idle o⟩ s
  ended : ∀ id e, s.queue.tasks.lookup id = some e → e.phase.terminal = true
  short : ∀ id ∈ s.queue.tasks, id.length ≤ n
  len_eq : s.queue.tasks.len = n

/-- The request id of the `n`-th task. -/
def serial (n : ℕ) : String := String.ofList (List.replicate (n+1) 'a')

lemma length_serial (n : ℕ) : (serial n).length = n + 1 := by simp [serial]

lemma trim_serial (n : ℕ) : Text.trim (serial n) = serial n := by
  have hw : Text.isWhitespace 'a' = false := by decide
  have hd : (List.replicate (n+1) 'a').dropWhile Text.isWhitespace = List.replicate (n+1) 'a' := by
    simp [List.replicate_succ,hw]
  simp only [Text.trim,serial,String.toList_ofList,hd,List.reverse_replicate]

lemma serial_ne_empty (n : ℕ) : serial n ≠ "" := by
  intro h
  have hl := length_serial n
  rw [h] at hl
  cases hl

lemma rid_ofId_serial (n : ℕ) : (Submit.ofId (serial n)).rid = serial n := by
  simp [Submit.rid,Submit.ofId,assignRequestId,trim_serial,serial_ne_empty]

lemma recycle_terminal {now : ℕ} (h : e.phase.terminal = true) : e.recycle now = none := by
  apply TaskEntry.recycle_eq_none_of_inactive
  cases hp : e.phase <;> simp_all [StoredTaskPhase.terminal,StoredTaskPhase.active]

def lastPart (worker : PubKey) (rid : String) : CompletePart := ⟨worker,⟨rid,200,[],[],true,""⟩⟩

lemma rid_lastPart (worker : PubKey) (n : ℕ) : (lastPart worker (serial n)).rid = serial n :=
  trim_serial n

variable (cfg : Config) {n : ℕ} {o : Option Outcome}

lemma pruned_call_run {op : Op} {q' : Queue} (h : View.Of s.clock t ⟨⟨dq,hm⟩,st,.idle o⟩ s)
    (hstart : op.start s.clock = .recycleStart c) (hop : ∀ w ∈ (Label.call t op).worker, w ∈ ws)
    (hrecycle : ∀ id e, hm.lookup id = some e → e.recycle s.clock = none)
    (hfresh : staleFront cfg s.clock ⟨dq,hm⟩ = false)
    (hrest : ∀ st, ∃ st' o', Reaches (View.step cfg s.clock AList.keys) ⟨⟨dq,hm⟩,st,c.resume⟩
      ⟨q',st',.idle o'⟩) : ∃ s' st' o', Run (step cfg) (onlyWorkers ws) s s' ∧ s'.clock = s.clock ∧
      View.Of s.clock t ⟨q',st',.idle o'⟩ s' := by
  obtain ⟨st₁,hprune⟩ := view_prune hrecycle hfresh
  obtain ⟨st₂,o₂,hdone⟩ := hrest st₁
  obtain ⟨s',hr,hv⟩ := call_run (fun hm => .refl _) hop h hstart
    (Relation.ReflTransGen.trans hprune hdone)
  exact ⟨s',st₂,o₂,hr,hv.clock,hv⟩

/-- No lease runs out at once: the other tasks have ended, and the new one is as given. -/
lemma recycle_insert {e : TaskEntry} {rid : String} {now : ℕ}
    (hended : ∀ id e, hm.lookup id = some e → e.phase.terminal = true) (he : e.recycle now = none)
    (id : String) (e' : TaskEntry) (h : (hm.insert rid e).lookup id = some e') :
    e'.recycle now = none := by
  rw [Table.lookup_insert_eq] at h
  split at h
  · cases h
    exact he
  · exact recycle_terminal (hended id e' h)

lemma enqueue_run {a : Submit} (h : View.Of s.clock t ⟨⟨[],hm⟩,st,.idle o⟩ s)
    (hended : ∀ id e, hm.lookup id = some e → e.phase.terminal = true) (hnew : a.rid ∉ hm) :
    ∃ s' st' o', Run (step cfg) (onlyWorkers ws) s s' ∧ s'.clock = s.clock ∧
      View.Of s.clock t ⟨⟨[a.rid],hm.insert a.rid
        (newEntry cfg a.rid a.envelope a.createdMs s.clock)⟩,st',.idle o'⟩ s' :=
  pruned_call_run cfg h (show (Op.enqueue a).start s.clock = .recycleStart (.enqueue a) from rfl)
    (fun _ hw => nomatch hw) (fun id e he => recycle_terminal (hended id e he)) rfl
    (fun _ => view_enqueue hnew)

lemma claim_run {w : PubKey}
    (h : View.Of s.clock t ⟨⟨[rid],hm.insert rid e⟩,st,.idle o⟩ s) (hw : w ∈ ws)
    (hended : ∀ id e, hm.lookup id = some e → e.phase.terminal = true)
    (hqueued : e.phase = .queued) (hnow : e.queuedAt = s.clock) :
    ∃ s' st' o', Run (step cfg) (onlyWorkers ws) s s' ∧ s'.clock = s.clock ∧
      View.Of s.clock t ⟨⟨[],hm.insert rid (e.claim cfg s.clock w)⟩,st',.idle o'⟩ s' := by
  have hkeep : e.recycle s.clock = none := by
    apply TaskEntry.recycle_eq_none_of_inactive
    rw [hqueued]
    rfl
  have hfresh : staleFront cfg s.clock ⟨[rid],hm.insert rid e⟩ = false := by
    simp [staleFront,TaskEntry.stale,hnow]
  have hl : (hm.insert rid e).lookup rid = some e := AList.lookup_insert _
  obtain ⟨s',st',o',hr,hc,hv⟩ := pruned_call_run cfg h
    (show (Op.claimNext w 0).start s.clock = .recycleStart _ from rfl)
    (fun v hv => by cases hv; exact hw) (recycle_insert hended hkeep) hfresh
    (fun _ => view_take hl hqueued (by omega))
  rw [AList.insert_insert] at hv
  exact ⟨s',st',o',hr,hc,hv⟩

lemma finish_run {a : CompletePart}
    (h : View.Of s.clock t ⟨⟨[],hm.insert a.rid (e.claim cfg s.clock a.worker)⟩,st,.idle o⟩ s)
    (hw : a.worker ∈ ws) (hended : ∀ id e, hm.lookup id = some e → e.phase.terminal = true)
    (hrid : a.rid ≠ "") (hfin : a.part.finished = true) (herr : a.part.reportsFailure = false)
    (hstatus : a.part.status ≠ 0) :
    ∃ s' st' o', Run (step cfg) (onlyWorkers ws) s s' ∧ s'.clock = s.clock ∧
      View.Of s.clock t ⟨⟨[],hm.insert a.rid
        ((e.claim cfg s.clock a.worker).absorb a.part).complete⟩,st',.idle o'⟩ s' := by
  have hkeep : (e.claim cfg s.clock a.worker).recycle s.clock = none := by
    simp [TaskEntry.recycle,TaskEntry.claim,StoredTaskPhase.active]
  have hl : (hm.insert a.rid (e.claim cfg s.clock a.worker)).lookup a.rid =
      some (e.claim cfg s.clock a.worker) := AList.lookup_insert _
  obtain ⟨s',st',o',hr,hc,hv⟩ := pruned_call_run cfg h
    (show (Op.applyComplete a).start s.clock = .recycleStart (.applyComplete a) from if_neg hrid)
    (fun v hv => by cases hv; exact hw) (recycle_insert hended hkeep) rfl
    (fun _ => view_finish hl rfl hfin herr hstatus)
  rw [AList.insert_insert] at hv
  exact ⟨s',st',o',hr,hc,hv⟩

/-- One more task is stored, claimed and finished, without any time passing. -/
theorem Settled.grow (w : PubKey) (h : Settled n s) :
    ∃ s', Run (step cfg) (onlyWorkers [w]) s s' ∧ Settled (n+1) s' := by
  obtain ⟨hm,st,o,hv⟩ := h.view
  have hq : s.queue.tasks = hm := by rw [hv.queue]
  have hended : ∀ id e, hm.lookup id = some e → e.phase.terminal = true := hq ▸ h.ended
  have hw : w ∈ [w] := List.mem_singleton_self w
  have hnew : serial n ∉ hm := by
    intro hmem
    have hlen := h.short (serial n) (hq ▸ hmem)
    rw [length_serial] at hlen
    omega
  have hregular : (lastPart w (serial n)).part.reportsFailure = false :=
    show (true && decide (Text.trim "" ≠ "")) = false by decide
  have hstatus : (lastPart w (serial n)).part.status ≠ 0 := show (200 : UInt32) ≠ 0 by decide
  obtain ⟨s₁,st₁,o₁,hr₁,hc₁,hv₁⟩ := enqueue_run (a := .ofId (serial n)) cfg hv hended
    (by rwa [rid_ofId_serial])
  rw [rid_ofId_serial,← hc₁] at hv₁
  obtain ⟨s₂,st₂,o₂,hr₂,hc₂,hv₂⟩ := claim_run cfg hv₁ hw hended rfl rfl
  rw [← hc₂] at hv₂
  obtain ⟨s₃,st₃,o₃,hr₃,hc₃,hv₃⟩ := finish_run (a := lastPart w (serial n)) cfg
    (by rw [rid_lastPart]; exact hv₂) hw hended (by rw [rid_lastPart]; exact serial_ne_empty n)
    rfl hregular hstatus
  rw [rid_lastPart,← hc₃] at hv₃
  refine ⟨s₃,(hr₁.trans hr₂).trans hr₃,⟨_,_,_,hv₃⟩,?_,?_,?_⟩
  · intro id e he
    rw [hv₃.queue,Table.lookup_insert_eq] at he
    split at he
    · cases he
      rfl
    · exact hended id e he
  · intro id hid
    rw [hv₃.queue,AList.mem_insert] at hid
    rcases hid with rfl | hid
    · exact (length_serial n).le
    · have hlen := h.short id (hq ▸ hid)
      omega
  · rw [hv₃.queue,Table.len_insert_of_lookup_none _ (AList.lookup_eq_none.mpr hnew),← hq,h.len_eq]

/-- A single worker is enough for any number of finished tasks. -/
theorem exists_settled (cfg : Config) (w : PubKey) (n : ℕ) :
    ∃ s, ReachableBy cfg (onlyWorkers [w]) s ∧ Settled n s := by
  induction n with
  | zero =>
    refine ⟨Sys.init 0,⟨0,.refl _⟩,⟨∅,{},none,rfl,rfl,rfl,rfl,rfl,fun m =>
      by simp [Sys.init,Pc.inIfLet]⟩,
      ?_,?_,rfl⟩
    · intro id e he
      cases he
    · intro id hid
      exact absurd hid (AList.notMem_empty id)
  | succ n ih =>
    obtain ⟨s,hs,hn⟩ := ih
    obtain ⟨s',hr,hn'⟩ := hn.grow cfg w
    exact ⟨s',hs.run hr,hn'⟩

/-- The map holds the task `id`, or a thread has it inside the `if let`. -/
def Sys.knows (s : Sys) (id : String) : Prop :=
  id ∈ s.queue.tasks ∨ ∃ u c now e, s.pc u = .discardReinsert c now id e

variable {cfg : Config} {id : String}

lemma EntryStep.knows {order : List String} (hg : GuardInv s)
    (hs : step cfg s (.exec t order) = some s') (hid : id ∈ s.queue.tasks) : s'.knows id := by
  have hentry := exec_entry hg hs id
  have hpc := exec_pc hs
  obtain ⟨e,he⟩ := Option.isSome_iff_exists.mp (AList.lookup_isSome.mpr hid)
  rw [he] at hentry
  cases hl : s'.queue.tasks.lookup id with
  | some e' => exact Or.inl (AList.lookup_isSome.mp (by rw [hl]; rfl))
  | none =>
    rw [hl] at hentry
    generalize about id (s.effect cfg t order).events = evs at hentry
    cases hentry with
    | @removed c now _ hpc' =>
      rw [hpc'] at hpc
      generalize hp : s'.pc t = p at hpc
      cases hpc with
      | removeNone gone => cases gone.symm.trans he
      | @remove _ _ _ e'' => exact Or.inr ⟨t,c,now,e'',hp⟩

lemma Sys.knows.step {a : Label} (hg : GuardInv s) (h : s.knows id)
    (hs : TaskQueue.step cfg s a = some s') : s'.knows id := by
  rcases h with hid | ⟨u,c,now,e,hpc⟩
  · rcases step_quiet hs with hquiet | ⟨t,order,rfl⟩
    · exact Or.inl (hquiet.queue.symm ▸ hid)
    · exact EntryStep.knows hg hs hid
  · refine Or.inr ⟨u,c,now,e,?_⟩
    -- the thread waits for the guard that it holds and makes no step
    rcases step_pc hs u with heq | ⟨_,_,hidle,_⟩ | ⟨order,rfl,_⟩
    · rw [heq,hpc]
    · rw [hpc] at hidle
      cases hidle
    · have hlet := hg.exec_inIfLet hs
      rw [hpc] at hlet
      cases hlet

lemma Sys.knows.mem {order : List String} (hg : GuardInv s) (h : s.knows id)
    (hs : TaskQueue.step cfg s (.exec t order) = some s') (hm : (s.pc t).mutex = some .tasks) :
    id ∈ s.queue.tasks := by
  rcases h with hid | ⟨u,c,now,e,hpc⟩
  · exact hid
  · have hlet := hg.tasks_exec_free hs hm u
    rw [hpc] at hlet
    cases hlet

lemma enqueue_refused {s'' : Sys} {order : List String} {a : Submit}
    (h : Reachable cfg s) (hid : a.rid ∈ s.queue.tasks) (hr : Run (step cfg) anyStep s s')
    (hpc : s'.pc t = .enqueueInsert a) (hs : step cfg s' (.exec t order) = some s'') :
    s''.pc t = .idle (some (.enqueued (.error "duplicate_request_id"))) ∧ s''.queue = s'.queue := by
  have hg : ∀ u, Run (step cfg) anyStep s u → GuardInv u := fun u hu =>
    Reachable.guardInv (ReachableBy.run h hu)
  have hknows : s'.knows a.rid := Run.invariant_of (I := fun u => u.knows a.rid) hg
    (fun _ _ _ hj hi _ hn => hi.step hj hn) (Or.inl hid) hr
  have hmem := hknows.mem (hg s' hr) hs (by rw [hpc]; rfl)
  obtain ⟨_,_,_,rfl⟩ := step_exec hs
  simp [Sys.apply,Sys.effect,hpc,advance,hmem]

/-- Whatever the capacity, the ttl and the lease, one worker that finishes every task leaves
more tasks in the map than any bound allows, and the request id of a finished task is never
accepted again, however long ago that was. -/
theorem tasks_never_forgotten (cfg : Config) :
    (∀ w n, ∃ s, ReachableBy cfg (onlyWorkers [w]) s ∧ n < s.queue.tasks.len ∧
      ∀ id e, s.queue.tasks.lookup id = some e → e.phase.terminal = true) ∧
    ∀ s s' s'' t order a e, Reachable cfg s → s.queue.tasks.lookup a.rid = some e →
      e.phase.terminal = true → Run (step cfg) anyStep s s' → s'.pc t = .enqueueInsert a →
      step cfg s' (.exec t order) = some s'' →
      s''.pc t = .idle (some (.enqueued (.error "duplicate_request_id"))) ∧
        s''.queue = s'.queue := by
  constructor
  · intro w n
    obtain ⟨s,hs,hn⟩ := exists_settled cfg w (n+1)
    exact ⟨s,hs,by rw [hn.len_eq]; exact Nat.lt_succ_self n,hn.ended⟩
  · intro s s' s'' t order a e h hl _ hr hpc hs
    exact enqueue_refused h (AList.lookup_isSome.mp (by rw [hl]; rfl)) hr hpc hs

/-- Task `a` is stored, claimed and finished. -/
def finishOne : List Label :=
  storeAndClaim ++ applyPart 1 ["a"] (workerKey 1) ⟨"a",200,[],[],true,""⟩

/-- A day later, `a` is submitted again, up to the section that stores it. -/
def submitAgain : List Label :=
  [.tick 86400000000000,.call 0 (.enqueue (.ofId "a"))] ++ recycleNone 0 ["a"] ++ discardEmpty 0 ++
    locked 0 [] ++ [.acquire 0]

/-- The request id that a thread is about to store. -/
def Pc.inserts : Pc → Option String
  | enqueueInsert a => some a.rid
  | _ => none

lemma Pc.eq_of_inserts {p : Pc} (h : p.inserts = some rid) :
    ∃ a, p = .enqueueInsert a ∧ a.rid = rid := by
  cases p with
  | enqueueInsert a => exact ⟨a,rfl,Option.some.inj h⟩
  | _ => cases h

lemma submitAgain_run : ∃ s s' s'' a e, Reachable minuteTtl s ∧ a.rid = "a" ∧
    s.queue.tasks.lookup a.rid = some e ∧ e.phase = .completed ∧
    Run (step minuteTtl) anyStep s s' ∧ s'.clock = s.clock + 86400000000000 ∧
    s'.pc 0 = .enqueueInsert a ∧ step minuteTtl s' (.exec 0 []) = some s'' := by
  obtain ⟨s,hs,hq⟩ := (Option.any_eq_true _ _).mp
    (by decide +kernel : (execute (step minuteTtl) anyStep finishOne (Sys.init 0)).any (fun s =>
      (s.queue.tasks.lookup "a").any (fun e => e.phase = .completed) ∧
        (execute (step minuteTtl) anyStep submitAgain s).any (fun s' =>
          s'.clock = s.clock + 86400000000000 ∧ (s'.pc 0).inserts = some "a" ∧
            (step minuteTtl s' (.exec 0 [])).isSome)) = true)
  simp only [Option.any_eq_true,decide_eq_true_eq] at hq
  obtain ⟨⟨e,he,hp⟩,s',hs',hclock,hins,hsome⟩ := hq
  obtain ⟨s'',hs''⟩ := Option.isSome_iff_exists.mp hsome
  obtain ⟨a,hpc,ha⟩ := Pc.eq_of_inserts hins
  exact ⟨s,s',s'',a,e,⟨0,execute_run hs⟩,ha,ha ▸ he,hp,execute_run hs',hclock,hpc,hs''⟩

theorem tasks_never_forgotten_day : ∃ s s' s'' : Sys, Reachable minuteTtl s ∧
    Run (step minuteTtl) anyStep s s' ∧ s'.clock = s.clock + 86400000000000 ∧
    step minuteTtl s' (.exec 0 []) = some s'' ∧
    s''.pc 0 = .idle (some (.enqueued (.error "duplicate_request_id"))) ∧ s''.queue = s'.queue := by
  obtain ⟨s,s',s'',a,e,hr,_,hl,hp,hrun,hclock,hpc,hs⟩ := submitAgain_run
  exact ⟨s,s',s'',hr,hrun,hclock,hs,(tasks_never_forgotten minuteTtl).2 s s' s'' 0 [] a e hr hl
    (by rw [hp]; rfl) hrun hpc hs⟩

theorem tasks_unbounded : (¬∃ f : ℕ → ℕ → ℕ → ℕ → ℕ, ∀ cap ttl lease ws s,
      ReachableBy (Config.new "p" cap ttl lease) (onlyWorkers ws) s →
        s.queue.tasks.len ≤ f cap ttl lease ws.length) ∧
    ∃ s s' s'' a e, Reachable minuteTtl s ∧ a.rid = "a" ∧ s.queue.tasks.lookup a.rid = some e ∧
      e.phase = .completed ∧ Run (step minuteTtl) anyStep s s' ∧
      s'.clock = s.clock + 86400000000000 ∧ s'.pc 0 = .enqueueInsert a ∧
      step minuteTtl s' (.exec 0 []) = some s'' ∧
      s''.pc 0 = .idle (some (.enqueued (.error "duplicate_request_id"))) := by
  constructor
  · rintro ⟨f,hf⟩
    let bound := f 8 60000000000 60000000000 1
    obtain ⟨s,hs,hn⟩ := exists_settled (Config.new "p" 8 60000000000 60000000000) (workerKey 1)
      (bound+1)
    have hle := hf 8 60000000000 60000000000 [workerKey 1] s hs
    rw [hn.len_eq] at hle
    exact Nat.not_succ_le_self bound hle
  · obtain ⟨s,s',s'',a,e,hr,ha,hl,hp,hrun,hclock,hpc,hs⟩ := submitAgain_run
    have hmem : a.rid ∈ s.queue.tasks := AList.lookup_isSome.mp (by rw [hl]; rfl)
    exact ⟨s,s',s'',a,e,hr,ha,hl,hp,hrun,hclock,hpc,hs,(enqueue_refused hr hmem hrun hpc hs).1⟩

end PirateServer.TaskQueue
