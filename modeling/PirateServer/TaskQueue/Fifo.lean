import PirateServer.TaskQueue.Tokens

/-! The order in which tasks are handed out when operations do not overlap. Fresh tasks go to
the back of the deque and tasks with a lost lease to the front, one by one in the order of the
map; the deque stays ordered by age exactly as long as these batches fit. -/
namespace PirateServer.TaskQueue
open Lib List

def queuedSince (hm : Tasks) (id : String) : ℕ := ((hm.lookup id).map TaskEntry.queuedAt).getD 0

def InOrder (hm : Tasks) (ids : List String) : Prop :=
  ids.Pairwise (fun i j => queuedSince hm i ≤ queuedSince hm j)

instance (hm : Tasks) (ids : List String) : Decidable (InOrder hm ids) :=
  inferInstanceAs (Decidable (ids.Pairwise _))

/-- A step of a thread is made while every other thread is parked. -/
def atomicOps (s : Sys) (a : Label) : Prop :=
  ∀ t, a.tid = some t → ∀ u, u ≠ t → (s.pc u).parked = true

/-- The ids that the thread is about to give back because their lease has run out. -/
def Sys.requeued (s : Sys) (t : Tid) (order : List String) : List String :=
  match s.pc t with
  | .recycleTasks _ now => (recycleTasks now order s.queue.tasks).2
  | _ => []

def requeuesInOrder (s : Sys) : Label → Prop
  | .exec t order => s.requeued t order = [] ∨
    InOrder s.queue.tasks ((s.requeued t order).reverse ++ s.queue.dequeIds)
  | _ => True

instance (s : Sys) : (a : Label) → Decidable (requeuesInOrder s a)
  | .exec _ _ => inferInstanceAs (Decidable (_ ∨ _))
  | .tick _ | .call .. | .acquire _ => .isTrue trivial

/-- The deque after the thread at `p` has run its section. -/
def Pc.deque (dq : List String) : Pc → List String
  | recyclePush _ ids => pushFrontMissing ids dq
  | discardPop .. | claimPop .. => dq.tail
  | enqueuePush rid => dq ++ [rid]
  | claimRequeue _ _ id => id::dq
  | _ => dq

/-- The deque with the ids that the thread at `p` holds put where they belong. -/
def Pc.line (dq : List String) : Pc → List String
  | enqueuePush rid => dq ++ [rid]
  | p => p.held.reverse ++ dq

/-- The id that `discard_ttl_expired` has read at the front. -/
def Pc.front : Pc → Option String
  | discardStale _ _ id | discardPop _ _ id => some id
  | _ => none

structure FifoInv (s : Sys) : Prop where
  order : ∀ t, InOrder s.queue.tasks ((s.pc t).line s.queue.dequeIds)
  front : ∀ t id, (s.pc t).front = some id → s.queue.dequeIds.head? = some id
  past : ∀ id e, s.queue.tasks.lookup id = some e → e.queuedAt ≤ s.clock
  one : ∀ t u, t ≠ u → (s.pc t).parked = true ∨ (s.pc u).parked = true

lemma advance_dequeIds (cfg : Config) (clock : ℕ) (order : List String) (q : Queue) (st : Stats)
    (p : Pc) : (advance cfg clock order q st p).queue.dequeIds = p.deque q.dequeIds := by
  cases p with
  | discardFront | discardStale | enqueueCap | enqueueInsert | claimWait | statusTasks =>
    simp only [advance]
    split <;> rfl
  | claimPop w d =>
    simp only [advance]
    split
    all_goals rename_i h; simp [Pc.deque,h]
  | discardRemove c now id =>
    simp only [advance,removeEffect]
    split
    · rfl
    · split <;> rfl
  | claimAttempt w d id now =>
    simp only [advance,claimEffect]
    split <;> rfl
  | completeTasks a =>
    simp only [advance,completeEffect]
    split <;> rfl
  | _ => rfl

lemma Pc.line_of_parked {p : Pc} (h : p.parked = true) (dq : List String) : p.line dq = dq := by
  cases p <;> first | rfl | cases h

lemma Pc.front_of_parked {p : Pc} (h : p.parked = true) : p.front = none := by
  cases p <;> first | rfl | cases h

lemma Pc.sublist_line (p : Pc) (dq : List String) : dq.Sublist (p.line dq) := by
  cases p with
  | enqueuePush rid => exact sublist_append_left _ _
  | _ => exact sublist_append_right _ _

variable {cfg : Config} {s s' : Sys} {t : Tid} {order : List String} {id : String}
  {evs : List Event}

lemma EntryStep.queuedAt_eq {e e' : TaskEntry}
    (h : EntryStep cfg s t id (some e) (some e') evs) : e'.queuedAt = e.queuedAt := by
  cases h with
  | recycled _ lease =>
    obtain ⟨_,rfl⟩ := TaskEntry.recycle_eq_some lease
    rfl
  | _ => rfl

lemma exec_queuedSince (hg : GuardInv s) (hs : step cfg s (.exec t order) = some s')
    (h : id ∈ s.queue.tasks) (h' : id ∈ s'.queue.tasks) :
    queuedSince s'.queue.tasks id = queuedSince s.queue.tasks id := by
  obtain ⟨e,he⟩ := Option.isSome_iff_exists.mp (AList.lookup_isSome.mpr h)
  obtain ⟨e',he'⟩ := Option.isSome_iff_exists.mp (AList.lookup_isSome.mpr h')
  have hentry := exec_entry hg hs id
  rw [he,he'] at hentry
  simp [queuedSince,he,he',hentry.queuedAt_eq]

lemma exec_line (hsound : s.pool.Sound) (hfront : ∀ id, (s.pc t).front = some id →
      s.queue.dequeIds.head? = some id) (hs : step cfg s (.exec t order) = some s') :
    ((s'.pc t).line s'.queue.dequeIds).Sublist ((s.pc t).line s.queue.dequeIds) ∨
      (∃ c now, s.pc t = .recycleTasks c now ∧ (s'.pc t).line s'.queue.dequeIds =
        (s.requeued t order).reverse ++ s.queue.dequeIds) ∨
      ∃ a, s.pc t = .enqueueInsert a ∧ a.rid ∉ s.queue.tasks ∧
        (s'.pc t).line s'.queue.dequeIds = s.queue.dequeIds ++ [a.rid] := by
  have hp := exec_pc hs
  have hdq : s'.queue.dequeIds = (s.pc t).deque s.queue.dequeIds := by
    obtain ⟨_,_,_,rfl⟩ := step_exec hs
    exact advance_dequeIds _ _ _ _ _ _
  have hheld : (s.pc t).held.Nodup ∧ ∀ id ∈ (s.pc t).held, id ∉ s.queue.dequeIds :=
    ⟨hsound.held_nodup t,hsound.apart t⟩
  rw [hdq,Sys.requeued]
  generalize s'.pc t = p' at hp
  generalize s.pc t = p at hp hfront hheld
  cases hp with
  | recycleSome => exact Or.inr (Or.inl ⟨_,_,rfl,rfl⟩)
  | insert fresh => exact Or.inr (Or.inr ⟨_,rfl,fresh,rfl⟩)
  | @recyclePush c ids =>
    left
    have hpush : pushFrontMissing ids s.queue.dequeIds = ids.reverse ++ s.queue.dequeIds :=
      pushFrontMissing_eq hheld.1 hheld.2
    simp only [Pc.deque,hpush]
    exact List.Sublist.refl _
  | @frontNone c _ _ _ resume
  | @fresh c _ _ _ _ resume => left; subst resume; cases c <;> exact List.Sublist.refl _
  | @pop c now id front =>
    left
    obtain ⟨rest,hrest⟩ := List.head?_eq_some_iff.mp front
    simp only [Pc.deque,hrest,tail_cons]
    exact List.Sublist.refl _
  | popOther other => exact absurd (hfront _ rfl) other
  | claimSome front =>
    left
    simp only [Pc.deque,front,tail_cons]
    exact List.Sublist.refl _
  | claimNone front =>
    left
    simp only [Pc.deque,front,tail_nil]
    exact List.Sublist.refl _
  | removeNone | remove | taken | skip => exact Or.inl (sublist_cons_self _ _)
  | _ => exact Or.inl (List.Sublist.refl _)

lemma Pc.mem_line {p : Pc} {dq : List String} (h : id ∈ p.line dq) : id ∈ p.held ∨ id ∈ dq := by
  cases p with
  | enqueuePush rid => simpa [Pc.line,Pc.held,or_comm] using h
  | _ => simpa [Pc.line] using h

lemma Sys.mem_tasks_of_line (hsound : s.pool.Sound)
    (h : id ∈ (s.pc t).line s.queue.dequeIds) : id ∈ s.queue.tasks := by
  have hq : s.queue.Queued id := by
    rcases Pc.mem_line h with hid | hid
    · exact hsound.held_live t id hid
    · exact hsound.waiting_live id hid
  obtain ⟨e,he,_⟩ := hq
  exact AList.lookup_isSome.mp (by rw [he]; rfl)

lemma InOrder.congr {hm hm' : Tasks} {ids : List String} (h : InOrder hm ids)
    (heq : ∀ id ∈ ids, queuedSince hm' id = queuedSince hm id) : InOrder hm' ids := by
  apply List.Pairwise.imp_of_mem _ h
  intro i j hi hj hij
  rw [heq i hi,heq j hj]
  exact hij

lemma FifoInv.exec_order (hg : GuardInv s) (hsound : s.pool.Sound) (hsound' : s'.pool.Sound)
    (h : FifoInv s) (hok : requeuesInOrder s (.exec t order))
    (hs : step cfg s (.exec t order) = some s') :
    InOrder s'.queue.tasks ((s'.pc t).line s'.queue.dequeIds) := by
  have hstored' : ∀ id ∈ (s'.pc t).line s'.queue.dequeIds, id ∈ s'.queue.tasks :=
    fun id hid => s'.mem_tasks_of_line hsound' hid
  rcases exec_line hsound (h.front t) hs with hsub | ⟨c,now,hpc,hline⟩ | ⟨a,hpc,hfresh,hline⟩
  · apply InOrder.congr (List.Pairwise.sublist hsub (h.order t))
    intro id hid
    exact exec_queuedSince hg hs (s.mem_tasks_of_line hsound (hsub.subset hid)) (hstored' id hid)
  · have hok : InOrder s.queue.tasks ((s.requeued t order).reverse ++ s.queue.dequeIds) := by
      rcases hok with hnil | hok
      · rw [hnil]
        exact List.Pairwise.sublist (Pc.sublist_line (s.pc t) _) (h.order t)
      · exact hok
    rw [hline] at hstored' ⊢
    apply hok.congr
    intro id hid
    refine exec_queuedSince hg hs ?_ (hstored' id hid)
    rcases List.mem_append.mp hid with hid | hid
    · obtain ⟨_,_,ho,_⟩ := step_exec hs
      simp only [Sys.orderOk,hpc,decide_eq_true_eq] at ho
      rw [mem_reverse,Sys.requeued,hpc] at hid
      simp only at hid
      rw [recycleTasks_requeue (ho.nodup_iff.mpr s.queue.tasks.keys_nodup),mem_filter] at hid
      exact AList.mem_keys.mpr (ho.mem_iff.mp hid.1)
    · exact s.mem_tasks_of_line hsound ((Pc.sublist_line (s.pc t) _).subset hid)
  · -- the new task is the youngest one
    have hnew : queuedSince s'.queue.tasks a.rid = s.clock := by
      obtain ⟨_,_,_,rfl⟩ := step_exec hs
      simp [Sys.apply,Sys.effect,hpc,advance,hfresh,queuedSince,newEntry]
    rw [hline] at hstored' ⊢
    have hold : InOrder s.queue.tasks s.queue.dequeIds :=
      List.Pairwise.sublist (Pc.sublist_line (s.pc t) _) (h.order t)
    have hmem : ∀ id ∈ s.queue.dequeIds, id ∈ s.queue.tasks :=
      fun id hid => s.mem_tasks_of_line hsound ((Pc.sublist_line (s.pc t) _).subset hid)
    have heq : ∀ id ∈ s.queue.dequeIds,
        queuedSince s'.queue.tasks id = queuedSince s.queue.tasks id :=
      fun id hid => exec_queuedSince hg hs (hmem id hid) (hstored' id (mem_append_left _ hid))
    refine List.pairwise_append.mpr ⟨hold.congr heq,pairwise_singleton _ _,?_⟩
    intro i hi j hj
    obtain ⟨e,he⟩ := Option.isSome_iff_exists.mp (AList.lookup_isSome.mpr (hmem i hi))
    rw [List.mem_singleton.mp hj,hnew,heq i hi]
    simpa [queuedSince,he] using h.past i e he

lemma FifoInv.exec_front (h : FifoInv s) (hs : step cfg s (.exec t order) = some s')
    (hf : (s'.pc t).front = some id) : s'.queue.dequeIds.head? = some id := by
  have hp := exec_pc hs
  have hfront := h.front t
  have hdq : s'.queue.dequeIds = (s.pc t).deque s.queue.dequeIds := by
    obtain ⟨_,_,_,rfl⟩ := step_exec hs
    exact advance_dequeIds _ _ _ _ _ _
  rw [hdq]
  generalize s'.pc t = p' at hp hf
  generalize s.pc t = p at hp hfront
  cases hp with
  | frontSome front => cases hf; exact front
  | stale => cases hf; exact hfront _ rfl
  | @frontNone c _ _ _ resume | @fresh c _ _ _ _ resume => subst resume; cases c <;> cases hf
  | _ => cases hf

variable {a : Label}

lemma one_active (hok : atomicOps s a) (h : ∀ t u, t ≠ u →
      (s.pc t).parked = true ∨ (s.pc u).parked = true) (hs : step cfg s a = some s') (t u : Tid)
    (htu : t ≠ u) : (s'.pc t).parked = true ∨ (s'.pc u).parked = true := by
  by_cases ht : a.tid = some t
  · right
    rw [step_pc_of_ne (by rw [ht]; simpa using htu) hs]
    exact hok t ht u htu.symm
  · by_cases hu : a.tid = some u
    · left
      rw [step_pc_of_ne ht hs]
      exact hok u hu t htu
    · rw [step_pc_of_ne ht hs,step_pc_of_ne hu hs]
      exact h t u htu

def fifoOps (s : Sys) (a : Label) : Prop := atomicOps s a ∧ requeuesInOrder s a

lemma FifoInv.exec (hg : GuardInv s) (hsound : s.pool.Sound) (hsound' : s'.pool.Sound)
    (h : FifoInv s) (hok : fifoOps s (.exec t order))
    (hs : step cfg s (.exec t order) = some s') : FifoInv s' := by
  have hline := h.exec_order hg hsound hsound' hok.2 hs
  have hother : ∀ u, u ≠ t → (s'.pc u).parked = true := by
    intro u hu
    rw [step_pc_of_ne (by simpa [Label.tid] using hu.symm) hs]
    exact hok.1 t rfl u hu
  refine ⟨?_,?_,?_,one_active hok.1 h.one hs⟩
  · intro u
    by_cases hu : u = t
    · rw [hu]; exact hline
    · rw [Pc.line_of_parked (hother u hu)]
      exact List.Pairwise.sublist (Pc.sublist_line _ _) hline
  · intro u id hf
    by_cases hu : u = t
    · subst hu; exact h.exec_front hs hf
    · rw [Pc.front_of_parked (hother u hu)] at hf
      cases hf
  · intro id e he
    have hclock : s'.clock = s.clock := by
      obtain ⟨_,_,_,rfl⟩ := step_exec hs
      rfl
    have hentry := exec_entry hg hs id
    rw [he] at hentry
    rw [hclock]
    cases hl : s.queue.tasks.lookup id with
    | some e₀ =>
      rw [hl] at hentry
      rw [hentry.queuedAt_eq]
      exact h.past id e₀ hl
    | none =>
      rw [hl] at hentry
      generalize about id _ = evs at hentry
      cases hentry with
      | created => exact le_refl s.clock

lemma step_clock (hs : step cfg s a = some s') : s.clock ≤ s'.clock := by
  cases a with
  | tick d => cases hs; exact Nat.le_add_right _ _
  | call t op => obtain ⟨_,rfl⟩ := step_call hs; rfl
  | acquire t => obtain ⟨_,_,_,_,rfl⟩ := step_acquire hs; rfl
  | exec t order => obtain ⟨_,_,_,rfl⟩ := step_exec hs; rfl

lemma FifoInv.quiet (h : FifoInv s) (hok : atomicOps s a) (hquiet : Quiet s s')
    (hs : step cfg s a = some s') : FifoInv s' := by
  -- a thread that enters a call has no line of its own and has read nothing
  have hcalled : ∀ u, s'.pc u = s.pc u ∨
      (∀ dq, (s'.pc u).line dq = (s.pc u).line dq) ∧ (s'.pc u).front = none := by
    intro u
    rcases hquiet.pc u with heq | ⟨hidle,hstart⟩
    · exact Or.inl heq
    right
    have hpk : (s.pc u).parked = true := by
      cases hpc : s.pc u <;> simp [hpc,Pc.isIdle] at hidle
      rfl
    rcases hstart with ⟨c,hp⟩ | ⟨o,hp⟩ <;> rw [hp] <;>
      exact ⟨fun dq => (Pc.line_of_parked hpk dq).symm,rfl⟩
  refine ⟨?_,?_,?_,one_active hok h.one hs⟩
  · intro u
    rw [hquiet.queue]
    rcases hcalled u with heq | ⟨hline,_⟩
    · rw [heq]; exact h.order u
    · rw [hline]; exact h.order u
  · intro u id hf
    rw [hquiet.queue]
    rcases hcalled u with heq | ⟨_,hnone⟩
    · rw [heq] at hf; exact h.front u id hf
    · rw [hnone] at hf; cases hf
  · intro id e he
    rw [hquiet.queue] at he
    exact (h.past id e he).trans (step_clock hs)

theorem ReachableBy.fifoInv (h : ReachableBy cfg fifoOps s) : FifoInv s := by
  obtain ⟨c,hr⟩ := h
  refine hr.invariant_of (J := Reachable cfg) (fun u hu => ReachableBy.reachable ⟨c,hu⟩) ?_ ?_
  · intro u a u' hj hi hok hs
    rcases step_quiet hs with hquiet | ⟨t,order,rfl⟩
    · exact hi.quiet hok.1 hquiet hs
    · have hj' : Reachable cfg u' := hj.run (.tail (.refl u) trivial hs)
      exact hi.exec hj.guardInv hj.sound hj'.sound hok hs
  · constructor <;> simp [Sys.init,Queue.empty,Pc.line,Pc.held,Pc.front,Pc.parked,InOrder]

lemma ReachableBy.fifo_full (h : ReachableBy cfg fifoOps s) : s.pool.Full := by
  obtain ⟨c,hr⟩ := h
  refine ReachableBy.full ⟨c,hr.mono ?_⟩
  intro u a hu _
  have hfront := (ReachableBy.fifoInv ⟨c,hu⟩).front
  cases a with
  | exec t order =>
    simp only [popsOwnFront,Sys.popsOther]
    cases hpc : u.pc t with
    | discardPop c now id => simp [hfront t id (by rw [hpc]; rfl)]
    | _ => rfl
  | _ => trivial

lemma EntryStep.of_claimed {w : PubKey}
    {o o' : Option TaskEntry} (h : EntryStep cfg s t id o o' evs)
    (hev : .claimed id w ∈ evs) :
    ∃ d now e, s.pc t = .claimAttempt w d id now ∧ o = some e ∧ e.phase = .queued ∧
      now - e.queuedAt ≤ cfg.ttl := by
  cases h with
  | @claimed _ d now e pc queued young =>
    cases List.mem_singleton.mp hev
    exact ⟨d,now,e,pc,rfl,queued,young⟩
  | @removed c now e pc => by_cases hq : e.phase = .queued <;> simp [hq] at hev
  | _ => simp at hev

/-- When operations do not overlap and expired leases are put back in order, the task that is
handed out has waited for at most `ttl` and was queued first of all queued tasks. -/
theorem claimed_task_oldest {cfg : Config} {s s' : Sys} {t : Tid} {order : List String}
    {id : String} {w : PubKey} (h : ReachableBy cfg fifoOps s) (hok : atomicOps s (.exec t order))
    (hs : step cfg s (.exec t order) = some s') (hlog : s'.log = .claimed id w::s.log) :
    ∃ d now e, s.pc t = .claimAttempt w d id now ∧ s.queue.tasks.lookup id = some e ∧
      e.phase = .queued ∧ now - e.queuedAt ≤ cfg.ttl ∧
      ∀ id' e', s.queue.tasks.lookup id' = some e' → e'.phase = .queued →
        e.queuedAt ≤ e'.queuedAt := by
  have hev : .claimed id w ∈ about id (s.effect cfg t order).events := by
    obtain ⟨_,_,_,rfl⟩ := step_exec hs
    have hevs : (s.effect cfg t order).events = [.claimed id w] :=
      append_cancel_right hlog
    simp [hevs,about,Event.id]
  obtain ⟨d,now,e,hpc,he,hq,hyoung⟩ := (exec_entry h.reachable.guardInv hs id).of_claimed hev
  refine ⟨d,now,e,hpc,he,hq,hyoung,?_⟩
  intro id' e' he' hq'
  have horder := h.fifoInv.order t
  rw [hpc] at horder
  obtain ⟨hfirst,_⟩ := List.pairwise_cons.mp horder
  -- no other thread holds an id, so a queued task waits or is the one at hand
  rcases h.fifo_full id' ⟨e',he',hq'⟩ with hw | ⟨u,hu⟩
  · simpa [queuedSince,he,he'] using hfirst id' hw
  by_cases hut : u = t
  · subst hut
    have hid : id' = id := by simpa [Sys.pool,hpc,Pc.held] using hu
    rw [hid,he] at he'
    cases he'
    rfl
  · have hpk := hok t rfl u hut
    cases hpu : s.pc u <;> simp [Sys.pool,hpu,Pc.held,Pc.parked] at hu hpk

lemma atomicOps_of_sole (h : s.Sole) (ha : a.tid.all (fun t => t = 0) = true) : atomicOps s a := by
  intro t ht u hu
  rw [ht] at ha
  have ht0 : t = 0 := by simpa using ha
  rw [h u (ht0 ▸ hu)]
  rfl

/-- Thread 0 stores `a` and `b` and is about to claim `a`. -/
def claimFirst : List Label :=
  storeTwo ++ [.call 0 (.claimNext (workerKey 1) 0)] ++ recycleNone 0 ["a","b"] ++
  discardFresh 0 ++ locked 0 [] ++ [.exec 0 [],.acquire 0]

theorem claimed_task_oldest_two : ∃ s s', ReachableBy minuteTtl fifoOps s ∧
    step minuteTtl s (.exec 0 []) = some s' ∧ s'.log = .claimed "a" (workerKey 1)::s.log ∧
    s.queue.dequeIds = ["b"] ∧ ∃ d now e, s.pc 0 = .claimAttempt (workerKey 1) d "a" now ∧
      s.queue.tasks.lookup "a" = some e ∧ e.phase = .queued ∧ now - e.queuedAt ≤ minuteTtl.ttl ∧
      ∀ id' e', s.queue.tasks.lookup id' = some e' → e'.phase = .queued →
        e.queuedAt ≤ e'.queuedAt := by
  obtain ⟨s,hs,hq⟩ := (Option.any_eq_true _ _).mp
    (by decide +kernel : (execute (step minuteTtl)
      (fun s a => a.tid.all (fun t => t = 0) = true ∧ requeuesInOrder s a) claimFirst
      (Sys.init 0)).any (fun s => s.queue.dequeIds = ["b"] ∧ (step minuteTtl s (.exec 0 [])).any
        (fun s' => s'.log = .claimed "a" (workerKey 1)::s.log)) = true)
  simp only [Option.any_eq_true,decide_eq_true_eq] at hq
  obtain ⟨hdq,s',hs',hlog⟩ := hq
  obtain ⟨hr,hsole⟩ := execute_run_sole
    (fun _ _ h ha hok => (⟨atomicOps_of_sole h ha,hok⟩ : fifoOps _ _)) hs
  exact ⟨s,s',hr,hs',hlog,hdq,claimed_task_oldest hr (atomicOps_of_sole hsole rfl) hs' hlog⟩

/-- Thread 0 stores `a` and, a second later, `b`; both are claimed, both leases run out, and
the next claim finds them in one iteration of the map. -/
def requeueReversed : List Label :=
  [.call 0 (.enqueue (.ofId "a"))] ++ recycleNone 0 [] ++ discardEmpty 0 ++ enqueueRest 0 ++
  [.tick 1000000000,.call 0 (.enqueue (.ofId "b"))] ++ recycleNone 0 ["a"] ++ discardFresh 0 ++
  enqueueRest 0 ++
  [.call 0 (.claimNext (workerKey 1) 0)] ++ recycleNone 0 ["a","b"] ++ discardFresh 0 ++
  claimOnce 0 ++
  [.call 0 (.claimNext (workerKey 1) 0)] ++ recycleNone 0 ["a","b"] ++ discardFresh 0 ++
  claimOnce 0 ++
  [.tick 30000000001,.call 0 (.claimNext (workerKey 2) 0)] ++ recycleSome 0 ["a","b"] ++
  discardFresh 0 ++ locked 0 [] ++ [.exec 0 [],.acquire 0]

theorem requeueReversed_overtakes : ∃ s s' a b, ReachableBy (halfMinuteLease 8) atomicOps s ∧
    atomicOps s (.exec 0 []) ∧ step (halfMinuteLease 8) s (.exec 0 []) = some s' ∧
    s'.log = .claimed "b" (workerKey 2)::s.log ∧
    s.queue.tasks.lookup "a" = some a ∧ s.queue.tasks.lookup "b" = some b ∧
    a.phase = .queued ∧ s.clock - a.queuedAt ≤ (halfMinuteLease 8).ttl ∧
    a.queuedAt < b.queuedAt := by
  obtain ⟨s,hs,hq⟩ := (Option.any_eq_true _ _).mp
    (by decide +kernel : (execute (step (halfMinuteLease 8))
      (fun s a => a.tid.all (fun t => t = 0) = true ∧ anyStep s a) requeueReversed
      (Sys.init 0)).any (fun s => (step (halfMinuteLease 8) s (.exec 0 [])).any
          (fun s' => s'.log = .claimed "b" (workerKey 2)::s.log) ∧
        (s.queue.tasks.lookup "a").any (fun a => (s.queue.tasks.lookup "b").any (fun b =>
          a.phase = .queued ∧ s.clock - a.queuedAt ≤ (halfMinuteLease 8).ttl ∧
            a.queuedAt < b.queuedAt))) = true)
  simp only [Option.any_eq_true,decide_eq_true_eq] at hq
  obtain ⟨⟨s',hs',hlog⟩,a,ha,b,hb,hfacts⟩ := hq
  obtain ⟨hr,hsole⟩ := execute_run_sole (fun _ _ h ha _ => atomicOps_of_sole h ha) hs
  exact ⟨s,s',a,b,hr,atomicOps_of_sole hsole rfl,hs',hlog,ha,hb,hfacts⟩

end PirateServer.TaskQueue
