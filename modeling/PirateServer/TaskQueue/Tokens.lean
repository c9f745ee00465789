import PirateServer.Lib.Pool
import PirateServer.TaskQueue.EntrySteps

/-! The ids of queued tasks move between `deque_ids` and the threads as tokens of a pool.
The simulation gives the representation invariant of the queue under any interleaving, the
termination of the claim loop, and, as long as no pop takes a foreign id, that no queued
task is lost. -/
namespace PirateServer.TaskQueue
open Lib Sys

/-- Queued tasks are live, `deque_ids` is the queue, and threads hold what they took out. -/
def Sys.pool (s : Sys) : Pool String Tid :=
  ⟨{id | s.queue.Queued id},s.queue.dequeIds,fun t => (s.pc t).held⟩

/-- The thread is about to pop an id that is not the one it read at the front. -/
def Sys.popsOther (s : Sys) (t : Tid) : Bool :=
  match s.pc t with
  | .discardPop _ _ id => s.queue.dequeIds.head?.any (fun x => x ≠ id)
  | _ => false

variable {s : Sys} {t : Tid} {eff : Effect}

lemma pool_apply (s : Sys) (t : Tid) (eff : Effect) :
    (s.apply t eff).pool = ⟨{id | eff.queue.Queued id},eff.queue.dequeIds,
      Function.update s.pool.held t eff.pc.held⟩ := by
  simp only [pool,apply,Pool.mk.injEq,true_and]
  funext u
  by_cases hu : u = t
  · subst hu; simp
  · simp [Function.update_of_ne hu]

lemma pool_move (live : Set String) (waiting held : List String)
    (hl : ∀ id, eff.queue.Queued id ↔ id ∈ live) (hw : eff.queue.dequeIds = waiting)
    (hh : eff.pc.held = held) :
    (s.apply t eff).pool = ⟨live,waiting,Function.update s.pool.held t held⟩ := by
  rw [pool_apply,← hw,← hh]
  congr 1
  exact Set.ext hl

lemma pool_stay (hl : ∀ id, eff.queue.Queued id ↔ s.queue.Queued id)
    (hw : eff.queue.dequeIds = s.queue.dequeIds) (hh : eff.pc.held = (s.pc t).held) :
    Pool.Move s.pool (s.apply t eff).pool := by
  rw [pool_move {id | s.queue.Queued id} _ _ hl hw hh]
  have hu : Function.update s.pool.held t (s.pc t).held = s.pool.held := Function.update_eq_self t _
  rw [hu]
  exact .stay _

variable {cfg : Config} {q : Queue} {id : String} {e : TaskEntry}

lemma Queue.queued_insert {hm : Tasks} (id j : String) (dq : List String) :
    Queue.Queued ⟨dq,hm.insert id e⟩ j ↔
      (j = id ∧ e.phase = .queued) ∨ (j ≠ id ∧ Queue.Queued ⟨dq,hm⟩ j) := by
  unfold Queue.Queued
  by_cases hj : j = id
  · subst hj; simp
  · simp [AList.lookup_insert_ne hj,hj]

lemma Queue.queued_erase {hm : Tasks} (id j : String) (dq : List String) :
    Queue.Queued ⟨dq,hm.erase id⟩ j ↔ j ≠ id ∧ Queue.Queued ⟨dq,hm⟩ j := by
  unfold Queue.Queued
  by_cases hj : j = id
  · subst hj; simp
  · simp [AList.lookup_erase_ne hj,hj]

/-- Recycling adds exactly the tasks whose lease has run out. -/
lemma queued_recycle {now : ℕ} {order : List String} (ho : order.Perm q.tasks.keys) (id : String) :
    Queue.Queued ⟨q.dequeIds,(recycleTasks now order q.tasks).1⟩ id ↔
      q.Queued id ∨ id ∈ (recycleTasks now order q.tasks).2 := by
  have hnd := ho.nodup_iff.mpr q.tasks.keys_nodup
  rw [recycleTasks_requeue hnd,List.mem_filter,leaseExpired]
  unfold Queue.Queued
  rw [lookup_recycleTasks_of_perm ho]
  cases hl : q.tasks.lookup id with
  | none => simp
  | some e =>
    have hk : id ∈ order := ho.mem_iff.mpr (Table.mem_keys_iff_lookup.mpr ⟨e,hl⟩)
    cases hr : e.recycle now with
    | none => simp [hr]
    | some e' =>
      obtain ⟨_,rfl⟩ := TaskEntry.recycle_eq_some hr
      simp [hr,hk]

lemma not_queued_of_leaseExpired {now : ℕ} (h : leaseExpired now q.tasks id = true) :
    ¬q.Queued id := by
  rintro ⟨e,he,hp⟩
  rw [leaseExpired,he] at h
  have hi : e.phase.active = false := by rw [hp]; rfl
  simp [TaskEntry.recycle_eq_none_of_inactive hi] at h

/-- A status update or a part never moves a task into or out of `Queued`. -/
lemma EntryStep.queued_iff {o o' : Option TaskEntry} {evs : List Event}
    (h : EntryStep cfg s t id o o' evs)
    (hpc : (∃ a, s.pc t = .statusTasks a) ∨ ∃ a, s.pc t = .completeTasks a)
    (hc : ∀ e, o = some e → e.phase = .queued ∨ e.phase = .expired → e.claimant = none) :
    (∃ e, o' = some e ∧ e.phase = .queued) ↔ ∃ e, o = some e ∧ e.phase = .queued := by
  have hown : ∀ {e : TaskEntry} {w : PubKey}, o = some e → e.claimant = some w →
      e.phase ≠ .queued := by
    intro e w ho hw hq
    simp [hc e ho (Or.inl hq)] at hw
  cases h with
  | same => exact Iff.rfl
  | recycled pc | created pc | expired pc | claimed pc | removed pc =>
    rcases hpc with ⟨a,ha⟩ | ⟨a,ha⟩ <;> rw [pc] at ha <;> cases ha
  | @updated a e pc own active => simp [hown rfl own]
  | @failed a e pc rid own => simp [hown rfl own,TaskEntry.fail]
  | @absorbed a e pc rid own | @refused a e pc rid own => simp [hown rfl own,TaskEntry.absorb]
  | @completed a e pc rid own => simp [hown rfl own,TaskEntry.complete]

variable {s' : Sys} {order : List String} {c : Rest} {now : ℕ}

lemma pool_recycleTasks (hpc : s.pc t = .recycleTasks c now) (ho : order.Perm s.queue.tasks.keys) :
    Pool.Move s.pool (s.apply t (s.effect cfg t order)).pool := by
  have hnd := ho.nodup_iff.mpr s.queue.tasks.keys_nodup
  have hids : (recycleTasks now order s.queue.tasks).2 =
      order.filter (leaseExpired now s.queue.tasks) := recycleTasks_requeue hnd
  have hheld : (s.effect cfg t order).pc.held = (recycleTasks now order s.queue.tasks).2 := by
    simp only [effect,hpc,advance]
    split
    · rename_i h; exact h.symm
    · rfl
  rw [pool_move (s.pool.live ∪ {id | id ∈ (recycleTasks now order s.queue.tasks).2})
    s.pool.waiting _ ?_ (by simp only [effect,hpc,advance]; rfl) hheld]
  · apply Pool.Move.mint
    · intro id hid
      rw [hids,List.mem_filter] at hid
      exact not_queued_of_leaseExpired hid.2
    · rw [hids]
      exact hnd.filter _
    · simp [pool,hpc,Pc.held]
  · intro id
    simp only [effect,hpc,advance]
    exact queued_recycle ho id

lemma pool_recyclePush {ids : List String} (hpc : s.pc t = .recyclePush c ids)
    (hsound : s.pool.Sound) : Pool.Move s.pool (s.apply t (s.effect cfg t order)).pool := by
  have hheld : s.pool.held t = ids := by simp [pool,hpc,Pc.held]
  have hpush : pushFrontMissing ids s.queue.dequeIds = ids.reverse ++ s.queue.dequeIds :=
    pushFrontMissing_eq (hheld ▸ hsound.held_nodup t)
      (fun id hid => hsound.apart t id (hheld ▸ hid))
  rw [pool_move s.pool.live (ids.reverse ++ s.queue.dequeIds) []
    (fun id => by simp only [effect,hpc,advance]; exact Iff.rfl)
    (by simp only [effect,hpc,advance,hpush]) (by simp only [effect,hpc,advance]; rfl)]
  apply Pool.Move.park
  rw [hheld]
  exact (List.reverse_perm ids).append_right _

lemma pool_discardPop (hpc : s.pc t = .discardPop c now id) :
    Pool.Move s.pool (s.apply t (s.effect cfg t order)).pool ∨
      (Pool.Loss s.pool (s.apply t (s.effect cfg t order)).pool ∧ s.popsOther t = true) := by
  have hheld : s.pool.held t = [] := by simp [pool,hpc,Pc.held]
  have hlive : ∀ j, (s.effect cfg t order).queue.Queued j ↔ j ∈ s.pool.live := by
    intro j
    simp only [effect,hpc,advance]
    exact Iff.rfl
  cases hd : s.queue.dequeIds with
  | nil =>
    left
    exact pool_stay hlive (by simp [effect,hpc,advance,hd])
      (by simp [effect,hpc,advance,hd,Pc.held])
  | cons x rest =>
    have hw : (s.effect cfg t order).queue.dequeIds = rest := by simp [effect,hpc,advance,hd]
    by_cases hx : x = id
    · left
      subst hx
      rw [pool_move _ _ [x] hlive hw (by simp [effect,hpc,advance,hd,Pc.held])]
      exact .take _ t x rest hd hheld
    · right
      refine ⟨?_,by simp [popsOther,hpc,hd,hx]⟩
      rw [pool_move _ _ [] hlive hw (by simp [effect,hpc,advance,hd,hx,Pc.held])]
      have hu : Function.update s.pool.held t [] = s.pool.held := by
        rw [← hheld]; exact Function.update_eq_self t _
      rw [hu]
      exact .drop _ x rest hd

lemma Sys.lookup_held (s : Sys) (hsound : s.pool.Sound) (t : Tid) (id : String)
    (hid : id ∈ (s.pc t).held) : ∃ e, s.queue.tasks.lookup id = some e ∧ e.phase = .queued :=
  hsound.held_live t id hid

lemma pool_discardRemove (hpc : s.pc t = .discardRemove c now id)
    (hsound : s.pool.Sound) : Pool.Move s.pool (s.apply t (s.effect cfg t order)).pool := by
  obtain ⟨e,he,hq⟩ := s.lookup_held hsound t id (by simp [hpc,Pc.held])
  have heff : s.effect cfg t order =
      ⟨⟨s.queue.dequeIds,s.queue.tasks.erase id⟩,{ s.stats with expired := s.stats.expired + 1 },
        .discardReinsert c now id e.expire,[.ended id]⟩ := by
    simp [effect,hpc,advance,removeEffect,discardRemove,he,hq]
  rw [heff,pool_move (s.pool.live \ {id}) s.pool.waiting [] ?_ rfl rfl]
  · exact .burn _ t id (by simp [pool,hpc,Pc.held])
  · intro j
    rw [Queue.queued_erase,and_comm]
    exact Iff.rfl

lemma pool_enqueueInsert {a : Submit} (hpc : s.pc t = .enqueueInsert a) :
    Pool.Move s.pool (s.apply t (s.effect cfg t order)).pool := by
  by_cases hn : a.rid ∈ s.queue.tasks
  · refine pool_stay ?_ ?_ ?_ <;> simp [effect,hpc,advance,hn,Pc.held]
  have hfresh : ¬s.queue.Queued a.rid := by
    rintro ⟨e,he,_⟩
    rw [AList.lookup_eq_none.mpr hn] at he
    cases he
  have heff : s.effect cfg t order =
      ⟨⟨s.queue.dequeIds,s.queue.tasks.insert a.rid
        (newEntry cfg a.rid a.envelope a.createdMs s.clock)⟩,s.stats,.enqueuePush a.rid,[]⟩ := by
    simp [effect,hpc,advance,hn]
  rw [heff,pool_move (s.pool.live ∪ {i | i ∈ [a.rid]}) s.pool.waiting [a.rid] ?_ rfl rfl]
  · apply Pool.Move.mint
    · intro i hi
      rw [List.mem_singleton.mp hi]
      exact hfresh
    · exact List.nodup_singleton _
    · simp [pool,hpc,Pc.held]
  · intro j
    rw [Queue.queued_insert]
    by_cases hj : j = a.rid
    · subst hj; simp [newEntry]
    · simp [hj,pool]

lemma pool_claimAttempt {w : PubKey} {d : ℕ}
    (hpc : s.pc t = .claimAttempt w d id now) (hsound : s.pool.Sound) :
    Pool.Move s.pool (s.apply t (s.effect cfg t order)).pool := by
  obtain ⟨e,he,hq⟩ := s.lookup_held hsound t id (by simp [hpc,Pc.held])
  have hown : s.pool.held t = [id] := by simp [pool,hpc,Pc.held]
  -- both outcomes take the task out of `Queued` and leave the thread without an id
  have hburn : ∀ (eff : Effect) (e' : TaskEntry), e'.phase ≠ .queued → eff.pc.held = [] →
      eff.queue = ⟨s.queue.dequeIds,s.queue.tasks.insert id e'⟩ →
      Pool.Move s.pool (s.apply t eff).pool := by
    intro eff e' hp hh hqueue
    rw [pool_move (s.pool.live \ {id}) s.pool.waiting [] ?_
      (by rw [hqueue]; rfl) hh]
    · exact .burn _ t id hown
    · intro j
      rw [hqueue,Queue.queued_insert]
      by_cases hj : j = id
      · subst hj; simp [hp]
      · simp [hj,pool]
  by_cases httl : cfg.ttl < now - e.queuedAt
  · apply hburn _ e.expire (by simp [TaskEntry.expire]) <;>
      simp [effect,hpc,advance,claimEffect,attemptClaimId,he,hq,httl,Pc.held]
  · apply hburn _ (e.claim cfg now w) (by simp [TaskEntry.claim]) <;>
      simp [effect,hpc,advance,claimEffect,attemptClaimId,he,hq,httl,Pc.held]

/-- Every section is a move of the pool; the one lossy case is the pop of a foreign id. -/
theorem exec_pool (hg : GuardInv s) (hc : ClaimInv s) (hsound : s.pool.Sound)
    (hs : step cfg s (.exec t order) = some s') :
    Pool.Move s.pool s'.pool ∨ (Pool.Loss s.pool s'.pool ∧ s.popsOther t = true) := by
  have hlet := hg.exec_inIfLet hs
  have hentry := fun id => exec_entry hg hs id
  obtain ⟨hidle,_,ho,rfl⟩ := step_exec hs
  cases hpc : s.pc t with
  | idle => simp [hpc,Pc.isIdle] at hidle
  | recycleStart | discardStart | claimStart =>
    left
    apply pool_stay <;> simp [effect,hpc,advance,Pc.held]
  | recycleTasks c now =>
    left
    simp only [orderOk,hpc,decide_eq_true_eq] at ho
    exact pool_recycleTasks hpc ho
  | recyclePush c ids => exact Or.inl (pool_recyclePush hpc hsound)
  | discardFront c now | discardStale c now id =>
    left
    apply pool_stay <;> simp only [effect,hpc,advance] <;> split <;>
      cases c <;> simp [Rest.resume,Pc.held]
  | discardPop c now id => exact pool_discardPop hpc
  | discardRemove c now id => exact Or.inl (pool_discardRemove hpc hsound)
  | discardReinsert c now id e => simp [hpc,Pc.inIfLet] at hlet
  | enqueueCap a | claimWait w d =>
    left
    apply pool_stay <;> simp only [effect,hpc,advance] <;> split <;> simp [Pc.held]
  | enqueueInsert a => exact Or.inl (pool_enqueueInsert hpc)
  | enqueuePush rid =>
    left
    rw [pool_move s.pool.live (s.queue.dequeIds ++ [rid]) []
      (fun id => by simp only [effect,hpc,advance]; exact Iff.rfl)
      (by simp only [effect,hpc,advance]) (by simp only [effect,hpc,advance]; rfl)]
    apply Pool.Move.park
    simp [pool,hpc,Pc.held]
  | claimPop w d =>
    left
    cases hd : s.queue.dequeIds with
    | nil => apply pool_stay <;> simp [effect,hpc,advance,hd,Pc.held]
    | cons id rest =>
      rw [pool_move s.pool.live rest [id]
        (fun j => by simp only [effect,hpc,advance,hd]; exact Iff.rfl)
        (by simp only [effect,hpc,advance,hd]) (by simp only [effect,hpc,advance,hd]; rfl)]
      exact .take _ t id rest hd (by simp [pool,hpc,Pc.held])
  | claimAttempt w d id now => exact Or.inl (pool_claimAttempt hpc hsound)
  | claimRequeue w d id =>
    left
    rw [pool_move s.pool.live (id::s.queue.dequeIds) []
      (fun j => by simp only [effect,hpc,advance]; exact Iff.rfl)
      (by simp only [effect,hpc,advance]) (by simp only [effect,hpc,advance]; rfl)]
    apply Pool.Move.park
    simp [pool,hpc,Pc.held]
  | statusTasks a =>
    left
    refine pool_stay (fun id => (hentry id).queued_iff (Or.inl ⟨a,hpc⟩)
      (fun e he => hc id e he)) ?_ ?_ <;>
      simp only [effect,hpc,advance] <;> split <;> simp [Pc.held]
  | completeTasks a =>
    left
    refine pool_stay (fun id => (hentry id).queued_iff (Or.inr ⟨a,hpc⟩)
      (fun e he => hc id e he)) ?_ ?_ <;>
      simp only [effect,hpc,advance,completeEffect] <;> split <;> simp [Pc.held]

lemma Quiet.pool_eq (h : Quiet s s') : s'.pool = s.pool := by
  simp only [pool,h.queue,Pool.mk.injEq,true_and]
  funext u
  rcases h.pc u with heq | ⟨hidle,hstart⟩
  · rw [heq]
  have hnew : (s'.pc u).held = [] := by
    rcases hstart with ⟨c,hp⟩ | ⟨o,hp⟩ <;> rw [hp] <;> rfl
  rw [hnew]
  cases hpc : s.pc u with
  | idle => rfl
  | _ => simp [hpc,Pc.isIdle] at hidle

lemma step_sound {a : Label} (hg : GuardInv s) (hc : ClaimInv s) (hsound : s.pool.Sound)
    (hs : step cfg s a = some s') : s'.pool.Sound := by
  rcases step_quiet hs with hquiet | ⟨t,order,rfl⟩
  · rw [hquiet.pool_eq]
    exact hsound
  · rcases exec_pool hg hc hsound hs with hmove | ⟨hloss,_⟩
    · exact hmove.sound hsound
    · exact hloss.sound hsound

lemma Sys.init_sound (clock : ℕ) : (init clock).pool.Sound := by
  constructor <;> simp [init,pool,Queue.empty,Pc.held]

/-- No id is ever in two places, and every id that waits or is held is queued. -/
theorem Reachable.sound (h : Reachable cfg s) : s.pool.Sound := by
  obtain ⟨c,hr⟩ := h
  refine hr.invariant_of (J := fun u => GuardInv u ∧ ClaimInv u) (I := fun u => u.pool.Sound)
    (fun u hu => ⟨Reachable.guardInv ⟨c,hu⟩,Reachable.claimInv ⟨c,hu⟩⟩) ?_ (init_sound c)
  exact fun _ _ _ hj hi _ hs => step_sound hj.1 hj.2 hi hs

def popsOwnFront (s : Sys) : Label → Prop
  | .exec t _ => s.popsOther t = false
  | _ => True

instance (s : Sys) : (a : Label) → Decidable (popsOwnFront s a)
  | .exec t _ => inferInstanceAs (Decidable (s.popsOther t = false))
  | .tick _ | .call .. | .acquire _ => .isTrue trivial

/-- As long as no foreign id is popped, every queued task waits or is held. -/
theorem ReachableBy.full (h : ReachableBy cfg popsOwnFront s) : s.pool.Full := by
  obtain ⟨c,hr⟩ := h
  refine hr.invariant_of (J := Reachable cfg) (I := fun u => u.pool.Full)
    (fun u hu => ReachableBy.reachable ⟨c,hu⟩) ?_ ?_
  · intro u a u' hu hfull hok hs
    rcases step_quiet hs with hquiet | ⟨t,order,rfl⟩
    · rw [hquiet.pool_eq]
      exact hfull
    · rcases exec_pool hu.guardInv hu.claimInv hu.sound hs with hmove | ⟨_,hother⟩
      · exact hmove.full hfull
      · simp only [popsOwnFront] at hok
        simp [hok] at hother
  · intro id hid
    simp [init,pool,Queue.empty,Queue.Queued] at hid

/-- While no thread is in an operation, every queued task waits exactly once, provided that
`discard_ttl_expired` has only popped the ids that it had read. -/
theorem count_queued_eq_one {cfg : Config} {s : Sys} (h : ReachableBy cfg popsOwnFront s)
    (hidle : ∀ t, (s.pc t).isIdle = true) {id : String} (hq : s.queue.Queued id) :
    s.queue.dequeIds.count id = 1 := by
  apply Pool.count_eq_one h.reachable.sound h.full ?_ hq
  intro t
  have ht := hidle t
  cases hpc : s.pc t with
  | idle => simp [pool,hpc,Pc.held]
  | _ => simp [hpc,Pc.isIdle] at ht

theorem count_queued_eq_one_two : ∃ s, ReachableBy minuteTtl popsOwnFront s ∧
    s.queue.Queued "b" ∧ s.queue.dequeIds.count "b" = 1 := by
  obtain ⟨s,hs,hq⟩ := (Option.any_eq_true _ _).mp
    (by decide +kernel : (execute (step minuteTtl) popsOwnFront storeTwo (init 0)).any
      (fun s => "b" ∈ s.queue.queuedIds ∧ ∀ t < 1, (s.pc t).isIdle = true) = true)
  simp only [Queue.mem_queuedIds,decide_eq_true_eq] at hq
  have hr : ReachableBy minuteTtl popsOwnFront s := ⟨0,execute_run hs⟩
  exact ⟨s,hr,hq.1,count_queued_eq_one hr (execute_idle 1 hs (by decide) hq.2) hq.1⟩

/-- Thread 1 is about to pop when `a` becomes stale. Thread 2 reads `a` at the front, thread 1
pops `a`, and thread 2 pops `b` in its place and drops it. -/
def popRace : List Label :=
  storeTwo ++
  [.call 1 (.claimNext (workerKey 1) 0)] ++ recycleNone 1 ["a","b"] ++ discardFresh 1 ++
  [.tick 20000000001,.call 2 (.applyStatus ⟨workerKey 2,"x",none,0⟩)] ++
  recycleNone 2 ["a","b"] ++ discardFresh 2 ++
  locked 1 [] ++ locked 2 [] ++ locked 2 [] ++ locked 2 [] ++
  .exec 1 []::locked 1 [] ++ locked 1 [] ++ [.tick 50000000,.exec 1 []]

theorem popRace_loses_task : ∃ s, Reachable minuteTtl s ∧ (∀ t, (s.pc t).isIdle = true) ∧
    s.queue.Queued "b" ∧ s.queue.dequeIds.count "b" = 0 := by
  obtain ⟨s,hs,hq⟩ := (Option.any_eq_true _ _).mp
    (by decide +kernel : (execute (step minuteTtl) anyStep popRace (init 0)).any
      (fun s => "b" ∈ s.queue.queuedIds ∧ s.queue.dequeIds.count "b" = 0 ∧
        ∀ t < 3, (s.pc t).isIdle = true) = true)
  simp only [Queue.mem_queuedIds,decide_eq_true_eq] at hq
  exact ⟨s,⟨0,execute_run hs⟩,execute_idle 3 hs (by decide) hq.2.2,hq.1,hq.2.1⟩

end PirateServer.TaskQueue
