import PirateServer.TaskQueue.Tokens

/-! What happens to a task that has reached its end. `apply_complete` checks the claimant but
not the phase, so a later part of the same worker still changes the task; without such a part
a finished task stays as it is and is counted once. -/
namespace PirateServer.TaskQueue
open Lib List

def Sys.completesEnded (s : Sys) (t : Tid) : Bool :=
  match s.pc t with
  | .completeTasks a =>
    (s.queue.tasks.lookup a.rid).any (fun e => e.phase.terminal && e.claimant = some a.worker)
  | _ => false

/-- No part is applied to a task that has already ended. -/
def completesActive (s : Sys) : Label → Prop
  | .exec t _ => s.completesEnded t = false
  | _ => True

instance (s : Sys) : (a : Label) → Decidable (completesActive s a)
  | .exec t _ => inferInstanceAs (Decidable (s.completesEnded t = false))
  | .tick _ | .call .. | .acquire _ => .isTrue trivial

/-- The tasks that the counters were raised for. -/
def endedIds (log : List Event) : List String :=
  log.filterMap (fun | .ended id => some id | _ => none)

variable {cfg : Config} {s s' : Sys} {t : Tid} {order : List String}
  {id : String} {o o' : Option TaskEntry} {evs : List Event}

lemma EntryStep.same_or_tasks
    (h : EntryStep cfg s t id o o' evs) : (o' = o ∧ evs = []) ∨ (s.pc t).mutex = some .tasks := by
  cases h with
  | same => exact Or.inl ⟨rfl,rfl⟩
  | recycled pc | created pc | expired pc | claimed pc | updated pc | failed pc | absorbed pc
  | refused pc | completed pc | removed pc => exact Or.inr (by rw [pc]; rfl)

lemma EntryStep.eq_of_terminal {e : TaskEntry} (h : EntryStep cfg s t id (some e) o' evs)
    (hl : s.queue.tasks.lookup id = some e) (he : e.phase.terminal = true)
    (hsound : s.pool.Sound) (hok : s.completesEnded t = false) : o' = some e ∧ evs = [] := by
  have hdone : ∀ a, s.pc t = .completeTasks a → a.rid = id → e.claimant ≠ some a.worker := by
    intro a pc rid own
    simp only [Sys.completesEnded,pc] at hok
    rw [rid,hl] at hok
    simp [he,own] at hok
  cases h with
  | same => exact ⟨rfl,rfl⟩
  | recycled _ lease =>
    obtain ⟨hact,_⟩ := TaskEntry.recycle_eq_some lease
    cases hp : e.phase <;> simp [hp,StoredTaskPhase.active,StoredTaskPhase.terminal] at hact he
  | expired _ queued | claimed _ queued => rw [queued] at he; cases he
  | updated _ _ hact =>
    cases hp : e.phase <;> simp [hp,StoredTaskPhase.active,StoredTaskPhase.terminal] at hact he
  | failed pc rid own | absorbed pc rid own
  | refused pc rid own | completed pc rid own => exact absurd own (hdone _ pc rid)
  | removed pc =>
    -- a thread only removes what it took out of the deque, and that is queued
    obtain ⟨e',he',hq⟩ := s.lookup_held hsound t id (by simp [pc,Pc.held])
    cases hl.symm.trans he'
    rw [hq] at he
    cases he

lemma EntryStep.ends
    (h : EntryStep cfg s t id o o' evs) : (Event.ended id ∉ evs) ∨ (evs.count (.ended id) = 1 ∧
      ((∃ e, o' = some e ∧ e.phase.terminal = true) ∨ ∃ c now,
        s.pc t = .discardRemove c now id)) := by
  cases h with
  | same | recycled | created | claimed | updated | absorbed | refused => exact Or.inl (by simp)
  | expired | failed | completed => exact Or.inr ⟨by simp,Or.inl ⟨_,rfl,rfl⟩⟩
  | @removed c now e pc =>
    by_cases hq : e.phase = .queued
    · exact Or.inr ⟨by simp [hq],Or.inr ⟨c,now,pc⟩⟩
    · exact Or.inl (by simp [hq])

lemma endedIds_append (evs log : List Event) :
    endedIds (evs ++ log) = endedIds evs ++ endedIds log := filterMap_append

lemma count_endedIds (log : List Event) (id : String) :
    (endedIds log).count id = (about id log).count (.ended id) := by
  induction log with
  | nil => rfl
  | cons ev log ih =>
    cases ev with
    | claimed j w | part j w p a =>
      by_cases hj : j = id <;> simpa [endedIds,about,Event.id,hj] using ih
    | ended j =>
      by_cases hj : j = id
      · subst hj
        simpa [endedIds,about,Event.id] using ih
      · simpa [endedIds,about,Event.id,hj] using ih

variable {clock : ℕ} {q : Queue} {st : Stats}

lemma claimEffect_ended {w : PubKey} {d now : ℕ} : (claimEffect cfg q st w d id now).stats.ended =
      st.ended + (endedIds (claimEffect cfg q st w d id now).events).length := by
  cases hl : q.tasks.lookup id with
  | none => simp [claimEffect,attemptClaimId,hl,Stats.ended,endedIds]
  | some e =>
    by_cases hq : e.phase = .queued
    · by_cases httl : cfg.ttl < now - e.queuedAt <;>
        simp [claimEffect,attemptClaimId,hl,hq,httl,Stats.ended,endedIds,Nat.add_assoc]
    · simp [claimEffect,attemptClaimId,hl,hq,Stats.ended,endedIds]

lemma removeEffect_ended {c : Rest} {now : ℕ} : (removeEffect q st c now id).stats.ended =
      st.ended + (endedIds (removeEffect q st c now id).events).length := by
  cases hl : q.tasks.lookup id with
  | none => simp [removeEffect,discardRemove,hl,endedIds]
  | some e =>
    by_cases hq : e.phase = .queued <;>
      simp [removeEffect,discardRemove,hl,hq,Stats.ended,endedIds,Nat.add_assoc]

lemma completeEffect_ended {a : CompletePart} : (completeEffect q st a).stats.ended =
      st.ended + (endedIds (completeEffect q st a).events).length := by
  unfold completeEffect
  dsimp only
  split
  · split_ifs <;> simp [endedIds]
  · simp [endedIds]
  · simp only [Stats.ended,endedIds,filterMap_cons,filterMap_nil,length_singleton]
    omega
  · simp only [Stats.ended,endedIds,filterMap_cons,filterMap_nil,length_singleton]
    omega

/-- The counters move exactly with the logged ends. -/
lemma advance_ended (p : Pc) : (advance cfg clock order q st p).stats.ended =
      st.ended + (endedIds (advance cfg clock order q st p).events).length := by
  cases p with
  | claimAttempt => exact claimEffect_ended
  | discardRemove => exact removeEffect_ended
  | completeTasks => exact completeEffect_ended
  | discardFront | discardStale | enqueueCap | enqueueInsert | claimPop | claimWait | statusTasks =>
    simp only [advance]
    split <;> rfl
  | _ => rfl

/-- Each end was logged and counted once, and a task whose end was logged has ended, unless a
thread is inside the `if let` with it. -/
structure EndInv (s : Sys) : Prop where
  sum : s.stats.ended = (endedIds s.log).length
  once : ∀ id, (endedIds s.log).count id ≤ 1
  final : ∀ id ∈ endedIds s.log, (∃ e, s.queue.tasks.lookup id = some e ∧ e.phase.terminal = true) ∨
    ∃ u, (s.pc u).inIfLet = true

lemma exec_remove_inIfLet {c : Rest} {now : ℕ} (hsound : s.pool.Sound)
    (hs : step cfg s (.exec t order) = some s') (hpc : s.pc t = .discardRemove c now id) :
    (s'.pc t).inIfLet = true := by
  obtain ⟨e,he,_⟩ := s.lookup_held hsound t id (by simp [hpc,Pc.held])
  have hp := exec_pc hs
  rw [hpc] at hp
  generalize s'.pc t = p at hp
  cases hp with
  | removeNone gone => simp [gone] at he
  | remove => rfl

lemma EndInv.exec (hg : GuardInv s) (hsound : s.pool.Sound) (h : EndInv s)
    (hok : s.completesEnded t = false) (hs : step cfg s (.exec t order) = some s') : EndInv s' := by
  have hentry := fun id => exec_entry hg hs id
  have hlog : s'.log = (s.effect cfg t order).events ++ s.log := by
    obtain ⟨_,_,_,rfl⟩ := step_exec hs
    rfl
  have hsum : s'.stats.ended = s.stats.ended + (endedIds (s.effect cfg t order).events).length := by
    obtain ⟨_,_,_,rfl⟩ := step_exec hs
    exact advance_ended _
  -- a task that this section touches had not ended before
  have hfresh : ∀ id, (s'.queue.tasks.lookup id ≠ s.queue.tasks.lookup id ∨
      about id (s.effect cfg t order).events ≠ []) → id ∉ endedIds s.log := by
    intro id hchange hid
    rcases h.final id hid with ⟨e,he,hterm⟩ | ⟨u,hu⟩
    · have hstep := hentry id
      rw [he] at hstep
      obtain ⟨hsame,hevs⟩ := hstep.eq_of_terminal he hterm hsound hok
      rw [he] at hchange
      exact hchange.elim (fun hc => hc hsame) (fun hc => hc hevs)
    · rcases (hentry id).same_or_tasks with ⟨hsame,hevs⟩ | hm
      · exact hchange.elim (fun hc => hc hsame) (fun hc => hc hevs)
      · simp [hg.tasks_exec_free hs hm u] at hu
  have hcount : ∀ id, (endedIds s'.log).count id =
      (about id (s.effect cfg t order).events).count (.ended id) + (endedIds s.log).count id := by
    intro id
    rw [hlog,endedIds_append,count_append,count_endedIds (s.effect cfg t order).events]
  refine ⟨?_,?_,?_⟩
  · rw [hsum,h.sum,hlog,endedIds_append,length_append,Nat.add_comm]
  · intro id
    rw [hcount]
    rcases (hentry id).ends with hno | ⟨hone,_⟩
    · rw [List.count_eq_zero.mpr hno,Nat.zero_add]
      exact h.once id
    have hnew : (endedIds s.log).count id = 0 := by
      apply List.count_eq_zero.mpr
      apply hfresh id (Or.inr _)
      rintro hnil
      simp [hnil] at hone
    omega
  · intro id hid
    by_cases hold : id ∈ endedIds s.log
    · have hsame : s'.queue.tasks.lookup id = s.queue.tasks.lookup id := by
        by_contra hc
        exact hfresh id (Or.inl hc) hold
      rw [hsame]
      rcases h.final id hold with hterm | ⟨u,hu⟩
      · exact Or.inl hterm
      · exact Or.inr ⟨u,hg.step_inIfLet hs hu⟩
    · have hpos : 0 < (endedIds s'.log).count id := List.count_pos_iff.mpr hid
      rw [hcount,List.count_eq_zero.mpr hold] at hpos
      rcases (hentry id).ends with hno | ⟨_,hterm | ⟨c,now,hpc⟩⟩
      · simp [List.count_eq_zero.mpr hno] at hpos
      · exact Or.inl hterm
      · exact Or.inr ⟨t,exec_remove_inIfLet hsound hs hpc⟩

lemma EndInv.step {a : Label} (hg : GuardInv s) (hsound : s.pool.Sound) (h : EndInv s)
    (hok : completesActive s a) (hs : TaskQueue.step cfg s a = some s') : EndInv s' := by
  rcases step_quiet hs with hquiet | ⟨t,order,rfl⟩
  swap
  · exact h.exec hg hsound hok hs
  refine ⟨?_,?_,?_⟩
  · rw [hquiet.stats,hquiet.log]
    exact h.sum
  · rw [hquiet.log]
    exact h.once
  · rw [hquiet.log,hquiet.queue]
    intro id hid
    rcases h.final id hid with hterm | ⟨u,hu⟩
    · exact Or.inl hterm
    · exact Or.inr ⟨u,hg.step_inIfLet hs hu⟩

lemma ReachableBy.endInv (h : ReachableBy cfg completesActive s) : EndInv s := by
  obtain ⟨c,hr⟩ := h
  refine hr.invariant_of (J := Reachable cfg) (fun u hu => ReachableBy.reachable ⟨c,hu⟩)
    (fun _ _ _ hj hi hok hs => hi.step hj.guardInv hj.sound hok hs) ?_
  constructor <;> simp [Sys.init,endedIds,Stats.ended]

/-- As long as no part is applied to a task that has ended, a task that has ended never
changes, and it is counted once. -/
theorem ended_task_final {cfg : Config} {s s' : Sys} (h : ReachableBy cfg completesActive s)
    (hr : Run (step cfg) completesActive s s') :
    (∀ id e, s.queue.tasks.lookup id = some e → e.phase.terminal = true →
      s'.queue.tasks.lookup id = some e) ∧
    s'.stats.ended = (endedIds s'.log).length ∧ (endedIds s'.log).Nodup := by
  have hend := (h.run hr).endInv
  refine ⟨?_,hend.sum,List.nodup_iff_count_le_one.mpr hend.once⟩
  intro id e he hterm
  refine hr.invariant_of (J := Reachable cfg) (I := fun u => u.queue.tasks.lookup id = some e)
    (fun u hu => (h.run hu).reachable) ?_ he
  intro u a u' hj hi hok hs
  rcases step_quiet hs with hquiet | ⟨t,order,rfl⟩
  · rw [hquiet.queue]
    exact hi
  · have hentry := exec_entry hj.guardInv hs id
    rw [hi] at hentry
    exact (hentry.eq_of_terminal hi hterm hj.sound hok).1

/-- The worker finishes `a` with status 200 and body 1. -/
def finishA : List Label := applyPart 1 ["a"] (workerKey 1) ⟨"a",200,[],[1],true,""⟩

theorem ended_task_final_one : ∃ s s' e, ReachableBy minuteTtl completesActive s ∧
    s.queue.tasks.lookup "a" = some e ∧ e.phase = .completed ∧
    Run (step minuteTtl) completesActive s s' ∧ s'.queue.tasks.len = 2 ∧
    s'.queue.tasks.lookup "a" = some e ∧ s'.stats.ended = (endedIds s'.log).length ∧
    (endedIds s'.log).Nodup := by
  obtain ⟨s,hs,hq⟩ := (Option.any_eq_true _ _).mp
    (by decide +kernel : (execute (step minuteTtl) completesActive (storeAndClaim ++ finishA)
        (Sys.init 0)).any (fun s => (s.queue.tasks.lookup "a").any (fun e => e.phase = .completed) ∧
          (execute (step minuteTtl) completesActive ([.call 0 (.enqueue (.ofId "b"))] ++
            recycleNone 0 ["a"] ++ discardEmpty 0 ++ enqueueRest 0) s).any
              (fun s' => s'.queue.tasks.len = 2)) = true)
  simp only [Option.any_eq_true,decide_eq_true_eq] at hq
  obtain ⟨⟨e,he,hp⟩,s',hs',hlen⟩ := hq
  have hr : ReachableBy minuteTtl completesActive s := ⟨0,execute_run hs⟩
  have hfinal := ended_task_final hr (execute_run hs')
  exact ⟨s,s',e,hr,he,hp,execute_run hs',hlen,hfinal.1 "a" e he (by rw [hp]; rfl),hfinal.2⟩

def failFinished : List Label := applyPart 1 ["a"] (workerKey 1) ⟨"a",0,[],[2],true,"late"⟩

theorem finished_task_changes : ∃ s s' e e', Reachable minuteTtl s ∧
    Run (step minuteTtl) anyStep s s' ∧ s.queue.tasks.lookup "a" = some e ∧
    s'.queue.tasks.lookup "a" = some e' ∧ e.phase = .completed ∧ e.responseBody = [1] ∧
    e'.phase = .failed ∧ e'.responseBody = [1,2] ∧ e'.terminalError = some "late" ∧
    s'.queue.tasks.len = 1 ∧ s'.stats.ended = 2 := by
  obtain ⟨s,hs,hq⟩ := (Option.any_eq_true _ _).mp
    (by decide +kernel : (execute (step minuteTtl) anyStep (storeAndClaim ++ finishA)
        (Sys.init 0)).any (fun s => (s.queue.tasks.lookup "a").any
            (fun e => e.phase = .completed ∧ e.responseBody = [1]) ∧
          (execute (step minuteTtl) anyStep failFinished s).any (fun s' =>
            (s'.queue.tasks.lookup "a").any (fun e => e.phase = .failed ∧
              e.responseBody = [1,2] ∧ e.terminalError = some "late") ∧
            s'.queue.tasks.len = 1 ∧ s'.stats.ended = 2)) = true)
  simp only [Option.any_eq_true,decide_eq_true_eq] at hq
  obtain ⟨⟨e,he,hp,hb⟩,s',hs',⟨e',he',hp',hb',ht⟩,hlen,hsum⟩ := hq
  exact ⟨s,s',e,e',⟨0,execute_run hs⟩,execute_run hs',he,he',hp,hb,hp',hb',ht,hlen,hsum⟩

end PirateServer.TaskQueue
