import PirateServer.TaskQueue.Guards

/-! What one step of one thread can do to one stored task. Every later invariant about
tasks is a case analysis on this list. -/
namespace PirateServer.TaskQueue
open Lib Option

def Event.id : Event → String
  | .claimed id _ | .part id _ _ _ | .ended id => id

def about (id : String) (log : List Event) : List Event := log.filter (fun ev => ev.id = id)

/-- The entry of `id` before and after a step of thread `t`, and the events about `id`. -/
inductive EntryStep (cfg : Config) (s : Sys) (t : Tid) (id : String) :
    Option TaskEntry → Option TaskEntry → List Event → Prop
  | same (o) : EntryStep cfg s t id o o []
  | recycled {c now e e'} (pc : s.pc t = .recycleTasks c now) (lease : e.recycle now = some e') :
      EntryStep cfg s t id (some e) (some e') []
  | created {a} (pc : s.pc t = .enqueueInsert a) (rid : a.rid = id) :
      EntryStep cfg s t id none (some (newEntry cfg id a.envelope a.createdMs s.clock)) []
  | expired {w d now e} (pc : s.pc t = .claimAttempt w d id now) (queued : e.phase = .queued)
      (old : cfg.ttl < now - e.queuedAt) :
      EntryStep cfg s t id (some e) (some e.expire) [.ended id]
  | claimed {w d now e} (pc : s.pc t = .claimAttempt w d id now) (queued : e.phase = .queued)
      (young : now - e.queuedAt ≤ cfg.ttl) :
      EntryStep cfg s t id (some e) (some (e.claim cfg now w)) [.claimed id w]
  | updated {a e} (pc : s.pc t = .statusTasks a) (own : e.claimant = some a.worker)
      (active : e.phase.active = true) :
      EntryStep cfg s t id (some e)
        (some { e with phase := .running, detail := a.detail, progressPct := a.progressPct }) []
  | failed {a e} (pc : s.pc t = .completeTasks a) (rid : a.rid = id)
      (own : e.claimant = some a.worker) (failure : a.part.reportsFailure = true) :
      EntryStep cfg s t id (some e) (some (e.fail a.part))
        [.ended id,.part id a.worker a.part true]
  | absorbed {a e} (pc : s.pc t = .completeTasks a) (rid : a.rid = id)
      (own : e.claimant = some a.worker) (regular : a.part.reportsFailure = false) :
      EntryStep cfg s t id (some e) (some (e.absorb a.part)) [.part id a.worker a.part true]
  | refused {a e} (pc : s.pc t = .completeTasks a) (rid : a.rid = id)
      (own : e.claimant = some a.worker) (regular : a.part.reportsFailure = false)
      (empty : (e.absorb a.part).responseBody = []) :
      EntryStep cfg s t id (some e) (some (e.absorb a.part)) [.part id a.worker a.part false]
  | completed {a e} (pc : s.pc t = .completeTasks a) (rid : a.rid = id)
      (own : e.claimant = some a.worker) (regular : a.part.reportsFailure = false) :
      EntryStep cfg s t id (some e) (some (e.absorb a.part).complete)
        [.ended id,.part id a.worker a.part true]
  | removed {c now e} (pc : s.pc t = .discardRemove c now id) :
      EntryStep cfg s t id (some e) none (if e.phase = .queued then [.ended id] else [])

variable {cfg : Config} {s : Sys} {t : Tid} {id : String}

lemma EntryStep.of_eq {hm : Tasks} (h : hm = s.queue.tasks) :
    EntryStep cfg s t id (s.queue.tasks.lookup id) (hm.lookup id) (about id []) := by
  subst h
  exact .same _

variable {order : List String}

lemma entry_recycle {c : Rest} {now : ℕ}
    (hpc : s.pc t = .recycleTasks c now) (ho : order.Perm s.queue.tasks.keys) :
    EntryStep cfg s t id (s.queue.tasks.lookup id)
      ((recycleTasks now order s.queue.tasks).1.lookup id) [] := by
  rw [lookup_recycleTasks_of_perm ho]
  cases hl : s.queue.tasks.lookup id with
  | none => exact .same _
  | some e =>
    cases hr : e.recycle now with
    | none => simpa [hr] using EntryStep.same (some e)
    | some e' => simpa [hr] using EntryStep.recycled hpc hr

lemma entry_insert {a : Submit} (hpc : s.pc t = .enqueueInsert a) (hn : a.rid ∉ s.queue.tasks) :
    EntryStep cfg s t id (s.queue.tasks.lookup id) ((s.queue.tasks.insert a.rid
        (newEntry cfg a.rid a.envelope a.createdMs s.clock)).lookup id) [] := by
  by_cases hid : id = a.rid
  · subst hid
    rw [AList.lookup_insert,AList.lookup_eq_none.mpr hn]
    exact .created hpc rfl
  · rw [AList.lookup_insert_ne hid]
    exact .same _

lemma entry_remove {c : Rest} {now : ℕ} {j : String} (hpc : s.pc t = .discardRemove c now j) :
    EntryStep cfg s t id (s.queue.tasks.lookup id)
      ((removeEffect s.queue s.stats c now j).queue.tasks.lookup id)
      (about id (removeEffect s.queue s.stats c now j).events) := by
  cases hl : s.queue.tasks.lookup j with
  | none =>
    have hq : (s.queue.tasks.erase j).lookup id = s.queue.tasks.lookup id := by
      rw [Table.lookup_erase_eq]
      split
      · rename_i h; rw [h,hl]
      · rfl
    simp only [removeEffect,discardRemove,hl,map_none,hq]
    exact .same _
  | some e =>
    have hev : about id (removeEffect s.queue s.stats c now j).events =
        if id = j ∧ e.phase = .queued then [.ended id] else [] := by
      simp only [removeEffect,discardRemove,hl,map_some,any_some,decide_eq_true_eq]
      by_cases hid : id = j
      · subst hid
        by_cases hq : e.phase = .queued <;> simp [hq,about,Event.id]
      · have hj : j ≠ id := fun h => hid h.symm
        by_cases hq : e.phase = .queued <;> simp [hq,about,Event.id,hid,hj]
    have hq : (removeEffect s.queue s.stats c now j).queue.tasks = s.queue.tasks.erase j := by
      simp only [removeEffect,discardRemove,hl,map_some,any_some]
      split <;> rfl
    rw [hev,hq,Table.lookup_erase_eq]
    by_cases hid : id = j
    · subst hid
      simpa [hl] using @EntryStep.removed cfg s t id c now e hpc
    · simpa [hid] using EntryStep.same _

lemma entry_claim {w : PubKey} {d now : ℕ} {j : String} (hpc : s.pc t = .claimAttempt w d j now) :
    EntryStep cfg s t id (s.queue.tasks.lookup id)
      ((claimEffect cfg s.queue s.stats w d j now).queue.tasks.lookup id)
      (about id (claimEffect cfg s.queue s.stats w d j now).events) := by
  cases hl : s.queue.tasks.lookup j with
  | none =>
    simp only [claimEffect,attemptClaimId,hl]
    exact .same _
  | some e =>
    by_cases hq : e.phase = .queued
    · by_cases httl : cfg.ttl < now - e.queuedAt
      · simp only [claimEffect,attemptClaimId,hl,hq,ne_eq,not_true,if_false,httl,if_true]
        by_cases hid : id = j
        · subst hid
          simpa [hl,about,Event.id] using EntryStep.expired hpc hq httl
        · have hj : j ≠ id := fun h => hid h.symm
          simpa [AList.lookup_insert_ne hid,about,Event.id,hj] using EntryStep.same _
      · simp only [claimEffect,attemptClaimId,hl,hq,ne_eq,not_true,if_false,httl]
        by_cases hid : id = j
        · subst hid
          simpa [hl,about,Event.id] using EntryStep.claimed hpc hq (by omega)
        · have hj : j ≠ id := fun h => hid h.symm
          simpa [AList.lookup_insert_ne hid,about,Event.id,hj] using EntryStep.same _
    · simp only [claimEffect,attemptClaimId,hl,ne_eq,hq,not_false_eq_true,if_true]
      exact .same _

lemma entry_status {a : StatusUpdate} {hm : Tasks} (hpc : s.pc t = .statusTasks a)
    (h : statusTasks s.clock a.worker (Text.trim a.requestId) a.detail a.progressPct
      s.queue.tasks = .ok hm) :
    EntryStep cfg s t id (s.queue.tasks.lookup id) (hm.lookup id) [] := by
  unfold statusTasks at h
  split at h
  · cases h
  rename_i e hl
  split_ifs at h with hw ha hlease
  cases h
  by_cases hid : id = Text.trim a.requestId
  · rw [hid,AList.lookup_insert,hl]
    exact .updated hpc (by simpa using (not_ne_iff.mp hw).symm) (by simpa using ha)
  · rw [AList.lookup_insert_ne hid]
    exact .same _

lemma entry_complete {a : CompletePart} (hpc : s.pc t = .completeTasks a) :
    EntryStep cfg s t id (s.queue.tasks.lookup id)
      ((completeEffect s.queue s.stats a).queue.tasks.lookup id)
      (about id (completeEffect s.queue s.stats a).events) := by
  cases hl : s.queue.tasks.lookup a.rid with
  | none =>
    simp only [completeEffect,completeTasks_unknown hl,CompletePart.reaches,hl]
    exact .same _
  | some e =>
    by_cases hw : e.claimant = some a.worker
    · have hr : a.reaches s.queue.tasks = true := by simp [CompletePart.reaches,hl,hw]
      by_cases hid : id = a.rid
      · subst hid
        simp only [completeEffect,completeTasks_own hl hw,hr,if_true]
        rw [hl]
        split_ifs with hf hfin hempty
        · simpa [about,Event.id,CompletePart.rid] using EntryStep.failed hpc rfl hw hf
        · simpa [about,Event.id,CompletePart.rid] using EntryStep.absorbed hpc rfl hw
            (by simpa using hf)
        · simpa [about,Event.id,CompletePart.rid] using
            EntryStep.refused hpc rfl hw (by simpa using hf) hempty.2
        · simpa [about,Event.id,CompletePart.rid] using EntryStep.completed hpc rfl hw
            (by simpa using hf)
      · have hj : a.rid ≠ id := fun h => hid h.symm
        have hj' : id ≠ Text.trim a.part.requestId := hid
        simp only [completeEffect,completeTasks_own hl hw,hr,if_true]
        split_ifs <;>
          simpa [AList.lookup_insert_ne hj',about,Event.id,hj] using EntryStep.same _
    · have hr : a.reaches s.queue.tasks = false := by
        simpa [CompletePart.reaches,hl] using fun h => hw h.symm
      simp only [completeEffect,completeTasks_wrongWorker hl hw,hr]
      exact .same _

theorem advance_entry
    (hlet : (s.pc t).inIfLet = false) (ho : s.orderOk t order = true) (id : String) :
    EntryStep cfg s t id (s.queue.tasks.lookup id) ((s.effect cfg t order).queue.tasks.lookup id)
      (about id (s.effect cfg t order).events) := by
  simp only [Sys.effect]
  cases hpc : s.pc t with
  | idle | recycleStart | recyclePush | discardStart | discardPop | enqueuePush | claimStart
  | claimRequeue => exact .of_eq rfl
  | recycleTasks c now =>
    simp only [Sys.orderOk,hpc,decide_eq_true_eq] at ho
    exact entry_recycle hpc ho
  | discardFront c now =>
    simp only [advance]
    split <;> exact .of_eq rfl
  | discardStale c now j =>
    simp only [advance]
    split <;> exact .of_eq rfl
  | discardRemove c now j => exact entry_remove hpc
  | discardReinsert c now j e => simp [hpc,Pc.inIfLet] at hlet
  | enqueueCap a =>
    simp only [advance]
    split <;> exact .of_eq rfl
  | enqueueInsert a =>
    simp only [advance]
    split
    · exact .of_eq rfl
    · rename_i hn
      exact entry_insert hpc hn
  | claimPop worker deadline =>
    simp only [advance]
    split <;> exact .of_eq rfl
  | claimAttempt worker deadline j now => exact entry_claim hpc
  | claimWait worker deadline =>
    simp only [advance]
    split <;> exact .of_eq rfl
  | statusTasks a =>
    simp only [advance]
    split
    · exact .of_eq rfl
    · rename_i hm h
      exact entry_status hpc h
  | completeTasks a => exact entry_complete hpc

variable {s' : Sys}

theorem exec_entry (hg : GuardInv s) (hs : step cfg s (.exec t order) = some s') (id : String) :
    EntryStep cfg s t id (s.queue.tasks.lookup id) (s'.queue.tasks.lookup id)
      (about id (s.effect cfg t order).events) := by
  have hlet := hg.exec_inIfLet hs
  obtain ⟨_,_,ho,rfl⟩ := step_exec hs
  exact advance_entry hlet ho id

def ClaimInv (s : Sys) : Prop :=
  ∀ id e, s.queue.tasks.lookup id = some e → e.phase = .queued ∨ e.phase = .expired →
    e.claimant = none

/-- The state of the queue is as before, and no thread has moved except to enter a call. -/
structure Quiet (s s' : Sys) : Prop where
  queue : s'.queue = s.queue
  stats : s'.stats = s.stats
  log : s'.log = s.log
  pc : ∀ u, s'.pc u = s.pc u ∨
    ((s.pc u).isIdle = true ∧ ((∃ c, s'.pc u = .recycleStart c) ∨ ∃ o, s'.pc u = .idle o))

lemma step_quiet {a : Label} (hs : step cfg s a = some s') :
    Quiet s s' ∨ ∃ t order, a = .exec t order := by
  cases a with
  | tick d => cases hs; exact Or.inl ⟨rfl,rfl,rfl,fun _ => Or.inl rfl⟩
  | call t op =>
    obtain ⟨hidle,rfl⟩ := step_call hs
    refine Or.inl ⟨rfl,rfl,rfl,fun u => ?_⟩
    by_cases hut : u = t
    · subst hut
      exact Or.inr ⟨hidle,by simpa using op.start_cases s.clock⟩
    · exact Or.inl (by simp only [Function.update_of_ne hut])
  | acquire t =>
    obtain ⟨_,_,_,_,rfl⟩ := step_acquire hs
    exact Or.inl ⟨rfl,rfl,rfl,fun _ => Or.inl rfl⟩
  | exec t order => exact Or.inr ⟨t,order,rfl⟩

lemma EntryStep.claimant_none {o : Option TaskEntry} {e : TaskEntry} {evs : List Event}
    (h : EntryStep cfg s t id o (some e) evs)
    (ho : ∀ e₀, o = some e₀ → e₀.phase = .queued ∨ e₀.phase = .expired → e₀.claimant = none)
    (hp : e.phase = .queued ∨ e.phase = .expired) : e.claimant = none := by
  cases h with
  | same => exact ho e rfl hp
  | recycled _ lease =>
    obtain ⟨_,rfl⟩ := TaskEntry.recycle_eq_some lease
    rfl
  | created => rfl
  | @expired _ _ _ e₀ _ queued => exact ho e₀ rfl (Or.inl queued)
  | claimed => simp [TaskEntry.claim] at hp
  | updated => simp at hp
  | failed => simp [TaskEntry.fail] at hp
  | @absorbed _ e₀ | @refused _ e₀ => exact ho e₀ rfl hp
  | completed => simp [TaskEntry.complete] at hp

lemma ClaimInv.step {a : Label} (hg : GuardInv s) (h : ClaimInv s)
    (hs : TaskQueue.step cfg s a = some s') : ClaimInv s' := by
  rcases step_quiet hs with hquiet | ⟨t,order,rfl⟩
  · intro id e he
    rw [hquiet.queue] at he
    exact h id e he
  · intro id e he hp
    have hc := exec_entry hg hs id
    rw [he] at hc
    exact hc.claimant_none (fun e₀ he₀ => h id e₀ he₀) hp

theorem Reachable.claimInv (h : Reachable cfg s) : ClaimInv s := by
  obtain ⟨c,hr⟩ := h
  refine hr.invariant_of (fun u hu => Reachable.guardInv ⟨c,hu⟩)
    (fun _ _ _ hg hi _ hs => hi.step hg hs) ?_
  intro id e he
  simp [Sys.init,Queue.empty] at he

end PirateServer.TaskQueue
