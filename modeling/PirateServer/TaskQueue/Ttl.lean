import PirateServer.TaskQueue.EntrySteps

/-! The time limit of queued tasks, for a queue in which the second lock of
`discard_ttl_expired` is taken at once. A ghost clock notes when a task was last put into the
phase `Queued`. -/
namespace PirateServer.TaskQueue
open Lib

/-- The effect of a section when the block of the `if let` gets its lock. -/
def Sys.relocked (cfg : Config) (s : Sys) (t : Tid) (order : List String) : Effect :=
  let eff := s.effect cfg t order
  match eff.pc with
  | .discardReinsert c now id e =>
    { eff with
      queue := { eff.queue with tasks := eff.queue.tasks.insert id e }
      pc := .discardFront c now }
  | _ => eff

def relockStep (cfg : Config) (s : Sys) : Label → Option Sys
  | .exec t order => if s.ready t order then some (s.apply t (s.relocked cfg t order)) else none
  | a => step cfg s a

/-- The state, and for each id the instant at which its task last became queued. -/
structure Timed where
  sys : Sys
  since : String → ℕ

def isQueued (hm : Tasks) (id : String) : Bool := (hm.lookup id).any (fun e => e.phase = .queued)

def Timed.init (clock : ℕ) : Timed := ⟨Sys.init clock,fun _ => clock⟩

def Timed.note (s : Timed) (s' : Sys) : Timed :=
  ⟨s',fun id =>
    if isQueued s'.queue.tasks id && !isQueued s.sys.queue.tasks id then s'.clock else s.since id⟩

def timedStep (cfg : Config) (s : Timed) (a : Label) : Option Timed :=
  (relockStep cfg s.sys a).map s.note

/-- No lease has run out when `recycle_expired_leases` looks at the tasks. -/
def leasesHold (s : Timed) : Label → Prop
  | .exec t _ => match s.sys.pc t with
    | .recycleTasks _ now =>
      s.sys.queue.tasks.keys.all (fun id => !leaseExpired now s.sys.queue.tasks id) = true
    | _ => True
  | _ => True

instance (s : Timed) (a : Label) : Decidable (leasesHold s a) := by
  unfold leasesHold
  split
  · split <;> infer_instance
  · infer_instance

variable {cfg : Config} {s s' : Sys} {t : Tid} {order : List String}

lemma relockStep_exec (h : relockStep cfg s (.exec t order) = some s') :
    s.orderOk t order = true ∧ s' = s.apply t (s.relocked cfg t order) := by
  simp only [relockStep,Sys.ready,Option.ite_none_right_eq_some,Bool.and_eq_true] at h
  exact ⟨h.1.2,(Option.some.inj h.2).symm⟩

variable {a : Label}

lemma relockStep_quiet (h : relockStep cfg s a = some s') :
    (Quiet s s' ∧ s.clock ≤ s'.clock) ∨ ∃ t order, a = .exec t order := by
  cases a with
  | exec t order => exact .inr ⟨t,order,rfl⟩
  | tick d =>
    have hstep : step cfg s (.tick d) = some s' := h
    refine .inl ⟨(step_quiet hstep).resolve_right (by rintro ⟨_,_,hexec⟩; cases hexec),?_⟩
    cases hstep
    exact Nat.le_add_right _ _
  | call t op =>
    have hstep : step cfg s (.call t op) = some s' := h
    refine .inl ⟨(step_quiet hstep).resolve_right (by rintro ⟨_,_,hexec⟩; cases hexec),?_⟩
    obtain ⟨-,rfl⟩ := step_call hstep
    exact le_rfl
  | acquire t =>
    have hstep : step cfg s (.acquire t) = some s' := h
    refine .inl ⟨(step_quiet hstep).resolve_right (by rintro ⟨_,_,hexec⟩; cases hexec),?_⟩
    obtain ⟨_,_,_,_,rfl⟩ := step_acquire hstep
    exact le_rfl

lemma relocked_cases (cfg : Config) (s : Sys) (t : Tid) (order : List String) :
    ((s.relocked cfg t order = s.effect cfg t order) ∧ (s.effect cfg t order).pc.inIfLet = false) ∨
      ∃ c now id e, s.pc t = .discardRemove c now id ∧ s.queue.tasks.lookup id = some e ∧
        (s.relocked cfg t order).queue.tasks =
          (s.queue.tasks.erase id).insert id (if e.phase = .queued then e.expire else e) ∧
        (s.relocked cfg t order).pc = .discardFront c now := by
  cases hin : (s.effect cfg t order).pc.inIfLet with
  | false =>
    refine .inl ⟨?_,rfl⟩
    rw [Sys.relocked]
    cases hpc : (s.effect cfg t order).pc with
    | discardReinsert c now id e => rw [hpc] at hin; cases hin
    | _ => rfl
  | true =>
    have hp : PcStep cfg s.clock order s.queue (s.pc t) (s.effect cfg t order).pc :=
      advance_pc cfg s.clock order s.queue s.stats (s.pc t)
    right
    generalize hq : (s.effect cfg t order).pc = p' at hin hp
    generalize hp0 : s.pc t = p at hp
    cases hp with
    | @remove c now id e' found =>
      cases hl : s.queue.tasks.lookup id with
      | none => simp [discardRemove,hl] at found
      | some e =>
        have he : (if e.phase = .queued then e.expire else e) = e' := by
          simpa [discardRemove,hl] using found
        have htasks : (s.effect cfg t order).queue.tasks = s.queue.tasks.erase id := by
          rw [Sys.effect,hp0]
          simp only [advance,removeEffect,discardRemove,hl,Option.map_some]
          split <;> rfl
        refine ⟨c,now,id,e,rfl,hl,?_,?_⟩
        · rw [Sys.relocked]
          simp only [hq,htasks,he]
        · rw [Sys.relocked]
          simp only [hq]
    | frontNone _ resume | fresh _ resume => simp [← resume,Rest.resume_inIfLet] at hin
    | _ => cases hin

variable {id : String} {e e' : TaskEntry} {o : Option TaskEntry} {evs : List Event}

lemma EntryStep.keeps {o' : Option TaskEntry} (h : EntryStep cfg s t id (some e) o' evs)
    (hpc : ∀ c now, s.pc t ≠ .discardRemove c now id) :
    ∃ e', o' = some e' ∧ e'.queuedAt = e.queuedAt := by
  cases h with
  | same => exact ⟨e,rfl,rfl⟩
  | recycled pc lease =>
    obtain ⟨-,rfl⟩ := TaskEntry.recycle_eq_some lease
    exact ⟨_,rfl,rfl⟩
  | expired | claimed | updated | failed | absorbed | refused | completed => exact ⟨_,rfl,rfl⟩
  | removed pc => exact absurd pc (hpc _ _)

lemma EntryStep.of_queued (h : EntryStep cfg s t id o (some e') evs) (hq : e'.phase = .queued) :
    (o = none ∧ e'.queuedAt = s.clock) ∨
      (∃ e, o = some e ∧ e.phase = .queued ∧ e'.queuedAt = e.queuedAt) ∨
      ∃ c now e, s.pc t = .recycleTasks c now ∧ o = some e ∧ e.recycle now = some e' := by
  cases h with
  | same => exact .inr (.inl ⟨e',rfl,hq,rfl⟩)
  | @recycled c now e₀ _ pc lease => exact .inr (.inr ⟨c,now,e₀,pc,rfl,lease⟩)
  | created => exact .inl ⟨rfl,rfl⟩
  | expired | claimed | updated | failed | completed => cases hq
  | @absorbed _ e₀ | @refused _ e₀ => exact .inr (.inl ⟨e₀,rfl,hq,rfl⟩)

lemma EntryStep.of_expired (h : EntryStep cfg s t id (some e) (some e') evs)
    (hne : e.phase ≠ .expired) (he : e'.phase = .expired) :
    e.phase = .queued ∧ ∃ w d now, s.pc t = .claimAttempt w d id now ∧
      cfg.ttl < now - e.queuedAt := by
  cases h with
  | same | absorbed | refused => exact absurd he hne
  | recycled pc lease =>
    obtain ⟨-,rfl⟩ := TaskEntry.recycle_eq_some lease
    cases he
  | expired pc queued old => exact ⟨queued,_,_,_,pc,old⟩
  | claimed | updated | failed | completed => cases he

def Pc.readAt : Pc → Option ℕ
  | .discardFront _ now | .discardStale _ now _ | .discardPop _ now _ | .discardRemove _ now _
  | .discardReinsert _ now _ _ | .claimAttempt _ _ _ now => some now
  | _ => none

def Pc.foundStale : Pc → Option (ℕ × String)
  | .discardPop _ now id | .discardRemove _ now id => some (now,id)
  | _ => none

lemma Rest.resume_readAt (c : Rest) : c.resume.readAt = none := by cases c <;> rfl

lemma Rest.resume_foundStale (c : Rest) : c.resume.foundStale = none := by cases c <;> rfl

structure TtlInv (cfg : Config) (s : Timed) : Prop where
  noLet : ∀ t, (s.sys.pc t).inIfLet = false
  past : ∀ t now, (s.sys.pc t).readAt = some now → now ≤ s.sys.clock
  stale : ∀ t now id, (s.sys.pc t).foundStale = some (now,id) →
    ∃ e, s.sys.queue.tasks.lookup id = some e ∧ cfg.ttl < now - e.queuedAt
  since : ∀ id e, s.sys.queue.tasks.lookup id = some e → e.phase = .queued →
    s.since id = e.queuedAt

section
variable {s s' : Timed}

section
variable (hlet : (s.sys.pc t).inIfLet = false)
    (hs : relockStep cfg s.sys (.exec t order) = some s'.sys)
include hlet hs

lemma relock_entry (id : String) : (∃ evs, EntryStep cfg s.sys t id (s.sys.queue.tasks.lookup id)
        (s'.sys.queue.tasks.lookup id) evs ∧
        ∀ c now e, s.sys.queue.tasks.lookup id = some e → s.sys.pc t ≠ .discardRemove c now id) ∨
      ∃ c now e, s.sys.pc t = .discardRemove c now id ∧ s.sys.queue.tasks.lookup id = some e ∧
        s'.sys.queue.tasks.lookup id = some (if e.phase = .queued then e.expire else e) := by
  obtain ⟨ho,hs'⟩ := relockStep_exec hs
  have htasks : s'.sys.queue.tasks = (s.sys.relocked cfg t order).queue.tasks := by rw [hs']; rfl
  rw [htasks]
  rcases relocked_cases cfg s.sys t order with
    ⟨heq,hin⟩ | ⟨c,now,j,e,hpc,hl,hq,-⟩
  · refine .inl ⟨_,by rw [heq]; exact advance_entry hlet ho id,?_⟩
    intro c now e hl hpc
    have hr : (discardRemove id s.sys.queue.tasks).2 =
        some (if e.phase = .queued then e.expire else e) := by simp [discardRemove,hl]
    rw [Sys.effect,hpc] at hin
    simp only [advance,removeEffect,hr] at hin
    split at hin <;> cases hin
  · rw [hq]
    by_cases hid : id = j
    · subst hid
      exact .inr ⟨c,now,e,hpc,hl,by rw [AList.lookup_insert]⟩
    refine .inl ⟨[],?_,?_⟩
    · rw [AList.lookup_insert_ne hid,AList.lookup_erase_ne hid]
      exact .same _
    · intro c' now' e' _ hpc'
      rw [hpc] at hpc'
      cases hpc'
      exact hid rfl

lemma relock_keeps {id : String} {e : TaskEntry} (he : s.sys.queue.tasks.lookup id = some e) :
    ∃ e', s'.sys.queue.tasks.lookup id = some e' ∧ e'.queuedAt = e.queuedAt := by
  rcases relock_entry hlet hs id with ⟨evs,hstep,hpc⟩ | ⟨c,now,e₀,-,he₀,he'⟩
  · rw [he] at hstep
    exact hstep.keeps (fun c now => hpc c now e he)
  · rw [he] at he₀
    cases he₀
    refine ⟨_,he',?_⟩
    split_ifs <;> rfl

end

lemma relock_pc (hs : relockStep cfg s.sys (.exec t order) = some s'.sys) :
    (PcStep cfg s.sys.clock order s.sys.queue (s.sys.pc t) (s'.sys.pc t) ∧
        (s'.sys.pc t).inIfLet = false) ∨
      ∃ c now id, s.sys.pc t = .discardRemove c now id ∧ s'.sys.pc t = .discardFront c now := by
  obtain ⟨-,hs'⟩ := relockStep_exec hs
  have hpc' : s'.sys.pc t = (s.sys.relocked cfg t order).pc := by
    rw [hs']
    simp [Sys.apply]
  rw [hpc']
  rcases relocked_cases cfg s.sys t order with
    ⟨heq,hin⟩ | ⟨c,now,j,e,hpc,-,-,hfront⟩
  · rw [heq]
    exact .inl ⟨advance_pc cfg _ _ _ _ _,hin⟩
  · exact .inr ⟨c,now,j,hpc,hfront⟩

lemma timedStep_some (h : timedStep cfg s a = some s') :
    relockStep cfg s.sys a = some s'.sys ∧ s' = s.note s'.sys := by
  obtain ⟨u,hu,rfl⟩ := Option.map_eq_some_iff.mp h
  exact ⟨hu,rfl⟩

variable {now clock : ℕ}

lemma leaseExpired_of_leasesHold {c : Rest}
    (h : leasesHold s (.exec t order)) (hpc : s.sys.pc t = .recycleTasks c now)
    (he : s.sys.queue.tasks.lookup id = some e) : e.recycle now = none := by
  simp only [leasesHold,hpc,List.all_eq_true] at h
  have hmem : id ∈ s.sys.queue.tasks.keys := Table.mem_keys_iff_lookup.mpr ⟨e,he⟩
  simpa [leaseExpired,he] using h id hmem

lemma note_since_of_quiet {u : Sys} (h : u.queue = s.sys.queue) : (s.note u).since = s.since := by
  funext id
  simp [Timed.note,h]

lemma TtlInv.of_quiet {u : Sys} (h : TtlInv cfg s) (hq : Quiet s.sys u)
    (hclock : s.sys.clock ≤ u.clock) : TtlInv cfg (s.note u) := by
  -- a thread that enters a call has read no clock yet
  have hpc : ∀ t, u.pc t = s.sys.pc t ∨ ((u.pc t).inIfLet = false ∧ (u.pc t).readAt = none ∧
      (u.pc t).foundStale = none) := by
    intro t
    rcases hq.pc t with hsame | ⟨-,⟨c,hc⟩ | ⟨o,ho⟩⟩
    · exact .inl hsame
    · exact .inr (by rw [hc]; exact ⟨rfl,rfl,rfl⟩)
    · exact .inr (by rw [ho]; exact ⟨rfl,rfl,rfl⟩)
  have htasks : (s.note u).sys.queue.tasks = s.sys.queue.tasks := congrArg Queue.tasks hq.queue
  constructor
  · intro t
    rcases hpc t with hsame | ⟨hlet,-,-⟩
    · exact hsame ▸ h.noLet t
    · exact hlet
  · intro t now hnow
    rcases hpc t with hsame | ⟨-,hread,-⟩
    · exact (h.past t now (hsame ▸ hnow)).trans hclock
    · change (u.pc t).readAt = some now at hnow
      rw [hread] at hnow
      cases hnow
  · intro t now id hst
    rw [htasks]
    rcases hpc t with hsame | ⟨-,-,hfound⟩
    · exact h.stale t now id (hsame ▸ hst)
    · change (u.pc t).foundStale = some (now,id) at hst
      rw [hfound] at hst
      cases hst
  · intro id e he hphase
    rw [htasks] at he
    rw [note_since_of_quiet hq.queue]
    exact h.since id e he hphase

lemma PcStep.readAt_le {q : Queue} {p p' : Pc}
    (h : PcStep cfg clock order q p p') (hp : ∀ n, p.readAt = some n → n ≤ clock)
    (hp' : p'.readAt = some now) : now ≤ clock := by
  cases h with
  | discardStart | claimStart =>
    cases hp'
    exact le_rfl
  | frontSome | stale | pop | popOther | removeNone | remove | reinsert => exact hp now hp'
  | frontNone _ resume | fresh _ resume =>
    rw [← resume,Rest.resume_readAt] at hp'
    cases hp'
  | _ => cases hp'

lemma PcStep.foundStale {q : Queue} {p p' : Pc}
    (h : PcStep cfg clock order q p p') (hp' : p'.foundStale = some (now,id)) :
    p.foundStale = some (now,id) ∨
      (q.tasks.lookup id).any (TaskEntry.stale cfg.ttl now) = true := by
  cases h with
  | stale old =>
    cases hp'
    exact .inr old
  | pop => exact .inl hp'
  | frontNone _ resume | fresh _ resume =>
    rw [← resume,Rest.resume_foundStale] at hp'
    cases hp'
  | _ => cases hp'

lemma TtlInv.exec (h : TtlInv cfg s) (hok : leasesHold s (.exec t order))
    (hs : timedStep cfg s (.exec t order) = some s') : TtlInv cfg s' := by
  obtain ⟨hrelock,hnote⟩ := timedStep_some hs
  obtain ⟨-,happly⟩ := relockStep_exec hrelock
  have hclock : s'.sys.clock = s.sys.clock := by rw [happly]; rfl
  have hother : ∀ u, u ≠ t → s'.sys.pc u = s.sys.pc u := by
    intro u hu
    rw [happly]
    simp [Sys.apply,hu]
  have hkeeps := fun (id : String) (e : TaskEntry) (he : s.sys.queue.tasks.lookup id = some e) =>
    relock_keeps (h.noLet t) hrelock he
  constructor
  · intro u
    by_cases hu : u = t
    · subst hu
      rcases relock_pc hrelock with ⟨-,hlet⟩ | ⟨c,now,id,-,hfront⟩
      · exact hlet
      · rw [hfront]
        rfl
    · rw [hother u hu]
      exact h.noLet u
  · intro u now hnow
    rw [hclock]
    by_cases hu : u = t
    · subst hu
      rcases relock_pc hrelock with ⟨hstep,-⟩ | ⟨c,now',id,hpc,hfront⟩
      · exact hstep.readAt_le (h.past u) hnow
      · rw [hfront] at hnow
        cases hnow
        exact h.past u _ (by rw [hpc]; rfl)
    · rw [hother u hu] at hnow
      exact h.past u now hnow
  · intro u now id hst
    -- found before or now, the entry stays with its instant
    have hbefore : ∃ e, s.sys.queue.tasks.lookup id = some e ∧ cfg.ttl < now - e.queuedAt := by
      by_cases hu : u = t
      · subst hu
        rcases relock_pc hrelock with ⟨hstep,-⟩ | ⟨c,now',j,-,hfront⟩
        · rcases hstep.foundStale hst with hfound | hold
          · exact h.stale u now id hfound
          · obtain ⟨e,he,hstale⟩ := (Option.any_eq_true _ _).mp hold
            simp only [TaskEntry.stale,Bool.and_eq_true,decide_eq_true_eq] at hstale
            exact ⟨e,he,hstale.2⟩
        · rw [hfront] at hst
          cases hst
      · rw [hother u hu] at hst
        exact h.stale u now id hst
    obtain ⟨e,he,hold⟩ := hbefore
    obtain ⟨e',he',hq⟩ := hkeeps id e he
    exact ⟨e',he',by rw [hq]; exact hold⟩
  · intro id e' he' hphase
    have hnow : isQueued s'.sys.queue.tasks id = true := by simp [isQueued,he',hphase]
    have hsince : s'.since id =
        if isQueued s.sys.queue.tasks id then s.since id else s.sys.clock := by
      rw [hnote]
      simp only [Timed.note,hnow,Bool.true_and,← hclock]
      cases isQueued s.sys.queue.tasks id <;> rfl
    rw [hsince]
    rcases relock_entry (h.noLet t) hrelock id with ⟨evs,hstep,-⟩ | ⟨c,now,e,-,he,hexp⟩
    · rw [he'] at hstep
      rcases hstep.of_queued hphase with ⟨hnone,hq⟩ | ⟨e,he,hqueued,hq⟩ | ⟨c,now,e,hpc,he,hrec⟩
      · simp [isQueued,hnone,hq]
      · simp only [isQueued,he,Option.any_some,hqueued,decide_true,if_true]
        rw [hq]
        exact h.since id e he hqueued
      · rw [leaseExpired_of_leasesHold hok hpc he] at hrec
        cases hrec
    · -- a discarded task is not queued any more
      rw [he'] at hexp
      cases hexp
      split_ifs at hphase with hqueued
      · cases hphase
      · exact absurd hphase hqueued

lemma TtlInv.step (h : TtlInv cfg s) (hok : leasesHold s a)
    (hs : timedStep cfg s a = some s') : TtlInv cfg s' := by
  obtain ⟨hrelock,hnote⟩ := timedStep_some hs
  rcases relockStep_quiet hrelock with ⟨hq,hclock⟩ | ⟨t,order,rfl⟩
  · rw [hnote]
    exact h.of_quiet hq hclock
  · exact h.exec hok hs

lemma ttlInv_of_run (hr : Run (timedStep cfg) leasesHold (Timed.init clock) s) : TtlInv cfg s := by
  refine hr.invariant (fun _ _ _ hi hok hs => hi.step hok hs) ?_
  constructor
  · intro t
    rfl
  · intro t now hnow
    cases hnow
  · intro t now id hst
    cases hst
  · intro id e he
    simp [Timed.init,Sys.init,Queue.empty] at he

/-- As long as no lease runs out, a step that makes a task `Expired` finds it in the phase
`Queued`, where it has been without a break for longer than `ttl`. -/
theorem ttl_measures_queued_time {clock : ℕ} {a : Label} {id : String} {e e' : TaskEntry}
    (hr : Run (timedStep cfg) leasesHold (Timed.init clock) s) (hs : timedStep cfg s a = some s')
    (he : s.sys.queue.tasks.lookup id = some e) (he' : s'.sys.queue.tasks.lookup id = some e')
    (hne : e.phase ≠ .expired) (hexp : e'.phase = .expired) :
    e.phase = .queued ∧ cfg.ttl < s.sys.clock - s.since id := by
  have h := ttlInv_of_run hr
  obtain ⟨hrelock,-⟩ := timedStep_some hs
  -- the entry changes in a section only
  obtain ⟨t,order,rfl⟩ : ∃ t order, a = .exec t order := by
    rcases relockStep_quiet hrelock with ⟨hq,-⟩ | hexec
    · rw [hq.queue,he] at he'
      cases he'
      exact absurd hexp hne
    · exact hexec
  rcases relock_entry (h.noLet t) hrelock id with ⟨evs,hstep,-⟩ | ⟨c,now,e₀,hpc,he₀,hq⟩
  · rw [he,he'] at hstep
    obtain ⟨hqueued,w,d,now,hpc,hold⟩ := hstep.of_expired hne hexp
    have hpast := h.past t now (by rw [hpc]; rfl)
    rw [h.since id e he hqueued]
    exact ⟨hqueued,by omega⟩
  · rw [he] at he₀
    cases he₀
    rw [he'] at hq
    cases hq
    have hqueued : e.phase = .queued := by
      by_contra hnot
      rw [if_neg hnot] at hexp
      exact hne hexp
    obtain ⟨e₁,he₁,hold⟩ := h.stale t now id (by rw [hpc]; rfl)
    rw [he] at he₁
    cases he₁
    have hpast := h.past t now (by rw [hpc]; rfl)
    rw [h.since id e he hqueued]
    exact ⟨hqueued,by omega⟩

end

/-- Thread 0 stores `a`; 61 s later thread 1 asks for a task and is about to discard `a`. -/
def discardOld : List Label :=
  [.call 0 (.enqueue (.ofId "a"))] ++ recycleNone 0 [] ++ discardEmpty 0 ++ enqueueRest 0 ++
  [.tick 61000000000,.call 1 (.claimNext (workerKey 1) 0)] ++ recycleNone 1 ["a"] ++
  discardFresh 1 ++ locked 1 [] ++ [.acquire 1]

theorem ttl_measures_queued_time_one_minute : ∃ s s' e e',
    Run (timedStep minuteTtl) leasesHold (Timed.init 0) s ∧
    timedStep minuteTtl s (.exec 1 []) = some s' ∧
    s.sys.queue.tasks.lookup "a" = some e ∧ s'.sys.queue.tasks.lookup "a" = some e' ∧
    e'.phase = .expired ∧ e.phase = .queued ∧ minuteTtl.ttl < s.sys.clock - s.since "a" := by
  obtain ⟨s,hs,hq⟩ := (Option.any_eq_true _ _).mp
    (by decide +kernel : (execute (timedStep minuteTtl) leasesHold discardOld
        (Timed.init 0)).any (fun s =>
          (s.sys.queue.tasks.lookup "a").any (fun e => e.phase = .queued) ∧
          (timedStep minuteTtl s (.exec 1 [])).any (fun s' =>
            (s'.sys.queue.tasks.lookup "a").any (fun e => e.phase = .expired))) = true)
  simp only [Option.any_eq_true,decide_eq_true_eq] at hq
  obtain ⟨⟨e,he,hp⟩,s',hs',e',he',hp'⟩ := hq
  have hrun : Run (timedStep minuteTtl) leasesHold (Timed.init 0) s := execute_run hs
  have hold := ttl_measures_queued_time hrun hs' he he' (by rw [hp]; decide) hp'
  exact ⟨s,s',e,e',hrun,hs',he,he',hp',hold⟩

/-- Thread 1 claims `a`; 61 s after it was stored thread 2 asks for a task, finds the lease of
`a` expired and requeues it. -/
def requeueOld : List Label :=
  storeAndClaim ++ [.tick 61000000000,.call 2 (.claimNext (workerKey 2) 0)] ++
  recycleSome 2 ["a"]

/-- The same call then discards `a`, which was requeued at that very instant. -/
def discardRequeued : List Label := discardFresh 2 ++ locked 2 [] ++ [.acquire 2]

theorem ttl_counts_leased_time : ∃ s u u' e e', Run (timedStep minuteTtl) anyStep (Timed.init 0) s ∧
    s.sys.queue.tasks.lookup "a" = some e ∧ e.phase = .queued ∧
    e.detail = some "lease_expired_requeued" ∧ s.since "a" = s.sys.clock ∧
    Run (timedStep minuteTtl) anyStep s u ∧ timedStep minuteTtl u (.exec 2 []) = some u' ∧
    u'.sys.queue.tasks.lookup "a" = some e' ∧ e'.phase = .expired ∧
    u.sys.clock - u.since "a" = 0 := by
  obtain ⟨s,hs,hq⟩ := (Option.any_eq_true _ _).mp
    (by decide +kernel : (execute (timedStep minuteTtl) anyStep requeueOld
        (Timed.init 0)).any (fun s =>
          (s.sys.queue.tasks.lookup "a").any (fun e => e.phase = .queued ∧
            e.detail = some "lease_expired_requeued") ∧ s.since "a" = s.sys.clock ∧
          (execute (timedStep minuteTtl) anyStep discardRequeued s).any (fun u =>
            (timedStep minuteTtl u (.exec 2 [])).any (fun u' =>
              (u'.sys.queue.tasks.lookup "a").any (fun e => e.phase = .expired)) ∧
            u.sys.clock - u.since "a" = 0)) = true)
  simp only [Option.any_eq_true,decide_eq_true_eq] at hq
  obtain ⟨⟨e,he,hp,hd⟩,hsince,u,hu,⟨u',hu',e',he',hp'⟩,hclock⟩ := hq
  exact ⟨s,u,u',e,e',execute_run hs,he,hp,hd,hsince,execute_run hu,hu',he',hp',hclock⟩

end PirateServer.TaskQueue
