import PirateServer.TaskQueue.EntrySteps

/-! Where the result of a completed task comes from. The response fields collect what the
current claimant sends, but recycling a lease leaves them as they are, so they speak for one
claim only if no lease runs out after its worker has sent something. -/
namespace PirateServer.TaskQueue
open Lib

def lastClaimant (id : String) : List Event → Option PubKey
  | [] => none
  | .claimed j w::log => if j = id then some w else lastClaimant id log
  | .part ..::log | .ended _::log => lastClaimant id log

/-- The parts that reached a task from `w` since the latest claim by `w`, newest first, each
with whether it was accepted. -/
def leaseParts (id : String) (w : PubKey) : List Event → List (TaskComplete × Bool)
  | [] => []
  | .claimed j v::log => if j = id ∧ v = w then [] else leaseParts id w log
  | .part j v part accepted::log =>
    if j = id ∧ v = w then (part,accepted)::leaseParts id w log else leaseParts id w log
  | .ended _::log => leaseParts id w log

def bodyOf : List (TaskComplete × Bool) → List UInt8
  | [] => []
  | (part,accepted)::parts => if accepted then bodyOf parts ++ part.bodyChunk else bodyOf parts

def lastOf {α : Type} (f : TaskComplete → Option α) : List (TaskComplete × Bool) → Option α
  | [] => none
  | (part,_)::parts => if part.reportsFailure then lastOf f parts else (f part).or (lastOf f parts)

def statusOf : List (TaskComplete × Bool) → Option UInt32 :=
  lastOf (fun part => if part.status = 0 then none else some part.status)

def headersOf (parts : List (TaskComplete × Bool)) : List BusKv :=
  (lastOf (fun part => if part.headers = [] then none else some part.headers) parts).getD []

def TaskEntry.blank (e : TaskEntry) : Bool :=
  e.responseStatus = none && e.responseHeaders = [] && e.responseBody = []

/-- The response fields are those of the parts that `w` sent since it claimed the task. -/
structure TaskEntry.Collects (id : String) (w : PubKey) (log : List Event)
    (e : TaskEntry) : Prop where
  claim : lastClaimant id log = some w
  body : e.responseBody = bodyOf (leaseParts id w log)
  status : e.responseStatus = statusOf (leaseParts id w log) ∨
    (statusOf (leaseParts id w log) = none ∧ e.responseStatus = some 200)
  headers : e.responseHeaders = headersOf (leaseParts id w log)

/-- What is known of a stored task: nothing was sent, or its claimant sent what it holds. -/
structure TaskEntry.Traced (id : String) (log : List Event) (e : TaskEntry) : Prop where
  unclaimed : e.claimant = none → e.blank = true
  collects : ∀ w, e.claimant = some w → e.Collects id w log
  completed : e.phase = .completed → e.claimant ≠ none ∧ e.responseStatus ≠ none

variable {id : String} {w : PubKey}

lemma lastClaimant_about (log : List Event) :
    lastClaimant id (about id log) = lastClaimant id log := by
  induction log with
  | nil => rfl
  | cons ev log ih =>
    cases ev with
    | claimed j v =>
      by_cases hj : j = id
      · simp [about,Event.id,lastClaimant,hj]
      · simpa [about,Event.id,lastClaimant,hj] using ih
    | part j v p a
    | ended j => by_cases hj : j = id <;> simpa [about,Event.id,lastClaimant,hj] using ih

lemma leaseParts_about (log : List Event) : leaseParts id w
    (about id log) = leaseParts id w log := by
  induction log with
  | nil => rfl
  | cons ev log ih =>
    cases ev with
    | claimed j v =>
      by_cases hj : j = id
      · by_cases hv : v = w
        · simp [about,Event.id,leaseParts,hj,hv]
        · simpa [about,Event.id,leaseParts,hj,hv] using ih
      · simpa [about,Event.id,leaseParts,hj] using ih
    | part j v p a =>
      by_cases hj : j = id <;> by_cases hv : v = w <;>
        simpa [about,Event.id,leaseParts,hj,hv] using ih
    | ended j => by_cases hj : j = id <;> simpa [about,Event.id,leaseParts,hj] using ih

variable {e : TaskEntry}

lemma TaskEntry.Traced.of_unclaimed {log : List Event} (hn : e.claimant = none)
    (hb : e.blank = true) (hp : e.phase ≠ .completed) : e.Traced id log := by
  refine ⟨fun _ => hb,fun w hw => ?_,fun h => absurd h hp⟩
  cases hn.symm.trans hw

lemma TaskEntry.Traced.of_owner {log : List Event} (hw : e.claimant = some w)
    (hc : e.Collects id w log) (hp : e.phase = .completed → e.responseStatus ≠ none) :
    e.Traced id log := by
  refine ⟨fun hn => ?_,fun v hv => ?_,fun h => ⟨by simp [hw],hp h⟩⟩
  · cases hw.symm.trans hn
  · cases hw.symm.trans hv
    exact hc

lemma TaskEntry.Traced.congr {log log' : List Event} (h : e.Traced id log)
    (hlog : about id log' = about id log) : e.Traced id log' := by
  refine ⟨h.unclaimed,fun w hw => ?_,h.completed⟩
  have hc := h.collects w hw
  have hl : lastClaimant id log' = lastClaimant id log := by
    rw [← lastClaimant_about log',hlog,lastClaimant_about]
  have hp : leaseParts id w log' = leaseParts id w log := by
    rw [← leaseParts_about log',hlog,leaseParts_about]
  exact ⟨by rw [hl]; exact hc.claim,by rw [hp]; exact hc.body,by rw [hp]; exact hc.status,
    by rw [hp]; exact hc.headers⟩

namespace TaskEntry.Collects
variable {log : List Event} {part : TaskComplete}

lemma claim_blank {cfg : Config} {now : ℕ} (h : e.blank = true) :
    (e.claim cfg now w).Collects id w (.claimed id w::log) := by
  simp only [blank,Bool.and_eq_true,decide_eq_true_eq] at h
  obtain ⟨⟨hst,hh⟩,hb⟩ := h
  have hparts : leaseParts id w (.claimed id w::log) = [] := by simp [leaseParts]
  refine ⟨by simp [lastClaimant],?_,Or.inl ?_,?_⟩
  · rw [hparts]; exact hb
  · rw [hparts]; exact hst
  · rw [hparts]; exact hh

lemma ended (h : e.Collects id w log) : e.Collects id w (.ended id::log) :=
  ⟨h.claim,h.body,h.status,h.headers⟩

lemma leaseParts_part (accepted : Bool) : leaseParts id w (.part id w part accepted::log) =
    (part,accepted)::leaseParts id w log := by simp [leaseParts]

lemma fail (h : e.Collects id w log) (hf : part.reportsFailure = true) :
    (e.fail part).Collects id w (.part id w part true::log) := by
  refine ⟨h.claim,?_,?_,?_⟩
  · simp only [leaseParts_part,bodyOf,if_true,← h.body]
    rfl
  · simp only [leaseParts_part,statusOf,lastOf,hf,if_true]
    exact h.status
  · simp only [leaseParts_part,headersOf,lastOf,hf,if_true]
    exact h.headers

lemma absorb {accepted : Bool} (h : e.Collects id w log) (hf : part.reportsFailure = false)
    (hbody : accepted = false → (e.absorb part).responseBody = []) :
    (e.absorb part).Collects id w (.part id w part accepted::log) := by
  refine ⟨h.claim,?_,?_,?_⟩
  · rw [leaseParts_part,bodyOf,← h.body]
    cases accepted with
    | true => rfl
    | false =>
      have hempty := hbody rfl
      simp only [TaskEntry.absorb,List.append_eq_nil_iff] at hempty
      simp [TaskEntry.absorb,hempty.1,hempty.2]
  · have hst := h.status
    by_cases hz : part.status = 0
    · simpa [leaseParts_part,statusOf,lastOf,hf,TaskEntry.absorb,hz] using hst
    · left
      simp [leaseParts_part,statusOf,lastOf,hf,TaskEntry.absorb,hz]
  · have hh := h.headers
    by_cases hz : part.headers = []
    · simpa [leaseParts_part,headersOf,lastOf,hf,TaskEntry.absorb,hz] using hh
    · simp [leaseParts_part,headersOf,lastOf,hf,TaskEntry.absorb,hz]

lemma complete (h : e.Collects id w log) : e.complete.Collects id w log := by
  refine ⟨h.claim,h.body,?_,h.headers⟩
  rcases h.status with hst | ⟨hnone,hst⟩
  · cases hs : statusOf (leaseParts id w log) with
    | none => exact Or.inr ⟨rfl,by simp [TaskEntry.complete,hst,hs]⟩
    | some code => exact Or.inl (by simp [TaskEntry.complete,hst,hs])
  · exact Or.inr ⟨hnone,by simp [TaskEntry.complete,hst]⟩

end TaskEntry.Collects

/-- The thread is about to take a lease back from a worker that has already sent something. -/
def Sys.recyclesSent (s : Sys) (t : Tid) : Bool :=
  match s.pc t with
  | .recycleTasks _ now => s.queue.tasks.keys.any (fun id =>
    (s.queue.tasks.lookup id).any (fun e => (e.recycle now).isSome && !e.blank))
  | _ => false

/-- No lease is taken back from a worker that has already sent something. -/
def recyclesBlank (s : Sys) : Label → Prop
  | .exec t _ => s.recyclesSent t = false
  | _ => True

instance (s : Sys) : (a : Label) → Decidable (recyclesBlank s a)
  | .exec t _ => inferInstanceAs (Decidable (s.recyclesSent t = false))
  | .tick _ | .call .. | .acquire _ => .isTrue trivial

variable {cfg : Config} {s s' : Sys} {t : Tid} {order : List String}

lemma blank_of_recycled {c : Rest} {now : ℕ} {e' : TaskEntry} (hpc : s.pc t = .recycleTasks c now)
    (hl : s.queue.tasks.lookup id = some e) (hlease : e.recycle now = some e')
    (hok : s.recyclesSent t = false) : e.blank = true := by
  simp only [Sys.recyclesSent,hpc,List.any_eq_false] at hok
  have hid := hok id (Table.mem_keys_iff_lookup.mpr ⟨e,hl⟩)
  simpa [hl,hlease] using hid

lemma absorb_status {part : TaskComplete} (h : e.responseStatus ≠ none) :
    (e.absorb part).responseStatus ≠ none := by
  unfold TaskEntry.absorb
  dsimp only
  split
  · simp
  · exact h

lemma EntryStep.traced {log : List Event} {o : Option TaskEntry} {e' : TaskEntry}
    {evs : List Event} (h : EntryStep cfg s t id o (some e') evs)
    (hl : s.queue.tasks.lookup id = o) (ho : ∀ e, o = some e → e.Traced id log)
    (hc : ClaimInv s) (hok : s.recyclesSent t = false) : e'.Traced id (evs ++ log) := by
  cases h with
  | same => exact ho e' rfl
  | recycled pc lease =>
    have hb := blank_of_recycled pc hl lease hok
    obtain ⟨_,rfl⟩ := TaskEntry.recycle_eq_some lease
    exact .of_unclaimed rfl hb (by simp)
  | created => exact .of_unclaimed rfl rfl (by simp [newEntry])
  | @expired _ _ _ e pc queued =>
    have hn := hc id e hl (Or.inl queued)
    exact .of_unclaimed hn ((ho e rfl).unclaimed hn) (by simp [TaskEntry.expire])
  | @claimed w _ _ e pc queued =>
    have hb := (ho e rfl).unclaimed (hc id e hl (Or.inl queued))
    exact .of_owner rfl (.claim_blank hb) (by simp [TaskEntry.claim])
  | @updated a e pc own =>
    have hcol := (ho e rfl).collects a.worker own
    exact .of_owner own ⟨hcol.claim,hcol.body,hcol.status,hcol.headers⟩ (by simp)
  | @failed a e pc rid own failure =>
    have hcol := (ho e rfl).collects a.worker own
    exact .of_owner own (hcol.fail failure).ended (by simp [TaskEntry.fail])
  | @absorbed a e pc rid own regular =>
    have hcol := (ho e rfl).collects a.worker own
    exact .of_owner own (hcol.absorb regular (by simp))
      (fun hp => absorb_status ((ho e rfl).completed hp).2)
  | @refused a e pc rid own regular empty =>
    have hcol := (ho e rfl).collects a.worker own
    exact .of_owner own (hcol.absorb regular (fun _ => empty))
      (fun hp => absorb_status ((ho e rfl).completed hp).2)
  | @completed a e pc rid own regular =>
    have hcol := (ho e rfl).collects a.worker own
    exact .of_owner own (hcol.absorb regular (by simp)).complete.ended
      (by simp [TaskEntry.complete])

theorem ReachableBy.traced (h : ReachableBy cfg recyclesBlank s)
    (he : s.queue.tasks.lookup id = some e) : e.Traced id s.log := by
  obtain ⟨c,hr⟩ := h
  have hinv : ∀ e, s.queue.tasks.lookup id = some e → e.Traced id s.log := by
    refine hr.invariant_of (J := Reachable cfg)
      (I := fun u => ∀ e, u.queue.tasks.lookup id = some e → e.Traced id u.log)
      (fun u hu => ReachableBy.reachable ⟨c,hu⟩) ?_ (by simp [Sys.init,Queue.empty])
    intro u a u' hj hi hok hs e' he'
    rcases step_quiet hs with hquiet | ⟨t,order,rfl⟩
    · rw [hquiet.log]
      rw [hquiet.queue] at he'
      exact hi e' he'
    · have hentry := exec_entry hj.guardInv hs id
      rw [he'] at hentry
      have htr := hentry.traced rfl hi hj.claimInv hok
      obtain ⟨_,_,_,rfl⟩ := step_exec hs
      apply htr.congr
      simp only [Sys.apply,about,List.filter_append,List.filter_filter,Bool.and_self]
  exact hinv e he

/-- When no lease is taken back from a worker that has already sent something, the result of a
completed task is what its claimant sent since it last claimed the task. -/
theorem completed_result_of_claim {cfg : Config} {s : Sys} (h : ReachableBy cfg recyclesBlank s)
    {id : String} {e : TaskEntry} (he : s.queue.tasks.lookup id = some e)
    (hp : e.phase = .completed) : ∃ w, e.claimant = some w ∧ lastClaimant id s.log = some w ∧
      e.responseBody = bodyOf (leaseParts id w s.log) ∧
      e.responseStatus = some ((statusOf (leaseParts id w s.log)).getD 200) ∧
      e.responseHeaders = headersOf (leaseParts id w s.log) := by
  have htr := h.traced he
  obtain ⟨hclaimed,hst⟩ := htr.completed hp
  obtain ⟨w,hw⟩ := Option.ne_none_iff_exists'.mp hclaimed
  have hc := htr.collects w hw
  refine ⟨w,hw,hc.claim,hc.body,?_,hc.headers⟩
  rcases hc.status with hstatus | ⟨hnone,h200⟩
  · cases hs : statusOf (leaseParts id w s.log) with
    | none => exact absurd (hstatus.trans hs) hst
    | some code => rw [hstatus,hs]; rfl
  · rw [hnone,h200]; rfl

/-- A worker sends the body of `a` in two parts. -/
def twoParts : List Label :=
  storeAndClaim ++ applyPart 1 ["a"] (workerKey 1) ⟨"a",0,[⟨"k","v"⟩],[1],false,""⟩ ++
  applyPart 1 ["a"] (workerKey 1) ⟨"a",201,[],[2],true,""⟩

theorem completed_result_of_claim_two : ∃ s e, ReachableBy minuteTtl recyclesBlank s ∧
    s.queue.tasks.lookup "a" = some e ∧ e.phase = .completed ∧ e.responseBody = [1,2] ∧
    ∃ w, e.claimant = some w ∧ lastClaimant "a" s.log = some w ∧
      e.responseBody = bodyOf (leaseParts "a" w s.log) ∧
      e.responseStatus = some ((statusOf (leaseParts "a" w s.log)).getD 200) ∧
      e.responseHeaders = headersOf (leaseParts "a" w s.log) := by
  obtain ⟨s,hs,hq⟩ := (Option.any_eq_true _ _).mp
    (by decide +kernel : (execute (step minuteTtl) recyclesBlank twoParts (Sys.init 0)).any
      (fun s => (s.queue.tasks.lookup "a").any
        (fun e => e.phase = .completed ∧ e.responseBody = [1,2])) = true)
  simp only [Option.any_eq_true,decide_eq_true_eq] at hq
  obtain ⟨e,he,hp,hb⟩ := hq
  have hr : ReachableBy minuteTtl recyclesBlank s := ⟨0,execute_run hs⟩
  exact ⟨s,e,hr,he,hp,hb,completed_result_of_claim hr he hp⟩

/-- The first worker sends a part and loses its lease; the second one claims and completes. -/
def lostLease : List Label :=
  storeAndClaim ++ applyPart 1 ["a"] (workerKey 1) ⟨"a",0,[],[1],false,""⟩ ++
  [.tick 30000000001,.call 2 (.claimNext (workerKey 2) 0)] ++ recycleSome 2 ["a"] ++
  discardFresh 2 ++ claimOnce 2 ++ applyPart 2 ["a"] (workerKey 2) ⟨"a",200,[],[2],true,""⟩

theorem lostLease_survives : ∃ s e, Reachable (halfMinuteLease 8) s ∧
    s.queue.tasks.lookup "a" = some e ∧ e.phase = .completed ∧
    e.claimant = some (workerKey 2) ∧ lastClaimant "a" s.log = some (workerKey 2) ∧
    e.responseBody = [1,2] ∧ bodyOf (leaseParts "a" (workerKey 2) s.log) = [2] := by
  obtain ⟨s,hs,hq⟩ := (Option.any_eq_true _ _).mp
    (by decide +kernel : (execute (step (halfMinuteLease 8)) anyStep lostLease (Sys.init 0)).any
      (fun s => (s.queue.tasks.lookup "a").any
        (fun e => e.phase = .completed ∧ e.claimant = some (workerKey 2) ∧
          lastClaimant "a" s.log = some (workerKey 2) ∧ e.responseBody = [1,2] ∧
          bodyOf (leaseParts "a" (workerKey 2) s.log) = [2])) = true)
  simp only [Option.any_eq_true,decide_eq_true_eq] at hq
  obtain ⟨e,he,hfacts⟩ := hq
  exact ⟨s,e,⟨0,execute_run hs⟩,he,hfacts⟩

end PirateServer.TaskQueue
