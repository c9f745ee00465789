import PirateServer.TaskQueue.Claim

/-! A thread that runs while all others stand still. Its view of the system is a small
machine on the queue, the counters and its own program point, which the full machine
follows step by step; the one place where it stops inside an operation is the second
`tasks.lock()` of `discard_ttl_expired`. -/
namespace PirateServer.TaskQueue
open Lib StateTransition

/-- The next label of a thread that runs alone and iterates maps as `order` says. -/
def Sys.next (order : Tasks → List String) (s : Sys) (t : Tid) : Label :=
  if (s.pc t).mutex.isSome ∧ s.entered t = false then .acquire t
  else .exec t (order s.queue.tasks)

variable (cfg : Config) (order : Tasks → List String) (t : Tid) (s : Sys)

def soloStep : Option Sys :=
  if (s.pc t).parked then none else step cfg s (s.next order t)

/-- Left alone, the thread gets through its operation. -/
def Completes : Prop :=
  ∃ s', Reaches (soloStep cfg order t) s s' ∧ (s'.pc t).parked = true

def Sys.waitsForItself (s : Sys) (t : Tid) : Prop :=
  ∃ m, (s.pc t).mutex = some m ∧ s.entered t = false ∧ s.owner m = some t

/-- `recycle_expired_leases` as a whole. -/
def recycleExpiredLeases (now : ℕ) (order : List String) (q : Queue) : Queue :=
  let r := recycleTasks now order q.tasks
  ⟨pushFrontMissing r.2 q.dequeIds,r.1⟩

def staleFront (cfg : Config) (now : ℕ) (q : Queue) : Bool :=
  q.dequeIds.head?.any (fun id => (q.tasks.lookup id).any (TaskEntry.stale cfg.ttl now))

/-- What a thread that runs alone sees of the system. -/
structure View where
  queue : Queue
  stats : Stats
  pc : Pc

def View.step (cfg : Config) (clock : ℕ) (order : Tasks → List String) (v : View) : Option View :=
  if v.pc.parked ∨ v.pc.inIfLet then none
  else
    let eff := advance cfg clock (order v.queue.tasks) v.queue v.stats v.pc
    some ⟨eff.queue,eff.stats,eff.pc⟩

/-- The guards are free, except for the one that the `if let` keeps. -/
structure View.Of (clock : ℕ) (t : Tid) (v : View) (s : Sys) : Prop where
  clock : s.clock = clock
  queue : s.queue = v.queue
  stats : s.stats = v.stats
  pc : s.pc t = v.pc
  out : s.entered t = false
  owner : ∀ m, s.owner m = if v.pc.inIfLet = true ∧ m = .tasks then some t else none

variable {cfg : Config} {clock : ℕ} {order : Tasks → List String} {t : Tid} {s : Sys} {v : View}

lemma soloStep_blocked (h : v.Of clock t s) (hlet : v.pc.inIfLet = true) :
    soloStep cfg order t s = none := by
  have hm : (s.pc t).mutex = some .tasks := by rw [h.pc]; exact Pc.mutex_of_inIfLet hlet
  have hpk : (s.pc t).parked = false := by
    rw [h.pc]
    cases hp : v.pc <;> simp_all [Pc.inIfLet,Pc.parked]
  simp [soloStep,hpk,Sys.next,hm,h.out,step,h.owner,hlet]

lemma solo_section (hord : ∀ hm, (order hm).Perm hm.keys) (h : v.Of clock t s)
    (hpk : v.pc.parked = false) (hlet : v.pc.inIfLet = false) : ∃ s', View.Of clock t
      ⟨(advance cfg clock (order v.queue.tasks) v.queue v.stats v.pc).queue,
        (advance cfg clock (order v.queue.tasks) v.queue v.stats v.pc).stats,
        (advance cfg clock (order v.queue.tasks) v.queue v.stats v.pc).pc⟩ s' ∧
      Reaches₁ (soloStep cfg order t) s s' := by
  obtain ⟨rfl,hq,hst,hpc,hout,hown⟩ := h
  have hfree : ∀ m, s.owner m = none := fun m => by simp [hown,hlet]
  have hidle : (s.pc t).isIdle = false := by
    rw [hpc]
    cases hp : v.pc <;> simp_all [Pc.parked,Pc.isIdle]
  have hok : s.orderOk t (order s.queue.tasks) = true := by
    unfold Sys.orderOk
    split
    · simpa using hord _
    · rfl
  have hpk' : (s.pc t).parked = false := hpc ▸ hpk
  cases hm : (s.pc t).mutex with
  | none =>
    refine ⟨s.apply t (s.effect cfg t (order s.queue.tasks)),?_,?_⟩
    · rw [← hq,← hst,← hpc]
      refine ⟨rfl,rfl,rfl,by simp [Sys.apply,Sys.effect],by simp [Sys.apply],?_⟩
      intro m
      have hnext : (advance cfg s.clock (order s.queue.tasks) s.queue s.stats (s.pc t)).pc.inIfLet ≠
          true := fun hn => by simp [advance_inIfLet hn] at hm
      simp [Sys.apply,Sys.release,hm,hfree,hnext]
    · apply Relation.TransGen.single
      simp [soloStep,hpk',Sys.next,hm,step,Sys.ready,hidle,hok]
  | some m =>
    let s₁ : Sys := { s with
      owner := Function.update s.owner m (some t)
      entered := Function.update s.entered t true }
    refine ⟨s₁.apply t (s₁.effect cfg t (order s₁.queue.tasks)),?_,?_⟩
    · rw [← hq,← hst,← hpc]
      refine ⟨rfl,rfl,rfl,by simp [Sys.apply,Sys.effect,s₁],by simp [Sys.apply],?_⟩
      intro k
      by_cases hn : (advance cfg s.clock (order s.queue.tasks) s.queue s.stats
        (s.pc t)).pc.inIfLet =
          true
      · have hmt : m = .tasks := Option.some.inj (hm.symm.trans (advance_inIfLet hn))
        by_cases hk : k = .tasks
        · simp [Sys.apply,Sys.release,Sys.effect,s₁,hm,hn,hk,hmt]
        · simp [Sys.apply,Sys.release,Sys.effect,s₁,hm,hn,hk,hmt,hfree]
      · by_cases hk : k = m
        · simp [Sys.apply,Sys.release,Sys.effect,s₁,hm,hn,hk]
        · simp [Sys.apply,Sys.release,Sys.effect,s₁,hm,hn,hk,hfree]
    · apply Relation.TransGen.tail (b := s₁)
      · apply Relation.TransGen.single
        simp [soloStep,hpk',Sys.next,hm,hout,step,hfree,s₁]
      · have hok₁ : s₁.orderOk t (order s₁.queue.tasks) = true := hok
        have hpk₁ : (s₁.pc t).parked = false := hpk'
        have hid₁ : (s₁.pc t).isIdle = false := hidle
        have hent : s₁.entered t = true := by simp [s₁]
        simp [soloStep,hpk₁,Sys.next,hent,step,Sys.ready,hid₁,hok₁]

/-- The system follows the view of a thread that runs alone. -/
theorem view_respects (hord : ∀ hm, (order hm).Perm hm.keys) :
    Respects (View.step cfg clock order) (soloStep cfg order t) (View.Of clock t) := by
  intro v s h
  by_cases hpk : v.pc.parked = true
  · simp [View.step,hpk,soloStep,h.pc]
  · by_cases hlet : v.pc.inIfLet = true
    · simpa [View.step,hlet] using soloStep_blocked h hlet
    · simp only [View.step,hpk,hlet,or_self]
      exact solo_section hord h (by simpa using hpk) (by simpa using hlet)

variable {q : Queue} {st : Stats}

lemma View.reaches_advance {w : View} (hpk : v.pc.parked = false) (hlet : v.pc.inIfLet = false)
    (h : Reaches (View.step cfg clock order)
      ⟨(advance cfg clock (order v.queue.tasks) v.queue v.stats v.pc).queue,
        (advance cfg clock (order v.queue.tasks) v.queue v.stats v.pc).stats,
        (advance cfg clock (order v.queue.tasks) v.queue v.stats v.pc).pc⟩ w) :
    Reaches (View.step cfg clock order) v w := by
  refine Relation.ReflTransGen.head ?_ h
  simp [View.step,hpk,hlet]

lemma view_recycle (cfg : Config) (clock : ℕ) (order : Tasks → List String) (q : Queue)
    (st : Stats) (c : Rest) : ∃ st', Reaches (View.step cfg clock order) ⟨q,st,.recycleStart c⟩
      ⟨recycleExpiredLeases clock (order q.tasks) q,st',.discardFront c clock⟩ := by
  refine ⟨{ st with
    leaseRequeue := st.leaseRequeue + (recycleTasks clock (order q.tasks) q.tasks).2.length },?_⟩
  apply View.reaches_advance rfl rfl
  apply View.reaches_advance rfl rfl
  cases hr : (recycleTasks clock (order q.tasks) q.tasks).2 with
  | nil =>
    simp only [advance,hr,if_true]
    apply View.reaches_advance rfl rfl
    simp only [advance,recycleExpiredLeases,hr,pushFrontMissing]
    exact .refl
  | cons id ids =>
    simp only [advance,hr,reduceCtorEq,if_false]
    apply View.reaches_advance rfl rfl
    apply View.reaches_advance rfl rfl
    simp only [advance,recycleExpiredLeases,hr]
    exact .refl

lemma view_discard_fresh (c : Rest) (h : staleFront cfg clock q = false) :
    Reaches (View.step cfg clock order) ⟨q,st,.discardFront c clock⟩ ⟨q,st,c.resume⟩ := by
  apply View.reaches_advance rfl rfl
  cases hf : q.dequeIds.head? with
  | none =>
    simp only [advance,hf]
    exact .refl
  | some id =>
    simp only [advance,hf]
    apply View.reaches_advance rfl rfl
    have hold : (q.tasks.lookup id).any (TaskEntry.stale cfg.ttl clock) = false := by
      simpa [staleFront,hf] using h
    simp only [advance,hold]
    exact .refl

lemma view_discard_stale (order : Tasks → List String) (st : Stats) (c : Rest)
    (h : staleFront cfg clock q = true) :
    ∃ v, Reaches (View.step cfg clock order) ⟨q,st,.discardFront c clock⟩ v ∧
      v.pc.inIfLet = true := by
  obtain ⟨id,hf,hold⟩ := (Option.any_eq_true _ _).mp h
  obtain ⟨e,he,_⟩ := (Option.any_eq_true _ _).mp hold
  let eff := removeEffect { q with dequeIds := q.dequeIds.tail } st c clock id
  refine ⟨⟨eff.queue,eff.stats,eff.pc⟩,?_,?_⟩
  · apply View.reaches_advance rfl rfl
    simp only [advance,hf]
    apply View.reaches_advance rfl rfl
    simp only [advance,hold,if_true]
    apply View.reaches_advance rfl rfl
    simp only [advance,hf,if_true]
    apply View.reaches_advance rfl rfl
    exact .refl
  · simp only [eff,removeEffect,discardRemove,he,Option.map_some]
    split <;> rfl

/-- Where `claim_next` stands after `try_claim_one`. -/
def claimedPc (w : PubKey) (d : ℕ) : Option BusRequestEnvelope → Pc
  | some envelope => .idle (some (.claimed (.ok envelope)))
  | none => .claimWait w d

lemma view_claim {w : PubKey} {d fuel : ℕ} {r : Option BusRequestEnvelope × Queue × Stats}
    (h : tryClaimOne cfg w (fun _ => clock) fuel q st = some r) :
    Reaches (View.step cfg clock order) ⟨q,st,.claimPop w d⟩ ⟨r.2.1,r.2.2,claimedPc w d r.1⟩ := by
  induction fuel generalizing q st with
  | zero =>
    obtain ⟨dq,hm⟩ := q
    cases dq with
    | nil =>
      cases h
      apply View.reaches_advance rfl rfl
      exact .refl
    | cons id rest => cases h
  | succ fuel ih =>
    obtain ⟨dq,hm⟩ := q
    apply View.reaches_advance rfl rfl
    cases dq with
    | nil =>
      cases h
      exact .refl
    | cons id rest =>
      simp only [advance]
      apply View.reaches_advance rfl rfl
      apply View.reaches_advance rfl rfl
      simp only [advance,claimEffect]
      simp only [tryClaimOne] at h
      cases hc : (attemptClaimId cfg clock w id hm).1 with
      | taken envelope =>
        simp only [hc] at h
        cases h
        exact .refl
      | skip =>
        simp only [hc] at h
        exact ih h
      | requeueFront =>
        simp only [hc] at h
        apply View.reaches_advance rfl rfl
        exact ih h

/-- Left alone, the thread with this view gets through its operation. -/
def View.Completes (cfg : Config) (clock : ℕ) (order : Tasks → List String) (v : View) : Prop :=
  ∃ w, Reaches (View.step cfg clock order) v w ∧ w.pc.parked = true

lemma View.Completes.of_parked (h : v.pc.parked = true) : v.Completes cfg clock order :=
  ⟨v,.refl,h⟩

lemma View.Completes.of_reaches {w : View} (h : Reaches (View.step cfg clock order) v w)
    (hw : w.Completes cfg clock order) : v.Completes cfg clock order := by
  obtain ⟨x,hx,hpk⟩ := hw
  exact ⟨x,Relation.ReflTransGen.trans h hx,hpk⟩

lemma view_resume (c : Rest) (hnd : q.dequeIds.Nodup) (hq : ∀ id ∈ q.dequeIds, q.Queued id) :
    View.Completes cfg clock order ⟨q,st,c.resume⟩ := by
  cases c with
  | enqueue a =>
    apply View.Completes.of_reaches (View.reaches_advance rfl rfl .refl)
    simp only [Rest.resume,advance]
    split
    · exact .of_parked rfl
    apply View.Completes.of_reaches (View.reaches_advance rfl rfl .refl)
    simp only [advance]
    split
    · exact .of_parked rfl
    · apply View.Completes.of_reaches (View.reaches_advance rfl rfl .refl)
      exact .of_parked rfl
  | claimNext w d =>
    obtain ⟨r,hr⟩ := Option.isSome_iff_exists.mp
      (tryClaimOne_isSome w (fun _ => clock) st hnd hq)
    apply View.Completes.of_reaches (view_claim hr)
    apply View.Completes.of_parked
    cases r.1 <;> rfl
  | applyStatus a =>
    apply View.Completes.of_reaches (View.reaches_advance rfl rfl .refl)
    simp only [Rest.resume,advance]
    split <;> exact .of_parked rfl
  | applyComplete a =>
    apply View.Completes.of_reaches (View.reaches_advance rfl rfl .refl)
    simp only [Rest.resume,advance,completeEffect]
    split <;> exact .of_parked rfl

lemma recycleExpiredLeases_queued (now : ℕ) {ids : List String} (ho : ids.Perm q.tasks.keys)
    (hnd : q.dequeIds.Nodup) (hq : ∀ id ∈ q.dequeIds, q.Queued id) :
    (recycleExpiredLeases now ids q).dequeIds.Nodup ∧
      ∀ id ∈ (recycleExpiredLeases now ids q).dequeIds,
        (recycleExpiredLeases now ids q).Queued id := by
  have hids := ho.nodup_iff.mpr q.tasks.keys_nodup
  have hreq : (recycleTasks now ids q.tasks).2 = ids.filter (leaseExpired now q.tasks) :=
    recycleTasks_requeue hids
  have hnew : ∀ id ∈ (recycleTasks now ids q.tasks).2, id ∉ q.dequeIds := by
    intro id hid hdq
    rw [hreq,List.mem_filter] at hid
    exact not_queued_of_leaseExpired hid.2 (hq id hdq)
  have hnodup : (recycleTasks now ids q.tasks).2.Nodup := by
    rw [hreq]
    exact hids.filter _
  have hdq : (recycleExpiredLeases now ids q).dequeIds =
      (recycleTasks now ids q.tasks).2.reverse ++ q.dequeIds := pushFrontMissing_eq hnodup hnew
  rw [hdq]
  refine ⟨(List.nodup_reverse.mpr hnodup).append hnd ?_,?_⟩
  · intro id hid hw
    exact hnew id (List.mem_reverse.mp hid) hw
  · intro id hid
    apply (queued_recycle ho id).mpr
    rcases List.mem_append.mp hid with hid | hid
    · exact Or.inr (List.mem_reverse.mp hid)
    · exact Or.inl (hq id hid)

section
variable {c : Rest}

section
variable (h : Reachable cfg s) (hpc : s.pc t = .recycleStart c) (hfree : ∀ m, s.owner m = none)
include h hpc hfree

lemma view_of_free : View.Of s.clock t ⟨s.queue,s.stats,.recycleStart c⟩ s := by
  refine ⟨rfl,rfl,rfl,hpc,?_,fun m => by simp [hfree,Pc.inIfLet]⟩
  by_contra he
  exact h.guardInv.entered_mutex t (by simpa using he) (by simp [hpc,Pc.mutex])

lemma completes_of_fresh (hord : ∀ hm, (order hm).Perm hm.keys) (hfresh : staleFront cfg s.clock
      (recycleExpiredLeases s.clock (order s.queue.tasks) s.queue) = false) :
    Completes cfg order t s := by
  obtain ⟨hnd,hq⟩ := recycleExpiredLeases_queued s.clock (hord s.queue.tasks)
    h.sound.waiting_nodup h.sound.waiting_live
  obtain ⟨st,hrec⟩ := view_recycle cfg s.clock order s.queue s.stats c
  obtain ⟨v,hv,hpk⟩ := View.Completes.of_reaches
    (Relation.ReflTransGen.trans hrec (view_discard_fresh c hfresh)) (view_resume c hnd hq)
  obtain ⟨s',hs',hreach⟩ := tr_reaches (view_respects hord) (view_of_free h hpc hfree) hv
  exact ⟨s',hreach,by rw [hs'.pc]; exact hpk⟩

lemma blocks_of_stale (hord : ∀ hm, (order hm).Perm hm.keys) (hstale : staleFront cfg s.clock
      (recycleExpiredLeases s.clock (order s.queue.tasks) s.queue) = true) :
    ∃ s', s' ∈ eval (soloStep cfg order t) s ∧ s'.waitsForItself t ∧ (s'.pc t).parked = false := by
  obtain ⟨st,hrec⟩ := view_recycle cfg s.clock order s.queue s.stats c
  obtain ⟨v,hv,hlet⟩ := view_discard_stale order st c hstale
  obtain ⟨s',hs',hreach⟩ := tr_reaches (view_respects hord) (view_of_free h hpc hfree)
    (Relation.ReflTransGen.trans hrec hv)
  refine ⟨s',mem_eval.mpr ⟨hreach,soloStep_blocked hs' hlet⟩,⟨.tasks,?_,hs'.out,?_⟩,?_⟩
  · rw [hs'.pc]
    exact Pc.mutex_of_inIfLet hlet
  · simp [hs'.owner,hlet]
  · rw [hs'.pc]
    cases hp : v.pc <;> simp_all [Pc.inIfLet,Pc.parked]

end

end

lemma GuardInv.waitsForItself_iff (h : GuardInv s) (t : Tid) :
    s.waitsForItself t ↔ (s.pc t).inIfLet = true := by
  constructor
  · rintro ⟨m,_,hout,hown⟩
    rcases h.owner_holds t m hown with ⟨hent,_⟩ | ⟨hi,_⟩
    · simp [hout] at hent
    · exact hi
  · intro hi
    obtain ⟨hown,hout⟩ := h.ifLet_owner t hi
    exact ⟨.tasks,Pc.mutex_of_inIfLet hi,hout,hown⟩

theorem waitsForItself_forever {s' : Sys} (h : GuardInv s)
    (hw : s.waitsForItself t) (hr : Run (step cfg) anyStep s s') : s'.waitsForItself t := by
  have hinv : GuardInv s' ∧ (s'.pc t).inIfLet = true := by
    refine hr.invariant (I := fun u => GuardInv u ∧ (u.pc t).inIfLet = true) ?_
      ⟨h,(h.waitsForItself_iff t).mp hw⟩
    rintro u a u' ⟨hg,hi⟩ _ hs
    exact ⟨hg.step hs,hg.step_inIfLet hs hi⟩
  exact (hinv.1.waitsForItself_iff t).mpr hinv.2

/-- The thread is about to see that the id it read at the front is stale. -/
def Sys.findsStale (cfg : Config) (s : Sys) (t : Tid) : Bool :=
  match s.pc t with
  | .discardStale _ now id => (s.queue.tasks.lookup id).any (TaskEntry.stale cfg.ttl now)
  | _ => false

def frontFresh (cfg : Config) (s : Sys) : Label → Prop
  | .exec t _ => s.findsStale cfg t = false
  | _ => True

instance (cfg : Config) (s : Sys) : (a : Label) → Decidable (frontFresh cfg s a)
  | .exec t _ => inferInstanceAs (Decidable (s.findsStale cfg t = false))
  | .tick _ | .call .. | .acquire _ => .isTrue trivial

/-- The points of `discard_ttl_expired` behind the test for staleness. -/
def Pc.discarding : Pc → Bool
  | discardPop .. | discardRemove .. | discardReinsert .. => true
  | _ => false

lemma ReachableBy.not_discarding (h : ReachableBy cfg (frontFresh cfg) s)
    (t : Tid) : (s.pc t).discarding = false := by
  obtain ⟨c,hr⟩ := h
  refine hr.invariant (I := fun u => (u.pc t).discarding = false) ?_ rfl
  intro u a u' hi hok hs
  rcases step_pc hs t with heq | ⟨op,_,_,heq⟩ | ⟨order,rfl,hp⟩
  · rw [heq]
    exact hi
  · rw [heq]
    rcases op.start_cases u.clock with ⟨c,h⟩ | ⟨o,h⟩ <;> rw [h] <;> rfl
  generalize hold : u.pc t = p at hp hi
  generalize u'.pc t = p' at hp
  cases hp with
  | stale old => simp [frontFresh,Sys.findsStale,hold,old] at hok
  | pop | popOther | removeNone | remove | reinsert => cases hi
  | @frontNone c _ _ _ resume | @fresh c _ _ _ _ resume => subst resume; cases c <;> rfl
  | _ => rfl

/-- A thread that stands at `prune_all`, with both mutexes free, gets through its operation on
its own exactly when recycling leaves a front that is not stale; and in a run in which no
front is found stale no thread ever waits for itself. -/
theorem completes_iff_front_fresh (cfg : Config) :
    (∀ s t c order, Reachable cfg s → s.pc t = .recycleStart c → (∀ m, s.owner m = none) →
      (∀ hm : Tasks, (order hm).Perm hm.keys) → (Completes cfg order t s ↔ staleFront cfg s.clock
        (recycleExpiredLeases s.clock (order s.queue.tasks) s.queue) = false)) ∧
    ∀ s, ReachableBy cfg (frontFresh cfg) s → ∀ t, ¬s.waitsForItself t := by
  constructor
  · intro s t c order h hpc hfree hord
    refine ⟨?_,completes_of_fresh h hpc hfree hord⟩
    rintro ⟨s₁,hreach,hpk⟩
    by_contra hstale
    obtain ⟨s₂,heval,_,hpk₂⟩ := blocks_of_stale h hpc hfree hord (by simpa using hstale)
    have heval₁ : s₁ ∈ eval (soloStep cfg order t) s :=
      mem_eval.mpr ⟨hreach,by simp [soloStep,hpk]⟩
    rw [Part.mem_unique heval₁ heval] at hpk
    simp [hpk] at hpk₂
  · intro s h t hw
    have hi := (h.reachable.guardInv.waitsForItself_iff t).mp hw
    have hd := h.not_discarding t
    cases hpc : s.pc t <;> simp_all [Pc.inIfLet,Pc.discarding]

theorem completes_iff_front_fresh_two : ∃ s, Reachable minuteTtl s ∧
    s.queue.dequeIds = ["a","b"] ∧ Completes minuteTtl AList.keys 1 s := by
  obtain ⟨s,hs,hq⟩ := (Option.any_eq_true _ _).mp
    (by decide +kernel : (execute (step minuteTtl) anyStep storeTwo (Sys.init 0)).any
      (fun s => s.queue.dequeIds = ["a","b"] ∧
        staleFront minuteTtl s.clock (recycleExpiredLeases s.clock s.queue.tasks.keys s.queue) =
          false ∧ s.owner .dequeIds = none ∧ s.owner .tasks = none ∧ (s.pc 1).isIdle = true) = true)
  simp only [decide_eq_true_eq] at hq
  obtain ⟨hdq,hfresh,hd,ht,hidle⟩ := hq
  let s' : Sys := { s with pc := Function.update s.pc 1 (Op.start s.clock (.enqueue (.ofId "c"))) }
  have hcall : step minuteTtl s (.call 1 (.enqueue (.ofId "c"))) = some s' := if_pos hidle
  have hr : Reachable minuteTtl s' := ⟨0,(execute_run hs).tail trivial hcall⟩
  refine ⟨s',hr,hdq,?_⟩
  apply ((completes_iff_front_fresh minuteTtl).1 s' 1 (.enqueue (.ofId "c")) AList.keys hr ?_ ?_
    (fun _ => .refl _)).mpr hfresh
  · simp [s',Op.start]
  · rintro (_ | _)
    · exact hd
    · exact ht

/-- Thread 1 enters an operation when `a` has waited for too long. -/
def staleOp : List Label :=
  [.call 0 (.enqueue (.ofId "a"))] ++ recycleNone 0 [] ++ discardEmpty 0 ++ enqueueRest 0 ++
  [.tick 60000000001,.call 1 (.enqueue (.ofId "b"))] ++ recycleNone 1 ["a"] ++ discardFresh 1 ++
  locked 1 [] ++ locked 1 []

theorem staleOp_waitsForItself : ∃ s, Reachable minuteTtl s ∧ s.waitsForItself 1 ∧
    ∀ s', Run (step minuteTtl) anyStep s s' → s'.waitsForItself 1 := by
  obtain ⟨s,hs,hq⟩ := (Option.any_eq_true _ _).mp
    (by decide +kernel : (execute (step minuteTtl) anyStep staleOp (Sys.init 0)).any
      (fun s => (s.pc 1).inIfLet) = true)
  have hr : Reachable minuteTtl s := ⟨0,execute_run hs⟩
  have hw : s.waitsForItself 1 := (hr.guardInv.waitsForItself_iff 1).mpr hq
  exact ⟨s,hr,hw,fun s' => waitsForItself_forever hr.guardInv hw⟩

end PirateServer.TaskQueue
