import PirateServer.TaskQueue.Tokens

/-! How many tasks can be queued at once. `enqueue` compares the length of the deque with
`cap` in one section and stores the task in the next, and lease recycling does not look at
`cap`; the bound holds in runs that keep clear of both. -/
namespace PirateServer.TaskQueue
open Lib

/-- The thread has passed the capacity test and has not stored its task yet. -/
def Pc.inserting : Pc → Bool
  | enqueueInsert _ => true
  | _ => false

/-- The ids that a section can turn into queued ones. -/
def Sys.mints (s : Sys) (t : Tid) (order : List String) : Finset String :=
  match s.pc t with
  | .recycleTasks _ now => (recycleTasks now order s.queue.tasks).2.toFinset
  | .enqueueInsert a => {a.rid}
  | _ => ∅

/-- The capacity test is made while every queued task waits in the deque and no other thread
is between its own test and its insertion; leases only run out while no thread is there and
there is room for the tasks that they give back. -/
def capGuarded (cfg : Config) (s : Sys) : Label → Prop
  | .exec t order =>
    match s.pc t with
    | .enqueueCap _ =>
      (∀ id ∈ s.queue.queuedIds, id ∈ s.queue.dequeIds) ∧ ∀ u, (s.pc u).inserting = false
    | .recycleTasks _ now =>
      (recycleTasks now order s.queue.tasks).2 = [] ∨
        (s.queue.queuedIds.card + (recycleTasks now order s.queue.tasks).2.length ≤ cfg.cap ∧
          ∀ u, (s.pc u).inserting = false)
    | _ => True
  | _ => True

structure CapInv (cfg : Config) (s : Sys) : Prop where
  le : s.queue.queuedIds.card ≤ cfg.cap
  lt : ∀ t, (s.pc t).inserting = true → s.queue.queuedIds.card < cfg.cap
  one : ∀ t u, (s.pc t).inserting = true → (s.pc u).inserting = true → t = u

section
variable {cfg : Config} {s s' : Sys} {t : Tid} {order : List String}

section
variable (hg : GuardInv s) (hs : step cfg s (.exec t order) = some s')
include hg hs

lemma exec_queuedIds : s'.queue.queuedIds ⊆ s.queue.queuedIds ∪ s.mints t order := by
  intro id hid
  rw [Queue.mem_queuedIds] at hid
  obtain ⟨e,he,hq⟩ := hid
  have hentry := exec_entry hg hs id
  obtain ⟨_,_,ho,_⟩ := step_exec hs
  rw [he] at hentry
  rw [Finset.mem_union,Queue.mem_queuedIds]
  generalize hl : s.queue.tasks.lookup id = o at hentry
  generalize about id _ = evs at hentry
  cases hentry with
  | same => exact Or.inl ⟨e,hl,hq⟩
  | @recycled c now e₀ _ pc lease =>
    right
    simp only [Sys.orderOk,pc,decide_eq_true_eq] at ho
    have hnd := ho.nodup_iff.mpr s.queue.tasks.keys_nodup
    simp only [Sys.mints,pc,List.mem_toFinset]
    rw [recycleTasks_requeue hnd,List.mem_filter]
    exact ⟨ho.mem_iff.mpr (Table.mem_keys_iff_lookup.mpr ⟨e₀,hl⟩),by simp [leaseExpired,hl,lease]⟩
  | created pc rid => exact Or.inr (by simp [Sys.mints,pc,rid])
  | expired | claimed | updated | failed | completed => cases hq
  | @absorbed _ e₀ | @refused _ e₀ => exact Or.inl ⟨e₀,hl,hq⟩

lemma exec_card : s'.queue.queuedIds.card ≤ s.queue.queuedIds.card + (s.mints t order).card :=
  (Finset.card_le_card (exec_queuedIds hg hs)).trans (Finset.card_union_le _ _)

end

lemma exec_inserting (hs : step cfg s (.exec t order) = some s') (hi : (s'.pc t).inserting = true) :
    (∃ a, s.pc t = .enqueueCap a) ∧ s.queue.dequeIds.length < cfg.cap := by
  have hp := exec_pc hs
  generalize s.pc t = p at hp
  generalize s'.pc t = p' at hp hi
  cases hp with
  | cap room => exact ⟨⟨_,rfl⟩,room⟩
  | @frontNone c _ _ _ resume | @fresh c _ _ _ _ resume => subst resume; cases c <;> cases hi
  | _ => cases hi

lemma exec_other_pc {u : Tid} (hs : step cfg s (.exec t order) = some s') (hut : u ≠ t) :
    s'.pc u = s.pc u := step_pc_of_ne (by simpa [Label.tid] using hut.symm) hs

lemma CapInv.of_card_le (h : CapInv cfg s) (hs : step cfg s (.exec t order) = some s')
    (hcard : s'.queue.queuedIds.card ≤ s.queue.queuedIds.card)
    (hpc : (s'.pc t).inserting = false) : CapInv cfg s' := by
  have hpc' : ∀ u, (s'.pc u).inserting = true → u ≠ t ∧ (s.pc u).inserting = true := by
    intro u hu
    have hut : u ≠ t := by
      rintro rfl
      simp [hpc] at hu
    exact ⟨hut,exec_other_pc hs hut ▸ hu⟩
  refine ⟨hcard.trans h.le,fun u hu => lt_of_le_of_lt hcard (h.lt u (hpc' u hu).2),?_⟩
  intro u v hu hv
  exact h.one u v (hpc' u hu).2 (hpc' v hv).2

lemma CapInv.exec (hg : GuardInv s) (h : CapInv cfg s) (hok : capGuarded cfg s (.exec t order))
    (hs : step cfg s (.exec t order) = some s') : CapInv cfg s' := by
  have hcard := exec_card hg hs
  by_cases hins : (s'.pc t).inserting = true
  · -- the capacity test has just been passed
    obtain ⟨⟨a,hpc⟩,hroom⟩ := exec_inserting hs hins
    simp only [capGuarded,hpc] at hok
    have hle : s.queue.queuedIds.card ≤ s.queue.dequeIds.length := by
      have hsub : s.queue.queuedIds ⊆ s.queue.dequeIds.toFinset :=
        fun id hid => List.mem_toFinset.mpr (hok.1 id hid)
      exact (Finset.card_le_card hsub).trans (List.toFinset_card_le _)
    have hmint : (s.mints t order).card = 0 := by simp [Sys.mints,hpc]
    have hone : ∀ u, (s'.pc u).inserting = true → u = t := by
      intro u hu
      by_contra hut
      rw [exec_other_pc hs hut,hok.2 u] at hu
      cases hu
    refine ⟨by omega,fun _ _ => by omega,?_⟩
    intro u v hu hv
    rw [hone u hu,hone v hv]
  · have hins' : (s'.pc t).inserting = false := by simpa using hins
    cases hpc : s.pc t with
    | recycleTasks c now =>
      simp only [capGuarded,hpc] at hok
      simp only [Sys.mints,hpc] at hcard
      rcases hok with hnil | ⟨hroom,hfree⟩
      · rw [hnil] at hcard
        exact h.of_card_le hs (by simpa using hcard) hins'
      have hlen := List.toFinset_card_le (recycleTasks now order s.queue.tasks).2
      have hnone : ∀ u, (s'.pc u).inserting = false := by
        intro u
        by_cases hut : u = t
        · rw [hut]
          exact hins'
        · rw [exec_other_pc hs hut]
          exact hfree u
      exact ⟨by omega,fun u hu => by simp [hnone u] at hu,fun u _ hu => by simp [hnone u] at hu⟩
    | enqueueInsert a =>
      have ht : (s.pc t).inserting = true := by rw [hpc]; rfl
      have hlt := h.lt t ht
      simp only [Sys.mints,hpc,Finset.card_singleton] at hcard
      have hnone : ∀ u, (s'.pc u).inserting = false := by
        intro u
        by_cases hut : u = t
        · rw [hut]
          exact hins'
        · rw [exec_other_pc hs hut]
          by_contra hu
          exact hut (h.one u t (by simpa using hu) ht)
      exact ⟨by omega,fun u hu => by simp [hnone u] at hu,fun u _ hu => by simp [hnone u] at hu⟩
    | _ =>
      simp only [Sys.mints,hpc,Finset.card_empty,Nat.add_zero] at hcard
      exact h.of_card_le hs hcard hins'

lemma CapInv.step {a : Label} (hg : GuardInv s) (h : CapInv cfg s) (hok : capGuarded cfg s a)
    (hs : TaskQueue.step cfg s a = some s') : CapInv cfg s' := by
  rcases step_quiet hs with hquiet | ⟨t,order,rfl⟩
  swap
  · exact h.exec hg hok hs
  have hpc : ∀ u, (s'.pc u).inserting = true → (s.pc u).inserting = true := by
    intro u hu
    rcases hquiet.pc u with heq | ⟨_,⟨c,hp⟩ | ⟨o,hp⟩⟩
    · rwa [heq] at hu
    · rw [hp] at hu; cases hu
    · rw [hp] at hu; cases hu
  refine ⟨?_,fun u hu => ?_,fun u v hu hv => h.one u v (hpc u hu) (hpc v hv)⟩
  · rw [hquiet.queue]
    exact h.le
  · rw [hquiet.queue]
    exact h.lt u (hpc u hu)

end

/-- In runs that keep clear of the race and of the unchecked requeue, at most `cap` tasks, and
at least one, can be queued at a time. -/
theorem queued_le_cap {profileId : String} {cap ttl lease : ℕ} {s : Sys}
    (h : ReachableBy (Config.new profileId cap ttl lease)
      (capGuarded (Config.new profileId cap ttl lease)) s) :
    s.queue.queuedIds.card ≤ max cap 1 := by
  obtain ⟨c,hr⟩ := h
  have hinit : CapInv (Config.new profileId cap ttl lease) (Sys.init c) := by
    constructor <;> simp [Sys.init,Queue.empty,Queue.queuedIds,Pc.inserting]
  exact (hr.invariant_of (I := CapInv (Config.new profileId cap ttl lease))
    (fun u hu => (ReachableBy.reachable ⟨c,hu⟩).guardInv)
    (fun _ _ _ hg hi hok hs => hi.step hg hok hs) hinit).le

/-- `capGuarded` for a run of thread 0 alone in which no lease runs out. -/
def capGuardedSole (s : Sys) : Label → Bool
  | .exec t order =>
    match s.pc t with
    | .enqueueCap _ => ∀ id ∈ s.queue.queuedIds, id ∈ s.queue.dequeIds
    | .recycleTasks _ now => (recycleTasks now order s.queue.tasks).2 = []
    | _ => true
  | _ => true

lemma capGuarded_of_sole {cfg : Config} {s : Sys} {a : Label} (h : s.Sole)
    (ha : a.tid.all (fun t => t = 0) = true) (hok : capGuardedSole s a = true) :
    capGuarded cfg s a := by
  cases a with
  | exec t order =>
    have ht : t = 0 := by simpa [Label.tid] using ha
    subst ht
    simp only [capGuardedSole,capGuarded] at hok ⊢
    cases hpc : s.pc 0 with
    | enqueueCap b =>
      simp only [hpc,decide_eq_true_eq] at hok ⊢
      refine ⟨hok,fun u => ?_⟩
      by_cases hu : u = 0
      · rw [hu,hpc]; rfl
      · rw [h u hu]; rfl
    | recycleTasks c now =>
      simp only [hpc,decide_eq_true_eq] at hok ⊢
      exact Or.inl hok
    | _ => trivial
  | _ => trivial

theorem queued_le_cap_two : ∃ s, ReachableBy (halfMinuteLease 2)
    (capGuarded (halfMinuteLease 2)) s ∧
    s.queue.queuedIds.card = 2 ∧ s.queue.queuedIds.card ≤ max 2 1 := by
  obtain ⟨s,hs,hq⟩ := (Option.any_eq_true _ _).mp
    (by decide +kernel : (execute (step (halfMinuteLease 2))
      (fun s a => a.tid.all (fun t => t = 0) = true ∧ capGuardedSole s a = true) storeTwo
      (Sys.init 0)).any (fun s => s.queue.queuedIds.card = 2) = true)
  have hr : ReachableBy (halfMinuteLease 2) (capGuarded (halfMinuteLease 2)) s :=
    (execute_run_sole (fun _ _ => capGuarded_of_sole) hs).1
  exact ⟨s,hr,by simpa using hq,queued_le_cap hr⟩

/-- Thread 0 stores `a`, a worker claims it, `b` is stored, and the lease runs out. -/
def requeueOverCap : List Label :=
  storeAndClaim ++ [.call 0 (.enqueue (.ofId "b"))] ++ recycleNone 0 ["a"] ++ discardEmpty 0 ++
  enqueueRest 0 ++
  [.tick 30000000001,.call 0 (.applyStatus ⟨workerKey 2,"x",none,0⟩)] ++
  recycleSome 0 ["a","b"] ++ discardFresh 0 ++ locked 0 []

/-- Threads 0 and 1 both pass the capacity test before either stores its task. -/
def enqueueRace : List Label :=
  [.call 0 (.enqueue (.ofId "a")),.call 1 (.enqueue (.ofId "b"))] ++
  recycleNone 0 [] ++ discardEmpty 0 ++ recycleNone 1 [] ++ discardEmpty 1 ++
  locked 0 [] ++ locked 1 [] ++ locked 0 [] ++ locked 1 [] ++ locked 0 [] ++ locked 1 []

lemma reaches_two_queued {cfg : Config} (as : List Label)
    (h : (execute (step cfg) anyStep as (Sys.init 0)).any
      (fun s => s.queue.queuedIds.card = 2 ∧ ∀ t < 2, (s.pc t).isIdle = true) = true)
    (has : ∀ a ∈ as, a.tid.all (fun t => t < 2) = true) :
    ∃ s, execute (step cfg) anyStep as (Sys.init 0) = some s ∧ Reachable cfg s ∧
      (∀ t, (s.pc t).isIdle = true) ∧ s.queue.queuedIds.card = 2 := by
  obtain ⟨s,hs,hq⟩ := (Option.any_eq_true _ _).mp h
  simp only [decide_eq_true_eq] at hq
  exact ⟨s,hs,⟨0,execute_run hs⟩,execute_idle 2 hs has hq.2,hq.1⟩

theorem queued_exceeds_cap :
    (∃ s, execute (step (halfMinuteLease 1)) anyStep requeueOverCap (Sys.init 0) = some s ∧
      Reachable (halfMinuteLease 1) s ∧ (∀ t, (s.pc t).isIdle = true) ∧
      s.queue.queuedIds.card = 2) ∧
    ∃ s, execute (step (halfMinuteLease 1)) anyStep enqueueRace (Sys.init 0) = some s ∧
      Reachable (halfMinuteLease 1) s ∧ (∀ t, (s.pc t).isIdle = true) ∧
      s.queue.queuedIds.card = 2 :=
  ⟨reaches_two_queued requeueOverCap (by decide +kernel) (by decide),
    reaches_two_queued enqueueRace (by decide +kernel) (by decide)⟩

end PirateServer.TaskQueue
