import PirateServer.TaskQueue.Tokens

/-! The loop of `try_claim_one`. The pool invariant says that every waiting id belongs to a
queued task, so no iteration puts an id back and the deque shrinks with each of them. -/
namespace PirateServer.TaskQueue
open Lib

/-- `try_claim_one` by itself. The fuel counts the iterations that pop an id, `clock` gives
the reading of each of them, and `none` means that the loop still runs. -/
def tryClaimOne (cfg : Config) (worker : PubKey) (clock : ℕ → ℕ) :
    ℕ → Queue → Stats → Option (Option BusRequestEnvelope × Queue × Stats)
  | _,⟨[],hm⟩,st => some (none,⟨[],hm⟩,st)
  | 0,⟨_::_,_⟩,_ => none
  | fuel+1,⟨id::rest,hm⟩,st =>
    let r := attemptClaimId cfg (clock fuel) worker id hm
    let st' : Stats := { st with expired := st.expired + r.2.2 }
    match r.1 with
    | .taken envelope =>
      some (some envelope,⟨rest,r.2.1⟩,{ st' with claimed := st'.claimed + 1 })
    | .skip => tryClaimOne cfg worker clock fuel ⟨rest,r.2.1⟩ st'
    | .requeueFront => tryClaimOne cfg worker clock fuel ⟨id::rest,r.2.1⟩ st'

variable {cfg : Config}

lemma attemptClaimId_queued {worker : PubKey} {now : ℕ} {id : String} {hm : Tasks} {e : TaskEntry}
    (he : hm.lookup id = some e) (hq : e.phase = .queued) : attemptClaimId cfg now worker id hm =
      if cfg.ttl < now - e.queuedAt then (.skip,hm.insert id e.expire,1)
      else (.taken e.envelope,hm.insert id (e.claim cfg now worker),0) := by
  simp [attemptClaimId,he,hq]

/-- One iteration for each waiting id is enough. -/
theorem tryClaimOne_isSome (worker : PubKey) (clock : ℕ → ℕ) {dq : List String} {hm : Tasks}
    (st : Stats) (hnd : dq.Nodup) (hq : ∀ id ∈ dq, Queue.Queued ⟨dq,hm⟩ id) :
    (tryClaimOne cfg worker clock dq.length ⟨dq,hm⟩ st).isSome = true := by
  induction dq generalizing hm st with
  | nil => simp [tryClaimOne]
  | cons id rest ih =>
    obtain ⟨hid,hnd⟩ := List.nodup_cons.mp hnd
    obtain ⟨e,he,hp⟩ := hq id List.mem_cons_self
    simp only [List.length_cons,tryClaimOne,attemptClaimId_queued he hp]
    by_cases httl : cfg.ttl < clock rest.length - e.queuedAt
    · simp only [httl,if_true]
      -- the tasks behind the expired one are untouched
      refine ih _ hnd (fun j hj => ?_)
      have hji : j ≠ id := fun h => hid (h ▸ hj)
      obtain ⟨e',he',hp'⟩ := hq j (List.mem_cons_of_mem _ hj)
      exact ⟨e',by rw [AList.lookup_insert_ne hji]; exact he',hp'⟩
    · simp [httl]

lemma Reachable.pc_ne_claimRequeue {s : Sys} (h : Reachable cfg s) (t : Tid)
    (w : PubKey) (d : ℕ) (id : String) : s.pc t ≠ .claimRequeue w d id := by
  obtain ⟨c,hr⟩ := h
  refine hr.invariant_of (J := Reachable cfg) (I := fun u => u.pc t ≠ .claimRequeue w d id)
    (fun u hu => ⟨c,hu⟩) ?_ (by simp [Sys.init])
  intro u a u' hu hi _ hs
  rcases step_pc hs t with heq | ⟨op,_,_,heq⟩ | ⟨order,_,hp⟩
  · rw [heq]
    exact hi
  · rw [heq]
    rcases op.start_cases u.clock with ⟨c,h⟩ | ⟨o,h⟩ <;> simp [h]
  intro hpc
  rw [hpc] at hp
  generalize hold : u.pc t = p at hp
  cases hp with
  | requeueFront found other =>
    obtain ⟨e',he,hq⟩ := u.lookup_held hu.sound t id (by simp [hold,Pc.held])
    cases found.symm.trans he
    exact other hq
  | @frontNone c _ _ _ resume | @fresh c _ _ _ _ resume => cases c <;> cases resume

/-- In every reachable state the waiting ids are distinct and queued, no thread puts an id
back, and the loop of `try_claim_one` ends after at most one iteration per waiting id. -/
theorem claim_loop_terminates {cfg : Config} {s : Sys} (h : Reachable cfg s) :
    s.queue.dequeIds.Nodup ∧ (∀ id ∈ s.queue.dequeIds, s.queue.Queued id) ∧
      (∀ t w d id, s.pc t ≠ .claimRequeue w d id) ∧ ∀ worker clock, ∃ r,
        tryClaimOne cfg worker clock s.queue.dequeIds.length s.queue s.stats = some r := by
  have hnd := h.sound.waiting_nodup
  have hq := h.sound.waiting_live
  refine ⟨hnd,hq,h.pc_ne_claimRequeue,?_⟩
  intro worker clock
  exact Option.isSome_iff_exists.mp (tryClaimOne_isSome worker clock s.stats hnd hq)

theorem claim_loop_terminates_two : ∃ s, Reachable minuteTtl s ∧ s.queue.dequeIds = ["a","b"] ∧
    ∃ r, tryClaimOne minuteTtl (workerKey 1) (fun _ => 0) 2 s.queue s.stats = some r := by
  obtain ⟨s,hs,hq⟩ := (Option.any_eq_true _ _).mp
    (by decide +kernel : (execute (step minuteTtl) anyStep storeTwo (Sys.init 0)).any
      (fun s => s.queue.dequeIds = ["a","b"]) = true)
  have hdq : s.queue.dequeIds = ["a","b"] := by simpa using hq
  have hr : Reachable minuteTtl s := ⟨0,execute_run hs⟩
  have hloop := (claim_loop_terminates hr).2.2.2 (workerKey 1) (fun _ => 0)
  rw [hdq] at hloop
  exact ⟨s,hr,hdq,hloop⟩

end PirateServer.TaskQueue
