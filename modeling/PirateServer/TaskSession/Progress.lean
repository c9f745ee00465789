import PirateServer.TaskSession.Machine

/-! Worker and server take turns: as long as the server can send, either nothing is in flight and
the worker is not waiting, or exactly one request or its answer is under way. The server breaks
the turn when it answers a status update or a part with an error message, which
`discard_until_ack_rx` skips. -/
namespace PirateServer.TaskSession
open Lib TaskQueue

/-- Both streams are open and empty, and each side awaits a message of the other. -/
def Sys.deadlocked (s : Sys) : Bool :=
  s.downOpen && s.up = [] && s.down = [] && s.worker.waits && s.server = .recv

def keepsQueue (s : Sys) : Label → Bool
  | .serve =>
    match s.server with
    | .lookup (.statusUpdate _ _ _) | .lookup (.completePart _) =>
      s.downOpen = false || s.current.isSome
    | _ => true
  | _ => true

namespace WorkerPc

/-- The worker awaits the answer to the message. -/
inductive Asks : WorkerPc → ClientMsg → Prop
  | claim {waitMs} : Asks awaitClaim (.claimPull waitMs)
  | status {env rid detail pct} : Asks (awaitStatus env) (.statusUpdate rid detail pct)
  | part {rest p} : Asks (awaitPart rest) (.completePart p)

def accepts (w : WorkerPc) (m : ServerMsg) : Bool :=
  (w.receive (.item (.msg m))).any (fun pc => pc.waits = false)

variable {args : Args} {w pc : WorkerPc}

lemma send_spec {m : ClientMsg} (h : w.send args = some (m,pc)) : w.waits = false ∧ pc.Asks m := by
  cases w with
  | claim => cases h; exact ⟨rfl,.claim⟩
  | status env => cases h; exact ⟨rfl,.status⟩
  | part pump p rest => cases h; exact ⟨rfl,.part⟩
  | _ => cases h

lemma Asks.waits {m : ClientMsg} (h : w.Asks m) : w.waits = true := by
  cases h <;> rfl

lemma waits_of_receive {r : Received} (h : w.receive r = some pc) : w.waits = true := by
  cases w <;> simp_all [receive,waits]

lemma waits_of_accepts {m : ServerMsg} (h : w.accepts m = true) : w.waits = true := by
  obtain ⟨pc,hpc,_⟩ := (Option.any_eq_true _ _).mp h
  exact waits_of_receive hpc

lemma nextPart_waits (parts : List TaskComplete) : (nextPart parts).waits = false := by
  cases parts <;> rfl

lemma afterUpstream_waits (env : BusRequestEnvelope)
    (r : Except String (UInt16 × List BusKv × List UInt8)) :
    (afterUpstream env r).waits = false := by
  rcases r with e | ⟨code,headers,body⟩ <;> rfl

lemma awaitClaim_accepts (m : ServerMsg) : awaitClaim.accepts m = true := by
  cases m with
  | assigned envelope =>
    cases envelope with
    | none => rfl
    | some env =>
      simp only [accepts,receive,Option.any_some]
      split <;> rfl
  | ready ok | ack rid kind | error text | unset => rfl

lemma awaitStatus_accepts (env : BusRequestEnvelope) (rid kind : String) :
    (awaitStatus env).accepts (.ack rid kind) = true := rfl

lemma awaitPart_accepts (rest : List TaskComplete) (rid kind : String) :
    (awaitPart rest).accepts (.ack rid kind) = true := by
  simp [accepts,receive,discardUntilAck,nextPart_waits]

end WorkerPc

/-- The turns of the session while the server can send: where worker and server are, and what
is in flight from the worker and to it. -/
inductive Turn : WorkerPc → ServerPc → List ClientMsg → List Item → Prop
  | busy {w} (going : w.waits = false) : Turn w .recv [] []
  | asked {w m} (asks : w.Asks m) : Turn w .recv [m] []
  | looking {w m} (asks : w.Asks m) : Turn w (.lookup m) [] []
  | claiming {q d} : Turn .awaitClaim (.claiming q d) [] []
  | status {env q rid detail pct} : Turn (.awaitStatus env) (.status q rid detail pct) [] []
  | completing {rest q part} : Turn (.awaitPart rest) (.complete q part) [] []
  | answered {w m} (accepts : w.accepts m = true) : Turn w .recv [] [.msg m]

/-- The invariant of a session. -/
def Sys.InTurn (s : Sys) : Prop := s.downOpen = true → Turn s.worker s.server s.up s.down

lemma Sys.InTurn.not_deadlocked {s : Sys} (h : s.InTurn) : s.deadlocked = false := by
  by_contra hd
  simp only [Sys.deadlocked,Bool.not_eq_false,Bool.and_eq_true,decide_eq_true_eq] at hd
  obtain ⟨⟨⟨⟨ho,hup⟩,hdown⟩,hw⟩,hserver⟩ := hd
  have turn := h ho
  rw [hup,hdown,hserver] at turn
  generalize s.worker = w at turn hw
  cases turn with
  | busy going => rw [hw] at going; cases going

lemma Sys.work_cases {args : Args} {s t : Sys} (h : s.work args = some t) :
    (∃ m pc, s.worker.send args = some (m,pc) ∧ t = { s with up := s.up ++ [m], worker := pc }) ∨
    (∃ i rest pc, s.down = i::rest ∧ s.worker.receive (.item i) = some pc ∧
      t = { s with down := rest, worker := pc }) ∨
    (∃ pc, s.down = [] ∧ s.downOpen = false ∧ s.worker.receive .closed = some pc ∧
      t = { s with worker := pc }) := by
  unfold Sys.work at h
  split at h
  · rename_i m pc hsend
    exact .inl ⟨m,pc,hsend,(Option.some.inj h).symm⟩
  split at h
  swap
  · cases h
  obtain ⟨r,hr,h⟩ := Option.bind_eq_some_iff.mp h
  obtain ⟨pc,hpc,rfl⟩ := Option.map_eq_some_iff.mp h
  unfold Sys.message at hr
  split at hr
  · rename_i i rest hdown
    cases hr
    exact .inr (.inl ⟨i,rest,pc,hdown,hpc,rfl⟩)
  · split at hr
    · cases hr
    · rename_i hdown hclosed
      cases hr
      exact .inr (.inr ⟨pc,hdown,by simpa using hclosed,hpc,rfl⟩)

variable {args : Args} {key : PubKey} {s t : Sys}

lemma Sys.InTurn.work (hi : s.InTurn) (h : s.work args = some t) : t.InTurn := by
  intro ho
  rcases Sys.work_cases h with ⟨m,pc,hsend,rfl⟩ | ⟨i,rest,pc,hdown,hrec,rfl⟩ | ⟨pc,_,hclosed,_,rfl⟩
  · obtain ⟨hgo,hasks⟩ := WorkerPc.send_spec hsend
    have turn := hi ho
    dsimp only
    generalize s.worker = w at turn hgo
    generalize s.server = v at turn ⊢
    generalize s.up = up at turn ⊢
    generalize s.down = down at turn ⊢
    cases turn with
    | busy going => exact .asked hasks
    | asked asks | looking asks => rw [asks.waits] at hgo; cases hgo
    | claiming | status | completing => cases hgo
    | answered accepts => rw [WorkerPc.waits_of_accepts accepts] at hgo; cases hgo
  · have turn := hi ho
    rw [hdown] at turn
    dsimp only
    generalize s.worker = w at turn hrec
    generalize s.server = v at turn ⊢
    generalize s.up = up at turn ⊢
    cases turn with
    | answered accepts =>
      obtain ⟨pc',hpc',hgo⟩ := (Option.any_eq_true _ _).mp accepts
      cases hrec.symm.trans hpc'
      exact .busy (by simpa using hgo)
  · have hopen : s.downOpen = true := ho
    rw [hclosed] at hopen
    cases hopen

lemma Sys.InTurn.reply {m : ServerMsg} (hdown : s.down = []) (hup : s.up = [])
    (ha : s.worker.accepts m = true) : (s.reply m).InTurn := by
  intro ho
  have hopen : s.downOpen = true := ho
  simp only [Sys.reply,hopen,hdown,hup,if_true,List.nil_append]
  exact .answered ha

lemma Sys.InTurn.of_closed (h : s.downOpen = false) : s.InTurn := by
  intro ho
  rw [h] at ho
  cases ho

lemma Sys.InTurn.answerClaim {r : Except Status BusRequestEnvelope} (hdown : s.down = [])
    (hup : s.up = []) (hw : s.worker = .awaitClaim) : (s.answerClaim r).InTurn := by
  have ha : ∀ m, s.worker.accepts m = true := fun m => hw ▸ WorkerPc.awaitClaim_accepts m
  cases r with
  | ok env => exact .reply hdown hup (ha _)
  | error status =>
    simp only [Sys.answerClaim]
    split
    · exact .reply hdown hup (ha _)
    · exact .of_closed rfl

lemma Sys.serve_closed (hc : s.downOpen = false) (h : s.serve key = some t) :
    t.downOpen = false := by
  unfold Sys.serve at h
  split at h
  · split at h
    · rename_i m rest _
      cases h
      cases m <;> exact hc
    · split at h <;> cases h
      rfl
  · split at h <;> cases h <;> exact hc
  · obtain ⟨c,_,h⟩ := Option.bind_eq_some_iff.mp h
    simp only [Sys.claimOne] at h
    split at h
    · cases h
    · split at h <;> cases h <;> exact hc
  · obtain ⟨c,_,rfl⟩ := Option.map_eq_some_iff.mp h
    simp only [Sys.answerStatus]
    split
    · exact hc
    · rfl
  · obtain ⟨c,_,rfl⟩ := Option.map_eq_some_iff.mp h
    simp only [Sys.answerComplete]
    split
    · exact hc
    · rfl
  · cases h

lemma Sys.InTurn.serve_idle (hserver : s.server = .recv) (hup : s.up = [])
    (h : s.serve key = some t) : t.InTurn := by
  simp only [Sys.serve,hserver,hup] at h
  split at h <;> cases h
  exact .of_closed rfl

lemma Sys.InTurn.serve_lookup {m : ClientMsg} (hserver : s.server = .lookup m) (hup : s.up = [])
    (hdown : s.down = []) (asks : s.worker.Asks m) (hk : keepsQueue s .serve = true)
    (hopen : s.downOpen = true) (h : s.serve key = some t) : t.InTurn := by
  simp only [keepsQueue,hserver,hopen] at hk
  simp only [Sys.serve,hserver] at h
  generalize hw : s.worker = w at asks
  split at h
  · rename_i hnone
    cases h
    cases asks with
    | claim =>
      -- only a `ClaimPull` may find no queue, and the worker takes the error as its answer
      exact .reply hdown hup (hw ▸ WorkerPc.awaitClaim_accepts _)
    | status | part => simp [hnone] at hk
  · cases h
    intro _
    simp only [hup,hdown,hw]
    cases asks with
    | claim => exact .claiming
    | status => exact .status
    | part => exact .completing

lemma Sys.InTurn.serve (hi : s.InTurn) (hk : keepsQueue s .serve = true)
    (h : s.serve key = some t) : t.InTurn := by
  by_cases hopen : s.downOpen = true
  swap
  · exact .of_closed (Sys.serve_closed (by simpa using hopen) h)
  have turn := hi hopen
  generalize hw : s.worker = w at turn
  generalize hserver : s.server = v at turn
  generalize hup : s.up = up at turn
  generalize hdown : s.down = down at turn
  cases turn with
  | busy going | answered accepts => exact .serve_idle hserver hup h
  | asked asks =>
    simp only [Sys.serve,hserver,hup] at h
    cases h
    intro _
    cases asks <;> simp only [Sys.dispatch,hw,hdown]
    · exact .looking .claim
    · exact .looking .status
    · exact .looking .part
  | looking asks => exact .serve_lookup hserver hup hdown (hw ▸ asks) hk hopen h
  | claiming =>
    simp only [Sys.serve,hserver] at h
    obtain ⟨c,_,h⟩ := Option.bind_eq_some_iff.mp h
    simp only [Sys.claimOne] at h
    split at h
    · cases h
    · split at h <;> cases h
      · exact .answerClaim hdown hup hw
      · exact fun _ => by simpa only [Sys.setQueue,hw,hserver,hup,hdown] using .claiming
      · exact fun _ => by simpa only [Sys.setQueue,hw,hserver,hup,hdown] using .claiming
  | status =>
    simp only [Sys.serve,hserver] at h
    obtain ⟨c,_,rfl⟩ := Option.map_eq_some_iff.mp h
    simp only [Sys.answerStatus]
    split
    · exact .reply hdown hup (by rw [Sys.setQueue,hw]; exact WorkerPc.awaitStatus_accepts _ _ _)
    · exact .of_closed rfl
  | completing =>
    simp only [Sys.serve,hserver] at h
    obtain ⟨c,_,rfl⟩ := Option.map_eq_some_iff.mp h
    simp only [Sys.answerComplete]
    split
    · exact .reply hdown hup (by rw [Sys.setQueue,hw]; exact WorkerPc.awaitPart_accepts _ _ _)
    · exact .of_closed rfl

lemma Sys.InTurn.step {l : Label} (hi : s.InTurn) (hk : keepsQueue s l = true)
    (h : step args key s l = some t) : t.InTurn := by
  cases l with
  | tick d | remove => cases h; exact hi
  | create cfg =>
    simp only [TaskSession.step] at h
    split at h <;> cases h
    exact hi
  | others q queue =>
    obtain ⟨c,_,rfl⟩ := Option.map_eq_some_iff.mp h
    exact hi
  | work => exact hi.work h
  | closed =>
    simp only [TaskSession.step] at h
    split at h
    swap
    · cases h
    rename_i hended
    obtain ⟨pc,_,rfl⟩ := Option.map_eq_some_iff.mp h
    intro ho
    have turn := hi ho
    rw [hended] at turn
    generalize s.worker = w at turn
    generalize s.up = up at turn
    generalize s.down = down at turn
    cases turn
  | upstream result =>
    simp only [TaskSession.step] at h
    split at h
    swap
    · cases h
    rename_i env hpc
    cases h
    intro ho
    have turn := hi ho
    rw [hpc] at turn
    dsimp only
    generalize s.server = v at turn ⊢
    generalize s.up = up at turn ⊢
    generalize s.down = down at turn ⊢
    cases turn with
    | busy _ => exact .busy (WorkerPc.afterUpstream_waits env result)
    | asked asks | looking asks => cases asks
    | answered accepts => cases WorkerPc.waits_of_accepts accepts
  | serve => exact hi.serve hk h
  | timeout =>
    simp only [TaskSession.step] at h
    split at h
    swap
    · cases h
    rename_i q deadline hserver
    split at h <;> cases h
    by_cases hopen : s.downOpen = true
    · have turn := hi hopen
      rw [hserver] at turn
      generalize hw : s.worker = w at turn
      generalize hup : s.up = up at turn
      generalize hdown : s.down = down at turn
      cases turn
      exact .answerClaim hdown hup hw
    · exact .of_closed (show s.downOpen = false by simpa using hopen)

/-- In a session in which the server never misses the queue of a status update or of a part,
worker and server never wait for each other on two open and empty streams. -/
theorem session_keeps_moving {args : Args} {key : PubKey} {s : Sys}
    (h : ReachableBy args key (fun u l => keepsQueue u l = true) s) : s.deadlocked = false := by
  obtain ⟨clock,queues,current,hr⟩ := h
  refine Sys.InTurn.not_deadlocked (hr.invariant (I := Sys.InTurn) ?_ ?_)
  · intro u l v hi hk hs
    exact hi.step hk hs
  · exact fun _ => .answered rfl

lemma WorkerPc.waits_stays (args : Args) {w : WorkerPc} (h : w.waits = true) : w.send args = none ∧
    w.sendClosed = none ∧ ∀ env, w ≠ .upstream env := by
  cases w <;> simp_all [WorkerPc.waits,WorkerPc.send,WorkerPc.sendClosed]

lemma Sys.deadlocked_step {l : Label} (hd : s.deadlocked = true)
    (h : step args key s l = some t) : t.deadlocked = true := by
  have hd' := hd
  simp only [Sys.deadlocked,Bool.and_eq_true,decide_eq_true_eq] at hd'
  obtain ⟨⟨⟨⟨ho,hup⟩,hdown⟩,hw⟩,hserver⟩ := hd'
  obtain ⟨hsend,hclosed,hupstream⟩ := WorkerPc.waits_stays args hw
  cases l with
  | tick d | remove => cases h; exact hd
  | create cfg =>
    simp only [step] at h
    split at h <;> cases h
    exact hd
  | others q queue =>
    obtain ⟨c,_,rfl⟩ := Option.map_eq_some_iff.mp h
    exact hd
  | work => simp [step,Sys.work,hsend,Sys.message,hdown,ho] at h
  | closed => simp [step,hclosed] at h
  | upstream result =>
    simp only [step] at h
    cases h
  | serve =>
    have hgo : s.worker.hasEnded = false := by
      generalize s.worker = w at hw
      cases w <;> simp_all [WorkerPc.waits,WorkerPc.hasEnded]
    simp [step,Sys.serve,hserver,hup,hgo] at h
  | timeout => simp [step,hserver] at h

/-- A listener whose queue holds the one task `a`, and a worker that serves it. -/
def oneTask : Sys :=
  let env := (Submit.ofId "a").envelope
  Sys.init 0 [(minuteTtl,⟨["a"],AList.insert "a" (newEntry minuteTtl "a" env 0 0) ∅⟩)] (some 0)

def localArgs : Args := ⟨25000,"127.0.0.1",8080⟩

def claimTask : List Label :=
  [.work,.work,.serve,.serve,.serve,.work,.work]

theorem session_keeps_moving_task : ∃ s, ReachableBy localArgs (workerKey 1)
      (fun u l => keepsQueue u l = true) s ∧ s.worker = .awaitClaim ∧ s.current = none ∧
      s.down = [.msg (.error "no task queue for profile")] ∧ s.deadlocked = false := by
  obtain ⟨s,hs,hp⟩ := (Option.any_eq_true _ _).mp (show (execute (step localArgs (workerKey 1))
    (fun u l => keepsQueue u l = true) (claimTask ++ [.serve,.serve,.serve,.work,
      .upstream (.ok (204,[],[])),.work,.serve,.serve,.serve,.work,.work,.serve,.serve,.serve,.work,
      .remove,.work,.serve,.serve]) oneTask).any
        (fun s => s.worker = .awaitClaim ∧ s.current = none ∧
      s.down = [.msg (.error "no task queue for profile")]) = true by decide +kernel)
  obtain ⟨hw,hc,hd⟩ := of_decide_eq_true hp
  have hr : ReachableBy localArgs (workerKey 1) (fun u l => keepsQueue u l = true) s :=
    ⟨_,_,_,execute_run hs⟩
  exact ⟨s,hr,hw,hc,hd,session_keeps_moving hr⟩

/-- The listener is switched to another mode after the worker has claimed the task: the server
answers the status update with an error message, the worker skips it, and from then on both
sides wait, whatever happens to the queue. -/
theorem session_deadlocks : ∃ s, Reachable localArgs (workerKey 1) s ∧ s.deadlocked = true ∧
    ∀ t, Run (step localArgs (workerKey 1)) anyStep s t → t.deadlocked = true := by
  obtain ⟨s,hs,hp⟩ := (Option.any_eq_true _ _).mp (show (execute (step localArgs (workerKey 1))
    anyStep (claimTask ++ [.remove,.serve,.serve,.work]) oneTask).any (fun s => s.deadlocked) = true
      by decide +kernel)
  exact ⟨s,⟨_,_,_,execute_run hs⟩,hp,fun t ht => ht.invariant
    (I := fun u => u.deadlocked = true) (fun _ _ _ hd _ hs => Sys.deadlocked_step hd hs) hp⟩

end PirateServer.TaskSession
