import PirateServer.Lib.Census
import PirateServer.Lib.Run

/-! `TunnelAdmission` of the deploy server: a counter of open tunnels, a list of waiters, and any
number of callers of `acquire`, each followed to the end of its guard's `release_slot`. One step is
one access to an atomic, one section under the mutex of `waiters`, or one passage of an await point.
An `acquire` that is dropped at an await point runs no further code of its own. -/
namespace PirateServer.Admission
open Lib

/-- The arguments of `acquire` that matter: whether there is a registry to await and a
timeout. The tunnel id, `Uuid::new_v4()`, is the index of the caller. -/
structure Call where
  priority : Int32
  redis : Bool
  timed : Bool
  deriving DecidableEq, Repr

/-- An entry of `waiters`; `notify` names the `Notify` made for it. -/
structure Waiter where
  priority : Int32
  enqueueMs : ℕ
  id : ℕ
  notify : ℕ
  deriving DecidableEq, Repr

/-- Not greater in the order of `release_slot`: priority first, then the earlier entry. -/
def Waiter.le (a b : Waiter) : Bool :=
  a.priority < b.priority || (a.priority = b.priority && b.enqueueMs ≤ a.enqueueMs)

/-- `max_by` from the entry `w` at index `i` on: of equal entries the last one wins. -/
def bestFrom (i : ℕ) (w : Waiter) (next : ℕ) : List Waiter → ℕ
  | [] => i
  | x::xs => if w.le x then bestFrom next x (next + 1) xs else bestFrom i w (next + 1) xs

/-- The index of the waiter that `release_slot` removes. -/
def best : List Waiter → Option ℕ
  | [] => none
  | w::ws => some (bestFrom 0 w 1 ws)

inductive Outcome
  | refused (message : String)
  | released
  | dropped
  deriving DecidableEq, Repr

def waitTimeoutMessage : String :=
  "tunnel admission wait timeout (DEPLOY_PROXY_TUNNEL_WAIT_TIMEOUT_SEC)"

/-- Program points. `permit` says whether `notify_one` has reached the caller's `Notify`. -/
inductive Pc
  | tryTake
  | cas (cur : ℕ)
  | full
  | push
  | pushed (notify : ℕ) (permit : Bool)
  | waiting (notify : ℕ) (permit : Bool)
  | woken
  | timedOut
  | removed
  | taken
  | guard
  | releasePop
  | releaseNotify (notify : ℕ)
  | done (outcome : Outcome)
  deriving DecidableEq, Repr

namespace Pc

def holdsSlot : Pc → Bool
  | taken | guard => true
  | _ => false

/-- Between the two updates of `tunnel_waiters_current`. -/
def waits : Pc → Bool
  | push | pushed .. | waiting .. | woken | timedOut | removed => true
  | _ => false

/-- The `Notify` that has to be notified before the caller can go on. -/
def waitsFor : Pc → Option ℕ
  | pushed n false | waiting n false => some n
  | _ => none

/-- No step of `acquire` or `release_slot` is pending. -/
def settled : Pc → Bool
  | waiting _ false | guard | done _ => true
  | _ => false

/-- The caller's `Notify` gets its permit if it is the one named `n`. -/
def grant (n : ℕ) : Pc → Pc
  | pushed k p => pushed k (p || k = n)
  | waiting k p => waiting k (p || k = n)
  | p => p

/-- A slot that was given back, or a caller on its way to test for one: each of them makes up
for one slot that is not in use. -/
def wakeup : Pc → ℕ
  | tryTake | cas _ | pushed _ true | waiting _ true | woken | releasePop | releaseNotify _ => 1
  | _ => 0

end Pc

structure Thread where
  call : Call
  pc : Pc
  deriving DecidableEq, Repr

/-- `dropped` is a ghost: how many callers were dropped while `tunnel_waiters_current` counted
them. The next `Notify` gets the name `nextNotify`. -/
structure Sys where
  active : ℕ
  waiters : List Waiter
  waitersCurrent : ℕ
  waitEnqueueTotal : ℕ
  waitTimeoutTotal : ℕ
  nextNotify : ℕ
  threads : List Thread
  dropped : ℕ
  deriving DecidableEq, Repr

def Sys.init : Sys := ⟨0,[],0,0,0,0,[],0⟩

/-- `fetch_sub(1)` on a 64-bit atomic, which wraps. -/
def fetchSub (n : ℕ) : ℕ := if n = 0 then 2 ^ 64 - 1 else n - 1

/-- A new call of `acquire`, a step of a caller, its timer, its drop, the drop of its guard.
A step may read `enqueue_ms` and may see `compare_exchange_weak` fail for no reason. -/
inductive Label
  | call (c : Call)
  | exec (t : ℕ) (ms : ℕ) (spurious : Bool)
  | expire (t : ℕ)
  | cancel (t : ℕ)
  | drop (t : ℕ)
  deriving DecidableEq, Repr

namespace Sys

def goto (s : Sys) (t : ℕ) (th : Thread) (pc : Pc) : Sys :=
  { s with threads := s.threads.set t { th with pc := pc } }

/-- `notify_one` on the `Notify` named `n`. -/
def notifyOne (s : Sys) (n : ℕ) : Sys :=
  { s with threads := s.threads.map (fun u => { u with pc := u.pc.grant n }) }

/-- `acquire` and `release_slot` from one program point to the next. -/
def advance (max : Option ℕ) (ms : ℕ) (spurious : Bool) (s : Sys) (t : ℕ) (th : Thread) :
    Option Sys :=
  match th.pc with
  | .tryTake =>
    match max with
    | none => some { s.goto t th .taken with active := s.active + 1 }
    | some m => some (s.goto t th (if m ≤ s.active then .full else .cas s.active))
  | .cas cur =>
    if s.active = cur ∧ spurious = false then
      some { s.goto t th .taken with active := cur + 1 }
    else some (s.goto t th .tryTake)
  | .full =>
    match max with
    | none => some { s.goto t th .taken with active := s.active + 1 }
    | some _ =>
      some { s.goto t th .push with
        waitersCurrent := s.waitersCurrent + 1
        waitEnqueueTotal := s.waitEnqueueTotal + 1 }
  | .push =>
    some { s.goto t th (.pushed s.nextNotify false) with
      waiters := s.waiters ++ [⟨th.call.priority,ms,t,s.nextNotify⟩]
      nextNotify := s.nextNotify + 1 }
  | .pushed n permit => some (s.goto t th (.waiting n permit))
  | .waiting _ true => some (s.goto t th .woken)
  | .waiting _ false => none
  | .woken => some { s.goto t th .tryTake with waitersCurrent := fetchSub s.waitersCurrent }
  | .timedOut =>
    some { s.goto t th .removed with waiters := s.waiters.filter (fun w => w.id ≠ t) }
  | .removed =>
    some { s.goto t th (.done (.refused waitTimeoutMessage)) with
      waitersCurrent := fetchSub s.waitersCurrent
      waitTimeoutTotal := s.waitTimeoutTotal + 1 }
  | .taken => some (s.goto t th .guard)
  | .guard => none
  | .releasePop =>
    match (best s.waiters).bind (fun i => (s.waiters[i]?).map (fun w => (i,w))) with
    | none => some (s.goto t th (.done .released))
    | some (i,w) =>
      some { s.goto t th (.releaseNotify w.notify) with waiters := s.waiters.eraseIdx i }
  | .releaseNotify n => some ((s.goto t th (.done .released)).notifyOne n)
  | .done _ => none

end Sys

/-- The await points at which an `acquire` can be dropped. -/
def Thread.cancellable (th : Thread) : Bool :=
  match th.pc with
  | .waiting .. => true
  | .pushed .. | .woken | .timedOut => th.call.redis
  | _ => false

def Thread.canExpire (th : Thread) : Bool :=
  match th.pc with
  | .waiting _ false => th.call.timed
  | _ => false

def step (max : Option ℕ) (s : Sys) : Label → Option Sys
  | .call c => some { s with threads := s.threads ++ [⟨c,.tryTake⟩] }
  | .exec t ms spurious => (s.threads[t]?).bind (s.advance max ms spurious t)
  | .expire t =>
    (s.threads[t]?).bind (fun th => if th.canExpire then some (s.goto t th .timedOut) else none)
  | .cancel t =>
    (s.threads[t]?).bind (fun th =>
      if th.cancellable then
        some { s.goto t th (.done .dropped) with dropped := s.dropped + 1 }
      else none)
  | .drop t =>
    (s.threads[t]?).bind (fun th =>
      if th.pc = .guard then
        some { s.goto t th .releasePop with active := fetchSub s.active }
      else none)

/-- States that the callers can reach when every step meets `ok`. -/
def ReachableBy (max : Option ℕ) (ok : Sys → Label → Prop) (s : Sys) : Prop :=
  Run (step max) ok Sys.init s

def Reachable (max : Option ℕ) (s : Sys) : Prop := ReachableBy max anyStep s

/-- Everything that a step can do, with what the caller has seen. -/
inductive Move (max : Option ℕ) (s : Sys) : Label → Sys → Prop
  | call {c} : Move max s (.call c) { s with threads := s.threads ++ [⟨c,.tryTake⟩] }
  | takeUnlimited {t ms sp th} (at_t : s.threads[t]? = some th) (pc : th.pc = .tryTake)
      (unlimited : max = none) :
      Move max s (.exec t ms sp) { s.goto t th .taken with active := s.active + 1 }
  | busy {t ms sp th m} (at_t : s.threads[t]? = some th) (pc : th.pc = .tryTake)
      (limit : max = some m) (none_free : m ≤ s.active) :
      Move max s (.exec t ms sp) (s.goto t th .full)
  | load {t ms sp th m} (at_t : s.threads[t]? = some th) (pc : th.pc = .tryTake)
      (limit : max = some m) (free : s.active < m) :
      Move max s (.exec t ms sp) (s.goto t th (.cas s.active))
  | take {t ms sp th} (at_t : s.threads[t]? = some th) (pc : th.pc = .cas s.active) :
      Move max s (.exec t ms sp) { s.goto t th .taken with active := s.active + 1 }
  | casFail {t ms sp th cur} (at_t : s.threads[t]? = some th) (pc : th.pc = .cas cur) :
      Move max s (.exec t ms sp) (s.goto t th .tryTake)
  | fullUnlimited {t ms sp th} (at_t : s.threads[t]? = some th) (pc : th.pc = .full)
      (unlimited : max = none) :
      Move max s (.exec t ms sp) { s.goto t th .taken with active := s.active + 1 }
  | count {t ms sp th} (at_t : s.threads[t]? = some th) (pc : th.pc = .full) :
      Move max s (.exec t ms sp) { s.goto t th .push with
        waitersCurrent := s.waitersCurrent + 1
        waitEnqueueTotal := s.waitEnqueueTotal + 1 }
  | push {t ms sp th} (at_t : s.threads[t]? = some th) (pc : th.pc = .push) :
      Move max s (.exec t ms sp) { s.goto t th (.pushed s.nextNotify false) with
        waiters := s.waiters ++ [⟨th.call.priority,ms,t,s.nextNotify⟩]
        nextNotify := s.nextNotify + 1 }
  | await {t ms sp th n p} (at_t : s.threads[t]? = some th) (pc : th.pc = .pushed n p) :
      Move max s (.exec t ms sp) (s.goto t th (.waiting n p))
  | wake {t ms sp th n} (at_t : s.threads[t]? = some th) (pc : th.pc = .waiting n true) :
      Move max s (.exec t ms sp) (s.goto t th .woken)
  | retry {t ms sp th} (at_t : s.threads[t]? = some th) (pc : th.pc = .woken) :
      Move max s (.exec t ms sp)
        { s.goto t th .tryTake with waitersCurrent := fetchSub s.waitersCurrent }
  | remove {t ms sp th} (at_t : s.threads[t]? = some th) (pc : th.pc = .timedOut) :
      Move max s (.exec t ms sp)
        { s.goto t th .removed with waiters := s.waiters.filter (fun w => w.id ≠ t) }
  | refuse {t ms sp th} (at_t : s.threads[t]? = some th) (pc : th.pc = .removed) :
      Move max s (.exec t ms sp) { s.goto t th (.done (.refused waitTimeoutMessage)) with
        waitersCurrent := fetchSub s.waitersCurrent
        waitTimeoutTotal := s.waitTimeoutTotal + 1 }
  | receive {t ms sp th} (at_t : s.threads[t]? = some th) (pc : th.pc = .taken) :
      Move max s (.exec t ms sp) (s.goto t th .guard)
  | popNone {t ms sp th} (at_t : s.threads[t]? = some th) (pc : th.pc = .releasePop)
      (empty : s.waiters = []) : Move max s (.exec t ms sp) (s.goto t th (.done .released))
  | pop {t ms sp th i w} (at_t : s.threads[t]? = some th) (pc : th.pc = .releasePop)
      (entry : s.waiters[i]? = some w) (picked : best s.waiters = some i) :
      Move max s (.exec t ms sp)
        { s.goto t th (.releaseNotify w.notify) with waiters := s.waiters.eraseIdx i }
  | notify {t ms sp th n} (at_t : s.threads[t]? = some th) (pc : th.pc = .releaseNotify n) :
      Move max s (.exec t ms sp) ((s.goto t th (.done .released)).notifyOne n)
  | expire {t th n} (at_t : s.threads[t]? = some th) (pc : th.pc = .waiting n false) :
      Move max s (.expire t) (s.goto t th .timedOut)
  | cancel {t th} (at_t : s.threads[t]? = some th) (awaits : th.cancellable = true) :
      Move max s (.cancel t) { s.goto t th (.done .dropped) with dropped := s.dropped + 1 }
  | drop {t th} (at_t : s.threads[t]? = some th) (pc : th.pc = .guard) :
      Move max s (.drop t) { s.goto t th .releasePop with active := fetchSub s.active }

variable {ws : List Waiter}

lemma bestFrom_lt {i next : ℕ} {w : Waiter} (h : i < next) :
    bestFrom i w next ws < next + ws.length := by
  induction ws generalizing i w next with
  | nil => exact h
  | cons x xs ih =>
    simp only [bestFrom,List.length_cons]
    split
    · have hx := ih (w := x) (show next < next + 1 by omega)
      omega
    · have hx := ih (w := w) (show i < next + 1 by omega)
      omega

lemma best_eq_none
    (h : (best ws).bind (fun i => (ws[i]?).map (fun w => (i,w))) = none) : ws = [] := by
  cases ws with
  | nil => rfl
  | cons w ws =>
    have hlt : bestFrom 0 w 1 ws < (w::ws).length := by
      have hb : bestFrom 0 w 1 ws < 1 + ws.length := bestFrom_lt Nat.zero_lt_one
      simp only [List.length_cons]
      omega
    simp [best,List.getElem?_eq_getElem hlt] at h

variable {max : Option ℕ}

lemma advance_move {ms : ℕ} {sp : Bool} {s s' : Sys} {t : ℕ} {th : Thread}
    (ht : s.threads[t]? = some th) (h : s.advance max ms sp t th = some s') :
    Move max s (.exec t ms sp) s' := by
  unfold Sys.advance at h
  split at h
  · rename_i hpc
    split at h
    · cases h; exact .takeUnlimited ht hpc rfl
    · rename_i m
      split at h
      · cases h; exact .busy ht hpc rfl ‹_›
      · cases h; exact .load ht hpc rfl (by omega)
  · rename_i cur hpc
    split at h
    · rename_i hc
      obtain ⟨rfl,_⟩ := hc
      cases h
      exact .take ht hpc
    · cases h; exact .casFail ht hpc
  · rename_i hpc
    split at h
    · cases h; exact .fullUnlimited ht hpc rfl
    · cases h; exact .count ht hpc
  · cases h; exact .push ht ‹_›
  · cases h; exact .await ht ‹_›
  · cases h; exact .wake ht ‹_›
  · cases h
  · cases h; exact .retry ht ‹_›
  · cases h; exact .remove ht ‹_›
  · cases h; exact .refuse ht ‹_›
  · cases h; exact .receive ht ‹_›
  · cases h
  · rename_i hpc
    split at h
    · cases h; exact .popNone ht hpc (best_eq_none ‹_›)
    rename_i i w hb
    cases h
    obtain ⟨j,hj,hw⟩ := Option.bind_eq_some_iff.mp hb
    obtain ⟨w',hw',he⟩ := Option.map_eq_some_iff.mp hw
    cases he
    exact .pop ht hpc hw' hj
  · cases h; exact .notify ht ‹_›
  · cases h

/-- The list above is complete. -/
theorem step_move {s s' : Sys} {a : Label} (h : step max s a = some s') : Move max s a s' := by
  cases a with
  | call c => cases h; exact .call
  | exec t ms sp =>
    obtain ⟨th,ht,h⟩ := Option.bind_eq_some_iff.mp h
    exact advance_move ht h
  | expire t =>
    obtain ⟨th,ht,h⟩ := Option.bind_eq_some_iff.mp h
    split at h
    · rename_i he
      cases h
      unfold Thread.canExpire at he
      split at he
      · exact .expire ht ‹_›
      · cases he
    · cases h
  | cancel t =>
    obtain ⟨th,ht,h⟩ := Option.bind_eq_some_iff.mp h
    split at h
    · cases h; exact .cancel ht ‹_›
    · cases h
  | drop t =>
    obtain ⟨th,ht,h⟩ := Option.bind_eq_some_iff.mp h
    split at h
    · cases h; exact .drop ht ‹_›
    · cases h

/-! Schedules from which runs are put together. -/

/-- The next `k` steps of one caller. -/
def steps (t k : ℕ) : List Label := List.replicate k (.exec t 0 false)

def plainCall : Call := ⟨0,false,true⟩

def holdOne : List Label := .call plainCall::steps 0 3

def waitNext (t : ℕ) : List Label := .call plainCall::steps t 4

end PirateServer.Admission
