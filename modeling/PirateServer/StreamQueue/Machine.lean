import PirateServer.Lib.Census
import PirateServer.Lib.Run

/-! `StreamQueue` of the tunnel listener: accepted public sockets wait for a connector.
`try_enqueue` and `dequeue` calls run side by side; one step is one section under the mutex, one
reading of the clock, the creation of a `Notified` future, or `notify_waiters`. A ghost log records
which sockets left the queue, and how. -/
namespace PirateServer.StreamQueue
open Lib

structure Config where
  cap : ℕ
  offerTtl : ℕ
  deriving DecidableEq, Repr

/-- An entry of the queue: the socket and the instant at which it was accepted. -/
structure Pending where
  stream : ℕ
  enqueued : ℕ
  deriving DecidableEq, Repr

/-- How a socket left the queue; `pruned` records the instant. -/
inductive Fate
  | delivered
  | pruned (at_clock : ℕ)
  deriving DecidableEq, Repr

/-- `now.duration_since(front.enqueued) > ttl`, which is 0 for a later instant. -/
def Pending.older (ttl now : ℕ) (p : Pending) : Bool := ttl < now - p.enqueued

/-- Program points of `try_enqueue` and of `dequeue`; the latter has a deadline. A `Notified`
future remembers how many calls of `notify_waiters` it has seen. -/
inductive Pc
  | offerStart
  | offerPrune (now : ℕ)
  | offerPush
  | offerCount
  | offerNotify
  | offered (accepted : Bool)
  | pullStart (deadline : ℕ)
  | pullPrune (deadline : ℕ) (now : ℕ)
  | pullPop (deadline : ℕ)
  | pullRegister (deadline : ℕ)
  | pullWait (deadline : ℕ) (seen : ℕ)
  | pulled (result : Option ℕ)
  deriving DecidableEq, Repr

namespace Pc

/-- The socket has been accepted and `notify_waiters` is still to come. -/
def notifies : Pc → Bool
  | offerCount | offerNotify => true
  | _ => false

def hasAccepted : Pc → Bool
  | offerCount | offerNotify | offered true => true
  | _ => false

def blocked (calls : ℕ) : Pc → Bool
  | pullWait _ seen => calls ≤ seen
  | _ => false

end Pc

/-- The state of one queue. The counters of `GlobalStats` are shared by all queues and left out:
nothing here reads them. -/
structure Sys where
  clock : ℕ
  inner : List Pending
  notifyCalls : ℕ
  threads : List Pc
  accepted : List ℕ
  log : List (Pending × Fate)
  deriving DecidableEq, Repr

def Sys.init (clock : ℕ) : Sys := ⟨clock,[],0,[],[],[]⟩

inductive Label
  | tick (d : ℕ)
  | offer
  | pull (wait : ℕ)
  | exec (t : ℕ)
  | timeout (t : ℕ)
  deriving DecidableEq, Repr

namespace Sys

def goto (s : Sys) (t : ℕ) (pc : Pc) : Sys := { s with threads := s.threads.set t pc }

/-- `prune_expired` under the mutex. -/
def prune (cfg : Config) (now : ℕ) (s : Sys) : Sys :=
  let old := s.inner.takeWhile (Pending.older cfg.offerTtl now)
  { s with
    inner := s.inner.dropWhile (Pending.older cfg.offerTtl now)
    log := s.log ++ old.map (fun p => (p,.pruned s.clock)) }

/-- `try_enqueue` and `dequeue` from one program point to the next. -/
def advance (cfg : Config) (s : Sys) (t : ℕ) : Pc → Option Sys
  | .offerStart => some (s.goto t (.offerPrune s.clock))
  | .offerPrune now => some ((s.goto t .offerPush).prune cfg now)
  | .offerPush =>
    if cfg.cap ≤ s.inner.length then
      some (s.goto t (.offered false))
    else
      some { s.goto t .offerCount with
        inner := s.inner ++ [⟨t,s.clock⟩]
        accepted := s.accepted ++ [t] }
  | .offerCount => some (s.goto t .offerNotify)
  | .offerNotify => some { s.goto t (.offered true) with notifyCalls := s.notifyCalls + 1 }
  | .offered _ => none
  | .pullStart d => some (s.goto t (.pullPrune d s.clock))
  | .pullPrune d now => some ((s.goto t (.pullPop d)).prune cfg now)
  | .pullPop d =>
    match s.inner with
    | [] => some (s.goto t (.pullRegister d))
    | p::rest =>
      some { s.goto t (.pulled (some p.stream)) with
        inner := rest
        log := s.log ++ [(p,.delivered)] }
  | .pullRegister d => some (s.goto t (.pullWait d s.notifyCalls))
  | .pullWait d seen => if seen < s.notifyCalls then some (s.goto t (.pullStart d)) else none
  | .pulled _ => none

end Sys

/-- The timer of `dequeue` is looked at only while the future inside is pending. -/
def step (cfg : Config) (s : Sys) : Label → Option Sys
  | .tick d => some { s with clock := s.clock + d }
  | .offer => some { s with threads := s.threads ++ [.offerStart] }
  | .pull wait => some { s with threads := s.threads ++ [.pullStart (s.clock + wait)] }
  | .exec t => (s.threads[t]?).bind (s.advance cfg t)
  | .timeout t =>
    match s.threads[t]? with
    | some (.pullWait d seen) =>
      if s.notifyCalls ≤ seen ∧ d ≤ s.clock then some (s.goto t (.pulled none)) else none
    | _ => none

def ReachableBy (cfg : Config) (ok : Sys → Label → Prop) (s : Sys) : Prop :=
  ∃ clock, Run (step cfg) ok (Sys.init clock) s

def Reachable (cfg : Config) (s : Sys) : Prop := ReachableBy cfg anyStep s

/-- Everything that a step can do, with what the call has seen. -/
inductive Move (cfg : Config) (s : Sys) : Label → Sys → Prop
  | tick {d} : Move cfg s (.tick d) { s with clock := s.clock + d }
  | offer : Move cfg s .offer { s with threads := s.threads ++ [.offerStart] }
  | pull {w} : Move cfg s (.pull w) { s with threads := s.threads ++ [.pullStart (s.clock + w)] }
  | offerClock {t} (at_t : s.threads[t]? = some .offerStart) :
      Move cfg s (.exec t) (s.goto t (.offerPrune s.clock))
  | offerPrune {t now} (at_t : s.threads[t]? = some (.offerPrune now)) :
      Move cfg s (.exec t) ((s.goto t .offerPush).prune cfg now)
  | refuse {t} (at_t : s.threads[t]? = some .offerPush) :
      Move cfg s (.exec t) (s.goto t (.offered false))
  | accept {t} (at_t : s.threads[t]? = some .offerPush) (room : s.inner.length < cfg.cap) :
      Move cfg s (.exec t) { s.goto t .offerCount with
        inner := s.inner ++ [⟨t,s.clock⟩]
        accepted := s.accepted ++ [t] }
  | count {t} (at_t : s.threads[t]? = some .offerCount) :
      Move cfg s (.exec t) (s.goto t .offerNotify)
  | notify {t} (at_t : s.threads[t]? = some .offerNotify) :
      Move cfg s (.exec t) { s.goto t (.offered true) with notifyCalls := s.notifyCalls + 1 }
  | pullClock {t d} (at_t : s.threads[t]? = some (.pullStart d)) :
      Move cfg s (.exec t) (s.goto t (.pullPrune d s.clock))
  | pullPrune {t d now} (at_t : s.threads[t]? = some (.pullPrune d now)) :
      Move cfg s (.exec t) ((s.goto t (.pullPop d)).prune cfg now)
  | popNone {t d} (at_t : s.threads[t]? = some (.pullPop d)) (empty : s.inner = []) :
      Move cfg s (.exec t) (s.goto t (.pullRegister d))
  | pop {t d p rest} (at_t : s.threads[t]? = some (.pullPop d)) (front : s.inner = p::rest) :
      Move cfg s (.exec t) { s.goto t (.pulled (some p.stream)) with
        inner := rest
        log := s.log ++ [(p,.delivered)] }
  | register {t d} (at_t : s.threads[t]? = some (.pullRegister d)) :
      Move cfg s (.exec t) (s.goto t (.pullWait d s.notifyCalls))
  | wake {t d seen} (at_t : s.threads[t]? = some (.pullWait d seen))
      (woken : seen < s.notifyCalls) : Move cfg s (.exec t) (s.goto t (.pullStart d))
  | timeout {t d seen} (at_t : s.threads[t]? = some (.pullWait d seen)) :
      Move cfg s (.timeout t) (s.goto t (.pulled none))

/-- The list above is complete. -/
theorem step_move {cfg : Config} {s s' : Sys} {a : Label} (h : step cfg s a = some s') :
    Move cfg s a s' := by
  cases a with
  | tick d => cases h; exact .tick
  | offer => cases h; exact .offer
  | pull w => cases h; exact .pull
  | exec t =>
    obtain ⟨pc,ht,h⟩ := Option.bind_eq_some_iff.mp h
    cases pc with
    | offerStart => cases h; exact .offerClock ht
    | offerPrune now => cases h; exact .offerPrune ht
    | offerPush =>
      simp only [Sys.advance] at h
      split at h
      · cases h; exact .refuse ht
      · cases h; exact .accept ht (by omega)
    | offerCount => cases h; exact .count ht
    | offerNotify => cases h; exact .notify ht
    | offered b | pulled r => cases h
    | pullStart d => cases h; exact .pullClock ht
    | pullPrune d now => cases h; exact .pullPrune ht
    | pullPop d =>
      simp only [Sys.advance] at h
      split at h
      · cases h; exact .popNone ht ‹_›
      · cases h; exact .pop ht ‹_›
    | pullRegister d => cases h; exact .register ht
    | pullWait d seen =>
      simp only [Sys.advance] at h
      split at h
      · cases h; exact .wake ht ‹_›
      · cases h
  | timeout t =>
    simp only [step] at h
    split at h
    · split at h
      · cases h; exact .timeout ‹_›
      · cases h
    · cases h

end PirateServer.StreamQueue
