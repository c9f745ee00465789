import PirateServer.Lib.Census
import PirateServer.Lib.Run
import PirateServer.Wire.Tunnel

/-! Tickets for QUIC streams. The task of a raw tunnel puts a context with its admission guard into
the ticket store and waits for it to be used up; a QUIC stream that shows the ticket takes it out
and relays. Where a context is dropped, its guard is dropped. The store is swept only when somebody
uses it. -/
namespace PirateServer.QuicTicket
open Lib Wire

/-- `[u8; 32]`. -/
abbrev Ticket := { bytes : Bytes // bytes.length = 32 }

/-- `QuicRawContext`, with the number of the task that made it in place of the tunnel id. It owns
the `AdmissionGuard`. -/
structure QuicRawContext where
  task : ℕ
  expectedHost : String
  expectedPort : ℕ
  deriving DecidableEq, Repr

structure QuicTicketStore where
  inner : Table Ticket (QuicRawContext × ℕ)
  ttl : ℕ

namespace QuicTicketStore

/-- `g.retain(|_, (_, t)| t.elapsed() < self.ttl)`. -/
def sweep (store : QuicTicketStore) (now : ℕ) : QuicTicketStore :=
  { store with inner := store.inner.retain (fun _ e => now-e.2 < store.ttl) }

def insert (store : QuicTicketStore) (now later : ℕ) (ticket : Ticket) (grant : QuicRawContext) :
    QuicTicketStore :=
  { store with inner := (store.sweep now).inner.insert ticket (grant,later) }

/-- The clock is read for the sweep and again for the entry that was found. -/
def take (store : QuicTicketStore) (now later : ℕ) (ticket : Bytes) :
    Option QuicRawContext × QuicTicketStore :=
  if h : ticket.length = 32 then
    let key : Ticket := ⟨ticket,h⟩
    let swept := store.sweep now
    match swept.inner.lookup key with
    | some (grant,issued) =>
      (if store.ttl < later-issued then none else some grant,
        { store with inner := swept.inner.erase key })
    | none => (none,swept)
  else (none,store)

end QuicTicketStore

/-- Where the task of a tunnel is: it has the context, it has stored it, it waits for the
completion since some instant, it has ended. -/
inductive TaskPc
  | holding
  | sending
  | waiting (since : ℕ)
  | ended
  deriving DecidableEq, Repr

/-- `issued` is a ghost: the ticket and the instant of its insertion. -/
structure Task where
  opened : ProxyOpen
  pc : TaskPc
  issued : Option (Ticket × ℕ)
  deriving DecidableEq

/-- Where a stream with a context is. In `finishing` it has sent the completion. -/
inductive StreamPc
  | started
  | relaying
  | finishing
  deriving DecidableEq, Repr

structure Stream where
  ctx : QuicRawContext
  frame : StreamInitFrame
  pc : StreamPc
  deriving DecidableEq, Repr

/-- A ticket gave a stream the context of a task. -/
structure Yield where
  task : ℕ
  ticket : Bytes
  time : ℕ
  deriving DecidableEq, Repr

/-- A stream with the context of a task connected to an address. -/
structure Dial where
  task : ℕ
  addr : String
  deriving DecidableEq, Repr

/-- `yields` and `dials` are ghosts. -/
structure Sys where
  clock : ℕ
  store : QuicTicketStore
  tasks : List Task
  streams : List Stream
  yields : List Yield
  dials : List Dial

def Sys.init (ttl : ℕ) : Sys := ⟨0,⟨∅,ttl⟩,[],[],[],[]⟩

/-- `Duration::from_secs(120)`, in nanoseconds. -/
def completionTimeout : ℕ := 120*10^9

/-- `lag` is the time between two readings of the clock. `answer` is the error of a connection,
if it fails. -/
inductive Label
  | openTunnel (o : ProxyOpen)
  | insert (i : ℕ) (ticket : Ticket) (lag : ℕ)
  | announce (i : ℕ) (ok : Bool)
  | timeout (i : ℕ)
  | completed (i : ℕ)
  | tick (d : ℕ)
  | redeem (frame : StreamInitFrame) (lag : ℕ)
  | serve (j : ℕ) (answer : Option String)
  | relayEnd (j : ℕ)
  | finish (j : ℕ)
  deriving DecidableEq

/-- The context that `proxy_tunnel` makes for its task. -/
def Task.context (i : ℕ) (t : Task) : QuicRawContext :=
  ⟨i,Text.trim t.opened.host,t.opened.port%65536⟩

/-- The address a stream has connected to. -/
def dialed (ctx : QuicRawContext) : QuicOutcome → List Dial
  | .healthy | .refused _ => []
  | .unreachable host port _ | .bridged host port => [⟨ctx.task,upstream host port⟩]

def served : QuicOutcome → StreamPc
  | .bridged _ _ => .relaying
  | _ => .finishing

namespace Sys

variable (s : Sys) (i : ℕ)

def completionSent : Bool :=
  s.streams.any (fun st => st.ctx.task = i && st.pc = .finishing) ||
    (s.streams.all (fun st => st.ctx.task ≠ i) &&
      s.store.inner.entries.all (fun e => e.2.1.task ≠ i))

def setTask (t : Task) : Sys := { s with tasks := s.tasks.set i t }

def setStream (s : Sys) (j : ℕ) (st : Stream) : Sys := { s with streams := s.streams.set j st }

def step (s : Sys) : Label → Option Sys
  | .openTunnel o =>
    if Text.trim o.host ≠ "" ∧ o.port ≠ 0 ∧ o.port ≤ 65535 then
      some { s with tasks := s.tasks++[⟨o,.holding,none⟩] }
    else none
  | .insert i ticket lag =>
    (s.tasks[i]?).bind (fun t =>
      if t.pc = .holding then
        some { s.setTask i { t with pc := .sending, issued := some (ticket,s.clock+lag) } with
          clock := s.clock+lag
          store := s.store.insert s.clock (s.clock+lag) ticket (t.context i) }
      else none)
  | .announce i ok =>
    (s.tasks[i]?).bind (fun t =>
      if t.pc = .sending then
        some (s.setTask i { t with pc := if ok then .waiting s.clock else .ended })
      else none)
  | .timeout i =>
    (s.tasks[i]?).bind (fun t =>
      match t.pc with
      | .waiting since =>
        if since+completionTimeout ≤ s.clock then some
          (s.setTask i { t with pc := .ended }) else none
      | _ => none)
  | .completed i =>
    (s.tasks[i]?).bind (fun t =>
      match t.pc with
      | .waiting _ =>
        if s.completionSent i = true then some (s.setTask i { t with pc := .ended }) else none
      | _ => none)
  | .tick d => some { s with clock := s.clock+d }
  | .redeem frame lag =>
    let r := s.store.take s.clock (s.clock+lag) frame.ticket
    match r.1 with
    | none => some { s with clock := s.clock+lag, store := r.2 }
    | some ctx =>
      some { s with
        clock := s.clock+lag
        store := r.2
        streams := s.streams++[⟨ctx,frame,.started⟩]
        yields := s.yields++[⟨ctx.task,frame.ticket,s.clock+lag⟩] }
  | .serve j answer =>
    (s.streams[j]?).bind (fun st =>
      if st.pc = .started then
        let net : Net := ⟨none,fun _ => answer.elim (.ok ()) .error⟩
        let outcome := runRawQuicRelay net st.ctx.expectedHost st.ctx.expectedPort st.frame
        some { s.setStream j { st with pc := served outcome } with
          dials := s.dials++dialed st.ctx outcome }
      else none)
  | .relayEnd j =>
    (s.streams[j]?).bind (fun st =>
      if st.pc = .relaying then some (s.setStream j { st with pc := .finishing }) else none)
  | .finish j =>
    (s.streams[j]?).bind (fun st =>
      if st.pc = .finishing then some { s with streams := s.streams.eraseIdx j } else none)

def Holds : Prop :=
  (∃ k e, s.store.inner.lookup k = some e ∧ e.1.task = i) ∨ ∃ st ∈ s.streams, st.ctx.task = i

def Stranded : Prop :=
  ∃ t ticket issued, s.tasks[i]? = some t ∧ t.pc = .ended ∧ t.issued = some (ticket,issued) ∧
    issued+s.store.ttl < s.clock ∧ s.Holds i

end Sys

/-- Everything a step does. -/
inductive Move (s : Sys) : Label → Sys → Prop
  | openTunnel {o} (port : o.port ≤ 65535) :
      Move s (.openTunnel o) { s with tasks := s.tasks++[⟨o,.holding,none⟩] }
  | insert {i ticket lag t} (task : s.tasks[i]? = some t) (pc : t.pc = .holding) :
      Move s (.insert i ticket lag)
        { s.setTask i { t with pc := .sending, issued := some (ticket,s.clock+lag) } with
          clock := s.clock+lag
          store := s.store.insert s.clock (s.clock+lag) ticket (t.context i) }
  | announce {i t ok} (task : s.tasks[i]? = some t) (pc : t.pc = .sending) :
      Move s (.announce i ok) (s.setTask i { t with pc := if ok then .waiting s.clock else .ended })
  | timeout {i t since} (task : s.tasks[i]? = some t) (pc : t.pc = .waiting since)
      (late : since+completionTimeout ≤ s.clock) :
      Move s (.timeout i) (s.setTask i { t with pc := .ended })
  | completed {i t since} (task : s.tasks[i]? = some t) (pc : t.pc = .waiting since)
      (sent : s.completionSent i = true) :
      Move s (.completed i) (s.setTask i { t with pc := .ended })
  | tick {d} : Move s (.tick d) { s with clock := s.clock+d }
  | refuse {frame lag} (none : (s.store.take s.clock (s.clock+lag) frame.ticket).1 = none) :
      Move s (.redeem frame lag) { s with
        clock := s.clock+lag
        store := (s.store.take s.clock (s.clock+lag) frame.ticket).2 }
  | redeem {frame lag ctx}
      (found : (s.store.take s.clock (s.clock+lag) frame.ticket).1 = some ctx) :
      Move s (.redeem frame lag) { s with
        clock := s.clock+lag
        store := (s.store.take s.clock (s.clock+lag) frame.ticket).2
        streams := s.streams++[⟨ctx,frame,.started⟩]
        yields := s.yields++[⟨ctx.task,frame.ticket,s.clock+lag⟩] }
  | serve {j answer st net} (stream : s.streams[j]? = some st) (pc : st.pc = .started) :
      Move s (.serve j answer)
        { s.setStream j { st with
            pc := served (runRawQuicRelay net st.ctx.expectedHost st.ctx.expectedPort
              st.frame) } with
          dials := s.dials++dialed st.ctx
            (runRawQuicRelay net st.ctx.expectedHost st.ctx.expectedPort st.frame) }
  | relayEnd {j st} (stream : s.streams[j]? = some st) (pc : st.pc = .relaying) :
      Move s (.relayEnd j) (s.setStream j { st with pc := .finishing })
  | finish {j st} (stream : s.streams[j]? = some st) (pc : st.pc = .finishing) :
      Move s (.finish j) { s with streams := s.streams.eraseIdx j }

lemma step_move {s s' : Sys} {a : Label} (h : s.step a = some s') : Move s a s' := by
  cases a with
  | openTunnel o =>
    simp only [Sys.step] at h
    split_ifs at h with hg
    cases h
    exact .openTunnel hg.2.2
  | insert i ticket lag =>
    obtain ⟨t,ht,h⟩ := Option.bind_eq_some_iff.mp h
    split_ifs at h with hpc
    cases h
    exact .insert ht hpc
  | announce i ok =>
    obtain ⟨t,ht,h⟩ := Option.bind_eq_some_iff.mp h
    split at h
    · rename_i hpc
      cases h
      exact .announce ht hpc
    · cases h
  | timeout i =>
    obtain ⟨t,ht,h⟩ := Option.bind_eq_some_iff.mp h
    split at h
    · rename_i since hpc
      split_ifs at h with hlate
      cases h
      exact .timeout ht hpc hlate
    · cases h
  | completed i =>
    obtain ⟨t,ht,h⟩ := Option.bind_eq_some_iff.mp h
    split at h
    · rename_i since hpc
      split_ifs at h with hsent
      cases h
      exact .completed ht hpc hsent
    · cases h
  | tick d =>
    cases h
    exact .tick
  | redeem frame lag =>
    simp only [Sys.step] at h
    split at h
    · cases h
      exact .refuse ‹_›
    · cases h
      exact .redeem ‹_›
  | serve j answer =>
    obtain ⟨st,hst,h⟩ := Option.bind_eq_some_iff.mp h
    split_ifs at h with hpc
    cases h
    exact .serve hst hpc
  | relayEnd j =>
    obtain ⟨st,hst,h⟩ := Option.bind_eq_some_iff.mp h
    split_ifs at h with hpc
    cases h
    exact .relayEnd hst hpc
  | finish j =>
    obtain ⟨st,hst,h⟩ := Option.bind_eq_some_iff.mp h
    split_ifs at h with hpc
    cases h
    exact .finish hst hpc

end PirateServer.QuicTicket
