import PirateServer.Lib.Census
import PirateServer.Lib.Run
import PirateServer.ProxySession.Policy

/-! The tunnels of one managed session and the registry in Redis that limits their number. A tunnel
is registered by the handler of its request, relays in a task or, over QUIC, in a stream that has
redeemed the ticket of the task, and leaves the registry when the task ends. A step is one Redis
command, all of which succeed, or one passage of an await point; the script that adds a member below
the limit is atomic. -/
namespace PirateServer.Devices
open Lib ProxySession Bool Option

/-- The handler up to the task: the commands of `register_online`, and the two that take a refused
tunnel back. Then the task, which relays itself or waits for the QUIC stream. -/
inductive TaskPc
  | hset
  | sadd
  | script
  | incr
  | refuseDel
  | refuseSrem
  | refused
  | cancelled
  | started
  | relaying
  | sending
  | waiting
  | ended
  deriving DecidableEq, Repr

/-- The context of a QUIC tunnel: in the ticket store, in a stream, dropped. -/
inductive QuicPc
  | absent
  | stored
  | connecting
  | relaying
  | gone
  deriving DecidableEq, Repr

/-- The commands of `unregister`; `sid` says whether the hash had a session id. -/
inductive UnregisterPc
  | notYet
  | hget
  | del (sid : Bool)
  | srem (sid : Bool)
  | zrem (sid : Bool)
  | sremSession
  | done
  deriving DecidableEq, Repr

/-- A tunnel with what Redis has of it: the hash with the session id, the entry in the set of all
tunnels, and the entry in `tunnels_online` of the session. -/
structure Tunnel where
  overQuic : Bool
  task : TaskPc
  quic : QuicPc
  unregister : UnregisterPc
  hash : Bool
  online : Bool
  member : Bool
  deriving DecidableEq, Repr

def Tunnel.opened (overQuic : Bool) : Tunnel :=
  ⟨overQuic,.hset,.absent,.notYet,false,false,false⟩

def Tunnel.relays (t : Tunnel) : Bool := t.task = .relaying || t.quic = .relaying

/-- A checkpoint may be written: its last command may be executed after the relay has ended. -/
def Tunnel.checkpoints (t : Tunnel) : Bool := t.relays || t.task = .ended || t.quic = .gone

def Tunnel.finished (t : Tunnel) : Bool :=
  (t.task = .refused || t.task = .cancelled || (t.task = .ended && t.unregister = .done)) &&
    (t.quic = .absent || t.quic = .gone)

/-- `cancel` drops the handler while a command is under way, which Redis may have executed.
`touch` is a checkpoint, `expire` a sweep of the ticket store. -/
inductive Act
  | register
  | cancel (executed : Bool)
  | start (ok : Bool)
  | announce (ok : Bool)
  | relayEnd
  | timeout
  | completed
  | redeem
  | connect (ok : Bool)
  | streamEnd
  | expire
  | touch
  | unregister
  deriving DecidableEq, Repr

namespace Tunnel

/-- The task ends and its `RedisTunnelDropGuard` starts the task that unregisters. -/
def endTask (t : Tunnel) : Tunnel := { t with task := .ended, unregister := .hget }

/-- One command of `register_online`; `free` says whether the limit lets one more in. -/
def registerStep (free : Bool) (t : Tunnel) : Option Tunnel :=
  match t.task with
  | .hset => some { t with task := .sadd, hash := true }
  | .sadd => some { t with task := .script, online := true }
  | .script =>
    some (if free then { t with task := .incr, member := true } else { t with task := .refuseDel })
  | .incr => some { t with task := .started }
  | .refuseDel => some { t with task := .refuseSrem, hash := false }
  | .refuseSrem => some { t with task := .refused, online := false }
  | _ => none

def inHandler (t : Tunnel) : Bool :=
  t.task ∈ [.hset,.sadd,.script,.incr,.refuseDel,.refuseSrem]

def unregisterStep (t : Tunnel) : Option Tunnel :=
  match t.unregister with
  | .hget => some { t with unregister := .del t.hash }
  | .del sid => some { t with unregister := .srem sid, hash := false }
  | .srem sid => some { t with unregister := .zrem sid, online := false }
  | .zrem sid => some { t with unregister := if sid then .sremSession else .done }
  | .sremSession => some { t with unregister := .done, member := false }
  | _ => none

def act (free : Bool) (t : Tunnel) : Act → Option Tunnel
  | .register => t.registerStep free
  | .cancel executed =>
    if t.inHandler then
      (if executed then t.registerStep free else some t).map
        (fun t' => { t' with task := .cancelled })
    else none
  | .start ok =>
    match t.task,t.overQuic with
    | .started,false => some (if ok then { t with task := .relaying } else t.endTask)
    | .started,true => some { t with task := .sending, quic := .stored }
    | _,_ => none
  | .announce ok =>
    match t.task with
    | .sending => some (if ok then { t with task := .waiting } else t.endTask)
    | _ => none
  | .relayEnd => if t.task = .relaying then some t.endTask else none
  | .timeout => if t.task = .waiting then some t.endTask else none
  | .completed => if t.task = .waiting ∧ t.quic = .gone then some t.endTask else none
  | .redeem => if t.quic = .stored then some { t with quic := .connecting } else none
  | .connect ok =>
    if t.quic = .connecting then some { t with quic := if ok then .relaying else .gone } else none
  | .streamEnd => if t.quic = .relaying then some { t with quic := .gone } else none
  | .expire => if t.quic = .stored then some { t with quic := .gone } else none
  | .touch => if t.checkpoints then some { t with hash := true } else none
  | .unregister => t.unregisterStep

end Tunnel

structure Sys where
  tunnels : List Tunnel
  deriving DecidableEq, Repr

def Sys.init : Sys := ⟨[]⟩

inductive Label
  | openTunnel (overQuic : Bool)
  | act (i : ℕ) (a : Act)
  deriving DecidableEq, Repr

/-- `SCARD` of the session's set. -/
def Sys.scard (s : Sys) : ℕ := Census.count Tunnel.member s.tunnels

/-- `SESSION_SADD_LIMIT` adds the member: zero stands for no limit. -/
def Sys.free (max : ℕ) (s : Sys) : Bool := !(0 < max && max ≤ s.scard)

def Sys.step (max : ℕ) (s : Sys) : Label → Option Sys
  | .openTunnel overQuic => some ⟨s.tunnels++[.opened overQuic]⟩
  | .act i a =>
    (s.tunnels[i]?).bind (fun t => (t.act (s.free max) a).map (fun t' => ⟨s.tunnels.set i t'⟩))

def Tunnel.steady (t : Tunnel) : Act → Bool
  | .cancel executed => t.task ≠ .incr && (t.task ≠ .script || !executed)
  | .announce ok => ok
  | .timeout => t.quic = .gone
  | _ => true

def Sys.steady (s : Sys) : Label → Bool
  | .openTunnel _ => true
  | .act i a => (s.tunnels[i]?).all (fun t => t.steady a)

/-! What holds of one tunnel as long as its steps are steady. -/

/-- The commands that are left will take the member out. -/
def UnregisterPc.willRemove : UnregisterPc → Bool
  | hget | del true | srem true | zrem true | sremSession => true
  | _ => false

def Tunnel.Sound (t : Tunnel) : Prop :=
  match t.task with
  | .hset | .refuseDel | .refuseSrem | .refused | .cancelled =>
    t.member = false ∧ t.quic = .absent ∧ t.unregister = .notYet
  | .sadd | .script => t.member = false ∧ t.hash = true ∧ t.quic = .absent ∧ t.unregister = .notYet
  | .incr | .started | .relaying =>
    t.member = true ∧ t.hash = true ∧ t.quic = .absent ∧ t.unregister = .notYet
  | .sending | .waiting => t.member = true ∧ t.hash = true ∧ t.unregister = .notYet
  | .ended =>
    (t.quic = .absent ∨ t.quic = .gone) ∧ (t.unregister = .hget → t.hash = true) ∧
      (t.unregister.willRemove = true ∨ (t.unregister = .done ∧ t.member = false))

open Tunnel

lemma sound_opened (overQuic : Bool) : (opened overQuic).Sound := ⟨rfl,rfl,rfl⟩

section
variable {t t' : Tunnel} {free : Bool}

lemma sound_endTask (hhash : t.hash = true) (hquic : t.quic = .absent ∨ t.quic = .gone) :
    t.endTask.Sound := ⟨hquic,fun _ => hhash,.inl rfl⟩

lemma sound_registerStep (hs : t.Sound) (h : t.registerStep free = some t') : t'.Sound := by
  cases htask : t.task
  all_goals
    simp only [Tunnel.Sound,htask] at hs
    simp only [registerStep,htask,some.injEq,reduceCtorEq] at h
  case hset =>
    subst h
    exact ⟨hs.1,rfl,hs.2⟩
  case sadd =>
    subst h
    exact hs
  case script =>
    subst h
    cases free with
    | true => exact ⟨rfl,hs.2⟩
    | false => exact ⟨hs.1,hs.2.2⟩
  case incr =>
    subst h
    exact hs
  case refuseDel =>
    subst h
    exact hs
  case refuseSrem =>
    subst h
    exact hs

lemma sound_cancel {executed : Bool} (hs : t.Sound) (hc : t.steady (.cancel executed) = true)
    (h : t.act free (.cancel executed) = some t') : t'.Sound := by
  simp only [steady,and_eq_true,or_eq_true,decide_eq_true_eq,not_eq_true'] at hc
  simp only [act] at h
  split_ifs at h with hin hex
  · -- the command was executed, but it was not the script
    obtain ⟨u,hu,rfl⟩ := map_eq_some_iff.mp h
    subst hex
    have hscript : t.task ≠ .script := hc.2.resolve_right (by simp)
    cases htask : t.task
    all_goals
      simp only [Tunnel.Sound,htask] at hs
      simp only [registerStep,htask,some.injEq,reduceCtorEq] at hu
    case hset => subst hu; exact hs
    case sadd => subst hu; exact ⟨hs.1,hs.2.2⟩
    case script => exact absurd htask hscript
    case incr => exact absurd htask hc.1
    case refuseDel => subst hu; exact hs
    case refuseSrem => subst hu; exact hs
  · obtain ⟨u,hu,rfl⟩ := map_eq_some_iff.mp h
    cases hu
    cases htask : t.task
    all_goals
      simp only [Tunnel.Sound,htask] at hs
      simp [inHandler,htask] at hin
    case hset => exact hs
    case sadd => exact ⟨hs.1,hs.2.2⟩
    case script => exact ⟨hs.1,hs.2.2⟩
    case incr => exact absurd htask hc.1
    case refuseDel => exact hs
    case refuseSrem => exact hs

lemma sound_iff_of_ended (htask : t.task = .ended) :
    t.Sound ↔ (t.quic = .absent ∨ t.quic = .gone) ∧ (t.unregister = .hget → t.hash = true) ∧
      (t.unregister.willRemove = true ∨ (t.unregister = .done ∧ t.member = false)) := by
  simp only [Tunnel.Sound,htask]

section
variable (hs : t.Sound)
include hs

lemma ended_of_unregister (h : t.unregister ≠ .notYet) : t.task = .ended := by
  cases htask : t.task
  all_goals simp only [Tunnel.Sound,htask] at hs
  case ended => rfl
  all_goals exact absurd (by simp only [hs]) h

lemma sound_unregisterStep (h : t.unregisterStep = some t') : t'.Sound := by
  have htask : t.task = .ended := by
    apply ended_of_unregister hs
    intro hun
    simp [unregisterStep,hun] at h
  obtain ⟨hquic,hhash,hwill⟩ := (sound_iff_of_ended htask).mp hs
  cases hun : t.unregister
  all_goals
    rw [hun] at hwill hhash
    simp only [unregisterStep,hun,some.injEq,reduceCtorEq] at h
  case hget =>
    subst h
    refine (sound_iff_of_ended ?_).mpr ⟨hquic,by simp,.inl ?_⟩
    · exact htask
    · simp only [hhash rfl,UnregisterPc.willRemove]
  case sremSession =>
    subst h
    refine (sound_iff_of_ended ?_).mpr ⟨hquic,by simp,.inr ⟨rfl,rfl⟩⟩
    exact htask
  -- the commands between the two go on only with the session id that the first one read
  case del sid | srem sid | zrem sid =>
    subst h
    cases sid with
    | true =>
      refine (sound_iff_of_ended ?_).mpr ⟨hquic,by simp,.inl rfl⟩
      exact htask
    | false => simp [UnregisterPc.willRemove] at hwill

lemma sound_quic (habsent : t.quic ≠ .absent) (hgone : t.quic ≠ .gone) (q : QuicPc) :
    Tunnel.Sound { t with quic := q } := by
  cases htask : t.task
  all_goals simp only [Tunnel.Sound,htask] at hs ⊢
  case sending | waiting => exact hs
  case ended => exact absurd hs.1 (by simp [habsent,hgone])
  all_goals exact absurd (by simp only [hs]) habsent

lemma sound_touch : Tunnel.Sound { t with hash := true } := by
  cases htask : t.task
  all_goals simp only [Tunnel.Sound,htask] at hs ⊢
  case sadd | script | incr | started | relaying => exact ⟨hs.1,trivial,hs.2.2⟩
  case sending | waiting => exact ⟨hs.1,trivial,hs.2.2⟩
  case ended => exact ⟨hs.1,fun _ => trivial,hs.2.2⟩
  all_goals exact hs

lemma sound_start {ok : Bool} (h : t.act free (.start ok) = some t') : t'.Sound := by
  cases htask : t.task
  all_goals simp only [act,htask,reduceCtorEq] at h
  case started =>
    simp only [Tunnel.Sound,htask] at hs
    cases hover : t.overQuic with
    | false =>
      simp only [hover,some.injEq] at h
      subst h
      cases ok with
      | true => exact hs
      | false => exact sound_endTask hs.2.1 (.inl hs.2.2.1)
    | true =>
      simp only [hover,some.injEq] at h
      subst h
      exact ⟨hs.1,hs.2.1,hs.2.2.2⟩

lemma sound_end
    (htask : t.task = .relaying ∨ (t.task = .waiting ∧ t.quic = .gone)) : t.endTask.Sound := by
  rcases htask with htask | ⟨htask,hgone⟩
  · simp only [Tunnel.Sound,htask] at hs
    exact sound_endTask hs.2.1 (.inl hs.2.2.1)
  · simp only [Tunnel.Sound,htask] at hs
    exact sound_endTask hs.2.1 (.inr hgone)

theorem sound_act {a : Act} (hc : t.steady a = true) (h : t.act free a = some t') : t'.Sound := by
  cases a with
  | register => exact sound_registerStep hs h
  | cancel executed => exact sound_cancel hs hc h
  | start ok => exact sound_start hs h
  | announce ok =>
    have hok : ok = true := hc
    subst hok
    cases htask : t.task
    all_goals simp only [act,htask,if_true,some.injEq,reduceCtorEq] at h
    case sending =>
      subst h
      simp only [Tunnel.Sound,htask] at hs
      exact hs
  | relayEnd =>
    simp only [act,ite_none_right_eq_some,some.injEq] at h
    obtain ⟨htask,rfl⟩ := h
    exact sound_end hs (.inl htask)
  | timeout =>
    have hgone : t.quic = .gone := of_decide_eq_true hc
    simp only [act,ite_none_right_eq_some,some.injEq] at h
    obtain ⟨htask,rfl⟩ := h
    exact sound_end hs (.inr ⟨htask,hgone⟩)
  | completed =>
    simp only [act,ite_none_right_eq_some,some.injEq] at h
    obtain ⟨htask,rfl⟩ := h
    exact sound_end hs (.inr htask)
  | redeem | connect ok | streamEnd | expire =>
    simp only [act,ite_none_right_eq_some,some.injEq] at h
    obtain ⟨hquic,rfl⟩ := h
    exact sound_quic hs (by simp [hquic]) (by simp [hquic]) _
  | touch =>
    simp only [act,ite_none_right_eq_some,some.injEq] at h
    obtain ⟨-,rfl⟩ := h
    exact sound_touch hs
  | unregister => exact sound_unregisterStep hs h

end

lemma member_act {a : Act} (h : t.act free a = some t') (hmember : t'.member = true) :
    t.member = true ∨ free = true := by
  have hreg : ∀ u, t.registerStep free = some u → u.member = true →
      t.member = true ∨ free = true := by
    intro u hu hm
    cases htask : t.task
    all_goals simp only [registerStep,htask,some.injEq,reduceCtorEq] at hu
    case script =>
      cases free with
      | true => exact .inr rfl
      | false =>
        subst hu
        exact .inl hm
    all_goals
      subst hu
      exact .inl hm
  cases a with
  | register => exact hreg t' h hmember
  | cancel executed =>
    simp only [act,ite_none_right_eq_some] at h
    obtain ⟨u,hu,rfl⟩ := map_eq_some_iff.mp h.2
    cases executed with
    | true => exact hreg u hu hmember
    | false =>
      cases hu
      exact .inl hmember
  | start ok =>
    simp only [act] at h
    split at h
    · cases h
      cases ok <;> exact .inl hmember
    · cases h
      exact .inl hmember
    · cases h
  | announce ok =>
    simp only [act] at h
    split at h
    · cases h
      cases ok <;> exact .inl hmember
    · cases h
  | relayEnd | timeout | completed | redeem | connect ok | streamEnd | expire | touch =>
    simp only [act,ite_none_right_eq_some,some.injEq] at h
    obtain ⟨-,rfl⟩ := h
    exact .inl hmember
  | unregister =>
    left
    simp only [act,unregisterStep] at h
    split at h
    all_goals
      cases h
    all_goals first
      | exact hmember
      | cases hmember

lemma member_of_relays (hs : t.Sound) (h : t.relays = true) : t.member = true := by
  simp only [relays,or_eq_true,decide_eq_true_eq] at h
  cases htask : t.task
  all_goals simp only [Tunnel.Sound,htask] at hs
  case incr | started | relaying | sending | waiting => exact hs.1
  case ended => rcases hs.1 with hquic | hquic <;> simp [htask,hquic] at h
  all_goals simp [htask,hs] at h

lemma not_member_of_finished (hs : t.Sound) (h : t.finished = true) : t.member = false := by
  simp only [finished,and_eq_true,or_eq_true,decide_eq_true_eq] at h
  rcases h.1 with (htask | htask) | ⟨htask,hdone⟩
  · simp only [Tunnel.Sound,htask] at hs
    exact hs.1
  · simp only [Tunnel.Sound,htask] at hs
    exact hs.1
  · obtain ⟨-,-,hwill⟩ := (sound_iff_of_ended htask).mp hs
    rcases hwill with hwill | hwill
    · rw [hdone] at hwill
      cases hwill
    · exact hwill.2

end

end PirateServer.Devices
