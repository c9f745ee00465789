import PirateServer.Lib.Census
import PirateServer.Lib.Run
import PirateServer.ProxySession.Policy

/-! The traffic limits of a managed session with any number of tunnels. A tunnel takes the totals of
the session row when it is opened and checks them plus its own counters. A chunk is counted, then
checked, then written; the task that reads from the target throws the result of its check away, and
bytes that came with a wire handshake are written unchecked. -/
namespace PirateServer.Usage
open Lib ProxySession Bool

structure Traffic where
  bytesIn : ℕ
  bytesOut : ℕ
  deriving DecidableEq, Repr

def Traffic.add (a b : Traffic) : Traffic := ⟨a.bytesIn+b.bytesIn,a.bytesOut+b.bytesOut⟩

/-- `fetch_add`, and the sum of a base and a counter: 64 bits. -/
def wrap (n : ℕ) : ℕ := n%2^64

/-- The bytes after a handshake are written first and then counted by VLESS, the other way round
by the bridge (`early`). -/
inductive Up
  | fresh
  | initial (n : ℕ) (early : Bool)
  | idle
  | counted (n : ℕ)
  | granted (n : ℕ)
  | ended
  deriving DecidableEq, Repr

inductive Down
  | notYet
  | idle
  | counted (n : ℕ)
  | granted (n : ℕ)
  | ended
  deriving DecidableEq, Repr

/-- `granted` and `delivered` are ghosts: the bytes that nothing holds back any more, and those
of them that have been written. `pending` is the delta of a flush whose call is under way. -/
structure Relay where
  base : Traffic
  counted : Traffic
  up : Up
  down : Down
  flushed : Traffic
  pending : Option Traffic
  granted : Traffic
  delivered : Traffic
  deriving DecidableEq, Repr

def Relay.opened (row : Traffic) : Relay :=
  ⟨row,⟨0,0⟩,.fresh,.notYet,⟨0,0⟩,none,⟨0,0⟩,⟨0,0⟩⟩

def Relay.ended (t : Relay) : Bool := t.up = .ended && t.down = .ended

/-- What a relay does. A write may break off after `k` bytes; a task may end at any time. -/
inductive Act
  | quit
  | start
  | initial (n : ℕ) (early : Bool)
  | initialWritten (k : ℕ)
  | upRead (n : ℕ)
  | upCheck (budgetExceeded : Bool)
  | upWritten (k : ℕ)
  | upEnd
  | downRead (n : ℕ)
  | downCheck (budgetExceeded : Bool)
  | downSent (k : ℕ)
  | downEnd
  deriving DecidableEq, Repr

namespace Relay

def countIn (t : Relay) (n : ℕ) : Traffic := ⟨wrap (t.counted.bytesIn+n),t.counted.bytesOut⟩

def countOut (t : Relay) (n : ℕ) : Traffic := ⟨t.counted.bytesIn,wrap (t.counted.bytesOut+n)⟩

def check (p : StoredPolicy) (t : Relay) : Except Status Unit :=
  checkTrafficLimits p (wrap (t.base.bytesIn+t.counted.bytesIn))
    (wrap (t.base.bytesOut+t.counted.bytesOut))

def wroteUp (t : Relay) (k : ℕ) : Relay :=
  { t with delivered := ⟨t.delivered.bytesIn+k,t.delivered.bytesOut⟩ }

def wroteDown (t : Relay) (k : ℕ) : Relay :=
  { t with delivered := ⟨t.delivered.bytesIn,t.delivered.bytesOut+k⟩ }

def act (p : StoredPolicy) (t : Relay) : Act → Option (Relay × Traffic)
  | .quit =>
    match t.up with
    | .fresh | .initial _ _ => some ({ t with up := .ended, down := .ended },⟨0,0⟩)
    | _ => none
  | .start =>
    match t.up with
    | .fresh => some ({ t with up := .idle, down := .idle },⟨0,0⟩)
    | _ => none
  | .initial n early =>
    match t.up with
    | .fresh =>
      some ({ t with
        up := .initial n early
        counted := if early then t.countIn n else t.counted
        granted := ⟨t.granted.bytesIn+n,t.granted.bytesOut⟩ },⟨0,0⟩)
    | _ => none
  | .initialWritten k =>
    match t.up with
    | .initial n early =>
      if k = n then
        some ({ t.wroteUp k with
          up := .idle, down := .idle, counted := if early then t.counted else t.countIn n },⟨k,0⟩)
      else if k < n then some ({ t.wroteUp k with up := .ended, down := .ended },⟨k,0⟩)
      else none
    | _ => none
  | .upRead n =>
    match t.up with
    | .idle => some ({ t with up := .counted n, counted := t.countIn n },⟨0,0⟩)
    | _ => none
  | .upCheck budgetExceeded =>
    match t.up with
    | .counted n =>
      if t.check p = .ok () ∧ budgetExceeded = false then
        some ({ t with up := .granted n, granted :=
          ⟨t.granted.bytesIn+n,t.granted.bytesOut⟩ },⟨0,0⟩)
      else some ({ t with up := .ended },⟨0,0⟩)
    | _ => none
  | .upWritten k =>
    match t.up with
    | .granted n =>
      if k = n then some ({ t.wroteUp k with up := .idle },⟨k,0⟩)
      else if k < n then some ({ t.wroteUp k with up := .ended },⟨k,0⟩)
      else none
    | _ => none
  | .upEnd =>
    match t.up with
    | .idle | .counted _ | .granted _ => some ({ t with up := .ended },⟨0,0⟩)
    | _ => none
  | .downRead n =>
    match t.down with
    | .idle => some ({ t with down := .counted n, counted := t.countOut n },⟨0,0⟩)
    | _ => none
  | .downCheck budgetExceeded =>
    match t.down with
    | .counted n =>
      -- let _ = check_traffic_limits(pol, bi, bo);
      let _ := t.check p
      if budgetExceeded = false then
        some ({ t with
          down := .granted n, granted := ⟨t.granted.bytesIn,t.granted.bytesOut+n⟩ },⟨0,0⟩)
      else some ({ t with down := .ended },⟨0,0⟩)
    | _ => none
  | .downSent k =>
    match t.down with
    | .granted n =>
      if k = n then some ({ t.wroteDown k with down := .idle },⟨0,k⟩)
      else if k < n then some ({ t.wroteDown k with down := .ended },⟨0,k⟩)
      else none
    | _ => none
  | .downEnd =>
    match t.down with
    | .idle | .counted _ | .granted _ => some ({ t with down := .ended },⟨0,0⟩)
    | _ => none

end Relay

/-- `row` holds the totals of the database; `initial` is what they were at first, and `delivered`
counts what all tunnels have delivered since. -/
structure Session where
  row : Traffic
  relays : List Relay
  initial : Traffic
  delivered : Traffic
  deriving DecidableEq, Repr

def Session.init (row : Traffic) : Session := ⟨row,[],row,⟨0,0⟩⟩

/-- A flush takes the difference to the last one, as of a moment since then, and the database
follows it or not. -/
inductive SessionLabel
  | openTunnel
  | act (i : ℕ) (a : Act)
  | take (i : ℕ) (c : Traffic)
  | reply (i : ℕ) (applied : Bool)
  deriving DecidableEq, Repr

namespace Session

def step (p : StoredPolicy) (s : Session) : SessionLabel → Option Session
  | .openTunnel =>
    if checkTrafficLimits p s.row.bytesIn s.row.bytesOut = .ok () then
      some { s with relays := s.relays++[.opened s.row] }
    else none
  | .act i a =>
    (s.relays[i]?).bind (fun t => (t.act p a).map (fun r =>
      { s with relays := s.relays.set i r.1, delivered := s.delivered.add r.2 }))
  | .take i c =>
    (s.relays[i]?).bind (fun t =>
      if t.pending = none ∧ t.flushed.bytesIn ≤ c.bytesIn ∧ c.bytesIn ≤ t.counted.bytesIn ∧
          t.flushed.bytesOut ≤ c.bytesOut ∧ c.bytesOut ≤ t.counted.bytesOut then
        some { s with relays := s.relays.set i { t with
          flushed := c
          pending := some ⟨c.bytesIn-t.flushed.bytesIn,c.bytesOut-t.flushed.bytesOut⟩ } }
      else none)
  | .reply i applied =>
    (s.relays[i]?).bind (fun t => t.pending.map (fun d =>
      { s with
        relays := s.relays.set i { t with pending := none }
        row := if applied then s.row.add d else s.row }))

def total (s : Session) : Traffic := s.initial.add s.delivered

end Session

/-- The chunk fits: a chunk that was read downwards passes the check whose result is thrown away,
bytes after a handshake would pass it, and no counter goes through 64 bits. -/
def Relay.clean (p : StoredPolicy) (t : Relay) : Act → Bool
  | .initial n _ =>
    t.base.bytesIn+(t.counted.bytesIn+n) < 2^64 &&
      checkTrafficLimits p (t.base.bytesIn+(t.counted.bytesIn+n))
        (t.base.bytesOut+t.counted.bytesOut) = .ok ()
  | .upRead n => t.base.bytesIn+(t.counted.bytesIn+n) < 2^64
  | .downRead n => t.base.bytesOut+(t.counted.bytesOut+n) < 2^64
  | .downCheck _ => t.check p = .ok ()
  | _ => true

def Session.clean (p : StoredPolicy) (s : Session) : SessionLabel → Bool
  | .openTunnel =>
    s.relays.all Relay.ended && s.total.bytesIn ≤ s.row.bytesIn && s.total.bytesOut ≤
      s.row.bytesOut &&
      s.row.bytesIn < 2^64 && s.row.bytesOut < 2^64
  | .act i a => (s.relays[i]?).all (fun t => t.clean p a)
  | _ => true

/-! What one relay keeps to. -/

/-- Counted and not yet checked. -/
@[simp] def Up.unchecked : Up → ℕ
  | counted n => n
  | _ => 0

@[simp] def Up.inFlight : Up → ℕ
  | initial n _ | granted n => n
  | _ => 0

/-- Granted and not yet counted. -/
@[simp] def Up.uncounted : Up → ℕ
  | initial n false => n
  | _ => 0

/-- The two tasks run. -/
@[simp] def Up.begun : Up → Bool
  | fresh | initial _ _ => false
  | _ => true

@[simp] def Down.unchecked : Down → ℕ
  | counted n => n
  | _ => 0

@[simp] def Down.inFlight : Down → ℕ
  | granted n => n
  | _ => 0

/-- What has been granted upwards has been counted, and only that is written. -/
structure UpFair (t : Relay) : Prop where
  lt : t.base.bytesIn+(t.counted.bytesIn+t.up.uncounted) < 2^64
  granted : t.ended = false →
    t.granted.bytesIn+t.up.unchecked ≤ t.counted.bytesIn+t.up.uncounted
  delivered : t.delivered.bytesIn+t.up.inFlight ≤ t.granted.bytesIn

structure DownFair (t : Relay) : Prop where
  lt : t.base.bytesOut+t.counted.bytesOut < 2^64
  granted : t.granted.bytesOut+t.down.unchecked ≤ t.counted.bytesOut
  delivered : t.delivered.bytesOut+t.down.inFlight ≤ t.granted.bytesOut

structure Fair (p : StoredPolicy) (t : Relay) : Prop where
  phase : t.up.begun = false → t.down = .notYet
  up : UpFair t
  down : DownFair t
  within : checkTrafficLimits p (t.base.bytesIn+t.granted.bytesIn)
    (t.base.bytesOut+t.granted.bytesOut) = .ok ()

lemma fair_opened {p : StoredPolicy} {row : Traffic} (hin : row.bytesIn < 2^64)
    (hout : row.bytesOut < 2^64) (h : checkTrafficLimits p row.bytesIn row.bytesOut = .ok ()) :
    Fair p (.opened row) :=
  ⟨fun _ => rfl,⟨hin,fun _ => le_rfl,le_rfl⟩,⟨hout,le_rfl,le_rfl⟩,h⟩

variable {n i : ℕ}

lemma wrap_of_lt (h : n < 2^64) : wrap n = n := Nat.mod_eq_of_lt h

variable {t : Relay}

open PirateServer.Usage.Relay

lemma countIn_of_lt (h : t.base.bytesIn+(t.counted.bytesIn+n) < 2^64) :
    t.countIn n = ⟨t.counted.bytesIn+n,t.counted.bytesOut⟩ := by
  rw [countIn,wrap_of_lt (by omega)]

lemma countOut_of_lt (h : t.base.bytesOut+(t.counted.bytesOut+n) < 2^64) :
    t.countOut n = ⟨t.counted.bytesIn,t.counted.bytesOut+n⟩ := by
  rw [countOut,wrap_of_lt (by omega)]

lemma ended_eq_false_of_up (h : t.up ≠ .ended) : t.ended = false := by
  simp [ended,h]

lemma ended_eq_false_of_down (h : t.down ≠ .ended) : t.ended = false := by
  simp [ended,h]

lemma granted_of_check {p : StoredPolicy} (hf : Fair p t) (hend : t.ended = false)
    (huncounted : t.up.uncounted = 0) (hcheck : t.check p = .ok ()) :
    checkTrafficLimits p (t.base.bytesIn+(t.granted.bytesIn+t.up.unchecked))
      (t.base.bytesOut+(t.granted.bytesOut+t.down.unchecked)) = .ok () := by
  have hin := hf.up.lt
  have hgin := hf.up.granted hend
  have hgout := hf.down.granted
  rw [huncounted,add_zero] at hin hgin
  rw [check,wrap_of_lt hin,wrap_of_lt hf.down.lt] at hcheck
  exact checkTrafficLimits_mono (by omega) (by omega) hcheck

section
variable {p : StoredPolicy} {t' : Relay} {d : Traffic}

lemma act_delivered {a : Act} (h : t.act p a = some (t',d)) :
    t'.base = t.base ∧ t'.delivered = t.delivered.add d := by
  cases a <;> simp only [act] at h <;> (repeat' split at h) <;> cases h <;> exact ⟨rfl,rfl⟩

lemma fair_start (hf : Fair p t) (h : t.act p .start = some (t',d)) : Fair p t' := by
  simp only [act] at h
  split at h
  swap
  · cases h
  rename_i hup
  cases h
  obtain ⟨hphase,⟨hin,hgin,hdin⟩,⟨hout,hgout,hdout⟩,hok⟩ := hf
  have hgin := hgin (ended_eq_false_of_up (by simp [hup]))
  have hdown := hphase (by simp [hup])
  rw [hup] at hin hgin hdin
  rw [hdown] at hgout hdout
  exact ⟨fun hb => (by cases hb),⟨hin,fun _ => hgin,hdin⟩,⟨hout,hgout,hdout⟩,hok⟩

lemma fair_initial {early : Bool} (hf : Fair p t) (hc : t.clean p (.initial n early) = true)
    (h : t.act p (.initial n early) = some (t',d)) : Fair p t' := by
  simp only [clean,and_eq_true,decide_eq_true_eq] at hc
  simp only [act] at h
  split at h
  swap
  · cases h
  rename_i hup
  cases h
  obtain ⟨hphase,⟨hin,hgin,hdin⟩,⟨hout,hgout,hdout⟩,hok⟩ := hf
  have hgin := hgin (ended_eq_false_of_up (by simp [hup]))
  simp only [hup,Up.uncounted,Up.unchecked,Up.inFlight] at hin hgin hdin
  have hpass : checkTrafficLimits p (t.base.bytesIn+(t.granted.bytesIn+n))
      (t.base.bytesOut+t.granted.bytesOut) = .ok () :=
    checkTrafficLimits_mono (by omega) (by omega) hc.2
  cases early with
  | false =>
    refine ⟨fun _ => hphase (by simp [hup]),⟨hc.1,fun _ => ?_,?_⟩,⟨hout,hgout,hdout⟩,hpass⟩
    all_goals simp; omega
  | true =>
    simp only [countIn_of_lt hc.1,if_true]
    refine ⟨fun _ => hphase (by simp [hup]),⟨hc.1,fun _ => ?_,?_⟩,⟨hout,hgout,hdout⟩,hpass⟩
    all_goals simp; omega

lemma fair_initialWritten {k : ℕ} (hf : Fair p t) (h : t.act p (.initialWritten k) = some (t',d)) :
    Fair p t' := by
  simp only [act] at h
  split at h
  swap
  · cases h
  rename_i n early hup
  obtain ⟨hphase,⟨hin,hgin,hdin⟩,⟨hout,hgout,hdout⟩,hok⟩ := hf
  have hgin := hgin (ended_eq_false_of_up (by simp [hup]))
  have hdown := hphase (by simp [hup])
  simp only [hup,Up.unchecked,Up.inFlight] at hin hgin hdin
  rw [hdown] at hgout hdout
  have hsent : k ≤ n → t.delivered.bytesIn+k+0 ≤ t.granted.bytesIn := by omega
  by_cases hk : k = n
  · rw [if_pos hk] at h
    cases h
    refine ⟨fun hb => (by cases hb),?_,⟨?_,?_,hdout⟩,hok⟩
    · cases early with
      | false =>
        simp only [Up.uncounted] at hin hgin
        simp only [countIn_of_lt hin]
        exact ⟨hin,fun _ => hgin,hsent hk.le⟩
      | true => exact ⟨hin,fun _ => hgin,hsent hk.le⟩
    · cases early <;> exact hout
    · cases early <;> exact hgout
  · rw [if_neg hk] at h
    split_ifs at h with hlt
    cases h
    refine ⟨fun hb => (by cases hb),⟨?_,fun hend => (by cases hend),hsent hlt.le⟩,
      ⟨hout,hgout,hdout⟩,
      hok⟩
    simp only [wroteUp,Up.uncounted]
    omega

lemma fair_upRead (hf : Fair p t) (hc : t.clean p (.upRead n) = true)
    (h : t.act p (.upRead n) = some (t',d)) : Fair p t' := by
  simp only [clean,decide_eq_true_eq] at hc
  simp only [act] at h
  split at h
  swap
  · cases h
  rename_i hup
  cases h
  obtain ⟨hphase,⟨hin,hgin,hdin⟩,⟨hout,hgout,hdout⟩,hok⟩ := hf
  have hgin := hgin (ended_eq_false_of_up (by simp [hup]))
  simp only [hup,Up.unchecked,Up.uncounted,Up.inFlight] at hin hgin hdin
  simp only [countIn_of_lt hc]
  refine ⟨fun hb => (by cases hb),⟨hc,fun _ => ?_,hdin⟩,⟨hout,hgout,hdout⟩,hok⟩
  simp only [Up.unchecked,Up.uncounted]
  omega

variable {budgetExceeded : Bool}

section
variable (hf : Fair p t)
include hf

lemma fair_upCheck (h : t.act p (.upCheck budgetExceeded) = some (t',d)) : Fair p t' := by
  simp only [act] at h
  split at h
  swap
  · cases h
  rename_i n hup
  have hend := ended_eq_false_of_up (t := t) (by simp [hup])
  have hpass := granted_of_check hf hend (by simp [hup])
  obtain ⟨hphase,⟨hin,hgin,hdin⟩,⟨hout,hgout,hdout⟩,hok⟩ := hf
  have hgin := hgin hend
  simp only [hup,Up.unchecked,Up.uncounted,Up.inFlight] at hin hgin hdin hpass
  split_ifs at h with hg
  · cases h
    refine ⟨fun hb => (by cases hb),⟨hin,fun _ => hgin,?_⟩,⟨hout,hgout,hdout⟩,?_⟩
    · simp only [Up.inFlight]
      omega
    · exact checkTrafficLimits_mono le_rfl (by dsimp only; omega) (hpass hg.1)
  · cases h
    refine ⟨fun hb => (by cases hb),⟨hin,fun _ => ?_,hdin⟩,⟨hout,hgout,hdout⟩,hok⟩
    simp only [Up.unchecked,Up.uncounted]
    omega

lemma fair_upWritten {k : ℕ} (h : t.act p (.upWritten k) = some (t',d)) : Fair p t' := by
  simp only [act] at h
  split at h
  swap
  · cases h
  rename_i n hup
  obtain ⟨hphase,⟨hin,hgin,hdin⟩,⟨hout,hgout,hdout⟩,hok⟩ := hf
  have hgin := hgin (ended_eq_false_of_up (by simp [hup]))
  simp only [hup,Up.unchecked,Up.uncounted,Up.inFlight] at hin hgin hdin
  split_ifs at h with hk hlt
  all_goals
    cases h
    refine ⟨fun hb => (by cases hb),⟨hin,fun _ => hgin,?_⟩,⟨hout,hgout,hdout⟩,hok⟩
    simp only [wroteUp,Up.inFlight]
    omega

lemma fair_downRead {n : ℕ} (hc : t.clean p (.downRead n) = true)
    (h : t.act p (.downRead n) = some (t',d)) : Fair p t' := by
  simp only [clean,decide_eq_true_eq] at hc
  simp only [act] at h
  split at h
  swap
  · cases h
  rename_i hdown
  cases h
  obtain ⟨hphase,⟨hin,hgin,hdin⟩,⟨hout,hgout,hdout⟩,hok⟩ := hf
  have hgin := hgin (ended_eq_false_of_down (by simp [hdown]))
  simp only [hdown,Down.unchecked,Down.inFlight] at hphase hgout hdout
  simp only [countOut_of_lt hc]
  refine ⟨fun hb => absurd (hphase hb) (by simp),⟨hin,fun _ => hgin,hdin⟩,⟨hc,?_,hdout⟩,hok⟩
  simp only [Down.unchecked]
  omega

lemma fair_downCheck (hc : t.clean p (.downCheck budgetExceeded) = true)
    (h : t.act p (.downCheck budgetExceeded) = some (t',d)) : Fair p t' := by
  simp only [clean,decide_eq_true_eq] at hc
  simp only [act] at h
  split at h
  swap
  · cases h
  rename_i n hdown
  have hend := ended_eq_false_of_down (t := t) (by simp [hdown])
  have hbegun : t.up.begun = true := by
    by_contra hb
    have := hf.phase (eq_false_of_not_eq_true hb)
    rw [hdown] at this
    cases this
  have huncounted : t.up.uncounted = 0 := by
    cases hup : t.up <;> simp [hup] at hbegun ⊢
  have hpass := granted_of_check hf hend huncounted hc
  obtain ⟨hphase,⟨hin,hgin,hdin⟩,⟨hout,hgout,hdout⟩,hok⟩ := hf
  have hgin := hgin hend
  simp only [hdown,Down.unchecked,Down.inFlight] at hphase hgout hdout hpass
  split_ifs at h with hg
  · cases h
    refine ⟨fun hb => absurd (hphase hb) (by simp),⟨hin,fun _ => hgin,hdin⟩,⟨hout,hgout,?_⟩,?_⟩
    · simp only [Down.inFlight]
      omega
    · exact checkTrafficLimits_mono (by dsimp only; omega) le_rfl hpass
  · cases h
    refine ⟨fun hb => absurd (hphase hb) (by simp),⟨hin,fun _ => hgin,hdin⟩,⟨hout,?_,hdout⟩,hok⟩
    simp only [Down.unchecked]
    omega

lemma fair_downSent {k : ℕ} (h : t.act p (.downSent k) = some (t',d)) : Fair p t' := by
  simp only [act] at h
  split at h
  swap
  · cases h
  rename_i n hdown
  obtain ⟨hphase,⟨hin,hgin,hdin⟩,⟨hout,hgout,hdout⟩,hok⟩ := hf
  have hgin := hgin (ended_eq_false_of_down (by simp [hdown]))
  simp only [hdown,Down.unchecked,Down.inFlight] at hphase hgout hdout
  split_ifs at h with hk hlt
  all_goals
    cases h
    refine ⟨fun hb => absurd (hphase hb) (by simp),⟨hin,fun _ => hgin,hdin⟩,⟨hout,hgout,?_⟩,hok⟩
    simp only [wroteDown,Down.inFlight]
    omega

lemma fair_quit (h : t.act p .quit = some (t',d)) : Fair p t' := by
  obtain ⟨hphase,⟨hin,hgin,hdin⟩,⟨hout,hgout,hdout⟩,hok⟩ := hf
  have hact : t' = { t with up := .ended, down := .ended } := by
    simp only [act] at h
    split at h <;> cases h <;> rfl
  subst hact
  refine ⟨fun hb => (by cases hb),⟨?_,fun hend => (by cases hend),?_⟩,⟨hout,?_,?_⟩,hok⟩
  · simp only [Up.uncounted]
    omega
  · simp only [Up.inFlight]
    omega
  · simp only [Down.unchecked]
    omega
  · simp only [Down.inFlight]
    omega

lemma fair_upEnd (h : t.act p .upEnd = some (t',d)) : Fair p t' := by
  obtain ⟨hphase,⟨hin,hgin,hdin⟩,⟨hout,hgout,hdout⟩,hok⟩ := hf
  obtain ⟨hact,hnot,hzero⟩ : t' = { t with up := .ended } ∧ t.up ≠ .ended ∧ t.up.uncounted = 0 := by
    simp only [act] at h
    split at h <;> cases h <;> simp_all
  subst hact
  have hgin := hgin (ended_eq_false_of_up hnot)
  refine ⟨fun hb => (by cases hb),⟨?_,fun _ => ?_,?_⟩,⟨hout,hgout,hdout⟩,hok⟩
  · simp only [Up.uncounted]
    omega
  · simp only [Up.unchecked,Up.uncounted]
    omega
  · simp only [Up.inFlight]
    omega

lemma fair_downEnd (h : t.act p .downEnd = some (t',d)) : Fair p t' := by
  obtain ⟨hphase,⟨hin,hgin,hdin⟩,⟨hout,hgout,hdout⟩,hok⟩ := hf
  obtain ⟨hact,hnot,hbegun⟩ : t' = { t with down := .ended } ∧ t.down ≠ .ended ∧
      t.down ≠ .notYet := by
    simp only [act] at h
    split at h <;> cases h <;> simp_all
  subst hact
  have hgin := hgin (ended_eq_false_of_down hnot)
  refine ⟨fun hb => absurd (hphase hb) hbegun,⟨hin,fun _ => hgin,hdin⟩,⟨hout,?_,?_⟩,hok⟩
  · simp only [Down.unchecked]
    omega
  · simp only [Down.inFlight]
    omega

lemma fair_act {a : Act} (hc : t.clean p a = true) (h : t.act p a = some (t',d)) : Fair p t' := by
  cases a with
  | quit => exact fair_quit hf h
  | start => exact fair_start hf h
  | initial n early => exact fair_initial hf hc h
  | initialWritten k => exact fair_initialWritten hf h
  | upRead n => exact fair_upRead hf hc h
  | upCheck budgetExceeded => exact fair_upCheck hf h
  | upWritten k => exact fair_upWritten hf h
  | upEnd => exact fair_upEnd hf h
  | downRead n => exact fair_downRead hf hc h
  | downCheck budgetExceeded => exact fair_downCheck hf hc h
  | downSent k => exact fair_downSent hf h
  | downEnd => exact fair_downEnd hf h

end

lemma act_of_ended {a : Act} (hend : t.ended = true) : t.act p a = none := by
  simp only [ended,and_eq_true,decide_eq_true_eq] at hend
  cases a <;> simp [act,hend.1,hend.2]

end

/-! What the session keeps to, as long as its tunnels do not overlap. -/

structure Kept (p : StoredPolicy) (s : Session) : Prop where
  fair : ∀ (i : ℕ) (t : Relay), s.relays[i]? = some t → Fair p t
  lone : ∀ (i j : ℕ) (t u : Relay), s.relays[i]? = some t → s.relays[j]? = some u →
    t.ended = false → u.ended = false → i = j
  covered : ∀ (i : ℕ) (t : Relay), s.relays[i]? = some t → t.ended = false →
    s.total.bytesIn ≤ t.base.bytesIn+t.delivered.bytesIn ∧
      s.total.bytesOut ≤ t.base.bytesOut+t.delivered.bytesOut

lemma kept_init (p : StoredPolicy) (row : Traffic) : Kept p (.init row) :=
  ⟨by simp [Session.init],by simp [Session.init],by simp [Session.init]⟩

variable {s : Session}

lemma Kept.set {p : StoredPolicy} (h : Kept p s) {t' : Relay}
    (hi : s.relays[i]? = some t) (hfair : Fair p t') (hend : t'.ended = false → t.ended = false)
    {d : Traffic} (hbase : t'.base = t.base) (hdelivered : t'.delivered = t.delivered.add d)
    (hd : t.ended = true → d = ⟨0,0⟩) (row : Traffic) :
    Kept p { s with relays := s.relays.set i t', delivered := s.delivered.add d, row := row } := by
  -- a relay of the new list that still runs has run before
  have hback : ∀ (j : ℕ) (u : Relay), (s.relays.set i t')[j]? = some u → u.ended = false →
      ∃ v, s.relays[j]? = some v ∧ v.ended = false := by
    intro j u hu hrun
    rcases Census.getElem?_set_cases hu with ⟨rfl,rfl⟩ | ⟨_,hu⟩
    · exact ⟨t,hi,hend hrun⟩
    · exact ⟨u,hu,hrun⟩
  refine ⟨fun j u hu => ?_,fun j k u v hu hv hru hrv => ?_,fun j u hu hrun => ?_⟩
  · rcases Census.getElem?_set_cases hu with ⟨rfl,rfl⟩ | ⟨_,hu⟩
    · exact hfair
    · exact h.fair j u hu
  · obtain ⟨u',hu',hru'⟩ := hback j u hu hru
    obtain ⟨v',hv',hrv'⟩ := hback k v hv hrv
    exact h.lone j k u' v' hu' hv' hru' hrv'
  · rcases Census.getElem?_set_cases hu with ⟨rfl,rfl⟩ | ⟨hne,hu⟩
    · have hcov := h.covered j t hi (hend hrun)
      rw [hbase,hdelivered]
      simp only [Session.total,Traffic.add] at hcov ⊢
      omega
    · have hcov := h.covered j u hu hrun
      cases ht : t.ended with
      | true =>
        rw [hd ht]
        exact hcov
      | false => exact absurd (h.lone j i u t hu hi hrun ht) hne

variable {p : StoredPolicy}

lemma Kept.report (h : Kept p s)
    (hi : s.relays[i]? = some t) (flushed : Traffic) (pending : Option Traffic) (row : Traffic) :
    Kept p { s with
      relays := s.relays.set i { t with flushed := flushed, pending := pending }, row := row } := by
  have hf := h.fair i t hi
  have hfair : Fair p { t with flushed := flushed, pending := pending } :=
    ⟨hf.phase,⟨hf.up.lt,hf.up.granted,hf.up.delivered⟩,
      ⟨hf.down.lt,hf.down.granted,hf.down.delivered⟩,
      hf.within⟩
  exact h.set hi hfair id rfl (d := ⟨0,0⟩) rfl (fun _ => rfl) row

lemma kept_step {s' : Session} {a : SessionLabel} (hk : Kept p s)
    (hc : s.clean p a = true) (h : s.step p a = some s') : Kept p s' := by
  cases a with
  | openTunnel =>
    simp only [Session.clean,and_eq_true,List.all_eq_true,decide_eq_true_eq] at hc
    obtain ⟨⟨⟨⟨hended,hin⟩,hout⟩,hinlt⟩,houtlt⟩ := hc
    simp only [Session.step] at h
    split_ifs at h with hcheck
    cases h
    -- all earlier tunnels have ended, so one that runs is the new one
    have hnew : ∀ (i : ℕ) (t : Relay), (s.relays++[.opened s.row])[i]? = some t → t.ended = false →
        i = s.relays.length ∧ t = .opened s.row := by
      intro i t ht hrun
      rcases Census.getElem?_concat_cases ht with ht | hnew
      · rw [hended t (List.mem_of_getElem? ht)] at hrun
        cases hrun
      · exact hnew
    refine ⟨fun i t ht => ?_,fun i j t u ht hu hrt hru => ?_,fun i t ht hrun => ?_⟩
    · rcases Census.getElem?_concat_cases ht with ht | ⟨_,rfl⟩
      · exact hk.fair i t ht
      · exact fair_opened hinlt houtlt hcheck
    · exact (hnew i t ht hrt).1.trans (hnew j u hu hru).1.symm
    · obtain ⟨_,rfl⟩ := hnew i t ht hrun
      exact ⟨hin,hout⟩
  | act i a =>
    obtain ⟨t,hi,h⟩ := Option.bind_eq_some_iff.mp h
    obtain ⟨⟨t',d⟩,hact,rfl⟩ := Option.map_eq_some_iff.mp h
    simp only [Session.clean,hi,Option.all_some] at hc
    have hrun : t.ended = false := by
      by_contra hend
      rw [act_of_ended (eq_true_of_not_eq_false hend)] at hact
      cases hact
    obtain ⟨hbase,hdelivered⟩ := act_delivered hact
    exact hk.set hi (fair_act (hk.fair i t hi) hc hact) (fun _ => hrun) hbase hdelivered
      (fun hend => absurd hend (by simp [hrun])) s.row
  | take i c =>
    obtain ⟨t,hi,h⟩ := Option.bind_eq_some_iff.mp h
    split_ifs at h
    cases h
    exact hk.report hi c _ s.row
  | reply i applied =>
    obtain ⟨t,hi,h⟩ := Option.bind_eq_some_iff.mp h
    obtain ⟨d,hd,rfl⟩ := Option.map_eq_some_iff.mp h
    exact hk.report hi t.flushed none _

def SessionLabel.delivers : SessionLabel → Bool
  | .act _ (.initialWritten _) | .act _ (.upWritten _) | .act _ (.downSent _) => true
  | _ => false

lemma clean_of_delivers {a : SessionLabel} (h : a.delivers = true) : s.clean p a = true := by
  cases a with
  | act i a =>
    cases hi : s.relays[i]? with
    | none => simp [Session.clean,hi]
    | some t => cases a <;> simp_all [Session.clean,SessionLabel.delivers,clean]
  | _ => cases h

/-- In a run of clean steps no delivery makes the bytes of the session fail the check. -/
theorem limits_kept (p : StoredPolicy) (row : Traffic) (s s' : Session) (a : SessionLabel)
    (h : Run (Session.step p) (fun s a => s.clean p a = true) (.init row) s)
    (hstep : s.step p a = some s') (hdelivers : a.delivers = true) :
    checkTrafficLimits p s'.total.bytesIn s'.total.bytesOut = .ok () := by
  have hk : Kept p s := h.invariant (fun _ _ _ hI hok hs => kept_step hI hok hs) (kept_init p row)
  have hk' : Kept p s' := kept_step hk (clean_of_delivers hdelivers) hstep
  cases a with
  | act i a =>
    obtain ⟨t,hi,hstep⟩ := Option.bind_eq_some_iff.mp hstep
    obtain ⟨⟨t',d⟩,hact,rfl⟩ := Option.map_eq_some_iff.mp hstep
    have hrun : t.ended = false := by
      by_contra hend
      rw [act_of_ended (eq_true_of_not_eq_false hend)] at hact
      cases hact
    -- what the session has delivered is within what its one tunnel was granted
    have hcov := hk.covered i t hi hrun
    have hfair := hk'.fair i t' (List.getElem?_set_self (List.getElem?_eq_some_iff.mp hi).1)
    obtain ⟨hbase,hdelivered⟩ := act_delivered hact
    have hin := hfair.up.delivered
    have hout := hfair.down.delivered
    refine checkTrafficLimits_mono ?_ ?_ hfair.within
    · rw [hdelivered] at hin
      rw [hbase]
      simp only [Session.total,Traffic.add] at hcov hin ⊢
      omega
    · rw [hdelivered] at hout
      rw [hbase]
      simp only [Session.total,Traffic.add] at hcov hout ⊢
      omega
  | _ => cases hdelivers

/-! A session that may move 100 bytes in each direction. -/

def hundredPolicy : StoredPolicy := ⟨none,none,some 100,some 100,none,none,false,false,none⟩

def upChunk (i n : ℕ) : List SessionLabel :=
  [.act i (.upRead n),.act i (.upCheck false),.act i (.upWritten n)]

def finish (i : ℕ) (c : Traffic) : List SessionLabel :=
  [.act i .upEnd,.act i .downEnd,.take i c,.reply i true]

theorem limits_kept_two_tunnels : ∃ s s',
    Run (Session.step hundredPolicy) (fun s a => s.clean hundredPolicy a = true) (.init ⟨0,0⟩) s ∧
      s.step hundredPolicy (.act 1 (.upWritten 40)) = some s' ∧ s'.total = ⟨100,0⟩ ∧
      checkTrafficLimits hundredPolicy s'.total.bytesIn s'.total.bytesOut = .ok () := by
  obtain ⟨s,hr,hs⟩ : ∃ s, Run (Session.step hundredPolicy)
      (fun s a => s.clean hundredPolicy a = true) (.init ⟨0,0⟩) s ∧
      (s.step hundredPolicy (.act 1 (.upWritten 40))).any (fun s' => s'.total = ⟨100,0⟩) = true :=
    exists_run (List.flatten [[SessionLabel.openTunnel,.act 0 .start],upChunk 0 60,finish 0 ⟨60,0⟩,
      [.openTunnel,.act 1 .start,.act 1 (.upRead 40),.act 1 (.upCheck false)]]) (by decide +kernel)
  obtain ⟨s',hstep,htotal⟩ := (Option.any_eq_true _ _).mp hs
  exact ⟨s,s',hr,hstep,of_decide_eq_true htotal,limits_kept _ _ s s' _ hr hstep rfl⟩

theorem limits_passed :
    (∃ s, Run (Session.step hundredPolicy) anyStep (.init ⟨0,0⟩) s ∧ s.total = ⟨0,200⟩) ∧
    (∃ s, Run (Session.step hundredPolicy) anyStep (.init ⟨0,0⟩) s ∧ s.total = ⟨120,0⟩) ∧
    (∃ s, Run (Session.step hundredPolicy) anyStep (.init ⟨0,0⟩) s ∧ s.total = ⟨200,0⟩) ∧
    checkTrafficLimits hundredPolicy 0 200 ≠ .ok () ∧
    checkTrafficLimits hundredPolicy 120 0 ≠ .ok () ∧
    checkTrafficLimits hundredPolicy 200 0 ≠ .ok () := by
  refine ⟨?_,?_,?_,by decide,by decide,by decide⟩
  · exact exists_run [SessionLabel.openTunnel,.act 0 .start,.act 0 (.downRead 200),
      .act 0 (.downCheck false),.act 0 (.downSent 200)] (by decide +kernel)
  · exact exists_run (List.flatten [[SessionLabel.openTunnel,.openTunnel,.act 0 .start,
      .act 1 .start],upChunk 0 60,upChunk 1 60]) (by decide +kernel)
  · exact exists_run [SessionLabel.openTunnel,.act 0 (.initial 200 true),
      .act 0 (.initialWritten 200)] (by decide +kernel)

end PirateServer.Usage
