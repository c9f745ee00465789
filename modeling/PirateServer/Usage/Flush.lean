import PirateServer.Lib.Run
import PirateServer.ProxySession.Policy

/-! The usage of one tunnel on its way into the session row: a checkpoint task writes deltas from
time to time, and a last write follows when the tunnel has ended. A step is one load of a counter,
one section under the lock of the flush counters up to the database call, or the end of that call.
The call of the checkpoint task may fail or be aborted; the database may or may not have done the
update. -/
namespace PirateServer.Usage
open Lib ProxySession Bool

/-- The counters of a tunnel: `bytes_in`, `bytes_out` and the active time. -/
structure Counters where
  bi : ℕ
  bo : ℕ
  activeMs : ℕ
  deriving DecidableEq, Repr

structure TunnelFlushCounters where
  lastFlushedBi : ℕ
  lastFlushedBo : ℕ
  lastFlushedActiveMs : ℕ
  deriving DecidableEq, Repr

/-- `(delta_in, delta_out, delta_active_ms)`, of types `u64`, `u64` and `i64`. -/
structure Deltas where
  deltaIn : ℕ
  deltaOut : ℕ
  deltaActiveMs : ℤ
  deriving DecidableEq, Repr

/-- `clamp(i64::MIN, i64::MAX)`. -/
def clampI64 (x : ℤ) : ℤ := max (-2^63) (min x (2^63-1))

def TunnelFlushCounters.takeDeltas (f : TunnelFlushCounters) (c : Counters) :
    Deltas × TunnelFlushCounters :=
  (⟨c.bi-f.lastFlushedBi,c.bo-f.lastFlushedBo,clampI64 (c.activeMs-f.lastFlushedActiveMs)⟩,
    ⟨c.bi,c.bo,c.activeMs⟩)

def Deltas.isZero (d : Deltas) : Bool :=
  d.deltaIn = 0 && d.deltaOut = 0 && d.deltaActiveMs = 0

/-- What is added to `bytes_in`, `bytes_out` and `active_ms` of a row. -/
abbrev Totals := ℤ × ℤ × ℤ

def Counters.totals (c : Counters) : Totals := (c.bi,c.bo,c.activeMs)

def TunnelFlushCounters.totals (f : TunnelFlushCounters) : Totals :=
  (f.lastFlushedBi,f.lastFlushedBo,f.lastFlushedActiveMs)

/-- The three values that the update binds. -/
def Deltas.totals (d : Deltas) : Totals := (asI64 d.deltaIn,asI64 d.deltaOut,d.deltaActiveMs)

/-- The update of `increment_grpc_proxy_session_traffic`: a revoked row does not match. -/
def incrementTraffic (revoked : Bool) (d : Deltas) (added : Totals) : Totals :=
  if revoked then added else added+d.totals

/-- Where the checkpoint task is. -/
inductive Checkpoint
  | idle
  | loadedIn (bi : ℕ)
  | loadedOut (bi bo : ℕ)
  | loaded (c : Counters)
  | calling (d : Deltas)
  deriving DecidableEq, Repr

/-- Where `flush_managed_tunnel_end` is. -/
inductive Final
  | notYet
  | loaded (c : Counters)
  | calling (d : Deltas)
  | ended (ok : Bool)
  deriving DecidableEq, Repr

/-- The section under the lock has been entered. -/
def Final.begun : Final → Bool
  | notYet | loaded _ => false
  | calling _ | ended _ => true

/-- `added` is what the updates of this tunnel have added to the row. -/
structure Tunnel where
  live : Counters
  flushed : TunnelFlushCounters
  checkpoint : Checkpoint
  aborted : Bool
  final : Final
  revoked : Bool
  added : Totals
  deriving DecidableEq, Repr

def Tunnel.init : Tunnel := ⟨⟨0,0,0⟩,⟨0,0,0⟩,.idle,false,.notYet,false,0⟩

/-- `applied` says whether the database has done an update whose success is not reported. -/
inductive Label
  | count (c : Counters)
  | loadIn
  | loadOut
  | loadActive
  | lock
  | reply (ok applied : Bool)
  | abort
  | cancel (applied : Bool)
  | revoke
  | finalLoad
  | finalLock
  | finalReply (ok applied : Bool)
  deriving DecidableEq, Repr

namespace Tunnel

/-- The lock of the flush counters is held across the database call. -/
def locked (t : Tunnel) : Bool :=
  match t.checkpoint,t.final with
  | .calling _,_ => true
  | _,.calling _ => true
  | _,_ => false

/-- The row after a call that the database has or has not followed. -/
def addedBy (t : Tunnel) (applied : Bool) (d : Deltas) : Totals :=
  if applied then incrementTraffic t.revoked d t.added else t.added

def step (t : Tunnel) : Label → Option Tunnel
  | .count c =>
    if t.aborted = false ∧ t.live.bi ≤ c.bi ∧ t.live.bo ≤ c.bo ∧ t.live.activeMs ≤ c.activeMs ∧
        c.bi < 2^64 ∧ c.bo < 2^64 ∧ c.activeMs < 2^64 then
      some { t with live := c }
    else none
  | .loadIn =>
    match t.checkpoint,t.aborted with
    | .idle,false => some { t with checkpoint := .loadedIn t.live.bi }
    | _,_ => none
  | .loadOut =>
    match t.checkpoint with
    | .loadedIn bi => some { t with checkpoint := .loadedOut bi t.live.bo }
    | _ => none
  | .loadActive =>
    match t.checkpoint with
    | .loadedOut bi bo => some { t with checkpoint := .loaded ⟨bi,bo,t.live.activeMs⟩ }
    | _ => none
  | .lock =>
    match t.checkpoint,t.locked with
    | .loaded c,false =>
      let (d,flushed) := t.flushed.takeDeltas c
      some { t with flushed := flushed, checkpoint := if d.isZero then .idle else .calling d }
    | _,_ => none
  | .reply ok applied =>
    match t.checkpoint with
    | .calling d => some { t with added := t.addedBy (ok || applied) d, checkpoint := .idle }
    | _ => none
  | .abort => if t.aborted = false then some { t with aborted := true } else none
  | .cancel applied =>
    match t.aborted,t.checkpoint with
    | true,.calling d => some { t with added := t.addedBy applied d, checkpoint := .idle }
    | true,_ => some { t with checkpoint := .idle }
    | false,_ => none
  | .revoke => some { t with revoked := true }
  | .finalLoad =>
    match t.aborted,t.final with
    | true,.notYet => some { t with final := .loaded t.live }
    | _,_ => none
  | .finalLock =>
    match t.final,t.locked with
    | .loaded c,false =>
      let (d,flushed) := t.flushed.takeDeltas c
      some { t with flushed := flushed, final := if d.isZero then .ended true else .calling d }
    | _,_ => none
  | .finalReply ok applied =>
    match t.final with
    | .calling d => some { t with added := t.addedBy (ok || applied) d, final := .ended ok }
    | _ => none

/-- The differences fit into an `i64`. -/
def fits (t : Tunnel) (c : Counters) : Bool :=
  c.bi-t.flushed.lastFlushedBi < 2^63 && c.bo-t.flushed.lastFlushedBo < 2^63 &&
    c.activeMs-t.flushed.lastFlushedActiveMs < 2^63

/-- The step loses nothing: an update whose outcome is uncertain has been done, the row is not
revoked when an update is done, differences fit, and the checkpoint task does not come back to
the lock after the last flush. -/
def clean (t : Tunnel) : Label → Bool
  | .lock => t.final.begun = false && (match t.checkpoint with | .loaded c => t.fits c | _ => true)
  | .reply ok applied => (ok || applied) && !t.revoked
  | .cancel applied =>
    match t.checkpoint with
    | .calling _ => applied && !t.revoked
    | _ => true
  | .finalLock => match t.final with | .loaded c => t.fits c | _ => true
  | .finalReply _ _ => !t.revoked
  | _ => true

end Tunnel

open Tunnel

/-- Everything a step does. -/
inductive Move (t : Tunnel) : Label → Tunnel → Prop
  | count {c} (running : t.aborted = false) (bi : t.live.bi ≤ c.bi) (bo : t.live.bo ≤ c.bo)
      (activeMs : t.live.activeMs ≤ c.activeMs) : Move t (.count c) { t with live := c }
  | loadIn (idle : t.checkpoint = .idle) (running : t.aborted = false) :
      Move t .loadIn { t with checkpoint := .loadedIn t.live.bi }
  | loadOut {bi} (pc : t.checkpoint = .loadedIn bi) :
      Move t .loadOut { t with checkpoint := .loadedOut bi t.live.bo }
  | loadActive {bi bo} (pc : t.checkpoint = .loadedOut bi bo) :
      Move t .loadActive { t with checkpoint := .loaded ⟨bi,bo,t.live.activeMs⟩ }
  | lock {c} (pc : t.checkpoint = .loaded c) (free : t.locked = false) :
      Move t .lock { t with
        flushed := (t.flushed.takeDeltas c).2
        checkpoint := if (t.flushed.takeDeltas c).1.isZero then .idle
          else .calling (t.flushed.takeDeltas c).1 }
  | reply {d ok applied} (pc : t.checkpoint = .calling d) :
      Move t (.reply ok applied) { t with added := t.addedBy (ok || applied) d, checkpoint := .idle }
  | abort (running : t.aborted = false) : Move t .abort { t with aborted := true }
  | cancelCall {d applied} (aborted : t.aborted = true) (pc : t.checkpoint = .calling d) :
      Move t (.cancel applied) { t with added := t.addedBy applied d, checkpoint := .idle }
  | cancelIdle {applied} (aborted : t.aborted = true) (pc : ∀ d, t.checkpoint ≠ .calling d) :
      Move t (.cancel applied) { t with checkpoint := .idle }
  | revoke : Move t .revoke { t with revoked := true }
  | finalLoad (aborted : t.aborted = true) (pc : t.final = .notYet) :
      Move t .finalLoad { t with final := .loaded t.live }
  | finalLock {c} (pc : t.final = .loaded c) (free : t.locked = false) :
      Move t .finalLock { t with
        flushed := (t.flushed.takeDeltas c).2
        final := if (t.flushed.takeDeltas c).1.isZero then .ended true
          else .calling (t.flushed.takeDeltas c).1 }
  | finalReply {d ok applied} (pc : t.final = .calling d) :
      Move t (.finalReply ok applied) { t with added := t.addedBy (ok || applied) d, final := .ended ok }

lemma step_move {t t' : Tunnel} {a : Label} (h : t.step a = some t') : Move t a t' := by
  cases a with
  | count c =>
    simp only [step] at h
    split_ifs at h with hg
    cases h
    exact .count hg.1 hg.2.1 hg.2.2.1 hg.2.2.2.1
  | loadIn =>
    simp only [step] at h
    split at h
    · cases h
      exact .loadIn ‹_› ‹_›
    · cases h
  | loadOut =>
    simp only [step] at h
    split at h
    · cases h
      exact .loadOut ‹_›
    · cases h
  | loadActive =>
    simp only [step] at h
    split at h
    · cases h
      exact .loadActive ‹_›
    · cases h
  | lock =>
    simp only [step] at h
    split at h
    · cases h
      exact .lock ‹_› ‹_›
    · cases h
  | reply ok applied =>
    simp only [step] at h
    split at h
    · cases h
      exact .reply ‹_›
    · cases h
  | abort =>
    simp only [step] at h
    split_ifs at h with hg
    cases h
    exact .abort hg
  | cancel applied =>
    simp only [step] at h
    split at h
    · cases h
      exact .cancelCall ‹_› ‹_›
    · rename_i hab hnot
      cases h
      exact .cancelIdle hab hnot
    · cases h
  | revoke =>
    cases h
    exact .revoke
  | finalLoad =>
    simp only [step] at h
    split at h
    · cases h
      exact .finalLoad ‹_› ‹_›
    · cases h
  | finalLock =>
    simp only [step] at h
    split at h
    · cases h
      exact .finalLock ‹_› ‹_›
    · cases h
  | finalReply ok applied =>
    simp only [step] at h
    split at h
    · cases h
      exact .finalReply ‹_›
    · cases h

/-! What a clean step preserves. -/

variable {t : Tunnel}

lemma takeDeltas_totals {c : Counters} (hbi : t.flushed.lastFlushedBi ≤ c.bi)
    (hbo : t.flushed.lastFlushedBo ≤ c.bo) (ham : t.flushed.lastFlushedActiveMs ≤ c.activeMs)
    (hfits : t.fits c = true) : (t.flushed.takeDeltas c).1.totals = c.totals-t.flushed.totals := by
  simp only [fits,and_eq_true,decide_eq_true_eq] at hfits
  obtain ⟨⟨h1,h2⟩,h3⟩ := hfits
  simp only [TunnelFlushCounters.takeDeltas,Deltas.totals,Counters.totals,
    TunnelFlushCounters.totals,asI64_of_lt h1,asI64_of_lt h2,clampI64,Prod.mk_sub_mk,Prod.mk.injEq]
  omega

lemma isZero_totals {d : Deltas} (h : d.isZero = true) : d.totals = 0 := by
  simp only [Deltas.isZero,and_eq_true,decide_eq_true_eq] at h
  simp [Deltas.totals,h.1.1,h.1.2,h.2,asI64_of_lt]

/-- What has been taken from the counters and not yet been added. -/
def Checkpoint.pending : Checkpoint → Totals
  | calling d => d.totals
  | _ => 0

def Final.pending : Final → Totals
  | calling d => d.totals
  | _ => 0

def Checkpoint.Between (f : TunnelFlushCounters) (live : Counters) : Checkpoint → Prop
  | loadedIn bi => f.lastFlushedBi ≤ bi ∧ bi ≤ live.bi
  | loadedOut bi bo => (f.lastFlushedBi ≤ bi ∧ bi ≤ live.bi) ∧ f.lastFlushedBo ≤ bo ∧ bo ≤ live.bo
  | loaded c =>
    (f.lastFlushedBi ≤ c.bi ∧ c.bi ≤ live.bi) ∧ (f.lastFlushedBo ≤ c.bo ∧ c.bo ≤ live.bo) ∧
      f.lastFlushedActiveMs ≤ c.activeMs ∧ c.activeMs ≤ live.activeMs
  | idle | calling _ => True

/-- Everything taken from the counters is in the row or on its way there. -/
structure Balanced (t : Tunnel) : Prop where
  balance : t.final ≠ .ended false →
    t.added+t.checkpoint.pending+t.final.pending = t.flushed.totals
  behind : t.flushed.lastFlushedBi ≤ t.live.bi ∧ t.flushed.lastFlushedBo ≤ t.live.bo ∧
    t.flushed.lastFlushedActiveMs ≤ t.live.activeMs
  between : t.final.begun = false → t.checkpoint.Between t.flushed t.live
  alone : t.final.begun = true → t.checkpoint.pending = 0
  last : t.final.begun = true → t.flushed.totals = t.live.totals
  loaded : ∀ c, t.final = .loaded c → c = t.live
  stopped : t.aborted = false → t.final = .notYet

lemma balanced_init : Balanced .init where
  balance _ := rfl
  behind := ⟨le_rfl,le_rfl,le_rfl⟩
  between _ := trivial
  alone _ := rfl
  last _ := rfl
  loaded c h := by cases h
  stopped _ := rfl

lemma addedBy_eq {applied : Bool} (d : Deltas) (happlied : applied = true)
    (hrevoked : t.revoked = false) : t.addedBy applied d = t.added+d.totals := by
  simp [addedBy,incrementTraffic,happlied,hrevoked]

lemma pending_call (d : Deltas) :
    (if d.isZero then Checkpoint.idle else .calling d).pending = d.totals := by
  split_ifs with h
  · exact (isZero_totals h).symm
  · rfl

lemma pending_finalCall (d : Deltas) :
    (if d.isZero then Final.ended true else .calling d).pending = d.totals := by
  split_ifs with h
  · exact (isZero_totals h).symm
  · rfl

lemma begun_finalCall (d : Deltas) :
    (if d.isZero then Final.ended true else .calling d).begun = true := by
  split_ifs <;> rfl

lemma pending_of_free (h : t.locked = false) : t.checkpoint.pending = 0 ∧ t.final.pending = 0 := by
  unfold locked at h
  split at h
  · cases h
  · cases h
  rename_i h1 h2
  constructor
  · cases hc : t.checkpoint with
    | calling d => exact absurd hc (h1 d)
    | _ => rfl
  · cases hf : t.final with
    | calling d => exact absurd hf (h2 d)
    | _ => rfl

lemma Checkpoint.Between.mono {p : Checkpoint} {f : TunnelFlushCounters} {live live' : Counters}
    (h : p.Between f live) (hbi : live.bi ≤ live'.bi) (hbo : live.bo ≤ live'.bo)
    (ham : live.activeMs ≤ live'.activeMs) : p.Between f live' := by
  cases p with
  | idle => trivial
  | loadedIn bi => exact ⟨h.1,h.2.trans hbi⟩
  | loadedOut bi bo => exact ⟨⟨h.1.1,h.1.2.trans hbi⟩,h.2.1,h.2.2.trans hbo⟩
  | loaded c =>
    obtain ⟨⟨h1,h1'⟩,⟨h2,h2'⟩,h3,h3'⟩ := h
    exact ⟨⟨h1,h1'.trans hbi⟩,⟨h2,h2'.trans hbo⟩,h3,h3'.trans ham⟩
  | calling d => trivial

lemma between_call (d : Deltas) (f : TunnelFlushCounters) (live : Counters) :
    (if d.isZero then Checkpoint.idle else .calling d).Between f live := by
  split_ifs <;> trivial

lemma balanced_step {t' : Tunnel} {a : Label} (hb : Balanced t) (hc : t.clean a = true)
    (h : t.step a = some t') : Balanced t' := by
  obtain ⟨hbal,hbeh,hbet,halone,hlast,hloaded,hstopped⟩ := hb
  cases step_move h with
  | count running bi bo activeMs =>
    have hnot := hstopped running
    refine ⟨hbal,?_,fun hf => (hbet hf).mono bi bo activeMs,halone,fun hf => ?_,fun c hc =>
      ?_,hstopped⟩
    · exact ⟨hbeh.1.trans bi,hbeh.2.1.trans bo,hbeh.2.2.trans activeMs⟩
    · rw [hnot] at hf
      cases hf
    · rw [hnot] at hc
      cases hc
  | loadIn idle running =>
    rw [idle] at hbal
    exact ⟨hbal,hbeh,fun _ => ⟨hbeh.1,le_rfl⟩,fun _ => rfl,hlast,hloaded,hstopped⟩
  | loadOut pc =>
    rw [pc] at hbal hbet
    exact ⟨hbal,hbeh,fun hf => ⟨hbet hf,hbeh.2.1,le_rfl⟩,fun _ => rfl,hlast,hloaded,hstopped⟩
  | loadActive pc =>
    rw [pc] at hbal hbet
    exact ⟨hbal,hbeh,fun hf => ⟨(hbet hf).1,(hbet hf).2,hbeh.2.2,le_rfl⟩,fun _ => rfl,hlast,hloaded,
      hstopped⟩
  | @lock c pc free =>
    simp only [clean,pc,and_eq_true,decide_eq_true_eq] at hc
    obtain ⟨hnot,hfits⟩ := hc
    rw [pc] at hbet
    obtain ⟨⟨h1,h1'⟩,⟨h2,h2'⟩,h3,h3'⟩ := hbet hnot
    refine ⟨fun hf => ?_,⟨h1',h2',h3'⟩,fun _ => between_call _ _ _,fun hf => ?_,
      fun hf => ?_,hloaded,
      hstopped⟩
    · -- nothing was pending, so the row had everything up to the last flush
      have hfree := pending_of_free free
      have hrow := hbal hf
      rw [hfree.1,hfree.2,add_zero,add_zero] at hrow
      simp only [pending_call,hfree.2,takeDeltas_totals h1 h2 h3 hfits,hrow,add_zero,add_sub_cancel]
      rfl
    · rw [hnot] at hf
      cases hf
    · rw [hnot] at hf
      cases hf
  | abort running => exact ⟨hbal,hbeh,hbet,halone,hlast,hloaded,fun hf => (by cases hf)⟩
  | @reply d _ _ pc | @cancelCall d _ _ pc =>
    simp only [clean,pc,and_eq_true,not_eq_true'] at hc
    rw [pc] at hbal
    refine ⟨fun hf => ?_,hbeh,fun _ => trivial,fun _ => rfl,hlast,hloaded,hstopped⟩
    have hrow := hbal hf
    simpa only [addedBy_eq d hc.1 hc.2,Checkpoint.pending,add_zero] using hrow
  | cancelIdle aborted pc =>
    have hzero : t.checkpoint.pending = 0 := by
      cases hp : t.checkpoint with
      | calling d => exact absurd hp (pc d)
      | _ => rfl
    rw [hzero] at hbal
    exact ⟨hbal,hbeh,fun _ => trivial,fun _ => rfl,hlast,hloaded,hstopped⟩
  | revoke => exact ⟨hbal,hbeh,hbet,halone,hlast,hloaded,hstopped⟩
  | finalLoad aborted pc =>
    rw [pc] at hbal hbet
    refine ⟨fun _ => hbal (by simp),hbeh,fun _ => hbet rfl,fun hf => ?_,fun hf => ?_,fun c hc => ?_,
      fun hf => ?_⟩
    · cases hf
    · cases hf
    · cases hc
      rfl
    · rw [aborted] at hf
      cases hf
  | @finalLock c pc free =>
    simp only [clean,pc] at hc
    obtain rfl := hloaded c pc
    have hfree := pending_of_free free
    refine ⟨fun _ => ?_,⟨le_rfl,le_rfl,le_rfl⟩,fun hf => ?_,fun _ => hfree.1,fun _ => rfl,
      fun c hc => ?_,fun hf => ?_⟩
    · have hrow := hbal (by simp [pc])
      rw [hfree.1,hfree.2,add_zero,add_zero] at hrow
      simp only [pending_finalCall,hfree.1,takeDeltas_totals hbeh.1 hbeh.2.1 hbeh.2.2 hc,
        hrow,add_zero,
        add_sub_cancel]
      rfl
    · rw [begun_finalCall] at hf
      cases hf
    · have hbegun := begun_finalCall (t.flushed.takeDeltas t.live).1
      dsimp only at hc
      rw [hc] at hbegun
      cases hbegun
    · rw [hstopped hf] at pc
      cases pc
  | @finalReply d ok applied pc =>
    simp only [clean,not_eq_true'] at hc
    rw [pc] at hbal halone hlast
    refine ⟨fun hf => ?_,hbeh,fun hf => ?_,fun _ => halone rfl,fun _ => hlast rfl,fun c hc => ?_,
      fun hf => ?_⟩
    · -- a call that is not reported as failed has been followed
      have hok : (ok || applied) = true := by
        cases ok with
        | true => rfl
        | false => exact absurd rfl hf
      have hrow := hbal (by simp)
      simp only [halone rfl,Final.pending,add_zero] at hrow
      simpa only [addedBy_eq d hok hc,halone rfl,Final.pending,add_zero] using hrow
    · cases hf
    · cases hc
    · rw [hstopped hf] at pc
      cases pc

/-- In a run of clean steps the updates of a tunnel whose last flush has succeeded have added
exactly its counters. -/
theorem usage_conserved (t : Tunnel)
    (h : Run step (fun t a => t.clean a = true) .init t) (hend : t.final = .ended true) :
    t.added = t.live.totals := by
  have hb : Balanced t := h.invariant (fun _ _ _ hI hok hs => balanced_step hI hok hs) balanced_init
  have hbegun : t.final.begun = true := by rw [hend]; rfl
  have hrow := hb.balance (by simp [hend])
  rw [hb.alone hbegun,hb.last hbegun,hend] at hrow
  simpa [Final.pending] using hrow

/-! A tunnel that moves 300 and 120 bytes, with a checkpoint on the way. -/

def checkpointCall : List Label := [.loadIn,.loadOut,.loadActive,.lock]

def lastFlush : List Label := [.finalLoad,.finalLock,.finalReply true false]

theorem usage_conserved_two_checkpoints :
    ∃ t, Run step (fun t a => t.clean a = true) .init t ∧
      t.final = .ended true ∧ t.live = ⟨300,120,5000⟩ ∧ t.added = t.live.totals := by
  obtain ⟨t,hr,hend,hlive⟩ : ∃ t, Run step (fun t a => t.clean a = true) .init t ∧
      t.final = .ended true ∧ t.live = ⟨300,120,5000⟩ :=
    exists_run (List.flatten [[Label.count ⟨100,50,2000⟩],checkpointCall,
      [.reply true false,.count ⟨250,120,4000⟩],checkpointCall,
      [.count ⟨300,120,5000⟩,.abort,.cancel true],lastFlush]) (by decide +kernel)
  exact ⟨t,hr,hend,hlive,usage_conserved t hr hend⟩

theorem usage_lost :
    (∃ t, Run step anyStep .init t ∧ t.final = .ended true ∧ t.live = ⟨300,120,5000⟩ ∧
      t.added = (200,70,3000)) ∧
    ∃ t, Run step anyStep .init t ∧ t.final = .ended true ∧ t.live = ⟨100,50,2000⟩ ∧
      t.added = 0 := by
  constructor
  · exact exists_run (List.flatten [[Label.count ⟨100,50,2000⟩],checkpointCall,
      [.reply false false,.count ⟨300,120,5000⟩,.abort],lastFlush]) (by decide +kernel)
  · exact exists_run (List.flatten [[Label.count ⟨100,50,2000⟩],checkpointCall,
      [.abort,.cancel false,.finalLoad,.finalLock]]) (by decide +kernel)

end PirateServer.Usage
