import Mathlib

/-! The active time of a tunnel: `ActiveTracker`, which the relays over gRPC and QUIC declare
three times with the same body. Instants are nanoseconds. -/
namespace PirateServer.Usage
open List

structure ActiveTracker where
  last : Option ℕ
  idle : ℕ
  accumMs : ℕ
  deriving DecidableEq, Repr

namespace ActiveTracker

def new (idleSecs : ℕ) : ActiveTracker := ⟨none,max idleSecs 1*10^9,0⟩

/-- The counter has 64 bits; each gap is cut to whole milliseconds before it is added. -/
def bump (now : ℕ) (a : ActiveTracker) : ActiveTracker :=
  match a.last with
  | none => { a with last := some now }
  | some prev =>
    let g := now-prev
    if g ≤ a.idle then
      { a with last := some now, accumMs := (a.accumMs+g/10^6%2^64)%2^64 }
    else { a with last := some now }

def bumps (ts : List ℕ) (a : ActiveTracker) : ActiveTracker := ts.foldl (fun a t => a.bump t) a

end ActiveTracker

def activeGaps (idle prev : ℕ) : List ℕ → List ℕ
  | [] => []
  | t::ts => if t-prev ≤ idle then (t-prev)::activeGaps idle t ts else activeGaps idle t ts

def gapsOf (idle : ℕ) : List ℕ → List ℕ
  | [] => []
  | t::ts => activeGaps idle t ts

def activeNs (idle : ℕ) (ts : List ℕ) : ℕ := (gapsOf idle ts).sum

/-- What the gaps have beyond whole milliseconds stays below one millisecond in total, and the
milliseconds fit into the counter. -/
def Unrounded (idle : ℕ) (ts : List ℕ) : Prop :=
  ((gapsOf idle ts).map (·%10^6)).sum < 10^6 ∧ ((gapsOf idle ts).map (·/10^6)).sum < 2^64

instance (idle : ℕ) (ts : List ℕ) : Decidable (Unrounded idle ts) :=
  inferInstanceAs (Decidable (_ ∧ _))

variable {idle prev : ℕ} {a : ActiveTracker}

lemma sum_eq_millis_add_rest (gaps : List ℕ) :
    gaps.sum = 10^6*(gaps.map (·/10^6)).sum+(gaps.map (·%10^6)).sum := by
  induction gaps with
  | nil => rfl
  | cons g gaps ih =>
    simp only [sum_cons,map_cons]
    omega

lemma accumMs_bumps_of_last (ts : List ℕ) (hlast : a.last = some prev) (hlt : a.accumMs < 2^64) :
    (a.bumps ts).accumMs = (a.accumMs+((activeGaps a.idle prev ts).map (·/10^6)).sum)%2^64 := by
  induction ts generalizing a prev with
  | nil =>
    simp only [ActiveTracker.bumps,foldl_nil,activeGaps,map_nil,sum_nil]
    omega
  | cons t ts ih =>
    have hcons : a.bumps (t::ts) = (a.bump t).bumps ts := rfl
    rw [hcons]
    by_cases hg : t-prev ≤ a.idle
    · have hbump : a.bump t = { a with
          last := some t
          accumMs := (a.accumMs+(t-prev)/10^6%2^64)%2^64 } := by
        simp only [ActiveTracker.bump,hlast,if_pos hg]
      have hrest := ih (a := a.bump t) (show (a.bump t).last = some t by rw [hbump])
        (by rw [hbump]; exact Nat.mod_lt _ (by decide))
      rw [hrest,hbump]
      simp only [activeGaps,if_pos hg,map_cons,sum_cons]
      omega
    · have hbump : a.bump t = { a with last := some t } := by
        simp only [ActiveTracker.bump,hlast,if_neg hg]
      have hrest := ih (a := a.bump t) (show (a.bump t).last = some t by rw [hbump])
        (by rw [hbump]; exact hlt)
      rw [hrest,hbump]
      simp only [activeGaps,if_neg hg]

lemma accumMs_bumps_new (idleSecs : ℕ) (ts : List ℕ) :
    ((ActiveTracker.new idleSecs).bumps ts).accumMs =
      ((gapsOf (ActiveTracker.new idleSecs).idle ts).map (·/10^6)).sum%2^64 := by
  cases ts with
  | nil => rfl
  | cons t ts =>
    have hrest := accumMs_bumps_of_last (a := (ActiveTracker.new idleSecs).bump t) ts rfl
      (by simp [ActiveTracker.bump,ActiveTracker.new])
    have hzero : ((ActiveTracker.new idleSecs).bump t).accumMs = 0 := rfl
    rw [hzero,Nat.zero_add] at hrest
    exact hrest

lemma accumMs_eq_iff (idleSecs : ℕ) (ts : List ℕ) :
    ((ActiveTracker.new idleSecs).bumps ts).accumMs =
        activeNs (ActiveTracker.new idleSecs).idle ts/10^6 ↔
      Unrounded (ActiveTracker.new idleSecs).idle ts := by
  have hsum := sum_eq_millis_add_rest (gapsOf (ActiveTracker.new idleSecs).idle ts)
  rw [accumMs_bumps_new,activeNs,Unrounded]
  omega

/-- The counted time is the active time in whole milliseconds exactly for the bumps whose rests
stay below one millisecond; among these it depends on the active time alone. -/
theorem active_time_exact_iff (idleSecs : ℕ) (ts : List ℕ) :
    (((ActiveTracker.new idleSecs).bumps ts).accumMs =
        activeNs (ActiveTracker.new idleSecs).idle ts/10^6 ↔
      Unrounded (ActiveTracker.new idleSecs).idle ts) ∧
    ∀ ts', Unrounded (ActiveTracker.new idleSecs).idle ts →
      Unrounded (ActiveTracker.new idleSecs).idle ts' →
      activeNs (ActiveTracker.new idleSecs).idle ts = activeNs
        (ActiveTracker.new idleSecs).idle ts' →
      ((ActiveTracker.new idleSecs).bumps ts).accumMs =
        ((ActiveTracker.new idleSecs).bumps ts').accumMs := by
  refine ⟨accumMs_eq_iff idleSecs ts,?_⟩
  intro ts' h h' hns
  rw [(accumMs_eq_iff idleSecs ts).mpr h,(accumMs_eq_iff idleSecs ts').mpr h',hns]

theorem active_time_exact_five : ((ActiveTracker.new 60).bumps [0,5000000]).accumMs = 5 ∧
      ((ActiveTracker.new 60).bumps [0,5000000]).accumMs =
        ((ActiveTracker.new 60).bumps [0,3000000,5000000]).accumMs := by
  obtain ⟨hexact,hsame⟩ := active_time_exact_iff 60 [0,5000000]
  refine ⟨?_,hsame [0,3000000,5000000] (by decide) (by decide) (by decide)⟩
  rw [hexact.mpr (by decide)]
  decide

theorem active_time_depends_on_chunks : activeNs (ActiveTracker.new 60).idle [0,2000000] =
        activeNs (ActiveTracker.new 60).idle [0,500000,1000000,1500000,2000000] ∧
      ((ActiveTracker.new 60).bumps [0,2000000]).accumMs = 2 ∧
      ((ActiveTracker.new 60).bumps [0,500000,1000000,1500000,2000000]).accumMs = 0 ∧
      activeNs (ActiveTracker.new 60).idle [0,500000,1000000,1500000,2000000]/10^6 = 2 := by
  decide

end PirateServer.Usage
