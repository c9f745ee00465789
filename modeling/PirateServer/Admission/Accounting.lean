import PirateServer.Admission.Machine

/-! Slots and waiters are accounted for: what each step adds to `active` and to
`tunnel_waiters_current`, against the callers that hold a slot and the callers that wait. -/
namespace PirateServer.Admission
open Lib

/-- The number of callers at a program point with the given property. -/
def Sys.count (p : Pc → Bool) (s : Sys) : ℕ := Census.count (fun th => p th.pc) s.threads

variable {p : Pc → Bool} {s : Sys} {t : ℕ} {th : Thread}

lemma count_pos (ht : s.threads[t]? = some th) (hp : p th.pc = true) : 0 < s.count p := by
  have hle := Census.le_total (fun th : Thread => (p th.pc).toNat) ht
  simp only [hp,Bool.toNat_true] at hle
  exact hle

lemma count_grant {n : ℕ} (hp : ∀ pc, p (pc.grant n) = p pc) (s : Sys) :
    (s.notifyOne n).count p = s.count p := by
  simp only [Sys.count,Sys.notifyOne,Census.count,Census.total_map,hp]

namespace Pc

@[simp] lemma holdsSlot_grant (n : ℕ) (pc : Pc) : (pc.grant n).holdsSlot = pc.holdsSlot := by
  cases pc <;> rfl

@[simp] lemma waits_grant (n : ℕ) (pc : Pc) : (pc.grant n).waits = pc.waits := by
  cases pc <;> rfl

@[simp] lemma grant_eq_cas {n cur : ℕ} {pc : Pc} : pc.grant n = .cas cur ↔ pc = .cas cur := by
  cases pc <;> simp [grant]

end Pc

lemma fetchSub_of_pos {n : ℕ} (h : 0 < n) : fetchSub n + 1 = n := by
  unfold fetchSub
  split <;> omega

lemma Thread.waits_of_cancellable (h : th.cancellable = true) :
    th.pc.waits = true ∧ th.pc.holdsSlot = false := by
  obtain ⟨c,pc⟩ := th
  cases pc <;> first | exact ⟨rfl,rfl⟩ | cases h

/-- Both counters agree with the callers, and a reading of `active` that is still to be
compared is below the limit. -/
structure Balanced (max : Option ℕ) (s : Sys) : Prop where
  active_eq : s.active = s.count Pc.holdsSlot
  waiters_eq : s.waitersCurrent = s.count Pc.waits + s.dropped
  active_le : ∀ m, max = some m → s.active ≤ m
  cas_lt : ∀ m, max = some m → ∀ th ∈ s.threads, ∀ cur, th.pc = .cas cur → cur < m

namespace Balanced
variable {max : Option ℕ} {s' : Sys} {pc : Pc}

lemma init : Balanced max Sys.init :=
  ⟨rfl,rfl,fun _ _ => Nat.zero_le _,fun _ _ _ hth => nomatch hth⟩

/-- One caller moves; the counters move with it. -/
lemma goto (h : Balanced max s) (ht : s.threads[t]? = some th)
    (hthreads : s'.threads = s.threads.set t { th with pc := pc })
    (hactive : s'.active + th.pc.holdsSlot.toNat = s.active + pc.holdsSlot.toNat)
    (hwaiters : s'.waitersCurrent + th.pc.waits.toNat + s.dropped =
      s.waitersCurrent + pc.waits.toNat + s'.dropped)
    (hle : ∀ m, max = some m → s'.active ≤ m)
    (hcas : ∀ m, max = some m → ∀ cur, pc = .cas cur → cur < m) : Balanced max s' := by
  have hcount : ∀ p : Pc → Bool, s'.count p + (p th.pc).toNat = s.count p + (p pc).toNat := by
    intro p
    unfold Sys.count Census.count
    rw [hthreads]
    exact Census.total_set _ ht _
  have hslots := hcount Pc.holdsSlot
  have hwaits := hcount Pc.waits
  have ha := h.active_eq
  have hw := h.waiters_eq
  refine ⟨by omega,by omega,hle,?_⟩
  intro m hm u hu cur hpc
  rw [hthreads] at hu
  rcases List.mem_or_eq_of_mem_set hu with hu | rfl
  · exact h.cas_lt m hm u hu cur hpc
  · exact hcas m hm cur hpc

lemma quiet (h : Balanced max s) (ht : s.threads[t]? = some th)
    (hslot : pc.holdsSlot = th.pc.holdsSlot) (hwait : pc.waits = th.pc.waits)
    (hcas : ∀ m, max = some m → ∀ cur, pc = .cas cur → cur < m) :
    Balanced max (s.goto t th pc) := by
  refine h.goto ht rfl ?_ ?_ h.active_le hcas
  · rw [hslot]
    rfl
  · rw [hwait]
    rfl

lemma notifyOne (h : Balanced max s) (n : ℕ) : Balanced max (s.notifyOne n) := by
  refine ⟨?_,?_,h.active_le,?_⟩
  · rw [count_grant (Pc.holdsSlot_grant n)]
    exact h.active_eq
  · rw [count_grant (Pc.waits_grant n)]
    exact h.waiters_eq
  · intro m hm u hu cur hpc
    obtain ⟨v,hv,rfl⟩ := List.mem_map.mp hu
    exact h.cas_lt m hm v hv cur (Pc.grant_eq_cas.mp hpc)

lemma call (h : Balanced max s) (c : Call) :
    Balanced max { s with threads := s.threads ++ [⟨c,.tryTake⟩] } := by
  have hcount : ∀ p : Pc → Bool, p .tryTake = false →
      Sys.count p { s with threads := s.threads ++ [⟨c,.tryTake⟩] } = s.count p := by
    intro p hp
    unfold Sys.count Census.count
    rw [Census.total_concat]
    simp [hp]
  refine ⟨?_,?_,h.active_le,?_⟩
  · rw [hcount Pc.holdsSlot rfl]
    exact h.active_eq
  · rw [hcount Pc.waits rfl]
    exact h.waiters_eq
  · intro m hm u hu cur hpc
    rcases List.mem_append.mp hu with hu | hu
    · exact h.cas_lt m hm u hu cur hpc
    · cases List.mem_singleton.mp hu
      cases hpc

theorem step {a : Label} (h : Balanced max s) (hs : Admission.step max s a = some s') :
    Balanced max s' := by
  cases step_move hs with
  | call => exact h.call _
  | takeUnlimited ht hpc hmax | fullUnlimited ht hpc hmax =>
    refine h.goto ht rfl ?_ ?_ ?_ (by simp)
    · simp [hpc,Pc.holdsSlot]
    · simp [hpc,Pc.waits,Sys.goto]
    · simp [hmax]
  | busy ht hpc | expire ht hpc => exact h.quiet ht (by rw [hpc]; rfl) (by rw [hpc]; rfl) (by simp)
  | load ht hpc hmax hlt =>
    refine h.quiet ht (by rw [hpc]; rfl) (by rw [hpc]; rfl) ?_
    intro m hm cur hc
    cases hc
    cases hmax.symm.trans hm
    exact hlt
  | take ht hpc =>
    refine h.goto ht rfl ?_ ?_ ?_ (by simp)
    · simp [hpc,Pc.holdsSlot]
    · simp [hpc,Pc.waits,Sys.goto]
    · exact fun m hm => h.cas_lt m hm _ (List.mem_of_getElem? ht) _ hpc
  | casFail ht hpc | await ht hpc | wake ht hpc | receive ht hpc | popNone ht hpc =>
    exact h.quiet ht (by rw [hpc]; rfl) (by rw [hpc]; rfl) (by simp)
  | count ht hpc | push ht hpc | remove ht hpc | pop ht hpc =>
    refine h.goto ht rfl ?_ ?_ h.active_le (by simp)
    · simp [hpc,Pc.holdsSlot,Sys.goto]
    · simp [hpc,Pc.waits,Sys.goto]
  | retry ht hpc | refuse ht hpc =>
    have hpos : 0 < s.waitersCurrent := by
      have hc := count_pos ht (show Pc.waits _ = true by rw [hpc]; rfl)
      have hw := h.waiters_eq
      omega
    have hsub := fetchSub_of_pos hpos
    refine h.goto ht rfl ?_ ?_ h.active_le (by simp)
    · simp [hpc,Pc.holdsSlot,Sys.goto]
    · simp only [hpc,Pc.waits,Sys.goto,Bool.toNat_true,Bool.toNat_false]
      omega
  | notify ht hpc =>
    exact (h.quiet ht (by rw [hpc]; rfl) (by rw [hpc]; rfl) (by simp)).notifyOne _
  | cancel ht hc =>
    obtain ⟨hw,hh⟩ := Thread.waits_of_cancellable hc
    refine h.goto ht rfl ?_ ?_ h.active_le (by simp)
    · rw [hh]
      rfl
    · rw [hw]
      show s.waitersCurrent + 1 + s.dropped = s.waitersCurrent + (s.dropped + 1)
      omega
  | drop ht hpc =>
    have hpos : 0 < s.active := by
      have hc := count_pos ht (show Pc.holdsSlot _ = true by rw [hpc]; rfl)
      rw [h.active_eq]
      exact hc
    have hsub := fetchSub_of_pos hpos
    refine h.goto ht rfl ?_ ?_ ?_ (by simp)
    · simp only [hpc,Pc.holdsSlot,Bool.toNat_true,Bool.toNat_false]
      omega
    · simp [hpc,Pc.waits,Sys.goto]
    · intro m hm
      have hle := h.active_le m hm
      show fetchSub s.active ≤ m
      omega

end Balanced

theorem Reachable.balanced {max : Option ℕ} (h : Reachable max s) : Balanced max s :=
  Run.invariant (fun _ _ _ hi _ hs => hi.step hs) Balanced.init h

/-- In every reachable state `active` is the number of callers with a slot, which includes
every live guard, so the `fetch_sub` of a guard's drop never wraps; it is at most the limit;
and `tunnel_waiters_current` is the number of waiting callers exactly when no caller has been
dropped while it waited. -/
theorem slots_accounted {max : Option ℕ} {s : Sys} (h : Reachable max s) :
    s.active = s.count Pc.holdsSlot ∧ (∀ m, max = some m → s.active ≤ m) ∧
      (∀ th ∈ s.threads, th.pc = .guard → 0 < s.active) ∧
      (s.waitersCurrent = s.count Pc.waits ↔ s.dropped = 0) := by
  have hb := h.balanced
  refine ⟨hb.active_eq,hb.active_le,?_,?_⟩
  · intro th hth hpc
    obtain ⟨t,ht⟩ := List.mem_iff_getElem?.mp hth
    have hc := count_pos ht (show Pc.holdsSlot th.pc = true by rw [hpc]; rfl)
    rw [hb.active_eq]
    exact hc
  · have hw := hb.waiters_eq
    omega

theorem slots_accounted_two : ∃ s, Reachable (some 1) s ∧ s.count Pc.holdsSlot = 1 ∧
    s.count Pc.waits = 1 ∧ s.dropped = 0 ∧ s.active = 1 ∧ s.waitersCurrent = 1 := by
  obtain ⟨s,hs,hp⟩ := (Option.any_eq_true _ _).mp (show
    (execute (step (some 1)) anyStep (holdOne ++ waitNext 1) Sys.init).any (fun s =>
      s.count Pc.holdsSlot = 1 ∧ s.count Pc.waits = 1 ∧ s.dropped = 0) = true by decide +kernel)
  obtain ⟨hslot,hwait,hdrop⟩ := of_decide_eq_true hp
  have hr : Reachable (some 1) s := execute_run hs
  obtain ⟨hactive,_,_,hcurrent⟩ := slots_accounted hr
  exact ⟨s,hr,hslot,hwait,hdrop,hactive.trans hslot,(hcurrent.mpr hdrop).trans hwait⟩

theorem dropped_waiter_counted : ∃ s, Reachable (some 1) s ∧ s.count Pc.waits = 0 ∧
    s.waitersCurrent = 1 := by
  obtain ⟨s,hs,hp⟩ := (Option.any_eq_true _ _).mp (show
    (execute (step (some 1)) anyStep (holdOne ++ waitNext 1 ++ [.cancel 1]) Sys.init).any (fun s =>
      s.count Pc.waits = 0 ∧ s.waitersCurrent = 1) = true by decide +kernel)
  exact ⟨s,execute_run hs,of_decide_eq_true hp⟩

end PirateServer.Admission
