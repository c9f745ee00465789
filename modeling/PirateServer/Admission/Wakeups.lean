import PirateServer.Admission.Accounting

/-! Lost wake-ups. A slot that is given back is made up for by a wake-up: the release that is
still to look at `waiters`, the notification on its way, the caller that was notified. While a
caller is in line, the slots in use and the wake-ups under way add up to the limit, as long as
no step loses a wake-up. -/
namespace PirateServer.Admission
open Lib List Or

namespace Sys

def wakeups (s : Sys) : ℕ := Census.total (fun th => th.pc.wakeup) s.threads

/-- A caller waits for a notification and its entry is in `waiters`. -/
def inLine (s : Sys) : Bool :=
  s.threads.any (fun th => th.pc.waitsFor.any (fun n => s.waiters.any (fun w => w.notify = n)))

def canSpare (m : ℕ) (s : Sys) : Bool := s.inLine = false || m < s.active + s.wakeups

def pcAt (s : Sys) (t : ℕ) : Option Pc := (s.threads[t]?).map Thread.pc

end Sys

/-- The step loses no wake-up: a caller enters `waiters` only while all slots are in use or
about to be tested for, and a notification reaches a caller that is still there to use it. -/
def keepsWakeup (m : ℕ) (s : Sys) : Label → Bool
  | .exec t _ _ =>
    match s.pcAt t with
    | some .push => m ≤ s.active + s.wakeups
    | some (.releaseNotify n) => s.threads.any (fun th => th.pc.waitsFor = some n) || s.canSpare m
    | _ => true
  | .cancel t =>
    match s.pcAt t with
    | some (.pushed _ true) | some (.waiting _ true) | some .woken => s.canSpare m
    | _ => true
  | _ => true

variable {n : ℕ}

namespace Pc

lemma waitsFor_grant {k : ℕ} {pc : Pc} :
    (pc.grant n).waitsFor = some k ↔ pc.waitsFor = some k ∧ k ≠ n := by
  cases pc with
  | pushed j p | waiting j p =>
    cases p with
    | true => simp [grant,waitsFor]
    | false =>
      by_cases hj : j = n
      · simp only [grant,hj,Bool.false_or,decide_true,waitsFor,Option.some.injEq]
        constructor
        · intro hc
          cases hc
        · rintro ⟨rfl,hne⟩
          exact absurd rfl hne
      · simp only [grant,hj,Bool.false_or,decide_false,waitsFor,Option.some.injEq]
        constructor
        · rintro rfl
          exact ⟨rfl,hj⟩
        · exact fun hk => hk.1
  | _ => simp [grant,waitsFor]

lemma wakeup_grant (n : ℕ) (pc : Pc) : pc.wakeup ≤ (pc.grant n).wakeup := by
  cases pc with
  | pushed j p | waiting j p => cases p <;> simp [grant,wakeup]
  | _ => exact le_rfl

lemma wakeup_grant_lt {pc : Pc} (h : pc.waitsFor = some n) : pc.wakeup < (pc.grant n).wakeup := by
  cases pc with
  | pushed j p | waiting j p =>
    cases p with
    | true => cases h
    | false =>
      cases h
      simp [grant,wakeup]
  | _ => cases h

lemma wakeup_le_one (pc : Pc) : pc.wakeup ≤ 1 := by
  cases pc with
  | pushed j p | waiting j p => cases p <;> simp [wakeup]
  | _ => simp [wakeup]

lemma wakeup_of_settled {pc : Pc} (h : pc.settled = true) : pc.wakeup = 0 := by
  cases pc with
  | pushed j p => cases h
  | waiting j p =>
    cases p with
    | true => cases h
    | false => rfl
  | guard | done o => rfl
  | _ => cases h

lemma wakeup_await (n : ℕ) (p : Bool) : (Pc.waiting n p).wakeup = (Pc.pushed n p).wakeup := by
  cases p <;> rfl

lemma waitsFor_await (n : ℕ) (p : Bool) :
    (Pc.waiting n p).waitsFor = (Pc.pushed n p).waitsFor := by cases p <;> rfl

end Pc

/-- A caller that waits has its entry in `waiters`, or a release is about to notify it. -/
def Wired (s : Sys) : Prop :=
  ∀ u th n, s.threads[u]? = some th → th.pc.waitsFor = some n →
    (∃ w ∈ s.waiters, w.id = u ∧ w.notify = n) ∨ ∃ r ∈ s.threads, r.pc = .releaseNotify n

namespace Wired
variable {max : Option ℕ} {s s' : Sys} {t : ℕ} {th : Thread} {pc : Pc}

/-- One caller moves; the entries of the others stay, or the caller that moves is a release
that goes to notify the one it removed. -/
lemma goto (h : Wired s) (ht : s.threads[t]? = some th)
    (hthreads : s'.threads = s.threads.set t { th with pc := pc })
    (hpc : ∀ n, th.pc ≠ .releaseNotify n)
    (hself : ∀ n, pc.waitsFor = some n →
      (∃ w ∈ s'.waiters, w.id = t ∧ w.notify = n) ∨ th.pc.waitsFor = some n)
    (hkeep : ∀ w ∈ s.waiters, w ∈ s'.waiters ∨ w.id = t ∧ pc.waitsFor = none ∨
      pc = .releaseNotify w.notify) : Wired s' := by
  have hlen : t < s.threads.length := (List.getElem?_eq_some_iff.mp ht).1
  -- what was in place for a caller other than `t`, or for `t` when it goes on waiting
  have hold : ∀ u n, (u = t → pc.waitsFor = some n) →
      ((∃ w ∈ s.waiters, w.id = u ∧ w.notify = n) ∨ ∃ r ∈ s.threads, r.pc = .releaseNotify n) →
      (∃ w ∈ s'.waiters, w.id = u ∧ w.notify = n) ∨ ∃ r ∈ s'.threads, r.pc = .releaseNotify n := by
    rintro u n hu (⟨w,hw,rfl,rfl⟩ | ⟨r,hr,hrpc⟩)
    · rcases hkeep w hw with hw' | ⟨hid,hnone⟩ | hpop
      · exact inl ⟨w,hw',rfl,rfl⟩
      · rw [hu hid] at hnone
        cases hnone
      · refine inr ⟨{ th with pc := pc },?_,hpop⟩
        rw [hthreads]
        exact mem_set hlen _
    · refine inr ⟨r,?_,hrpc⟩
      rw [hthreads]
      apply Census.mem_set_of_ne ht hr
      rintro rfl
      exact hpc n hrpc
  intro u th' n hu hwait
  rw [hthreads] at hu
  rcases Census.getElem?_set_cases hu with ⟨rfl,rfl⟩ | ⟨hut,hu⟩
  · rcases hself n hwait with hentry | hwas
    · exact inl hentry
    · exact hold u n (fun _ => hwait) (h u th n ht hwas)
  · exact hold u n (fun he => absurd he hut) (h u th' n hu hwait)

lemma quiet (h : Wired s) (ht : s.threads[t]? = some th)
    (hthreads : s'.threads = s.threads.set t { th with pc := pc })
      (hwaiters : s'.waiters = s.waiters)
    (hpc : ∀ n, th.pc ≠ .releaseNotify n)
    (hself : pc.waitsFor = none ∨ pc.waitsFor = th.pc.waitsFor) : Wired s' := by
  refine h.goto ht hthreads hpc ?_ ?_
  · intro n hn
    rcases hself with hnone | heq
    · rw [hnone] at hn
      cases hn
    · exact inr (heq ▸ hn)
  · intro w hw
    exact inl (hwaiters ▸ hw)

lemma call (h : Wired s) (c : Call) : Wired { s with threads := s.threads ++ [⟨c,.tryTake⟩] } := by
  intro u th n hu hwait
  rcases Census.getElem?_concat_cases hu with hu | ⟨_,rfl⟩
  · rcases h u th n hu hwait with hentry | ⟨r,hr,hrpc⟩
    · exact inl hentry
    · exact inr ⟨r,mem_append_left _ hr,hrpc⟩
  · cases hwait

lemma notify (h : Wired s) (ht : s.threads[t]? = some th) (hpc : th.pc = .releaseNotify n) :
    Wired ((s.goto t th (.done .released)).notifyOne n) := by
  intro u th' k hu hwait
  obtain ⟨v,hv,rfl⟩ := Census.getElem?_map_cases hu
  have hvk : v.pc.waitsFor = some k ∧ k ≠ n := Pc.waitsFor_grant.mp hwait
  rcases Census.getElem?_set_cases hv with ⟨rfl,rfl⟩ | ⟨_,hv⟩
  · cases hvk.1
  rcases h u v k hv hvk.1 with hentry | ⟨r,hr,hrpc⟩
  · exact inl hentry
  refine inr ⟨{ r with pc := r.pc.grant n },List.mem_map.mpr ⟨r,?_,rfl⟩,?_⟩
  · apply Census.mem_set_of_ne ht hr
    rintro rfl
    rw [hpc] at hrpc
    cases hrpc
    exact hvk.2 rfl
  · simp only [hrpc,Pc.grant]

theorem step {a : Label} (h : Wired s) (hs : Admission.step max s a = some s') : Wired s' := by
  cases step_move hs with
  | call => exact h.call _
  | takeUnlimited ht hpc | fullUnlimited ht hpc | busy ht hpc | load ht hpc | take ht hpc
  | casFail ht hpc | count ht hpc | wake ht hpc | retry ht hpc | refuse ht hpc | receive ht hpc
  | popNone ht hpc => exact h.quiet ht rfl rfl (by simp [hpc]) (inl rfl)
  | expire ht hpc | drop ht hpc => exact h.quiet ht rfl rfl (by simp [hpc]) (inl rfl)
  | await ht hpc =>
    refine h.quiet ht rfl rfl (by simp [hpc]) (inr ?_)
    rw [hpc]
    exact Pc.waitsFor_await _ _
  | push ht hpc =>
    refine h.goto ht rfl (by simp [hpc]) ?_ ?_
    · intro n hn
      cases hn
      exact inl ⟨_,mem_append_right _ (mem_singleton_self _),rfl,rfl⟩
    · exact fun w hw => inl (mem_append_left _ hw)
  | @remove u _ _ _ ht hpc =>
    refine h.goto ht rfl (by simp [hpc]) (fun _ hn => nomatch hn) ?_
    intro w hw
    by_cases hid : w.id = u
    · exact inr (inl ⟨hid,rfl⟩)
    · exact inl (List.mem_filter.mpr ⟨hw,by simpa using hid⟩)
  | pop ht hpc hentry =>
    refine h.goto ht rfl (by simp [hpc]) (fun _ hn => nomatch hn) ?_
    intro w hw
    rcases Census.mem_eraseIdx_or_eq hentry hw with hw | rfl
    · exact inl hw
    · exact inr (inr rfl)
  | notify ht hpc => exact h.notify ht hpc
  | cancel ht hc =>
    refine h.quiet ht rfl rfl ?_ (inl rfl)
    intro n hpc
    simp [Thread.cancellable,hpc] at hc

end Wired

/-- While a caller is in line, the slots in use and the wake-ups under way reach the limit. -/
def Covered (m : ℕ) (s : Sys) : Prop := s.inLine = true → m ≤ s.active + s.wakeups

lemma inLine_iff {s : Sys} : s.inLine = true ↔
    ∃ th ∈ s.threads, ∃ n, th.pc.waitsFor = some n ∧ ∃ w ∈ s.waiters, w.notify = n := by
  simp [Sys.inLine,Option.any_eq_true]

namespace Covered
variable {m : ℕ} {s s' : Sys} {t : ℕ} {th : Thread} {pc : Pc}

lemma wakeups_goto (ht : s.threads[t]? = some th)
    (hthreads : s'.threads = s.threads.set t { th with pc := pc }) :
    s'.wakeups + th.pc.wakeup = s.wakeups + pc.wakeup := by
  unfold Sys.wakeups
  rw [hthreads]
  exact Census.total_set _ ht _

lemma inLine_goto (hthreads : s'.threads = s.threads.set t { th with pc := pc })
    (ht : s.threads[t]? = some th) (hsub : ∀ w ∈ s'.waiters, w ∈ s.waiters)
    (hself : pc.waitsFor = none ∨ pc.waitsFor = th.pc.waitsFor) (h : s'.inLine = true) :
    s.inLine = true := by
  obtain ⟨v,hv,n,hn,w,hw,hwn⟩ := inLine_iff.mp h
  rw [hthreads] at hv
  refine inLine_iff.mpr ?_
  rcases mem_or_eq_of_mem_set hv with hv | rfl
  · exact ⟨v,hv,n,hn,w,hsub w hw,hwn⟩
  · rcases hself with hnone | heq
    · cases hnone.symm.trans hn
    · exact ⟨th,mem_of_getElem? ht,n,heq.symm.trans hn,w,hsub w hw,hwn⟩

lemma goto (h : Covered m s) (ht : s.threads[t]? = some th)
    (hthreads : s'.threads = s.threads.set t { th with pc := pc })
    (hsub : ∀ w ∈ s'.waiters, w ∈ s.waiters)
    (hself : pc.waitsFor = none ∨ pc.waitsFor = th.pc.waitsFor)
    (hsum : s.active + th.pc.wakeup ≤ s'.active + pc.wakeup) : Covered m s' := by
  intro hline
  have hm := h (inLine_goto hthreads ht hsub hself hline)
  have hw := wakeups_goto ht hthreads
  omega

lemma call (h : Covered m s) (c : Call) :
    Covered m { s with threads := s.threads ++ [⟨c,.tryTake⟩] } := by
  intro hline
  have hold : s.inLine = true := by
    obtain ⟨v,hv,n,hn,w,hw,hwn⟩ := inLine_iff.mp hline
    refine inLine_iff.mpr ?_
    rcases List.mem_append.mp hv with hv | hv
    · exact ⟨v,hv,n,hn,w,hw,hwn⟩
    · cases List.mem_singleton.mp hv
      cases hn
  have hm := h hold
  have hw : Sys.wakeups { s with threads := s.threads ++ [⟨c,.tryTake⟩] } = s.wakeups + 1 :=
    Census.total_concat _ _ _
  show m ≤ s.active + _
  omega

lemma of_empty (hwaiters : s'.waiters = []) : Covered m s' := by
  intro hline
  obtain ⟨_,_,_,_,w,hw,_⟩ := inLine_iff.mp hline
  rw [hwaiters] at hw
  cases hw

lemma of_canSpare (hspare : s.canSpare m = true) (hline : s'.inLine = true → s.inLine = true)
    (hactive : s'.active = s.active) (hw : s.wakeups ≤ s'.wakeups + 1) : Covered m s' := by
  intro h
  simp only [Sys.canSpare,hline h,Bool.or_eq_true,decide_eq_true_eq] at hspare
  rcases hspare with hc | hlt
  · cases hc
  · omega

lemma wakeups_notifyOne (s : Sys) (n : ℕ) : s.wakeups ≤ (s.notifyOne n).wakeups :=
  Census.total_le_total_map (fun u : Thread => Pc.wakeup_grant n u.pc) s.threads

lemma inLine_notifyOne (h : (s.notifyOne n).inLine = true) : s.inLine = true := by
  obtain ⟨u,hu,k,hk,hw⟩ := inLine_iff.mp h
  obtain ⟨v,hv,rfl⟩ := List.mem_map.mp hu
  exact inLine_iff.mpr ⟨v,hv,k,(Pc.waitsFor_grant.mp hk).1,hw⟩

lemma notify (h : Covered m s) (ht : s.threads[t]? = some th) (hpc : th.pc = .releaseNotify n)
    (hok : s.threads.any (fun th => th.pc.waitsFor = some n) = true ∨ s.canSpare m = true) :
    Covered m ((s.goto t th (.done .released)).notifyOne n) := by
  have hset : (s.goto t th (.done .released)).wakeups + 1 = s.wakeups := by
    have hw : (s.goto t th (.done .released)).wakeups + th.pc.wakeup =
        s.wakeups + (Pc.done .released).wakeup := wakeups_goto ht rfl
    rw [hpc] at hw
    exact hw
  have hline : ((s.goto t th (.done .released)).notifyOne n).inLine = true → s.inLine = true := by
    intro hc
    have hthreads : (s.goto t th (.done .released)).threads =
        s.threads.set t { th with pc := .done .released } := rfl
    exact inLine_goto hthreads ht (fun _ hw => hw) (inl rfl) (inLine_notifyOne hc)
  rcases hok with hany | hspare
  · -- the permit of the caller that was waiting takes the place of the notification
    obtain ⟨v,hv,hvn⟩ := List.any_eq_true.mp hany
    have hvn : v.pc.waitsFor = some n := of_decide_eq_true hvn
    have hmem : v ∈ (s.goto t th (.done .released)).threads := by
      apply Census.mem_set_of_ne ht hv
      rintro rfl
      rw [hpc] at hvn
      cases hvn
    have hlt : (s.goto t th (.done .released)).wakeups <
        ((s.goto t th (.done .released)).notifyOne n).wakeups :=
      Census.total_lt_total_map (fun u : Thread => Pc.wakeup_grant n u.pc) hmem
        (Pc.wakeup_grant_lt hvn)
    intro hc
    have hm := h (hline hc)
    show m ≤ s.active + _
    omega
  · refine of_canSpare hspare hline rfl ?_
    have hle := wakeups_notifyOne (s.goto t th (.done .released)) n
    omega

/-- A dropped caller had no wake-up, or the step was allowed because one can be spared. -/
lemma wakeup_zero_or_canSpare (ht : s.threads[t]? = some th) (hc : th.cancellable = true)
    (hok : keepsWakeup m s (.cancel t) = true) : th.pc.wakeup = 0 ∨ s.canSpare m = true := by
  obtain ⟨c,pc⟩ := th
  simp only [keepsWakeup,Sys.pcAt,ht,Option.map_some] at hok
  cases pc with
  | pushed n p | waiting n p =>
    cases p with
    | true => exact inr hok
    | false => exact inl rfl
  | woken => exact inr hok
  | timedOut => exact inl rfl
  | _ => cases hc

lemma cancel (h : Covered m s) (ht : s.threads[t]? = some th)
    (hthreads : s'.threads = s.threads.set t { th with pc := .done .dropped })
    (hwaiters : s'.waiters = s.waiters) (hactive : s'.active = s.active)
    (hok : th.pc.wakeup = 0 ∨ s.canSpare m = true) : Covered m s' := by
  have hsub : ∀ w ∈ s'.waiters, w ∈ s.waiters := fun w hw => hwaiters ▸ hw
  rcases hok with hzero | hspare
  · exact h.goto ht hthreads hsub (inl rfl) (by omega)
  · refine of_canSpare hspare (inLine_goto hthreads ht hsub (inl rfl)) hactive ?_
    have hw := wakeups_goto ht hthreads
    have hone := Pc.wakeup_le_one th.pc
    omega

theorem step {a : Label} (hb : Balanced (some m) s) (h : Covered m s)
    (hok : keepsWakeup m s a = true) (hs : Admission.step (some m) s a = some s') :
    Covered m s' := by
  cases step_move hs with
  | call => exact h.call _
  | takeUnlimited _ _ hmax | fullUnlimited _ _ hmax => cases hmax
  | busy ht hpc hmax hle =>
    cases hmax
    exact fun _ => hle.trans (Nat.le_add_right _ _)
  | load ht hpc | casFail ht hpc | wake ht hpc | receive ht hpc
  | count ht hpc | retry ht hpc | refuse ht hpc =>
    exact h.goto ht rfl (fun _ hw => hw) (inl rfl) (by rw [hpc]; exact le_rfl)
  | take ht hpc =>
    refine h.goto ht rfl (fun _ hw => hw) (inl rfl) ?_
    rw [hpc]
    exact le_rfl
  | expire ht hpc => exact h.goto ht rfl (fun _ hw => hw) (inl rfl) (by rw [hpc]; exact le_rfl)
  | await ht hpc =>
    refine h.goto ht rfl (fun _ hw => hw) (inr ?_) ?_
    · rw [hpc]
      exact Pc.waitsFor_await _ _
    · rw [hpc,Pc.wakeup_await]
      exact le_rfl
  | @push u _ _ th ht hpc =>
    -- the caller joins the line while the others have all slots covered
    intro _
    simp only [keepsWakeup,Sys.pcAt,ht,Option.map_some,hpc,decide_eq_true_eq] at hok
    have hw : (s.goto u th (.pushed s.nextNotify false)).wakeups + th.pc.wakeup =
        s.wakeups + (Pc.pushed s.nextNotify false).wakeup := wakeups_goto ht rfl
    rw [hpc] at hw
    have hw : (s.goto u th (.pushed s.nextNotify false)).wakeups = s.wakeups := hw
    show m ≤ s.active + (s.goto u th (.pushed s.nextNotify false)).wakeups
    rw [hw]
    exact hok
  | remove ht hpc =>
    exact h.goto ht rfl (fun w hw => (List.mem_filter.mp hw).1) (inl rfl)
      (by rw [hpc]; exact le_rfl)
  | popNone ht hpc hempty => exact of_empty hempty
  | pop ht hpc =>
    exact h.goto ht rfl (fun w hw => mem_of_mem_eraseIdx hw) (inl rfl)
      (by rw [hpc]; exact le_rfl)
  | notify ht hpc =>
    refine h.notify ht hpc ?_
    simpa only [keepsWakeup,Sys.pcAt,ht,Option.map_some,hpc,Bool.or_eq_true] using hok
  | cancel ht hc =>
    refine h.cancel ht rfl rfl rfl ?_
    exact wakeup_zero_or_canSpare ht hc hok
  | drop ht hpc =>
    refine h.goto ht rfl (fun _ hw => hw) (inl rfl) ?_
    have hpos : 0 < s.active := by
      rw [hb.active_eq]
      exact count_pos ht (by rw [hpc]; rfl)
    have hsub := fetchSub_of_pos hpos
    rw [hpc]
    show s.active + 0 ≤ fetchSub s.active + 1
    omega

end Covered

theorem Reachable.wired {max : Option ℕ} {s : Sys} (h : Reachable max s) : Wired s :=
  Run.invariant (fun _ _ _ hi _ hs => hi.step hs) (fun _ _ _ hu => by simp [Sys.init] at hu) h

abbrev KeepsReachable (m : ℕ) (s : Sys) : Prop :=
  ReachableBy (some m) (fun s a => keepsWakeup m s a = true) s

lemma KeepsReachable.covered {m : ℕ} {s : Sys} (h : KeepsReachable m s) : Covered m s :=
  Run.invariant_of (fun _ hr => Reachable.balanced hr.weaken)
    (fun _ _ _ hb hi hok hs => hi.step hb hok hs) (fun hline => absurd hline (by decide)) h

/-- If no step has lost a wake-up, then whenever there is a free slot and no step of an
`acquire` or of a release is pending, no caller is left waiting for a notification. -/
theorem no_waiter_left {m : ℕ} {s : Sys} (h : KeepsReachable m s) (hfree : s.active < m)
    (hsettled : ∀ th ∈ s.threads, th.pc.settled = true) :
    ∀ th ∈ s.threads, ∀ n, th.pc ≠ .waiting n false := by
  intro th hth n hpc
  have hwait : th.pc.waitsFor = some n := by rw [hpc]; rfl
  have hentry : ∃ w ∈ s.waiters, w.notify = n := by
    obtain ⟨u,hu⟩ := List.mem_iff_getElem?.mp hth
    rcases Reachable.wired h.weaken u th n hu hwait with ⟨w,hw,_,hwn⟩ | ⟨r,hr,hrpc⟩
    · exact ⟨w,hw,hwn⟩
    · have hs := hsettled r hr
      rw [hrpc] at hs
      cases hs
  have hm := h.covered (inLine_iff.mpr ⟨th,hth,n,hwait,hentry⟩)
  have hzero : s.wakeups = 0 :=
    Census.total_eq_zero (fun r hr => Pc.wakeup_of_settled (hsettled r hr))
  omega

/-- Two guards, a waiter that gets the first slot given back, and a second slot given back. -/
def handOver : List Label :=
  holdOne ++ .call plainCall::steps 1 3 ++ waitNext 2 ++ .drop 0::steps 0 2 ++ steps 2 5 ++
    .drop 1::steps 1 1

theorem no_waiter_left_three : ∃ s, KeepsReachable 2 s ∧ s.active = 1 ∧ s.threads.length = 3 ∧
    (∀ th ∈ s.threads, th.pc.settled = true) ∧ ∀ th ∈ s.threads, ∀ n, th.pc ≠ .waiting n false := by
  obtain ⟨s,hs,hp⟩ := (Option.any_eq_true _ _).mp (show
    (execute (step (some 2)) (fun s a => keepsWakeup 2 s a = true) handOver Sys.init).any (fun s =>
      s.active = 1 ∧ s.threads.length = 3 ∧ ∀ th ∈ s.threads, th.pc.settled = true) = true
    by decide +kernel)
  obtain ⟨hactive,hlen,hsettled⟩ := of_decide_eq_true hp
  have hr : KeepsReachable 2 s := execute_run hs
  exact ⟨s,hr,hactive,hlen,hsettled,no_waiter_left hr (by omega) hsettled⟩

/-- A slot is free, nothing is pending, and a caller waits. -/
def Sys.lostWakeup (m : ℕ) (s : Sys) : Bool :=
  s.active < m && s.threads.all (fun th => th.pc.settled) &&
    s.threads.any (fun th => th.pc.waitsFor.isSome)

/-- The slot is given back between the failed test of the second caller and its `push`. -/
def releaseBeforePush : List Label :=
  holdOne ++ .call plainCall::steps 1 1 ++ .drop 0::steps 0 1 ++ steps 1 3

def notifyDropped : List Label :=
  holdOne ++ waitNext 1 ++ waitNext 2 ++ [.cancel 2,.drop 0] ++ steps 0 2

def notifyTimedOut : List Label :=
  holdOne ++ waitNext 1 ++ waitNext 2 ++ .drop 0::steps 0 1 ++ .expire 2::steps 2 2 ++ steps 0 1

lemma lostWakeup_of_schedule {m : ℕ} {as : List Label}
    (h : (execute (step (some m)) anyStep as Sys.init).any (Sys.lostWakeup m) = true) :
    ∃ s, execute (step (some m)) anyStep as Sys.init = some s ∧ Reachable (some m) s ∧
      s.lostWakeup m = true := by
  obtain ⟨s,hs,hp⟩ := (Option.any_eq_true _ _).mp h
  exact ⟨s,hs,execute_run hs,hp⟩

theorem wakeups_lost : (∃ s, execute (step (some 1)) anyStep releaseBeforePush Sys.init = some s ∧
      Reachable (some 1) s ∧ s.lostWakeup 1 = true) ∧
    (∃ s, execute (step (some 1)) anyStep notifyDropped Sys.init = some s ∧
      Reachable (some 1) s ∧ s.lostWakeup 1 = true) ∧
    ∃ s, execute (step (some 1)) anyStep notifyTimedOut Sys.init = some s ∧
      Reachable (some 1) s ∧ s.lostWakeup 1 = true :=
  ⟨lostWakeup_of_schedule (by decide +kernel),lostWakeup_of_schedule (by decide +kernel),
    lostWakeup_of_schedule (by decide +kernel)⟩

end PirateServer.Admission
