import PirateServer.Admission.Wakeups

/-! The order of admission. `release_slot` hands a slot to the best entry of `waiters`, but the
caller behind it has to compete for the slot with every other caller that is on its way to test
for one. The order is kept by schedules in which one hand-over ends before the next caller or
release comes in. -/
namespace PirateServer.Admission
open Lib Bool List Option

namespace Pc

/-- The `acquire` may still come to a slot. -/
def pending : Pc → Bool
  | tryTake | cas _ | full | push | pushed .. | waiting .. | woken => true
  | _ => false

/-- The caller has found no slot and does not wait for one yet. -/
def enters : Pc → Bool
  | full | push | pushed .. => true
  | _ => false

@[simp] lemma pending_grant (n : ℕ) (pc : Pc) : (pc.grant n).pending = pc.pending := by
  cases pc <;> rfl

@[simp] lemma enters_grant (n : ℕ) (pc : Pc) : (pc.grant n).enters = pc.enters := by
  cases pc <;> rfl

@[simp] lemma grant_eq_releasePop {n : ℕ} {pc : Pc} :
    pc.grant n = .releasePop ↔ pc = .releasePop := by
  cases pc <;> simp [grant]

lemma enters_of_settled {pc : Pc} (h : pc.settled = true) : pc.enters = false := by
  cases pc <;> first | rfl | cases h

end Pc

/-- The caller `t` goes before the caller `u`: its priority is higher, or the same and it called
first. -/
def precedes (t : ℕ) (c : Call) (u : ℕ) (d : Call) : Bool :=
  d.priority < c.priority || (d.priority = c.priority && t < u)

namespace Sys

/-- A release is about to notify the `Notify` named `n`. -/
def Called (s : Sys) (n : ℕ) : Prop := ∃ r ∈ s.threads, r.pc = .releaseNotify n

/-- The caller tests for a slot, or waits and has been picked to do so. -/
def OnWay (s : Sys) : Pc → Prop
  | .tryTake | .cas _ | .woken => True
  | .waiting n permit => permit = true ∨ s.Called n
  | _ => False

/-- A caller arrives only while no slot is free or nobody else is after one; a guard is dropped only
while nobody is at work; and who enters `waiters` comes after those of its priority in it and has a
later `enqueue_ms`. -/
def orderly (m : ℕ) (s : Sys) : Label → Bool
  | .call _ => m ≤ s.active || s.threads.all (fun th => !th.pc.pending)
  | .drop _ => s.threads.all (fun th => th.pc.settled)
  | .exec t ms _ =>
    (s.threads[t]?).all (fun th => th.pc ≠ .push || s.waiters.all (fun w =>
      w.priority ≠ th.call.priority || (w.enqueueMs < ms && w.id < t)))
  | _ => true

/-- The step from `s` to `s'` gives the caller `t` a slot. -/
def takes (s s' : Sys) (t : ℕ) (c : Call) : Prop :=
  ∃ th th', s.threads[t]? = some th ∧ th.pc.holdsSlot = false ∧
    s'.threads[t]? = some th' ∧ th'.pc.holdsSlot = true ∧ th'.call = c

end Sys

/-! The entry that `release_slot` picks. -/

lemma Waiter.le_trans {a b c : Waiter} (hab : a.le b = true) (hbc : b.le c = true) :
    a.le c = true := by
  simp only [Waiter.le,or_eq_true,and_eq_true,decide_eq_true_eq,Int32.lt_iff_toInt_lt,
    ← Int32.toInt_inj] at hab hbc ⊢
  omega

lemma Waiter.le_of_not_le {a b : Waiter} (h : ¬a.le b = true) : b.le a = true := by
  simp only [Waiter.le,or_eq_true,and_eq_true,decide_eq_true_eq,Int32.lt_iff_toInt_lt,
    ← Int32.toInt_inj] at h ⊢
  omega

/-- The entry `w` at index `i` is the best one, and the last one of its kind. -/
def IsBest (ws : List Waiter) (i : ℕ) (w : Waiter) : Prop :=
  ws[i]? = some w ∧ ∀ j v, ws[j]? = some v → v.le w = true ∧ (w.le v = true → j ≤ i)

variable {i : ℕ}

lemma isBest_bestFrom {pre xs : List Waiter} {w : Waiter} (h : IsBest pre i w) :
    ∃ w', IsBest (pre++xs) (bestFrom i w pre.length xs) w' := by
  -- by induction on what is still to be looked at
  induction xs generalizing pre i w with
  | nil => exact ⟨w,by simpa [bestFrom] using h⟩
  | cons x xs ih =>
    have hpre : pre++x::xs = (pre++[x])++xs := by simp
    have hlen : pre.length+1 = (pre++[x]).length := by simp
    have hi : i < pre.length := (List.getElem?_eq_some_iff.mp h.1).1
    rw [bestFrom,hpre,hlen]
    split_ifs with hle
    · refine ih ⟨by simp,fun j v hj => ?_⟩
      rcases Census.getElem?_concat_cases hj with hj | ⟨rfl,rfl⟩
      · have hlt : j < pre.length := (List.getElem?_eq_some_iff.mp hj).1
        exact ⟨Waiter.le_trans (h.2 j v hj).1 hle,fun _ => hlt.le⟩
      · exact ⟨by simp [Waiter.le],fun _ => le_rfl⟩
    · refine ih ⟨?_,fun j v hj => ?_⟩
      · rw [getElem?_append_left hi]
        exact h.1
      · rcases Census.getElem?_concat_cases hj with hj | ⟨rfl,rfl⟩
        · exact h.2 j v hj
        · exact ⟨Waiter.le_of_not_le hle,fun hle' => absurd hle' hle⟩

lemma isBest_best {ws : List Waiter} (h : best ws = some i) : ∃ w, IsBest ws i w := by
  cases ws with
  | nil => cases h
  | cons w ws =>
    cases h
    have hone : IsBest [w] 0 w := by
      refine ⟨rfl,fun j v hj => ?_⟩
      obtain ⟨rfl,rfl⟩ : j = 0 ∧ v = w := by
        rcases Census.getElem?_concat_cases (l := []) hj with hj | hj
        · cases hj
        · exact hj
      exact ⟨by simp [Waiter.le],fun _ => le_rfl⟩
    exact isBest_bestFrom hone

/-- Of two entries with the same priority the one in front came first and was stamped first. -/
def Sorted (s : Sys) : Prop :=
  s.waiters.Pairwise (fun a b => a.priority = b.priority → a.enqueueMs < b.enqueueMs ∧ a.id < b.id)

lemma Sorted.best {s : Sys} (hs : Sorted s) {w : Waiter} (hi : best s.waiters = some i)
    (hw : s.waiters[i]? = some w) {j : ℕ} {v : Waiter} (hv : s.waiters[j]? = some v) :
    v.priority < w.priority ∨ (v.priority = w.priority ∧ i ≤ j ∧ w.id ≤ v.id) := by
  obtain ⟨w',hw',hbest⟩ := isBest_best hi
  obtain rfl : w' = w := Option.some.inj (hw'.symm.trans hw)
  have hle := (hbest j v hv).1
  simp only [Waiter.le,or_eq_true,and_eq_true,decide_eq_true_eq] at hle
  rcases hle with hlt | ⟨heq,hms⟩
  · exact .inl hlt
  right
  obtain ⟨hjlen,hj⟩ := List.getElem?_eq_some_iff.mp hv
  obtain ⟨hilen,hi⟩ := List.getElem?_eq_some_iff.mp hw
  have hpair := List.pairwise_iff_getElem.mp hs
  rcases Nat.lt_trichotomy i j with hij | rfl | hji
  · have hids := hpair i j hilen hjlen hij
    rw [hi,hj] at hids
    exact ⟨heq,hij.le,(hids heq.symm).2.le⟩
  · obtain rfl : w' = v := hi.symm.trans hj
    exact ⟨rfl,le_rfl,le_rfl⟩
  · have hids := hpair j i hjlen hilen hji
    rw [hi,hj] at hids
    have hlt := (hids heq).1
    omega

/-! What a step does to the callers. -/

section
variable {m n t u : ℕ} {s s' : Sys} {a : Label} {th th' : Thread} {pc : Pc}

lemma Sys.OnWay.pending (h : s.OnWay pc) : pc.pending = true := by
  cases pc <;> first | rfl | cases h

lemma Sys.OnWay.mono (hcalled : ∀ n, s'.Called n → s.Called n) (h : s'.OnWay pc) :
    s.OnWay pc := by
  cases pc <;> first | exact h.imp_right (hcalled _) | exact h

lemma called_of_goto (hthreads : s'.threads = s.threads.set t { th with pc := pc })
    (hpc : pc ≠ .releaseNotify n) (h : s'.Called n) : s.Called n := by
  obtain ⟨r,hr,hrpc⟩ := h
  rw [hthreads] at hr
  rcases mem_or_eq_of_mem_set hr with hr | rfl
  · exact ⟨r,hr,hrpc⟩
  · exact absurd hrpc hpc

/-- What an ordinary step from `s` leaves of a caller. -/
structure Follows (m : ℕ) (s s' : Sys) (th th' : Thread) : Prop where
  call : th'.call = th.call
  pending : th'.pc.pending = true → th.pc.pending = true
  onWay : s'.OnWay th'.pc → s.OnWay th.pc ∨ th.pc.enters = true
  enters : th'.pc.enters = true → th.pc.enters = true ∨ m ≤ s.active
  pops : th'.pc = .releasePop → th.pc = .releasePop
  holds : th'.pc.holdsSlot = true → th.pc.holdsSlot = true ∨ th.pc = .cas s.active

lemma Follows.refl (hcalled : ∀ n, s'.Called n → s.Called n) (th : Thread) : Follows m s s' th th :=
  ⟨rfl,id,fun h => .inl (h.mono hcalled),Or.inl,id,Or.inl⟩

/-- Everything that a step can do, as far as the order is concerned. -/
inductive Turn (m : ℕ) (s : Sys) : Label → Sys → Prop
  | call {c} {s' : Sys} (threads : s'.threads = s.threads++[⟨c,.tryTake⟩]) (active : s'.active = s.active) :
      Turn m s (.call c) s'
  | drop {t : ℕ} {th : Thread} {s' : Sys} (at_t : s.threads[t]? = some th) (pc : th.pc = .guard)
      (threads : s'.threads = s.threads.set t { th with pc := .releasePop }) : Turn m s (.drop t) s'
  | pop {a : Label} {t : ℕ} {th : Thread} {i : ℕ} {w : Waiter} {s' : Sys}
      (at_t : s.threads[t]? = some th) (pc : th.pc = .releasePop) (entry : s.waiters[i]? = some w)
      (picked : best s.waiters = some i)
      (threads : s'.threads = s.threads.set t { th with pc := .releaseNotify w.notify })
      (active : s'.active = s.active) : Turn m s a s'
  | other {a : Label} {s' : Sys} (active : s.active ≤ s'.active) (follows : ∀ (u : ℕ) (th' : Thread),
      s'.threads[u]? = some th' → ∃ th, s.threads[u]? = some th ∧ Follows m s s' th th') :
        Turn m s a s'

lemma Turn.goto (ht : s.threads[t]? = some th)
    (hthreads : s'.threads = s.threads.set t { th with pc := pc })
    (hactive : s.active ≤ s'.active) (hcalled : ∀ n, pc ≠ .releaseNotify n)
    (hmove : Follows m s s' th { th with pc := pc }) : Turn m s a s' := by
  refine .other hactive (fun u th' hu => ?_)
  rw [hthreads] at hu
  rcases Census.getElem?_set_cases hu with ⟨rfl,rfl⟩ | ⟨_,hu⟩
  · exact ⟨th,ht,hmove⟩
  · exact ⟨th',hu,.refl (fun n => called_of_goto hthreads (hcalled n)) th'⟩

lemma Follows.grant (hcalled : ∀ k, s'.Called k → s.Called k) (hn : s.Called n) (th : Thread) :
    Follows m s s' th { th with pc := th.pc.grant n } := by
  refine ⟨rfl,fun h => by simpa using h,fun h => .inl ?_,fun h => .inl (by simpa using h),
    fun h => by simpa using h,fun h => .inl (by simpa using h)⟩
  obtain ⟨c,pc⟩ := th
  cases pc with
  | waiting k permit =>
    rcases h with hpermit | hk
    · rcases (Bool.or_eq_true _ _).mp hpermit with hp | hk
      · exact .inl hp
      · exact .inr (of_decide_eq_true hk ▸ hn)
    · exact .inr (hcalled k hk)
  | _ => exact h

theorem step_turn (h : step (some m) s a = some s') : Turn m s a s' := by
  cases step_move h with
  | call => exact .call rfl rfl
  | drop ht hpc => exact .drop ht hpc rfl
  | pop ht hpc hentry hpicked => exact .pop ht hpc hentry hpicked rfl rfl
  | takeUnlimited ht hpc hmax | fullUnlimited ht hpc hmax => cases hmax
  | busy ht hpc hmax hfull =>
    cases hmax
    refine .goto ht rfl le_rfl (by simp) ⟨rfl,fun _ => by rw [hpc]; rfl,?_,
      fun _ => .inr hfull,?_,?_⟩ <;> rintro ⟨⟩
  | take ht hpc =>
    refine .goto ht rfl (Nat.le_succ _) (by simp) ⟨rfl,?_,?_,?_,?_,fun _ => .inr hpc⟩ <;>
      rintro ⟨⟩
  | load ht hpc | casFail ht hpc | retry ht hpc | wake ht hpc =>
    refine .goto ht rfl le_rfl (by simp) ⟨rfl,fun _ => by rw [hpc]; rfl,
      fun _ => .inl (by rw [hpc]; simp [Sys.OnWay]),?_,?_,?_⟩ <;> rintro ⟨⟩
  | count ht hpc | push ht hpc | await ht hpc =>
    refine .goto ht rfl le_rfl (by simp) ⟨rfl,fun _ => by rw [hpc]; rfl,
      fun _ => .inr (by rw [hpc]; rfl),fun _ => .inl (by rw [hpc]; rfl),?_,?_⟩ <;> rintro ⟨⟩
  | receive ht hpc =>
    refine .goto ht rfl le_rfl (by simp) ⟨rfl,?_,?_,?_,?_,fun _ => .inl (by rw [hpc]; rfl)⟩ <;>
      rintro ⟨⟩
  | remove ht hpc | refuse ht hpc | popNone ht hpc | expire ht hpc | cancel ht hpc =>
    refine .goto ht rfl le_rfl (by simp) ⟨rfl,?_,?_,?_,?_,?_⟩ <;> rintro ⟨⟩
  | @notify t _ _ th n ht hpc =>
    have hcalled : ∀ k, ((s.goto t th (.done .released)).notifyOne n).Called k → s.Called k := by
      rintro k ⟨r,hr,hrpc⟩
      obtain ⟨v,hv,rfl⟩ := List.mem_map.mp hr
      have hvpc : v.pc = .releaseNotify k := by
        revert hrpc
        cases v.pc <;> simp [Pc.grant]
      exact called_of_goto rfl (by simp) ⟨v,hv,hvpc⟩
    refine .other le_rfl (fun u th' hu => ?_)
    obtain ⟨v,hv,rfl⟩ := Census.getElem?_map_cases hu
    rcases Census.getElem?_set_cases hv with ⟨rfl,rfl⟩ | ⟨_,hv⟩
    · refine ⟨th,ht,rfl,?_,?_,?_,?_,?_⟩ <;> rintro ⟨⟩
    · exact ⟨v,hv,.grant hcalled ⟨th,mem_of_getElem? ht,hpc⟩ v⟩

end

/-! The entries of `waiters`. -/

variable {m : ℕ} {s s' : Sys} {a : Label}

lemma sorted_init : Sorted Sys.init := List.Pairwise.nil

lemma sorted_step (hs : Sorted s) (hok : s.orderly m a = true) (h : step (some m) s a = some s') :
    Sorted s' := by
  cases step_move h with
  | @push t ms sp th at_t pc =>
    simp only [Sys.orderly,at_t,all_some,pc,ne_eq,not_true_eq_false,decide_false,Bool.false_or,
      List.all_eq_true,or_eq_true,and_eq_true,decide_eq_true_eq] at hok
    refine List.pairwise_append.mpr ⟨hs,pairwise_singleton _ _,fun w hw v hv heq => ?_⟩
    obtain rfl := List.mem_singleton.mp hv
    exact (hok w hw).resolve_left (fun hne => hne heq)
  | remove => exact hs.sublist filter_sublist
  | pop => exact hs.sublist (eraseIdx_sublist _ _)
  | _ => exact hs

def Sys.calls (s : Sys) : List Call := s.threads.map Thread.call

lemma calls_goto {t : ℕ} {th : Thread} (ht : s.threads[t]? = some th) (pc : Pc) :
    (s.goto t th pc).calls = s.calls := by
  obtain ⟨hlen,rfl⟩ := List.getElem?_eq_some_iff.mp ht
  have hself := @set_getElem_self _ s.calls t (by simpa [Sys.calls] using hlen)
  rw [Sys.calls,Sys.goto,map_set]
  simpa only [Sys.calls,getElem_map] using hself

/-- The calls stay as they were made. -/
lemma step_calls (h : step (some m) s a = some s') : s.calls <+: s'.calls := by
  cases step_move h with
  | call =>
    rw [Sys.calls,Sys.calls,map_append]
    exact prefix_append _ _
  | notify ht hpc =>
    refine (calls_goto ht (.done .released)).symm ▸ ?_
    simp [Sys.calls,Sys.notifyOne,Function.comp_def]
  | takeUnlimited ht _ hmax | fullUnlimited ht _ hmax => cases hmax
  | busy ht | load ht | take ht | casFail ht | count ht | push ht | await ht | wake ht | retry ht
  | remove ht | refuse ht | receive ht | popNone ht | pop ht | expire ht | cancel ht | drop ht =>
    exact (calls_goto ht _).symm ▸ prefix_rfl

/-- Each entry has a name of its own and the priority of its caller. -/
structure Named (s : Sys) : Prop where
  below : ∀ w ∈ s.waiters, w.notify < s.nextNotify
  distinct : (s.waiters.map Waiter.notify).Nodup
  priority : ∀ w ∈ s.waiters, (s.calls[w.id]?).map Call.priority = some w.priority

lemma named_init : Named Sys.init := ⟨nofun,nodup_nil,nofun⟩

lemma named_step (hn : Named s) (h : step (some m) s a = some s') : Named s' := by
  have hcalls : ∀ {i : ℕ} {c : Call}, s.calls[i]? = some c → s'.calls[i]? = some c := by
    intro i c hi
    obtain ⟨more,hmore⟩ := step_calls h
    rw [← hmore,getElem?_append_left (List.getElem?_eq_some_iff.mp hi).1,hi]
  have hkept : ∀ w ∈ s.waiters, (s'.calls[w.id]?).map Call.priority = some w.priority := by
    intro w hw
    obtain ⟨c,hc,hprio⟩ := Option.map_eq_some_iff.mp (hn.priority w hw)
    rw [hcalls hc,map_some,hprio]
  have hsub : ∀ {ws}, ws <+ s.waiters → s'.waiters = ws → s'.nextNotify = s.nextNotify →
      Named s' := by
    rintro _ hws rfl hnext
    exact ⟨fun w hw => hnext ▸ hn.below w (hws.subset hw),hn.distinct.sublist (hws.map _),
      fun w hw => hkept w (hws.subset hw)⟩
  cases step_move h with
  | @push t ms sp th at_t pc =>
    refine ⟨fun w hw => ?_,?_,fun w hw => ?_⟩
    · rcases mem_append.mp hw with hw | hw
      · exact (hn.below w hw).trans (Nat.lt_succ_self _)
      · rw [mem_singleton.mp hw]
        exact Nat.lt_succ_self _
    · rw [map_append]
      refine nodup_append.mpr ⟨hn.distinct,nodup_singleton _,fun x hx y hy => ?_⟩
      obtain ⟨w,hw,rfl⟩ := List.mem_map.mp hx
      rw [mem_singleton.mp hy]
      exact (hn.below w hw).ne
    · rcases mem_append.mp hw with hw | hw
      · exact hkept w hw
      · rw [mem_singleton.mp hw]
        have hcall : s.calls[t]? = some th.call := by rw [Sys.calls,getElem?_map,at_t,map_some]
        rw [hcalls hcall,map_some]
  | remove => exact hsub filter_sublist rfl rfl
  | pop => exact hsub (eraseIdx_sublist _ _) rfl rfl
  | _ => exact hsub (Sublist.refl _) rfl rfl

/-! One hand-over at a time. -/

/-- At most one release is to look at `waiters`. While a slot is free, nobody is about to enter
`waiters`, whoever is on the way to the slot goes before all others that are after one, and there is
no other one as long as a release is to look at `waiters`. -/
structure HandOver (m : ℕ) (s : Sys) : Prop where
  one : ∀ {r r' : ℕ} {th th' : Thread}, s.threads[r]? = some th → th.pc = .releasePop →
    s.threads[r']? = some th' → th'.pc = .releasePop → r = r'
  waits : s.active < m → ∀ {u : ℕ} {d : Thread}, s.threads[u]? = some d → d.pc.enters = false
  ahead : s.active < m → ∀ {t u : ℕ} {th d : Thread}, s.threads[t]? = some th → s.OnWay th.pc →
    s.threads[u]? = some d → d.pc.pending = true → u ≠ t → precedes t th.call u d.call = true
  alone : s.active < m → ∀ {r t u : ℕ} {th d e : Thread}, s.threads[r]? = some e →
    e.pc = .releasePop →
    s.threads[t]? = some th → s.OnWay th.pc → s.threads[u]? = some d → d.pc.pending = true → u = t

namespace HandOver

lemma init : HandOver m Sys.init :=
  ⟨fun h => (by cases h),fun _ _ _ h => (by cases h),fun _ _ _ _ _ h => (by cases h),
    fun _ _ _ _ _ _ _ h => (by cases h)⟩

lemma call {c : Call} (h : HandOver m s) (hok : s.orderly m (.call c) = true)
    (hthreads : s'.threads = s.threads++[⟨c,.tryTake⟩]) (hactive : s'.active = s.active) :
    HandOver m s' := by
  -- while a slot is free, the new caller is the only one that is after one
  have hnew : s'.active < m → ∀ {u : ℕ} {d : Thread}, s'.threads[u]? = some d →
      d.pc.pending = true →
      u = s.threads.length := by
    intro hfree u d hu hpending
    simp only [Sys.orderly,or_eq_true,decide_eq_true_eq] at hok
    rw [hthreads] at hu
    rcases Census.getElem?_concat_cases hu with hu | ⟨hlen,_⟩
    · have hall := List.all_eq_true.mp (hok.resolve_left (by omega)) d (mem_of_getElem? hu)
      rw [hpending] at hall
      cases hall
    · exact hlen
  have hpop : ∀ {r : ℕ} {e : Thread}, s'.threads[r]? = some e → e.pc = .releasePop →
      s.threads[r]? = some e := by
    intro r e hr he
    rw [hthreads] at hr
    rcases Census.getElem?_concat_cases hr with hr | ⟨_,rfl⟩
    · exact hr
    · cases he
  refine ⟨fun hr he hr' he' => h.one (hpop hr he) he (hpop hr' he') he',fun hfree u d hu => ?_,
    fun hfree t u th d ht hway hu hpending hne => ?_,
    fun hfree r t u th d e _ _ ht hway hu hpending => ?_⟩
  · rw [hthreads] at hu
    rcases Census.getElem?_concat_cases hu with hu | ⟨_,rfl⟩
    · exact h.waits (hactive ▸ hfree) hu
    · rfl
  · exact absurd ((hnew hfree hu hpending).trans (hnew hfree ht hway.pending).symm) hne
  · exact (hnew hfree hu hpending).trans (hnew hfree ht hway.pending).symm

lemma drop {t : ℕ} {th : Thread} (hok : s.orderly m (.drop t) = true)
    (hthreads : s'.threads = s.threads.set t { th with pc := .releasePop }) : HandOver m s' := by
  have hold : ∀ {u : ℕ} {d : Thread}, s'.threads[u]? = some d → u = t ∧ d.pc = .releasePop ∨
      d.pc.settled = true := by
    intro u d hu
    rw [hthreads] at hu
    rcases Census.getElem?_set_cases hu with ⟨rfl,rfl⟩ | ⟨_,hu⟩
    · exact .inl ⟨rfl,rfl⟩
    · exact .inr (List.all_eq_true.mp hok d (mem_of_getElem? hu))
  -- nobody is on the way
  have hnone : ∀ {u : ℕ} {d : Thread}, s'.threads[u]? = some d → ¬s'.OnWay d.pc := by
    intro u d hu hway
    rcases hold hu with ⟨_,hpc⟩ | hset
    · rw [hpc] at hway
      exact hway
    cases hpc : d.pc with
    | waiting n permit =>
      rw [hpc] at hset hway
      cases permit with
      | true => cases hset
      | false =>
        obtain ⟨r,hr,hrpc⟩ := hway.resolve_left (by decide)
        obtain ⟨v,hv⟩ := List.mem_iff_getElem?.mp hr
        rcases hold hv with ⟨_,hpc⟩ | hset
        · rw [hrpc] at hpc
          cases hpc
        · rw [hrpc] at hset
          cases hset
    | tryTake | cas _ | woken =>
      rw [hpc] at hset
      cases hset
    | _ =>
      rw [hpc] at hway
      exact hway
  have hpop : ∀ {r : ℕ} {e : Thread}, s'.threads[r]? = some e → e.pc = .releasePop → r = t := by
    intro r e hr he
    rcases hold hr with ⟨hrt,_⟩ | hset
    · exact hrt
    · rw [he] at hset
      cases hset
  refine ⟨fun hr he hr' he' => (hpop hr he).trans (hpop hr' he').symm,fun _ u d hu => ?_,
    fun _ _ _ _ _ ht hway => absurd hway (hnone ht),
    fun _ _ _ _ _ _ _ _ _ ht hway => absurd hway (hnone ht)⟩
  rcases hold hu with ⟨_,hpc⟩ | hset
  · rw [hpc]
    rfl
  · exact Pc.enters_of_settled hset

/-- Who waits and has not been picked has its entry in `waiters`. -/
lemma entry (h : HandOver m s) (hw : Wired s) (hfree : s.active < m) {u : ℕ} {d : Thread}
    (hu : s.threads[u]? = some d) (hpending : d.pc.pending = true) (hway : ¬s.OnWay d.pc) :
    ∃ n, d.pc = .waiting n false ∧ ∃ v ∈ s.waiters, v.id = u ∧ v.notify = n := by
  have henters := h.waits hfree hu
  cases hpc : d.pc with
  | waiting n permit =>
    rw [hpc] at hway
    obtain ⟨hpermit,hcalled⟩ := not_or.mp hway
    rw [Bool.not_eq_true] at hpermit
    subst hpermit
    refine ⟨n,rfl,(hw u d n hu (by rw [hpc]; rfl)).resolve_right hcalled⟩
  | tryTake | cas _ | woken => exact absurd (show s.OnWay d.pc by rw [hpc]; trivial) hway
  | full | push | pushed _ _ =>
    rw [hpc] at henters
    cases henters
  | _ =>
    rw [hpc] at hpending
    cases hpending

lemma pop {t i : ℕ} {th : Thread} {w : Waiter} (h : HandOver m s) (hw : Wired s) (hn : Named s)
    (hs : Sorted s) (ht : s.threads[t]? = some th) (hpc : th.pc = .releasePop)
    (hentry : s.waiters[i]? = some w) (hpicked : best s.waiters = some i)
    (hthreads : s'.threads = s.threads.set t { th with pc := .releaseNotify w.notify })
    (hactive : s'.active = s.active) : HandOver m s' := by
  have hold : ∀ {u : ℕ} {d : Thread}, s'.threads[u]? = some d → d.pc = .releaseNotify w.notify ∨
      u ≠ t ∧ s.threads[u]? = some d := by
    intro u d hu
    rw [hthreads] at hu
    rcases Census.getElem?_set_cases hu with ⟨_,rfl⟩ | hu
    · exact .inl rfl
    · exact .inr hu
  have hsame : ∀ {u : ℕ} {d : Thread}, s'.threads[u]? = some d → d.pc.pending = true →
      s.threads[u]? = some d := by
    intro u d hu hpending
    rcases hold hu with hpc | ⟨_,hu⟩
    · rw [hpc] at hpending
      cases hpending
    · exact hu
  have hnopop : ∀ {r : ℕ} {e : Thread}, s'.threads[r]? = some e → e.pc ≠ .releasePop := by
    intro r e hr he
    rcases hold hr with hpc | ⟨hne,hr⟩
    · rw [hpc] at he
      cases he
    · exact hne (h.one hr he ht hpc)
  have hway : ∀ {pc : Pc}, s'.OnWay pc → s.OnWay pc ∨ pc = .waiting w.notify false := by
    intro pc hpc
    cases pc with
    | waiting n permit =>
      rcases hpc with hp | ⟨r,hr,hrpc⟩
      · exact .inl (.inl hp)
      · obtain ⟨v,hv⟩ := List.mem_iff_getElem?.mp hr
        rcases hold hv with hcall | ⟨_,hv⟩
        · cases permit with
          | true => exact .inl (.inl rfl)
          | false =>
            rw [hrpc] at hcall
            cases hcall
            exact .inr rfl
        · exact .inl (.inr ⟨r,mem_of_getElem? hv,hrpc⟩)
    | _ => exact .inl hpc
  refine ⟨fun hr he _ _ => absurd he (hnopop hr),fun hfree u d hu => ?_,?_,
    fun _ _ _ _ _ _ _ hr he _ _ _ _ => absurd he (hnopop hr)⟩
  · rcases hold hu with hpc | ⟨_,hu⟩
    · rw [hpc]
      rfl
    · exact h.waits (hactive ▸ hfree) hu
  intro hfree p u e d hp hpway hu hpending hne
  rw [hactive] at hfree
  have hp₀ := hsame hp hpway.pending
  have hu₀ := hsame hu hpending
  -- nobody was on the way before, since a release was still to look
  have hnot : ∀ {v : ℕ} {e : Thread}, s.threads[v]? = some e → s.OnWay e.pc → False := by
    intro v e hv hvway
    exact hne ((h.alone hfree ht hpc hv hvway hu₀ hpending).trans
      (h.alone hfree ht hpc hv hvway hp₀ hpway.pending).symm)
  have hpc₀ := (hway hpway).resolve_left (hnot hp₀)
  obtain ⟨n,hn₀,v,hv,rfl,hvn⟩ := h.entry hw hfree hp₀ hpway.pending (hnot hp₀)
  obtain ⟨k,_,x,hx,rfl,_⟩ := h.entry hw hfree hu₀ hpending (hnot hu₀)
  have hvw : v = w := by
    rw [hpc₀] at hn₀
    cases hn₀
    exact inj_on_of_nodup_map hn.distinct hv (mem_of_getElem? hentry) hvn
  subst hvw
  obtain ⟨j,hj⟩ := List.mem_iff_getElem?.mp hx
  have hbest := hs.best hpicked hentry hj
  have hvp := hn.priority v hv
  have hxp := hn.priority x hx
  rw [Sys.calls,getElem?_map,hp₀,map_some,map_some,Option.some.injEq] at hvp
  rw [Sys.calls,getElem?_map,hu₀,map_some,map_some,Option.some.injEq] at hxp
  simp only [precedes,or_eq_true,and_eq_true,decide_eq_true_eq,hvp,hxp]
  rcases hbest with hlt | ⟨heq,_,hle⟩
  · exact .inl hlt
  · exact .inr ⟨heq,lt_of_le_of_ne hle (Ne.symm hne)⟩

theorem step (h : HandOver m s) (hw : Wired s) (hn : Named s) (hs : Sorted s)
    (hok : s.orderly m a = true) (hstep : Admission.step (some m) s a = some s') :
    HandOver m s' := by
  cases step_turn hstep with
  | call hthreads hactive => exact h.call hok hthreads hactive
  | drop ht hpc hthreads => exact .drop hok hthreads
  | pop ht hpc hentry hpicked hthreads hactive =>
    exact h.pop hw hn hs ht hpc hentry hpicked hthreads hactive
  | other hactive hfollows =>
    have hfree : s'.active < m → s.active < m := fun hlt => hactive.trans_lt hlt
    have hway : s.active < m → ∀ {u : ℕ} {th th' : Thread}, s.threads[u]? = some th →
        Follows m s s' th th' →
        s'.OnWay th'.pc → s.OnWay th.pc := by
      intro hlt u th th' hu hf hway
      refine (hf.onWay hway).resolve_right (fun henters => ?_)
      rw [h.waits hlt hu] at henters
      cases henters
    refine ⟨fun hr he hr' he' => ?_,fun hlt u d hu => ?_,
      fun hlt t u th d ht hon hu hpending hne => ?_,
      fun hlt r t u th d e hr he ht hon hu hpending => ?_⟩
    · obtain ⟨_,hr₀,hf⟩ := hfollows _ _ hr
      obtain ⟨_,hr₀',hf'⟩ := hfollows _ _ hr'
      exact h.one hr₀ (hf.pops he) hr₀' (hf'.pops he')
    · obtain ⟨d₀,hu₀,hf⟩ := hfollows _ _ hu
      by_contra henters
      rw [Bool.not_eq_false] at henters
      rcases hf.enters henters with hold | hfull
      · rw [h.waits (hfree hlt) hu₀] at hold
        cases hold
      · exact absurd (hfree hlt) (not_lt.mpr hfull)
    · obtain ⟨th₀,ht₀,hf⟩ := hfollows _ _ ht
      obtain ⟨d₀,hu₀,hg⟩ := hfollows _ _ hu
      rw [hf.call,hg.call]
      exact h.ahead (hfree hlt) ht₀ (hway (hfree hlt) ht₀ hf hon) hu₀ (hg.pending hpending) hne
    · obtain ⟨e₀,hr₀,he₀⟩ := hfollows _ _ hr
      obtain ⟨th₀,ht₀,hf⟩ := hfollows _ _ ht
      obtain ⟨d₀,hu₀,hg⟩ := hfollows _ _ hu
      exact h.alone (hfree hlt) hr₀ (he₀.pops he) ht₀ (hway (hfree hlt) ht₀ hf hon) hu₀
        (hg.pending hpending)

end HandOver

/-- What a run of orderly steps keeps. -/
structure Ordered (m : ℕ) (s : Sys) : Prop where
  balanced : Balanced (some m) s
  wired : Wired s
  named : Named s
  sorted : Sorted s
  handOver : HandOver m s

lemma Ordered.step (h : Ordered m s) (hok : s.orderly m a = true)
    (hstep : Admission.step (some m) s a = some s') : Ordered m s' :=
  ⟨h.balanced.step hstep,h.wired.step hstep,named_step h.named hstep,
    sorted_step h.sorted hok hstep,h.handOver.step h.wired h.named h.sorted hok hstep⟩

def urgentCall : Call := ⟨3,false,true⟩

/-- The first caller has dropped its guard, and two plain ones and an urgent one wait. -/
def threeWaiting : Sys :=
  ⟨0,[⟨0,0,1,0⟩,⟨0,5,2,1⟩,⟨3,0,3,2⟩],3,3,0,3,[⟨plainCall,.releasePop⟩,⟨plainCall,.waiting 0 false⟩,
    ⟨plainCall,.waiting 1 false⟩,⟨urgentCall,.waiting 2 false⟩],0⟩

def urgentPicked : Sys :=
  ⟨0,[⟨0,0,1,0⟩,⟨0,5,2,1⟩],3,3,0,3,[⟨plainCall,.releaseNotify 2⟩,⟨plainCall,.waiting 0 false⟩,
    ⟨plainCall,.waiting 1 false⟩,⟨urgentCall,.waiting 2 false⟩],0⟩

def urgentNext : Sys :=
  ⟨0,[⟨0,0,1,0⟩,⟨0,5,2,1⟩],2,3,0,3,[⟨plainCall,.done .released⟩,⟨plainCall,.waiting 0 false⟩,
    ⟨plainCall,.waiting 1 false⟩,⟨urgentCall,.cas 0⟩],0⟩

def urgentTaken : Sys :=
  ⟨1,[⟨0,0,1,0⟩,⟨0,5,2,1⟩],2,3,0,3,[⟨plainCall,.done .released⟩,⟨plainCall,.waiting 0 false⟩,
    ⟨plainCall,.waiting 1 false⟩,⟨urgentCall,.taken⟩],0⟩

lemma threeWaiting_reachable :
    ReachableBy (some 1) (fun s a => s.orderly 1 a = true) threeWaiting :=
  execute_run (show execute (step (some 1)) (fun s a => s.orderly 1 a = true)
    (List.flatten [holdOne,waitNext 1,[.call plainCall,.exec 2 0 false,.exec 2 0 false,
      .exec 2 5 false,.exec 2 0 false],.call urgentCall::steps 3 4,[.drop 0]]) Sys.init =
        some threeWaiting by decide +kernel)

lemma urgentNext_reachable :
    ReachableBy (some 1) (fun s a => s.orderly 1 a = true) urgentNext :=
  Run.trans threeWaiting_reachable (execute_run (show
    execute (step (some 1)) (fun s a => s.orderly 1 a = true)
      (List.flatten [steps 0 2,steps 3 3]) threeWaiting = some urgentNext by decide +kernel))

def newcomerNext : Sys :=
  ⟨0,[],1,1,0,1,[⟨plainCall,.done .released⟩,⟨plainCall,.waiting 0 true⟩,⟨plainCall,.cas 0⟩],0⟩

end PirateServer.Admission
