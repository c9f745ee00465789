import PirateServer.StreamQueue.Machine

/-! What becomes of an accepted socket, over all interleavings, and when a waiting `dequeue` is
left behind. `notify_waiters` keeps no permit, so a `Notified` future that is made after it
does not see it. -/
namespace PirateServer.StreamQueue
open Lib List

namespace Pc

def reading : Pc → Option ℕ
  | offerPrune now | pullPrune _ now => some now
  | _ => none

end Pc

namespace Sys

/-- The sockets that were handed out, in order. -/
def delivered (s : Sys) : List ℕ :=
  (s.log.filter (fun e => e.2 = .delivered)).map (fun e => e.1.stream)

def queued (s : Sys) : List ℕ := s.inner.map Pending.stream

def pcAt (s : Sys) (t : ℕ) : Option Pc := s.threads[t]?

def hasFresh (cfg : Config) (s : Sys) : Bool :=
  s.inner.any (fun p => p.older cfg.offerTtl s.clock = false)

def notifyPending (s : Sys) : Bool := s.threads.any Pc.notifies

end Sys

/-- Accepted sockets leave at the front, delivered or pruned, and the rest is queued. -/
structure Conserved (cfg : Config) (s : Sys) : Prop where
  len_le : s.inner.length ≤ cfg.cap
  accepted_eq : s.accepted = s.log.map (fun e => e.1.stream) ++ s.queued
  accepted_nodup : s.accepted.Nodup
  accepted_by : ∀ t ∈ s.accepted, ∃ pc, s.threads[t]? = some pc ∧ pc.hasAccepted = true
  pruned_old : ∀ p c, (p,Fate.pruned c) ∈ s.log → cfg.offerTtl < c - p.enqueued
  reading_le : ∀ pc ∈ s.threads, ∀ now, pc.reading = some now → now ≤ s.clock

namespace Conserved
variable {cfg : Config} {s s' : Sys} {t : ℕ} {pc pc' : Pc}

lemma init (clock : ℕ) : Conserved cfg (Sys.init clock) := by
  constructor <;> simp [Sys.init,Sys.queued]

lemma accepted_by_set (h : Conserved cfg s) (ht : s.threads[t]? = some pc)
    (hmono : pc.hasAccepted = true → pc'.hasAccepted = true) :
    ∀ u ∈ s.accepted, ∃ q, (s.threads.set t pc')[u]? = some q ∧ q.hasAccepted = true := by
  intro u hu
  obtain ⟨q,hq,hacc⟩ := h.accepted_by u hu
  by_cases hut : t = u
  · subst hut
    cases ht.symm.trans hq
    have hlen : t < s.threads.length := (List.getElem?_eq_some_iff.mp ht).1
    exact ⟨pc',getElem?_set_self hlen,hmono hacc⟩
  · exact ⟨q,(getElem?_set_ne hut).trans hq,hacc⟩

lemma reading_le_set (h : Conserved cfg s) (hread : ∀ now, pc'.reading = some now → now ≤ s.clock) :
    ∀ q ∈ s.threads.set t pc', ∀ now, q.reading = some now → now ≤ s.clock := by
  intro q hq now hnow
  rcases mem_or_eq_of_mem_set hq with hq | rfl
  · exact h.reading_le q hq now hnow
  · exact hread now hnow

lemma quiet (h : Conserved cfg s) (ht : s.threads[t]? = some pc)
    (hthreads : s'.threads = s.threads.set t pc') (hinner : s'.inner = s.inner)
    (haccepted : s'.accepted = s.accepted) (hlog : s'.log = s.log) (hclock : s'.clock = s.clock)
    (hmono : pc.hasAccepted = true → pc'.hasAccepted = true)
    (hread : ∀ now, pc'.reading = some now → now ≤ s.clock) : Conserved cfg s' := by
  obtain ⟨clock,inner,calls,threads,accepted,log⟩ := s'
  subst hthreads hinner haccepted hlog hclock
  exact ⟨h.len_le,h.accepted_eq,h.accepted_nodup,h.accepted_by_set ht hmono,h.pruned_old,
    h.reading_le_set hread⟩

lemma goto (h : Conserved cfg s) (ht : s.threads[t]? = some pc)
    (hmono : pc.hasAccepted = true → pc'.hasAccepted = true) (hread : pc'.reading = none) :
    Conserved cfg (s.goto t pc') :=
  h.quiet ht rfl rfl rfl rfl rfl hmono (fun _ hn => nomatch hread.symm.trans hn)

lemma prune (h : Conserved cfg s) {now : ℕ} (hnow : now ≤ s.clock) :
    Conserved cfg (s.prune cfg now) := by
  have hsplit := takeWhile_append_dropWhile (p := Pending.older cfg.offerTtl now) (l := s.inner)
  refine ⟨?_,?_,h.accepted_nodup,h.accepted_by,?_,h.reading_le⟩
  · exact (dropWhile_sublist _).length_le.trans h.len_le
  · simp only [Sys.prune,Sys.queued,map_append,List.map_map,append_assoc]
    rw [h.accepted_eq,Sys.queued]
    nth_rewrite 1 [← hsplit]
    rw [map_append]
    rfl
  · intro p c hp
    rcases List.mem_append.mp hp with hp | hp
    · exact h.pruned_old p c hp
    · obtain ⟨q,hq,he⟩ := List.mem_map.mp hp
      cases he
      have hold := mem_takeWhile_imp hq
      simp only [Pending.older,decide_eq_true_eq] at hold
      omega

lemma accept (h : Conserved cfg s) (ht : s.threads[t]? = some .offerPush)
    (hroom : s.inner.length < cfg.cap) : Conserved cfg { s.goto t .offerCount with
      inner := s.inner ++ [⟨t,s.clock⟩]
      accepted := s.accepted ++ [t] } := by
  have hnew : t ∉ s.accepted := by
    intro hmem
    obtain ⟨pc,hpc,hacc⟩ := h.accepted_by t hmem
    cases ht.symm.trans hpc
    cases hacc
  refine ⟨?_,?_,?_,?_,h.pruned_old,h.reading_le_set (fun _ hn => nomatch hn)⟩
  · simp only [length_append,length_singleton]
    omega
  · simp only [Sys.queued,Sys.goto,map_append,map_cons,map_nil]
    rw [h.accepted_eq,append_assoc]
    rfl
  · exact List.nodup_append.mpr ⟨h.accepted_nodup,nodup_singleton t,
      fun a ha b hb => by
        cases List.mem_singleton.mp hb
        rintro rfl
        exact hnew ha⟩
  · intro u hu
    rcases List.mem_append.mp hu with hu | hu
    · exact h.accepted_by_set ht (fun _ => rfl) u hu
    · cases List.mem_singleton.mp hu
      have hlen : t < s.threads.length := (List.getElem?_eq_some_iff.mp ht).1
      exact ⟨.offerCount,getElem?_set_self hlen,rfl⟩

lemma pop (h : Conserved cfg s) {d : ℕ} {p : Pending} {rest : List Pending}
    (ht : s.threads[t]? = some (.pullPop d)) (hfront : s.inner = p::rest) :
    Conserved cfg { s.goto t (.pulled (some p.stream)) with
      inner := rest
      log := s.log ++ [(p,.delivered)] } := by
  have hlen := h.len_le
  have heq := h.accepted_eq
  rw [hfront] at hlen
  rw [Sys.queued,hfront] at heq
  refine ⟨?_,?_,h.accepted_nodup,h.accepted_by_set ht (fun hc => nomatch hc),?_,
    h.reading_le_set (fun _ hn => nomatch hn)⟩
  · simp only [length_cons] at hlen
    show rest.length ≤ cfg.cap
    omega
  · show s.accepted = _
    rw [heq]
    simp [Sys.queued]
  · intro q c hq
    rcases List.mem_append.mp hq with hq | hq
    · exact h.pruned_old q c hq
    · cases List.mem_singleton.mp hq

lemma join (h : Conserved cfg s) (hread : pc.reading = none) :
    Conserved cfg { s with threads := s.threads ++ [pc] } := by
  refine ⟨h.len_le,h.accepted_eq,h.accepted_nodup,?_,h.pruned_old,?_⟩
  · intro u hu
    obtain ⟨q,hq,hacc⟩ := h.accepted_by u hu
    have hlen : u < s.threads.length := (List.getElem?_eq_some_iff.mp hq).1
    exact ⟨q,(getElem?_append_left hlen).trans hq,hacc⟩
  · intro q hq now hnow
    rcases List.mem_append.mp hq with hq | hq
    · exact h.reading_le q hq now hnow
    · cases List.mem_singleton.mp hq
      cases hread.symm.trans hnow

theorem step {a : Label} (h : Conserved cfg s) (hs : StreamQueue.step cfg s a = some s') :
    Conserved cfg s' := by
  cases step_move hs with
  | tick =>
    refine ⟨h.len_le,h.accepted_eq,h.accepted_nodup,h.accepted_by,h.pruned_old,?_⟩
    exact fun pc hpc now hnow => (h.reading_le pc hpc now hnow).trans (Nat.le_add_right _ _)
  | offer | pull => exact h.join rfl
  | offerClock ht | pullClock ht =>
    refine h.quiet ht rfl rfl rfl rfl rfl (fun hc => nomatch hc) ?_
    intro now hnow
    cases hnow
    exact le_rfl
  | offerPrune ht | pullPrune ht =>
    have hnow := h.reading_le _ (mem_of_getElem? ht) _ rfl
    exact (h.goto ht (fun hc => nomatch hc) rfl).prune hnow
  | refuse ht =>
    exact h.quiet ht rfl rfl rfl rfl rfl (fun hc => nomatch hc) (fun _ hn => nomatch hn)
  | popNone ht | register ht | wake ht | timeout ht => exact h.goto ht (fun hc => nomatch hc) rfl
  | accept ht hroom => exact h.accept ht hroom
  | count ht | notify ht =>
    exact h.quiet ht rfl rfl rfl rfl rfl (fun _ => rfl) (fun _ hn => nomatch hn)
  | pop ht hfront => exact h.pop ht hfront

end Conserved

variable {cfg : Config}

theorem Reachable.conserved {s : Sys} (h : Reachable cfg s) : Conserved cfg s := by
  obtain ⟨c,hr⟩ := h
  exact hr.invariant (fun _ _ _ hi _ hs => hi.step hs) (Conserved.init c)

lemma Conserved.delivered_sublist {s : Sys} (h : Conserved cfg s) :
    s.delivered.Sublist s.accepted := by
  rw [h.accepted_eq]
  exact (List.filter_sublist.map _).trans (sublist_append_left _ _)

lemma Conserved.accounted {s : Sys} (h : Conserved cfg s) {x : ℕ} (hx : x ∈ s.accepted) :
    x ∈ s.delivered ∨ x ∈ s.queued ∨
      ∃ p c, (p,Fate.pruned c) ∈ s.log ∧ p.stream = x ∧ cfg.offerTtl < c - p.enqueued := by
  rw [h.accepted_eq] at hx
  rcases List.mem_append.mp hx with hx | hx
  · obtain ⟨⟨p,fate⟩,hp,rfl⟩ := List.mem_map.mp hx
    cases fate with
    | delivered =>
      exact Or.inl (List.mem_map.mpr ⟨_,List.mem_filter.mpr ⟨hp,decide_eq_true rfl⟩,rfl⟩)
    | pruned c => exact Or.inr (Or.inr ⟨p,c,hp,rfl,h.pruned_old p c hp⟩)
  · exact Or.inr (Or.inl hx)

/-- A consumer makes its `Notified` future before the next `notify_waiters`, or with nothing in
the queue that is not expired. -/
def registersInTime (cfg : Config) (s : Sys) : Label → Bool
  | .exec t =>
    match s.pcAt t with
    | some (.pullRegister _) => !s.hasFresh cfg || s.notifyPending
    | _ => true
  | _ => true

/-- Whoever waits beside a socket that is not expired is going to be notified. -/
structure Attended (cfg : Config) (s : Sys) : Prop where
  seen_le : ∀ d seen, Pc.pullWait d seen ∈ s.threads → seen ≤ s.notifyCalls
  covered : s.threads.any (Pc.blocked s.notifyCalls) = true → s.hasFresh cfg = true →
    s.notifyPending = true

namespace Attended
variable {s s' : Sys} {t : ℕ} {pc pc' : Pc}

lemma any_blocked_set {calls : ℕ} {threads : List Pc} (hb : pc'.blocked calls = false)
    (h : (threads.set t pc').any (Pc.blocked calls) = true) :
    threads.any (Pc.blocked calls) = true := by
  obtain ⟨q,hq,hqb⟩ := List.any_eq_true.mp h
  rcases mem_or_eq_of_mem_set hq with hq | rfl
  · exact List.any_eq_true.mpr ⟨q,hq,hqb⟩
  · cases hb.symm.trans hqb

lemma notifyPending_set (hpending : s.notifyPending = true) (ht : s.threads[t]? = some pc)
    (hthreads : s'.threads = s.threads.set t pc')
    (hnotify : pc.notifies = true → pc'.notifies = true) : s'.notifyPending = true := by
  obtain ⟨q,hq,hqn⟩ := List.any_eq_true.mp hpending
  rw [Sys.notifyPending,hthreads]
  have hlen : t < s.threads.length := (List.getElem?_eq_some_iff.mp ht).1
  by_cases hpc : pc.notifies = true
  · exact List.any_eq_true.mpr ⟨pc',mem_set hlen pc',hnotify hpc⟩
  · refine List.any_eq_true.mpr ⟨q,Census.mem_set_of_ne ht hq ?_,hqn⟩
    rintro rfl
    exact hpc hqn

lemma hasFresh_mono (hclock : s.clock ≤ s'.clock) (hsub : ∀ p ∈ s'.inner, p ∈ s.inner)
    (h : s'.hasFresh cfg = true) : s.hasFresh cfg = true := by
  obtain ⟨p,hp,hfresh⟩ := List.any_eq_true.mp h
  refine List.any_eq_true.mpr ⟨p,hsub p hp,?_⟩
  simp only [Pending.older,decide_eq_true_eq,decide_eq_false_iff_not] at hfresh ⊢
  omega

/-- One call moves to a point that does not wait; nothing is accepted and nobody is notified. -/
lemma quiet (h : Attended cfg s) (ht : s.threads[t]? = some pc)
    (hthreads : s'.threads = s.threads.set t pc') (hsub : ∀ p ∈ s'.inner, p ∈ s.inner)
    (hcalls : s'.notifyCalls = s.notifyCalls) (hclock : s'.clock = s.clock)
    (hwait : ∀ d seen, pc' ≠ .pullWait d seen)
    (hnotify : pc.notifies = true → pc'.notifies = true) : Attended cfg s' := by
  have hb : pc'.blocked s.notifyCalls = false := by
    cases pc' with
    | pullWait d seen => exact absurd rfl (hwait d seen)
    | _ => rfl
  constructor
  · intro d seen hmem
    rw [hthreads] at hmem
    rw [hcalls]
    rcases mem_or_eq_of_mem_set hmem with hmem | heq
    · exact h.seen_le d seen hmem
    · exact absurd heq.symm (hwait d seen)
  · intro hany hfresh
    rw [hthreads,hcalls] at hany
    exact notifyPending_set (h.covered (any_blocked_set hb hany)
      (hasFresh_mono hclock.ge hsub hfresh)) ht hthreads hnotify

lemma accept (h : Attended cfg s) (ht : s.threads[t]? = some .offerPush)
    (hthreads : s'.threads = s.threads.set t .offerCount)
    (hcalls : s'.notifyCalls = s.notifyCalls) : Attended cfg s' := by
  constructor
  · intro d seen hmem
    rw [hthreads] at hmem
    rw [hcalls]
    rcases mem_or_eq_of_mem_set hmem with hmem | heq
    · exact h.seen_le d seen hmem
    · cases heq
  · intro _ _
    have hlen : t < s.threads.length := (List.getElem?_eq_some_iff.mp ht).1
    rw [Sys.notifyPending,hthreads]
    exact List.any_eq_true.mpr ⟨.offerCount,mem_set hlen _,rfl⟩

lemma notify (h : Attended cfg s) (hthreads : s'.threads = s.threads.set t (.offered true))
    (hcalls : s'.notifyCalls = s.notifyCalls + 1) : Attended cfg s' := by
  have hseen : ∀ d seen, Pc.pullWait d seen ∈ s'.threads → seen ≤ s.notifyCalls := by
    intro d seen hmem
    rw [hthreads] at hmem
    rcases mem_or_eq_of_mem_set hmem with hmem | heq
    · exact h.seen_le d seen hmem
    · cases heq
  constructor
  · intro d seen hmem
    have hle := hseen d seen hmem
    omega
  · intro hany _
    obtain ⟨q,hq,hqb⟩ := List.any_eq_true.mp hany
    cases q with
    | pullWait d seen =>
      have hle := hseen d seen hq
      simp only [Pc.blocked,decide_eq_true_eq] at hqb
      omega
    | _ => cases hqb

lemma register (h : Attended cfg s) {d : ℕ} (ht : s.threads[t]? = some (.pullRegister d))
    (hok : s.hasFresh cfg = false ∨ s.notifyPending = true) :
    Attended cfg (s.goto t (.pullWait d s.notifyCalls)) := by
  constructor
  · intro e seen hmem
    rcases mem_or_eq_of_mem_set hmem with hmem | heq
    · exact h.seen_le e seen hmem
    · cases heq
      exact le_rfl
  · intro _ hfresh
    rcases hok with hnone | hpending
    · cases hnone.symm.trans hfresh
    · exact notifyPending_set hpending ht rfl (fun hc => nomatch hc)

lemma join (h : Attended cfg s) (hwait : ∀ d seen, pc ≠ .pullWait d seen) :
    Attended cfg { s with threads := s.threads ++ [pc] } := by
  have hold : ∀ q ∈ s.threads ++ [pc], q ∈ s.threads ∨ q = pc := fun q hq =>
    (List.mem_append.mp hq).imp_right List.mem_singleton.mp
  constructor
  · intro d seen hmem
    rcases hold _ hmem with hmem | heq
    · exact h.seen_le d seen hmem
    · exact absurd heq.symm (hwait d seen)
  · intro hany hfresh
    obtain ⟨q,hq,hqb⟩ := List.any_eq_true.mp hany
    rcases hold q hq with hq | rfl
    · have hpending := h.covered (List.any_eq_true.mpr ⟨q,hq,hqb⟩) hfresh
      obtain ⟨r,hr,hrn⟩ := List.any_eq_true.mp hpending
      exact List.any_eq_true.mpr ⟨r,mem_append_left _ hr,hrn⟩
    · cases q with
      | pullWait d seen => exact absurd rfl (hwait d seen)
      | _ => cases hqb

theorem step {a : Label} (h : Attended cfg s) (hok : registersInTime cfg s a = true)
    (hs : StreamQueue.step cfg s a = some s') : Attended cfg s' := by
  cases step_move hs with
  | tick =>
    refine ⟨h.seen_le,fun hany hfresh => h.covered hany ?_⟩
    refine hasFresh_mono ?_ ?_ hfresh
    · exact Nat.le_add_right _ _
    · exact fun _ hp => hp
  | offer | pull => exact h.join (fun _ _ hc => nomatch hc)
  | offerClock ht | refuse ht | pullClock ht | popNone ht | wake ht | timeout ht =>
    exact h.quiet ht rfl (fun _ hp => hp) rfl rfl (fun _ _ hc => nomatch hc) (fun hc => nomatch hc)
  | offerPrune ht | pullPrune ht =>
    exact h.quiet ht rfl (fun _ hp => (dropWhile_sublist _).mem hp) rfl rfl
      (fun _ _ hc => nomatch hc) (fun hc => nomatch hc)
  | accept ht => exact h.accept ht rfl rfl
  | count ht =>
    exact h.quiet ht rfl (fun _ hp => hp) rfl rfl (fun _ _ hc => nomatch hc) (fun _ => rfl)
  | notify => exact h.notify rfl rfl
  | pop ht hfront =>
    refine h.quiet ht rfl (fun p hp => ?_) rfl rfl (fun _ _ hc => nomatch hc) (fun hc => nomatch hc)
    rw [hfront]
    exact mem_cons_of_mem _ hp
  | register ht =>
    refine h.register ht ?_
    simpa only [registersInTime,Sys.pcAt,ht,Bool.or_eq_true,Bool.not_eq_true'] using hok

end Attended

abbrev InTimeReachable (cfg : Config) (s : Sys) : Prop :=
  ReachableBy cfg (fun s a => registersInTime cfg s a = true) s

lemma InTimeReachable.attended {s : Sys} (h : InTimeReachable cfg s) : Attended cfg s := by
  obtain ⟨c,hr⟩ := h
  refine hr.invariant (fun _ _ _ hi hok hs => hi.step hok hs) ⟨?_,?_⟩
  all_goals simp [Sys.init]

/-- In every run the queue stays within its capacity, and the accepted sockets, each once and in
order, are those that left the queue, handed out or expired, followed by those in it. If all futures
were made in time then, once no `notify_waiters` is pending, no `dequeue` waits beside a fresh
socket. -/
theorem accepted_streams_delivered (cfg : Config) : (∀ s, Reachable cfg s →
      s.inner.length ≤ cfg.cap ∧ s.accepted.Nodup ∧
      s.accepted = s.log.map (fun e => e.1.stream) ++ s.queued ∧ s.delivered.Sublist s.accepted ∧
      (∀ x ∈ s.accepted, x ∈ s.delivered ∨ x ∈ s.queued ∨
        ∃ p c, (p,Fate.pruned c) ∈ s.log ∧ p.stream = x ∧ cfg.offerTtl < c - p.enqueued)) ∧
    ∀ s, InTimeReachable cfg s → s.notifyPending = false → s.hasFresh cfg = true →
      ∀ pc ∈ s.threads, pc.blocked s.notifyCalls = false := by
  constructor
  · intro s hr
    have h := hr.conserved
    exact ⟨h.len_le,h.accepted_nodup,h.accepted_eq,h.delivered_sublist,fun _ hx => h.accounted hx⟩
  · intro s hr hnone hfresh pc hpc
    by_contra hb
    have hany : s.threads.any (Pc.blocked s.notifyCalls) = true :=
      List.any_eq_true.mpr ⟨pc,hpc,by simpa using hb⟩
    cases hnone.symm.trans (hr.attended.covered hany hfresh)

/-- `n` steps of call `t`. -/
def steps (t n : ℕ) : List Label := List.replicate n (.exec t)

def smallQueue : Config := ⟨2,5⟩

def wokenOnce : List Label :=
  .pull 10::steps 0 4 ++ .offer::steps 1 5 ++ .offer::steps 2 5 ++ steps 0 4

theorem accepted_streams_delivered_two : ∃ s, InTimeReachable smallQueue s ∧
    s.accepted = [1,2] ∧ s.delivered = [1] ∧ s.notifyPending = false ∧
    s.hasFresh smallQueue = true ∧ s.delivered.Sublist s.accepted ∧
    ∀ pc ∈ s.threads, pc.blocked s.notifyCalls = false := by
  obtain ⟨s,hs,hp⟩ := (Option.any_eq_true _ _).mp (show
    (execute (step smallQueue) (fun s a => registersInTime smallQueue s a = true) wokenOnce
      (Sys.init 0)).any (fun s => s.accepted = [1,2] ∧ s.delivered = [1] ∧
        s.notifyPending = false ∧ s.hasFresh smallQueue = true) = true
    by decide +kernel)
  obtain ⟨hacc,hdel,hnone,hfresh⟩ := of_decide_eq_true hp
  have hr : InTimeReachable smallQueue s := ⟨0,execute_run hs⟩
  have hall : Reachable smallQueue s := ⟨0,(execute_run hs).weaken⟩
  exact ⟨s,hr,hacc,hdel,hnone,hfresh,((accepted_streams_delivered smallQueue).1 s hall).2.2.2.1,
    (accepted_streams_delivered smallQueue).2 s hr hnone hfresh⟩

/-- A whole `try_enqueue` between the failed `pop_front` and the future. -/
def offerBeforeRegister : List Label := .pull 10::steps 0 3 ++ .offer::steps 1 5 ++ steps 0 1

theorem dequeue_left_waiting : ∃ s,
    execute (step smallQueue) anyStep offerBeforeRegister (Sys.init 0) = some s ∧
    Reachable smallQueue s ∧ s.notifyPending = false ∧ s.hasFresh smallQueue = true ∧
    ∃ pc ∈ s.threads, pc.blocked s.notifyCalls = true := by
  obtain ⟨s,hs,hp⟩ := (Option.any_eq_true _ _).mp (show
    (execute (step smallQueue) anyStep offerBeforeRegister (Sys.init 0)).any (fun s =>
      s.notifyPending = false ∧ s.hasFresh smallQueue = true ∧
        ∃ pc ∈ s.threads, pc.blocked s.notifyCalls = true) = true
    by decide +kernel)
  exact ⟨s,hs,⟨0,execute_run hs⟩,of_decide_eq_true hp⟩

end PirateServer.StreamQueue
