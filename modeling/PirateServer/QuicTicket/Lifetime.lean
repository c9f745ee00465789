import PirateServer.QuicTicket.Machine

/-! What holds of tickets in every run, and when no admission guard is left behind. -/
namespace PirateServer.QuicTicket
open Lib Wire List

/-! The store. -/

variable {store : QuicTicketStore} {now later : ℕ} {e : QuicRawContext × ℕ} {k : Ticket}

lemma lookup_sweep
    (h : (store.sweep now).inner.lookup k = some e) : store.inner.lookup k = some e :=
  (Table.lookup_retain_eq_some.mp h).1

lemma lookup_insert {ticket : Ticket} {grant : QuicRawContext}
    (h : (store.insert now later ticket grant).inner.lookup k = some e) :
    (k = ticket ∧ e = (grant,later)) ∨ (k ≠ ticket ∧
      (store.sweep now).inner.lookup k = some e) := by
  simp only [QuicTicketStore.insert,Table.lookup_insert_eq] at h
  split_ifs at h with hk
  · exact .inl ⟨hk,(Option.some.inj h).symm⟩
  · exact .inr ⟨hk,h⟩

@[simp] lemma take_ttl (ticket : Bytes) : (store.take now later ticket).2.ttl = store.ttl := by
  unfold QuicTicketStore.take
  split
  · dsimp only
    split <;> rfl
  · rfl

lemma lookup_take {ticket : Bytes} (h : (store.take now later ticket).2.inner.lookup k = some e) :
    store.inner.lookup k = some e := by
  unfold QuicTicketStore.take at h
  split at h
  · dsimp only at h
    split at h
    · dsimp only at h
      rw [Table.lookup_erase_eq] at h
      split_ifs at h
      exact lookup_sweep h
    · exact lookup_sweep h
  · exact h

lemma take_eq_some {ticket : Bytes} {ctx : QuicRawContext}
    (h : (store.take now later ticket).1 = some ctx) :
    ∃ (key : Ticket) (issued : ℕ), key.val = ticket ∧ store.inner.lookup key = some (ctx,issued) ∧
      later ≤ issued+store.ttl ∧ (store.take now later ticket).2.inner.lookup key = none := by
  unfold QuicTicketStore.take at h ⊢
  split at h
  swap
  · cases h
  rename_i hlen
  dsimp only at h
  split at h
  swap
  · cases h
  rename_i grant issued hfound
  dsimp only at h
  split_ifs at h with hold
  cases h
  refine ⟨⟨ticket,hlen⟩,issued,rfl,lookup_sweep hfound,by omega,?_⟩
  rw [dif_pos hlen]
  simp only [hfound]
  rw [Table.lookup_erase_eq,if_pos rfl]

/-! Tasks keep what they were opened with and the ticket they have issued. -/

def Carried (l l' : List Task) : Prop :=
  ∀ (i : ℕ) (t : Task), l[i]? = some t →
    ∃ t', l'[i]? = some t' ∧ t'.opened = t.opened ∧ ∀ x, t.issued = some x → t'.issued = some x

variable (l : List Task)

lemma Carried.refl : Carried l l := fun _ t ht => ⟨t,ht,rfl,fun _ hx => hx⟩

lemma Carried.concat (t : Task) : Carried l (l++[t]) := by
  intro i u hu
  have hlen : i < l.length := (List.getElem?_eq_some_iff.mp hu).1
  exact ⟨u,by rw [getElem?_append_left hlen,hu],rfl,fun _ hx => hx⟩

variable {i time lag : ℕ} {t t' : Task}

lemma Carried.set {l : List Task} (ht : l[i]? = some t)
    (hopened : t'.opened = t.opened) (hissued : ∀ x, t.issued = some x → t'.issued = some x) :
    Carried l (l.set i t') := by
  intro j u hu
  by_cases hji : j = i
  · subst hji
    rw [ht] at hu
    cases hu
    exact ⟨t',getElem?_set_self (List.getElem?_eq_some_iff.mp ht).1,hopened,hissued⟩
  · exact ⟨u,by rw [getElem?_set_ne (Ne.symm hji),hu],rfl,fun _ hx => hx⟩

def Known (ctx : QuicRawContext) : Prop :=
  ∃ t, l[ctx.task]? = some t ∧ ctx = t.context ctx.task

def Issued (i : ℕ) (k : Ticket) (time : ℕ) : Prop :=
  ∃ t, l[i]? = some t ∧ t.issued = some (k,time)

def OpenedFor (i : ℕ) (addr : String) : Prop :=
  ∃ t, l[i]? = some t ∧ addr = upstream (Text.trim t.opened.host) t.opened.port

section
variable {l l' : List Task} (h : Carried l l')
include h

lemma Known.carried {ctx : QuicRawContext} (hk : Known l ctx) : Known l' ctx := by
  obtain ⟨t,ht,hctx⟩ := hk
  obtain ⟨t',ht',hopened,_⟩ := h _ t ht
  exact ⟨t',ht',by rw [Task.context,hopened]; exact hctx⟩

lemma Issued.carried {i time : ℕ} {k : Ticket} (hi : Issued l i k time) : Issued l' i k time := by
  obtain ⟨t,ht,hissued⟩ := hi
  obtain ⟨t',ht',_,hkeep⟩ := h _ t ht
  exact ⟨t',ht',hkeep _ hissued⟩

lemma OpenedFor.carried {i : ℕ} {addr : String} (ho : OpenedFor l i addr) :
    OpenedFor l' i addr := by
  obtain ⟨t,ht,haddr⟩ := ho
  obtain ⟨t',ht',hopened,_⟩ := h _ t ht
  exact ⟨t',ht',by rw [hopened]; exact haddr⟩

end

lemma Issued.unique {l : List Task} {time' : ℕ} {k' : Ticket} (h : Issued l i k time)
    (h' : Issued l i k' time') : k = k' ∧ time = time' := by
  obtain ⟨t,ht,hk⟩ := h
  obtain ⟨t',ht',hk'⟩ := h'
  rw [ht] at ht'
  cases ht'
  rw [hk] at hk'
  cases hk'
  exact ⟨rfl,rfl⟩

def Task.Sound (t : Task) : Prop :=
  t.opened.port ≤ 65535 ∧ (t.pc = .holding → t.issued = none)

structure Accounted (s : Sys) : Prop where
  tasks : ∀ (i : ℕ) (t : Task), s.tasks[i]? = some t → t.Sound
  stored : ∀ (k : Ticket) (e : QuicRawContext × ℕ), s.store.inner.lookup k = some e →
    Known s.tasks e.1 ∧ Issued s.tasks e.1.task k e.2 ∧ ∀ y ∈ s.yields, y.task ≠ e.1.task
  streams : ∀ st ∈ s.streams, Known s.tasks st.ctx
  once : (s.yields.map Yield.task).Nodup
  inTime : ∀ y ∈ s.yields, ∃ k issued, Issued s.tasks y.task k issued ∧ k.val = y.ticket ∧
    y.time ≤ issued+s.store.ttl
  dials : ∀ d ∈ s.dials, OpenedFor s.tasks d.task d.addr

lemma accounted_init (ttl : ℕ) : Accounted (.init ttl) where
  tasks := by simp [Sys.init]
  stored := by simp [Sys.init]
  streams := by simp [Sys.init]
  once := by simp [Sys.init]
  inTime := by simp [Sys.init]
  dials := by simp [Sys.init]

variable {s s' : Sys}

lemma Accounted.carry (h : Accounted s) (hc : Carried s.tasks s'.tasks)
    (htasks : ∀ (i : ℕ) (t : Task), s'.tasks[i]? = some t → t.Sound)
    (hstore : ∀ k e, s'.store.inner.lookup k = some e → s.store.inner.lookup k = some e)
    (httl : s'.store.ttl = s.store.ttl)
    (hstreams : ∀ st ∈ s'.streams, ∃ st' ∈ s.streams, st.ctx = st'.ctx)
    (hyields : s'.yields = s.yields) (hdials : s'.dials = s.dials) : Accounted s' where
  tasks := htasks
  stored k e he := by
    obtain ⟨hk,hi,hy⟩ := h.stored k e (hstore k e he)
    exact ⟨hk.carried hc,hi.carried hc,by rw [hyields]; exact hy⟩
  streams st hst := by
    obtain ⟨st',hst',heq⟩ := hstreams st hst
    rw [heq]
    exact (h.streams st' hst').carried hc
  once := by rw [hyields]; exact h.once
  inTime y hy := by
    rw [hyields] at hy
    obtain ⟨k,issued,hi,hk,ht⟩ := h.inTime y hy
    exact ⟨k,issued,hi.carried hc,hk,by rw [httl]; exact ht⟩
  dials d hd := by
    rw [hdials] at hd
    exact (h.dials d hd).carried hc

lemma Accounted.setTask {s : Sys} (h : Accounted s)
    (ht : s.tasks[i]? = some t) {pc : TaskPc} (hpc : pc ≠ .holding) :
    Accounted (s.setTask i { t with pc := pc }) := by
  refine h.carry (.set ht rfl (fun _ hx => hx)) (fun j u hu => ?_) (fun _ _ he => he) rfl
    (fun st hst => ⟨st,hst,rfl⟩) rfl rfl
  rcases Census.getElem?_set_cases hu with ⟨_,rfl⟩ | ⟨_,hu⟩
  · exact ⟨(h.tasks i t ht).1,fun hp => absurd hp hpc⟩
  · exact h.tasks j u hu

lemma Accounted.setStream {s : Sys} (h : Accounted s) {j : ℕ} {st : Stream}
    (hst : s.streams[j]? = some st) (pc : StreamPc) :
    Accounted (s.setStream j { st with pc := pc }) := by
  refine h.carry (.refl _) h.tasks (fun _ _ he => he) rfl (fun u hu => ?_) rfl rfl
  rcases mem_or_eq_of_mem_set hu with hu | rfl
  · exact ⟨u,hu,rfl⟩
  · exact ⟨st,mem_of_getElem? hst,rfl⟩

lemma accounted_insert {s : Sys} (h : Accounted s) {ticket : Ticket}
    (ht : s.tasks[i]? = some t) (hpc : t.pc = .holding) :
    Accounted { s.setTask i { t with pc := .sending, issued := some (ticket,s.clock+lag) } with
      clock := s.clock+lag
      store := s.store.insert s.clock (s.clock+lag) ticket (t.context i) } := by
  have hnone := (h.tasks i t ht).2 hpc
  have hc : Carried s.tasks
      (s.tasks.set i { t with pc := .sending, issued := some (ticket,s.clock+lag) }) :=
    .set ht rfl (fun x hx => by rw [hnone] at hx; cases hx)
  have hself : (s.tasks.set i { t with pc := .sending, issued := some (ticket,s.clock+lag) })[i]? =
      some { t with pc := .sending, issued := some (ticket,s.clock+lag) } :=
    getElem?_set_self (List.getElem?_eq_some_iff.mp ht).1
  refine ⟨fun j u hu => ?_,fun k e he => ?_,fun st hst => (h.streams st hst).carried hc,h.once,
    fun y hy => ?_,fun d hd => (h.dials d hd).carried hc⟩
  · rcases Census.getElem?_set_cases hu with ⟨_,rfl⟩ | ⟨_,hu⟩
    · exact ⟨(h.tasks i t ht).1,fun hp => by cases hp⟩
    · exact h.tasks j u hu
  · rcases lookup_insert he with ⟨rfl,rfl⟩ | ⟨_,he⟩
    · refine ⟨⟨_,hself,rfl⟩,⟨_,hself,rfl⟩,fun y hy hyi => ?_⟩
      -- a task that has yielded has issued a ticket before
      obtain ⟨k,issued,⟨u,hu,hissued⟩,_⟩ := h.inTime y hy
      rw [hyi] at hu
      rw [show (t.context i).task = i from rfl,ht] at hu
      cases hu
      rw [hnone] at hissued
      cases hissued
    · obtain ⟨hk,hi,hy⟩ := h.stored k e (lookup_sweep he)
      exact ⟨hk.carried hc,hi.carried hc,hy⟩
  · obtain ⟨k,issued,hi,hk,hle⟩ := h.inTime y hy
    exact ⟨k,issued,hi.carried hc,hk,hle⟩

variable {frame : StreamInitFrame} {ctx : QuicRawContext}

lemma accounted_redeem {s : Sys} (h : Accounted s)
    (hfound : (s.store.take s.clock (s.clock+lag) frame.ticket).1 = some ctx) : Accounted { s with
      clock := s.clock+lag
      store := (s.store.take s.clock (s.clock+lag) frame.ticket).2
      streams := s.streams++[⟨ctx,frame,.started⟩]
      yields := s.yields++[⟨ctx.task,frame.ticket,s.clock+lag⟩] } := by
  obtain ⟨key,issued,hkey,hlookup,hle,hgone⟩ := take_eq_some hfound
  obtain ⟨hknown,hissued,hnot⟩ := h.stored key _ hlookup
  refine ⟨h.tasks,fun k e he => ?_,fun st hst => ?_,?_,fun y hy => ?_,h.dials⟩
  · have he' := lookup_take he
    obtain ⟨hk,hi,hy⟩ := h.stored k e he'
    refine ⟨hk,hi,fun y hy' heq => ?_⟩
    rcases List.mem_append.mp hy' with hy' | hy'
    · exact hy y hy' heq
    rw [List.mem_singleton.mp hy'] at heq
    -- one task has one ticket, and that one is gone
    dsimp only at heq hissued
    rw [heq] at hissued
    rw [(hi.unique hissued).1,hgone] at he
    cases he
  · rcases List.mem_append.mp hst with hst | hst
    · exact h.streams st hst
    · rw [List.mem_singleton.mp hst]
      exact hknown
  · rw [map_append,nodup_append]
    refine ⟨h.once,by simp,fun i hi j hj => ?_⟩
    obtain ⟨y,hy,rfl⟩ := List.mem_map.mp hi
    rw [map_singleton,mem_singleton] at hj
    rw [hj]
    exact hnot y hy
  · rw [take_ttl]
    rcases List.mem_append.mp hy with hy | hy
    · exact h.inTime y hy
    · rw [List.mem_singleton.mp hy]
      exact ⟨key,issued,hissued,hkey,hle⟩

lemma mem_dialed {net : Net} {d : Dial}
    (h : d ∈ dialed ctx (runRawQuicRelay net ctx.expectedHost ctx.expectedPort frame)) :
    d = ⟨ctx.task,upstream ctx.expectedHost ctx.expectedPort⟩ := by
  unfold runRawQuicRelay at h
  split_ifs at h
  · cases h
  · cases h
  · cases h
  · split at h <;> exact List.mem_singleton.mp h

lemma accounted_step {a : Label} (h : Accounted s) (hs : s.step a = some s') : Accounted s' := by
  cases step_move hs with
  | @openTunnel o port =>
    refine h.carry (.concat _ _) (fun i t ht => ?_) (fun _ _ he => he) rfl
      (fun st hst => ⟨st,hst,rfl⟩) rfl rfl
    rcases Census.getElem?_concat_cases ht with ht | ⟨_,rfl⟩
    · exact h.tasks i t ht
    · exact ⟨port,fun _ => rfl⟩
  | insert task pc => exact accounted_insert h task pc
  | @announce i t ok task pc =>
    refine h.setTask task ?_
    cases ok <;> simp
  | timeout task pc late | completed task pc sent => exact h.setTask task (by simp)
  | tick =>
    exact h.carry (.refl _) h.tasks (fun _ _ he => he) rfl (fun st hst => ⟨st,hst,rfl⟩) rfl rfl
  | refuse none =>
    exact h.carry (.refl _) h.tasks (fun _ _ he => lookup_take he) (take_ttl _)
      (fun st hst => ⟨st,hst,rfl⟩) rfl rfl
  | redeem found => exact accounted_redeem h found
  | @serve j answer st net stream pc =>
    have hset := h.setStream stream
      (served (runRawQuicRelay net st.ctx.expectedHost st.ctx.expectedPort st.frame))
    refine ⟨hset.tasks,hset.stored,hset.streams,hset.once,hset.inTime,fun d hd => ?_⟩
    rcases List.mem_append.mp hd with hd | hd
    · exact h.dials d hd
    obtain ⟨t,ht,hctx⟩ := h.streams st (mem_of_getElem? stream)
    have hport := (h.tasks _ t ht).1
    refine ⟨t,by rw [mem_dialed hd]; exact ht,?_⟩
    rw [mem_dialed hd,hctx]
    simp only [Task.context]
    rw [Nat.mod_eq_of_lt (by omega)]
  | relayEnd stream pc => exact h.setStream stream .finishing
  | finish stream pc =>
    exact h.carry (.refl _) h.tasks (fun _ _ he => he) rfl
      (fun st hst => ⟨st,mem_of_mem_eraseIdx hst,rfl⟩) rfl rfl

/-! When no guard is left behind. -/

/-- The system with two ghosts: when the store was last used, and the tasks whose streams have
finished. -/
structure Watched where
  sys : Sys
  used : Option ℕ
  finished : List ℕ

/-- The step uses the store, which is then swept. -/
def Label.usesStore : Label → Bool
  | .insert .. => true
  | .redeem frame _ => frame.ticket.length = 32
  | _ => false

namespace Watched

def init (ttl : ℕ) : Watched := ⟨.init ttl,none,[]⟩

def finishes (s : Sys) : Label → List ℕ
  | .finish j => (s.streams[j]?).toList.map (fun st => st.ctx.task)
  | _ => []

def step (w : Watched) (a : Label) : Option Watched :=
  (w.sys.step a).map (fun s =>
    ⟨s,if a.usesStore then some w.sys.clock else w.used,finishes w.sys a++w.finished⟩)

/-- The task's ticket was redeemed and the stream has finished, or it was not redeemed and the store
has been used since the ticket was too old. -/
def Released (w : Watched) (i : ℕ) : Prop :=
  ∀ k issued, Issued w.sys.tasks i k issued →
    (i ∈ w.sys.yields.map Yield.task ∧ i ∈ w.finished) ∨
    (i ∉ w.sys.yields.map Yield.task ∧ ∃ u, w.used = some u ∧ issued+w.sys.store.ttl < u)

end Watched

/-- The store has no entry that was too old when it was last used, and each context that was handed
out is with a stream or has been dropped. -/
structure Swept (w : Watched) : Prop where
  young : ∀ (k : Ticket) (e : QuicRawContext × ℕ), w.sys.store.inner.lookup k = some e →
    ∀ u, w.used = some u → u ≤ e.2+w.sys.store.ttl
  shared : (w.sys.streams.map (fun st => st.ctx.task)++w.finished).Perm
    (w.sys.yields.map Yield.task)

lemma le_of_lookup_sweep (h : (store.sweep now).inner.lookup k = some e) : now ≤ e.2+store.ttl := by
  have hlt : now-e.2 < store.ttl := by simpa using (Table.lookup_retain_eq_some.mp h).2
  omega

lemma le_of_lookup_take {ticket : Bytes} (hlen : ticket.length = 32)
    (h : (store.take now later ticket).2.inner.lookup k = some e) : now ≤ e.2+store.ttl := by
  rw [QuicTicketStore.take,dif_pos hlen] at h
  dsimp only at h
  split at h
  · dsimp only at h
    rw [Table.lookup_erase_eq] at h
    split_ifs at h
    exact le_of_lookup_sweep h
  · exact le_of_lookup_sweep h

lemma swept_init (ttl : ℕ) : Swept (.init ttl) := ⟨fun _ _ _ _ h => (by cases h),.refl _⟩

lemma map_setStream {j : ℕ} {st : Stream} (hst : s.streams[j]? = some st) (pc : StreamPc) :
    (s.setStream j { st with pc := pc }).streams.map (fun st => st.ctx.task) =
      s.streams.map (fun st => st.ctx.task) := by
  obtain ⟨hlen,rfl⟩ := List.getElem?_eq_some_iff.mp hst
  have hself := @set_getElem_self _ (s.streams.map (fun st => st.ctx.task)) j (by simpa using hlen)
  rw [Sys.setStream,map_set]
  simpa only [getElem_map] using hself

lemma swept_step {w w' : Watched} {a : Label} (h : Swept w) (hs : w.step a = some w') :
    Swept w' := by
  obtain ⟨s',hs',rfl⟩ := Option.map_eq_some_iff.mp hs
  cases step_move hs' with
  | openTunnel | announce | timeout | completed | tick => exact ⟨h.young,h.shared⟩
  | insert task pc =>
    refine ⟨fun k e he u hu => ?_,h.shared⟩
    cases hu
    rcases lookup_insert he with ⟨_,rfl⟩ | ⟨_,he⟩
    · exact (Nat.le_add_right _ _).trans (Nat.le_add_right _ _)
    · show w.sys.clock ≤ e.2+w.sys.store.ttl
      exact le_of_lookup_sweep he
  | @refuse frame lag none | @redeem frame lag ctx found =>
    refine ⟨fun k e he u hu => ?_,?_⟩
    · rw [take_ttl]
      by_cases hlen : frame.ticket.length = 32
      · simp only [Label.usesStore,hlen,decide_true,if_true,Option.some.injEq] at hu
        subst hu
        exact le_of_lookup_take hlen he
      · simp only [Label.usesStore,hlen,decide_false,Bool.false_eq_true,if_false] at hu
        exact h.young k e (lookup_take he) u hu
    · first
      | exact h.shared
      | simp only [Watched.finishes,nil_append,map_append,map_singleton,append_assoc]
        exact (perm_append_comm_assoc _ _ _).trans ((h.shared.append_left _).trans
          perm_append_comm)
  | serve stream pc | relayEnd stream pc =>
    refine ⟨h.young,?_⟩
    have hmap := map_setStream stream
    simp only [Watched.finishes,nil_append]
    exact (hmap _).symm ▸ h.shared
  | @finish j st stream pc =>
    refine ⟨h.young,?_⟩
    obtain ⟨hlen,rfl⟩ := List.getElem?_eq_some_iff.mp stream
    simp only [Watched.finishes,stream,Option.toList_some,map_singleton]
    have hperm := (getElem_cons_eraseIdx_perm hlen).map (fun st : Stream => st.ctx.task)
    refine Perm.trans ?_ ((hperm.append_right w.finished).trans h.shared)
    exact perm_middle.trans (.refl _)

lemma not_stranded {w : Watched} (ha : Accounted w.sys) (hw : Swept w) {i : ℕ}
    (hr : w.Released i) : ¬w.sys.Stranded i := by
  rintro ⟨t,ticket,issued,ht,hpc,hissued,hold,⟨k,e,he,rfl⟩ | ⟨st,hst,rfl⟩⟩
  · -- the entry is the one that the task has issued, and nobody has redeemed it
    obtain ⟨_,hi,hnot⟩ := ha.stored k e he
    obtain ⟨_,rfl⟩ := hi.unique ⟨t,ht,hissued⟩
    rcases hr k _ hi with ⟨hin,_⟩ | ⟨_,u,hu,hlt⟩
    · obtain ⟨y,hy,hyt⟩ := List.mem_map.mp hin
      exact hnot y hy hyt
    · exact absurd (hw.young k e he u hu) (not_le.mpr hlt)
  · have hnodup := hw.shared.nodup_iff.mpr ha.once
    have hmem : st.ctx.task ∈ w.sys.streams.map (fun st => st.ctx.task) := mem_map_of_mem hst
    have hin := hw.shared.subset (mem_append_left w.finished hmem)
    rcases hr ticket issued ⟨t,ht,hissued⟩ with ⟨_,hfin⟩ | ⟨hnot,_⟩
    · exact (nodup_append.mp hnodup).2.2 _ hmem _ hfin rfl
    · exact hnot hin

/-- In every run a task's ticket yields its context at most once, no later than the time to live
after its insertion, and the stream that gets it connects only to the host and port of the task's
open; and no admission guard is stranded whose ticket was redeemed by a stream that has finished, or
was not redeemed and the store has been used since it was too old. -/
theorem tickets_kept (ttl : ℕ) (w : Watched) (h : Run Watched.step anyStep (.init ttl) w) :
    (w.sys.yields.map Yield.task).Nodup ∧
      (∀ y ∈ w.sys.yields, ∃ k issued, Issued w.sys.tasks y.task k issued ∧ k.val = y.ticket ∧
        y.time ≤ issued+ttl) ∧ (∀ d ∈ w.sys.dials, OpenedFor w.sys.tasks d.task d.addr) ∧
      ∀ i, w.Released i → ¬w.sys.Stranded i := by
  have hinv : Accounted w.sys ∧ w.sys.store.ttl = ttl ∧ Swept w := by
    refine h.invariant (I := fun w => Accounted w.sys ∧ w.sys.store.ttl = ttl ∧ Swept w) ?_
      ⟨accounted_init ttl,rfl,swept_init ttl⟩
    rintro w a w' ⟨ha,httl,hw⟩ _ hs
    have hsweep := swept_step hw hs
    obtain ⟨s',hs',rfl⟩ := Option.map_eq_some_iff.mp hs
    refine ⟨accounted_step ha hs',?_,hsweep⟩
    cases step_move hs' with
    | refuse none | redeem found => exact (take_ttl _).trans httl
    | _ => exact httl
  obtain ⟨ha,httl,hw⟩ := hinv
  have hin := ha.inTime
  rw [httl] at hin
  exact ⟨ha.once,hin,ha.dials,fun i hr => not_stranded ha hw hr⟩

/-! One tunnel to example.com:443, with tickets that live for a minute. -/

def minute : ℕ := 60*10^9

def sampleOpen : ProxyOpen := ⟨"example.com",443,"",none,none,some true⟩

lemma length_zeroBytes : (List.replicate 32 0 : Bytes).length = 32 := by decide

def zeroTicket : Ticket := ⟨List.replicate 32 0,length_zeroBytes⟩

/-- A CONNECT to example.com:443. -/
def sampleFrame : StreamInitFrame :=
  ⟨1,zeroTicket.val,2,[101,120,97,109,112,108,101,46,99,111,109],443⟩

lemma length_oneBytes : (List.replicate 32 1 : Bytes).length = 32 := by decide

def oneTicket : Ticket := ⟨List.replicate 32 1,length_oneBytes⟩

/-- The first tunnel is used; the ticket of the second one is not, and then the store is swept. -/
def twoTunnels : List Label :=
  [.openTunnel sampleOpen,.insert 0 zeroTicket 5,.announce 0 true,.tick 10,.redeem sampleFrame 1,
    .serve 0 none,.tick (3*minute),.relayEnd 0,.finish 0,.completed 0,.openTunnel sampleOpen,
    .insert 1 oneTicket 0,.announce 1 true,.tick (2*minute),.timeout 1,.redeem sampleFrame 0]

theorem tickets_kept_two : ∃ w, Run Watched.step anyStep (.init minute) w ∧
      w.sys.yields = [⟨0,zeroTicket.val,16⟩] ∧ w.sys.dials = [⟨0,"example.com:443"⟩] ∧
      (∃ k issued, Issued w.sys.tasks 0 k issued ∧ k.val = zeroTicket.val ∧ 16 ≤ issued+minute) ∧
      OpenedFor w.sys.tasks 0 "example.com:443" ∧ ¬w.sys.Stranded 0 ∧ ¬w.sys.Stranded 1 := by
  obtain ⟨w,hr,hy,hd,hf,hused,httl,ht⟩ : ∃ w, Run Watched.step anyStep (.init minute) w ∧
      w.sys.yields = [⟨0,zeroTicket.val,16⟩] ∧ w.sys.dials = [⟨0,"example.com:443"⟩] ∧
      w.finished = [0] ∧ w.used = some (5*minute+16) ∧ w.sys.store.ttl = minute ∧
      w.sys.tasks.map Task.issued = [some (zeroTicket,5),some (oneTicket,3*minute+16)] :=
    exists_run twoTunnels (by decide +kernel)
  obtain ⟨_,hin,hdials,hkept⟩ := tickets_kept minute w hr
  refine ⟨w,hr,hy,hd,hin ⟨0,zeroTicket.val,16⟩ (by simp [hy]),
    hdials ⟨0,"example.com:443"⟩ (by simp [hd]),hkept 0 ?_,hkept 1 ?_⟩
  · intro k issued _
    exact .inl ⟨by simp [hy],by simp [hf]⟩
  · rintro k issued ⟨t,htask,hissued⟩
    refine .inr ⟨by simp [hy],_,hused,?_⟩
    have h1 : (w.sys.tasks.map Task.issued)[1]? = some t.issued := by
      rw [getElem?_map,htask,Option.map_some]
    rw [ht,hissued] at h1
    cases h1
    rw [httl]
    decide

/-- Nobody redeems the ticket and nobody else uses the store: the task has given up after 120
seconds, the ticket is too old, and the store still has the context with the admission guard. -/
theorem guard_stranded : ∃ s, Run Sys.step anyStep (.init minute) s ∧ s.Stranded 0 := by
  obtain ⟨s,hr,ht,hclock,httl,hstored⟩ : ∃ s, Run Sys.step anyStep (.init minute) s ∧
      s.tasks[0]? = some ⟨sampleOpen,.ended,some (zeroTicket,0)⟩ ∧ s.clock = 2*minute ∧
      s.store.ttl = minute ∧
      s.store.inner.lookup zeroTicket = some (⟨0,"example.com",443⟩,0) :=
    exists_run [Label.openTunnel sampleOpen,.insert 0 zeroTicket 0,.announce 0 true,
      .tick (2*minute),.timeout 0] (by decide +kernel)
  refine ⟨s,hr,_,zeroTicket,0,ht,rfl,rfl,?_,.inl ⟨zeroTicket,_,hstored,rfl⟩⟩
  rw [hclock,httl]
  decide

end PirateServer.QuicTicket
