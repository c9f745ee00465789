import PirateServer.StackTun.Updates
import PirateServer.StreamQueue.Machine
import PirateServer.TaskQueue.Entry

/-! `resync_all`: which listeners, connectors and queues run after a root is applied. The parser
of socket addresses is a parameter. A connector reads its profile again each time it comes round
its loop, that is after a session has ended. -/
namespace PirateServer.StackTun.Resync
open Lib List Option

/-- A `Duration` in nanoseconds. -/
def seconds (n : ℕ) : ℕ := n*1000000000

variable (p : TunnelProfile)

def relays : Bool := p.enabled && p.role = .listen && p.mode = .tcpRelay

def serves : Bool := p.enabled && p.role = .listen && p.mode = .requestBus

def connects : Bool := p.enabled && p.role = .connector

/-- The stream queue that `upsert_listener_queue` makes for a profile. -/
def queueConfig : StreamQueue.Config :=
  ⟨max p.maxPendingStreams 1,seconds (max p.streamOfferTtlSecs 1)⟩

/-- The task queue that `upsert_listener_task_queue` makes for a profile. -/
def taskQueueConfig : TaskQueue.Config :=
  TaskQueue.Config.new (Text.trim p.id) (max (p.maxPendingTasks.getD p.maxPendingStreams) 1)
    (seconds (max (p.taskQueueTtlSecs.getD p.streamOfferTtlSecs) 1))
    (seconds (max (p.taskClaimLeaseSecs.getD 300) 30))

def profileOf (root : PersistRoot) (id : String) : Option TunnelProfile :=
  root.profiles.find? (fun p => p.id = id)

variable {Addr : Type} (parse : String → Option Addr)

def addrForListen (p : TunnelProfile) : Except String Addr :=
  match p.listenAddr with
  | none => .error "listen_addr missing"
  | some raw =>
    match parse (Text.trim raw) with
    | none => .error "invalid socket address syntax"
    | some addr => .ok addr

/-- What runs: each queue with its limits, each listener with its address, and each connector
with the profile it works by. -/
structure Running (Addr : Type) where
  queues : Table String StreamQueue.Config
  taskQueues : Table String TaskQueue.Config
  listenerTasks : Table String Addr
  connectorTasks : Table String TunnelProfile

def Running.empty : Running Addr := ⟨∅,∅,∅,∅⟩

def upsertListenerQueue (mq : Table String StreamQueue.Config) (p : TunnelProfile) :
    Table String StreamQueue.Config :=
  mq.insertNew p.id (queueConfig p)

def upsertListenerTaskQueue (mq : Table String TaskQueue.Config) (p : TunnelProfile) :
    Table String TaskQueue.Config :=
  mq.insertNew p.id (taskQueueConfig p)

def desired (kind : TunnelProfile → Bool) (root : PersistRoot) : List String :=
  (root.profiles.filter kind).map TunnelProfile.id

variable (root : PersistRoot) (s : Running Addr)

def syncListen : Running Addr :=
  let lm := s.listenerTasks.retain (fun id _ => id ∈ desired relays root)
  { s with
    queues := root.profiles.foldl
      (fun mq p => if relays p then upsertListenerQueue mq p else mq) s.queues
    taskQueues := (root.profiles.foldl
      (fun mq p => if serves p then upsertListenerTaskQueue mq p else mq) s.taskQueues).retain
        (fun id _ => id ∈ desired serves root)
    listenerTasks := root.profiles.foldl
      (fun lm p =>
        if relays p then
          match addrForListen parse p with
          | .ok addr => lm.insertNew p.id addr
          | .error _ => lm
        else lm) lm }

def syncConnector : Running Addr :=
  let cm := s.connectorTasks.retain (fun id _ => id ∈ desired connects root)
  { s with
    connectorTasks := root.profiles.foldl
      (fun cm p => if connects p then cm.insertNew p.id p else cm) cm }

def resyncAll : Running Addr :=
  syncConnector root (syncListen parse root s)

def turn (root : PersistRoot) (turned : String → Bool) (s : Running Addr) : Running Addr :=
  { s with
    connectorTasks := s.connectorTasks.mapValues
      (fun id p => if turned id then (profileOf root id).getD p else p) }

/-- Roots applied one after the other, each with the connectors that came round their loop before
the next one. -/
def applyAll (hist : List (PersistRoot × (String → Bool))) (s : Running Addr) : Running Addr :=
  hist.foldl (fun s h => turn h.1 h.2 (resyncAll parse h.1 s)) s

/-- The same runs as after one `resync_all` from nothing. -/
structure Converged (root : PersistRoot) (s : Running Addr) : Prop where
  queues : ∀ id, s.queues.lookup id = (resyncAll parse root .empty).queues.lookup id
  taskQueues : ∀ id, s.taskQueues.lookup id = (resyncAll parse root .empty).taskQueues.lookup id
  listenerTasks : ∀ id,
    s.listenerTasks.lookup id = (resyncAll parse root .empty).listenerTasks.lookup id
  connectorTasks : ∀ id,
    s.connectorTasks.lookup id = (resyncAll parse root .empty).connectorTasks.lookup id

/-- What runs already is what the root asks for under the same id. Every stream queue still has
its listener, with the same limits; a task queue, a listener or a connector whose profile stays
has the same limits, the same address or the same profile, except that a connector may have come
round its loop. -/
structure Compatible (root : PersistRoot) (turned : String → Bool) (s : Running Addr) : Prop where
  queues : ∀ id cfg, s.queues.lookup id = some cfg →
    ∃ p, profileOf root id = some p ∧ relays p = true ∧ queueConfig p = cfg
  taskQueues : ∀ id cfg, s.taskQueues.lookup id = some cfg →
    ∀ p, profileOf root id = some p → serves p = true → taskQueueConfig p = cfg
  listenerTasks : ∀ id addr, s.listenerTasks.lookup id = some addr →
    ∀ p, profileOf root id = some p → relays p = true → addrForListen parse p = .ok addr
  connectorTasks : ∀ id q, s.connectorTasks.lookup id = some q →
    ∀ p, profileOf root id = some p → connects p = true → p = q ∨ turned id = true

def when {α : Type} (kind : TunnelProfile → Bool) (val : TunnelProfile → Option α)
    (p : TunnelProfile) : Option α :=
  if kind p then val p else none

lemma findSome?_eq_bind {α : Type} (val : TunnelProfile → Option α) (id : String)
    {l : List TunnelProfile} (hids : (l.map TunnelProfile.id).Nodup) :
    l.findSome? (fun p => if p.id = id then val p else none) =
      (l.find? (fun p => p.id = id)).bind val := by
  induction l with
  | nil => rfl
  | cons p l ih =>
    obtain ⟨hp,hids⟩ := List.nodup_cons.mp hids
    rw [findSome?_cons,find?_cons]
    by_cases hid : p.id = id
    · have hrest : l.findSome? (fun p => if p.id = id then val p else none) = none := by
        rw [findSome?_eq_none_iff]
        intro q hq
        have hne : q.id ≠ id := fun hqid => hp (by rw [hid,← hqid]; exact List.mem_map_of_mem hq)
        rw [if_neg hne]
      simp only [hid,decide_true,if_true,bind_some,hrest]
      cases val p <;> rfl
    · simp only [hid,decide_false,if_false]
      exact ih hids

section
variable {root : PersistRoot} {α : Type} {body : Table String α → TunnelProfile → Table String α}
  {val : TunnelProfile → Option α}

lemma lookup_body (hbody : ∀ t p, body t p = (val p).elim t (t.insertNew p.id)) (t : Table String α)
    (id : String) : (root.profiles.foldl body t).lookup id = (t.lookup id).or
      (root.profiles.findSome? (fun p => if p.id = id then val p else none)) := by
  have hfun : body = fun t p => (val p).elim t (t.insertNew p.id) := by
    funext t p
    exact hbody t p
  rw [hfun,Table.lookup_foldl_insertNew]

variable (hids : (root.profiles.map TunnelProfile.id).Nodup)
include hids

variable {id : String}

lemma profileOf_eq_some {p : TunnelProfile} :
    profileOf root id = some p ↔ p ∈ root.profiles ∧ p.id = id := by
  constructor
  · intro h
    exact ⟨mem_of_find?_eq_some h,by simpa using find?_some h⟩
  rintro ⟨hp,rfl⟩
  cases hf : profileOf root p.id with
  | none =>
    have hno := List.find?_eq_none.mp hf p hp
    simp at hno
  | some q =>
    have hq : q.id = p.id := by simpa using find?_some hf
    rw [inj_on_of_nodup_map hids (mem_of_find?_eq_some hf) hp hq]

variable {kind : TunnelProfile → Bool}

lemma mem_desired : id ∈ desired kind root ↔ ∃ p, profileOf root id = some p ∧ kind p = true := by
  simp only [desired,List.mem_map,mem_filter,profileOf_eq_some hids]
  constructor
  · rintro ⟨p,⟨hp,hk⟩,rfl⟩
    exact ⟨p,⟨hp,rfl⟩,hk⟩
  · rintro ⟨p,⟨hp,hid⟩,hk⟩
    exact ⟨p,⟨hp,hk⟩,hid⟩

lemma lookup_loop (hbody : ∀ t p, body t p = (val p).elim t (t.insertNew p.id)) (t : Table String α)
    (id : String) :
    (root.profiles.foldl body t).lookup id = (t.lookup id).or ((profileOf root id).bind val) := by
  rw [lookup_body hbody,findSome?_eq_bind val id hids]
  rfl

lemma filter_desired {α : Type} (o : Option α) :
    o.filter (fun _ => decide (id ∈ desired kind root)) =
      if (profileOf root id).any kind then o else none := by
  have hiff : id ∈ desired kind root ↔ (profileOf root id).any kind = true := by
    rw [mem_desired hids,Option.any_eq_true]
  by_cases h : (profileOf root id).any kind = true
  all_goals cases o <;> simp [hiff,h]

variable {parse : String → Option Addr} (s : Running Addr) (id : String)

lemma lookup_queues : (resyncAll parse root s).queues.lookup id =
      (s.queues.lookup id).or ((profileOf root id).bind
        (when relays (fun p => some (queueConfig p)))) := by
  apply lookup_loop hids
  intro mq p
  unfold when upsertListenerQueue
  split <;> rfl

lemma lookup_taskQueues : (resyncAll parse root s).taskQueues.lookup id =
      if (profileOf root id).any serves then (s.taskQueues.lookup id).or
          ((profileOf root id).bind (when serves (fun p => some (taskQueueConfig p))))
      else none := by
  rw [← filter_desired hids]
  refine (Table.lookup_retain _ _ _).trans (congrArg _ (lookup_loop hids ?_ _ _))
  intro mq p
  unfold when upsertListenerTaskQueue
  split <;> rfl

lemma lookup_listenerTasks : (resyncAll parse root s).listenerTasks.lookup id =
      (if (profileOf root id).any relays then s.listenerTasks.lookup id else none).or
        ((profileOf root id).bind (when relays (fun p => (addrForListen parse p).toOption))) := by
  rw [← filter_desired hids,← Table.lookup_retain (fun id _ => decide (id ∈ desired relays root))]
  apply lookup_loop hids
  intro lm p
  unfold when
  split
  · show _ = (addrForListen parse p).toOption.elim lm (lm.insertNew p.id)
    cases addrForListen parse p <;> rfl
  · rfl

lemma lookup_connectorTasks : (resyncAll parse root s).connectorTasks.lookup id =
      (if (profileOf root id).any connects then s.connectorTasks.lookup id else none).or
        ((profileOf root id).bind (when connects some)) := by
  rw [← filter_desired hids,← Table.lookup_retain (fun id _ => decide (id ∈ desired connects root))]
  apply lookup_loop hids
  intro cm p
  unfold when
  split <;> rfl

end

/-! The maps one by one: an entry that was there stays as long as its kind of profile is wanted,
so it has to be the one that is wanted. -/

variable {α : Type} {P : Option TunnelProfile}

lemma or_eq_right {a b : Option α} : a.or b = b ↔ ∀ x, a = some x → b = some x := by
  cases a with
  | none => simp
  | some x =>
    constructor
    · intro h y hy
      cases hy
      exact h.symm
    · intro h
      exact (h x rfl).symm

lemma queue_entry {a : Option StreamQueue.Config} :
    a.or (P.bind (when relays (fun p => some (queueConfig p)))) =
        P.bind (when relays (fun p => some (queueConfig p))) ↔
      ∀ cfg, a = some cfg → ∃ p, P = some p ∧ relays p = true ∧ queueConfig p = cfg := by
  have hsome : ∀ cfg, P.bind (when relays (fun p => some (queueConfig p))) = some cfg ↔
      ∃ p, P = some p ∧ relays p = true ∧ queueConfig p = cfg := by
    intro cfg
    simp [bind_eq_some_iff,when]
  rw [or_eq_right]
  simp only [hsome]

lemma taskQueue_entry {a : Option TaskQueue.Config} :
    (if P.any serves then a.or (P.bind (when serves
      (fun p => some (taskQueueConfig p)))) else none) =
        (if P.any serves then P.bind (when serves (fun p => some (taskQueueConfig p))) else none) ↔
      ∀ cfg, a = some cfg → ∀ p, P = some p → serves p = true → taskQueueConfig p = cfg := by
  cases P with
  | none => simp
  | some p =>
    by_cases hp : serves p = true
    · cases a with
      | none => simp [hp,when]
      | some cfg => simpa [hp,when] using eq_comm
    · simp [hp]

lemma listener_entry {parse : String → Option Addr} {a : Option Addr} :
    (if P.any relays then a else none).or
        (P.bind (when relays (fun p => (addrForListen parse p).toOption))) =
        P.bind (when relays (fun p => (addrForListen parse p).toOption)) ↔
      ∀ addr, a = some addr → ∀ p, P = some p → relays p = true →
        addrForListen parse p = .ok addr := by
  have hok : ∀ (e : Except String Addr) addr, e.toOption = some addr ↔ e = .ok addr := by
    intro e addr
    cases e <;> simp [Except.toOption]
  cases P with
  | none => simp
  | some p =>
    by_cases hp : relays p = true
    · simp [hp,when,or_eq_right,hok]
    · simp [hp,when]

lemma connector_entry {a : Option TunnelProfile} {turned : Bool} :
    (((if P.any connects then a else none).or (P.bind (when connects some))).map
        (fun q => if turned then P.getD q else q)) = P.bind (when connects some) ↔
      ∀ q, a = some q → ∀ p, P = some p → connects p = true → p = q ∨ turned = true := by
  cases P with
  | none => simp
  | some p =>
    by_cases hp : connects p = true
    · cases a with
      | none => cases turned <;> simp [hp,when]
      | some q =>
        cases turned with
        | true => simp [hp,when]
        | false => simpa [hp,when] using eq_comm
    · simp [hp,when]

variable {parse : String → Option Addr}

/-- Applying a root leads to what it asks for exactly when what runs already is compatible. -/
theorem converged_iff {root : PersistRoot} (hids : (root.profiles.map TunnelProfile.id).Nodup)
    (turned : String → Bool) (s : Running Addr) :
    Converged parse root (turn root turned (resyncAll parse root s)) ↔
      Compatible parse root turned s := by
  have hturn : ∀ id, (turn root turned (resyncAll parse root s)).connectorTasks.lookup id =
      ((resyncAll parse root s).connectorTasks.lookup id).map
        (fun p => if turned id then (profileOf root id).getD p else p) :=
    fun id => Table.lookup_mapValues _ _ _
  have hq : ∀ id, (resyncAll parse root s).queues.lookup id =
      (resyncAll parse root .empty).queues.lookup id ↔ ∀ cfg, s.queues.lookup id = some cfg →
        ∃ p, profileOf root id = some p ∧ relays p = true ∧ queueConfig p = cfg := by
    intro id
    rw [lookup_queues hids,lookup_queues hids]
    exact queue_entry
  have ht : ∀ id, (resyncAll parse root s).taskQueues.lookup id =
      (resyncAll parse root .empty).taskQueues.lookup id ↔ ∀ cfg,
        s.taskQueues.lookup id = some cfg →
        ∀ p, profileOf root id = some p → serves p = true → taskQueueConfig p = cfg := by
    intro id
    rw [lookup_taskQueues hids,lookup_taskQueues hids]
    exact taskQueue_entry
  have hl : ∀ id, (resyncAll parse root s).listenerTasks.lookup id =
      (resyncAll parse root .empty).listenerTasks.lookup id ↔
        ∀ addr, s.listenerTasks.lookup id = some addr → ∀ p, profileOf root id = some p →
          relays p = true → addrForListen parse p = .ok addr := by
    intro id
    rw [lookup_listenerTasks hids,lookup_listenerTasks hids]
    have hnone : (if (profileOf root id).any relays then
        (Running.empty : Running Addr).listenerTasks.lookup id else none) = none := by
      split <;> rfl
    rw [hnone,none_or]
    exact listener_entry
  have hc : ∀ id, (turn root turned (resyncAll parse root s)).connectorTasks.lookup id =
      (resyncAll parse root .empty).connectorTasks.lookup id ↔
        ∀ q, s.connectorTasks.lookup id = some q → ∀ p, profileOf root id = some p →
          connects p = true → p = q ∨ turned id = true := by
    intro id
    rw [hturn,lookup_connectorTasks hids,lookup_connectorTasks hids]
    have hnone : (if (profileOf root id).any connects then
        (Running.empty : Running Addr).connectorTasks.lookup id else none) = none := by
      split <;> rfl
    rw [hnone,none_or]
    exact connector_entry
  constructor
  · rintro ⟨h₁,h₂,h₃,h₄⟩
    exact ⟨fun id => (hq id).mp (h₁ id),fun id => (ht id).mp (h₂ id),fun id => (hl id).mp (h₃ id),
      fun id => (hc id).mp (h₄ id)⟩
  · rintro ⟨h₁,h₂,h₃,h₄⟩
    exact ⟨fun id => (hq id).mpr (h₁ id),fun id => (ht id).mpr (h₂ id),fun id =>
      (hl id).mpr (h₃ id),
      fun id => (hc id).mpr (h₄ id)⟩

lemma nodup_of_checkProfiles {seen : List String} {ps : List TunnelProfile}
    (h : Updates.checkProfiles seen ps = .ok ()) :
    (ps.map TunnelProfile.id).Nodup ∧ ∀ p ∈ ps, p.id ∉ seen := by
  induction ps generalizing seen with
  | nil => simp
  | cons p ps ih =>
    simp only [Updates.checkProfiles] at h
    split at h
    · cases h
    rename_i hseen
    split at h
    · cases h
    obtain ⟨hnodup,hnew⟩ := ih h
    refine ⟨?_,?_⟩
    · rw [map_cons,nodup_cons]
      refine ⟨?_,hnodup⟩
      intro hmem
      obtain ⟨q,hq,hid⟩ := List.mem_map.mp hmem
      exact hnew q hq (by rw [hid]; exact mem_cons_self)
    · intro q hq
      rcases List.mem_cons.mp hq with rfl | hq
      · exact hseen
      · exact fun hmem => hnew q hq (mem_cons_of_mem _ hmem)

/-- For every sequence of valid roots, what runs in the end is what a single `resync_all` with the
last root gives if and only if what ran before it is compatible with it. In particular it does so
throughout a sequence in which every root is compatible with what runs when it is applied. -/
theorem resync_converges_iff (hist : List (PersistRoot × (String → Bool))) (root : PersistRoot)
    (turned : String → Bool)
    (hvalid : ∀ r ∈ hist.map Prod.fst ++ [root], Updates.checkProfiles [] r.profiles = .ok ()) :
    Converged parse root (applyAll parse (hist ++ [(root,turned)]) .empty) ↔
      Compatible parse root turned (applyAll parse hist .empty) := by
  have hids := (nodup_of_checkProfiles (hvalid root (by simp))).1
  have hlast : applyAll parse (hist ++ [(root,turned)]) .empty =
      turn root turned (resyncAll parse root (applyAll parse hist .empty)) := by
    simp [applyAll]
  rw [hlast]
  exact converged_iff hids turned _

variable [DecidableEq Addr]

deriving instance DecidableEq for TaskQueue.Config

/-- `Compatible`, entry by entry. -/
def compatible (parse : String → Option Addr) (root : PersistRoot) (turned : String → Bool)
    (s : Running Addr) : Bool :=
  s.queues.entries.all (fun e =>
    (profileOf root e.1).any (fun p => relays p && queueConfig p = e.2)) &&
  s.taskQueues.entries.all (fun e =>
    (profileOf root e.1).all (fun p => !serves p || taskQueueConfig p = e.2)) &&
  s.listenerTasks.entries.all (fun e =>
    (profileOf root e.1).all (fun p => !relays p || (addrForListen parse p).toOption = some e.2)) &&
  s.connectorTasks.entries.all (fun e =>
    (profileOf root e.1).all (fun p => !connects p || p = e.2 || turned e.1))

lemma Compatible.of_check {root : PersistRoot} {turned : String → Bool} {s : Running Addr}
    (h : compatible parse root turned s = true) : Compatible parse root turned s := by
  simp only [compatible,Bool.and_eq_true,List.all_eq_true] at h
  obtain ⟨⟨⟨hq,ht⟩,hl⟩,hc⟩ := h
  refine ⟨?_,?_,?_,?_⟩
  · intro id cfg hid
    have he := hq ⟨id,cfg⟩ (AList.mem_lookup_iff.mp hid)
    simpa [Option.any_eq_true] using he
  · intro id cfg hid p hp hserves
    have he := ht ⟨id,cfg⟩ (AList.mem_lookup_iff.mp hid)
    simpa [hp,hserves] using he
  · intro id addr hid p hp hrelays
    have he := hl ⟨id,addr⟩ (AList.mem_lookup_iff.mp hid)
    have hopt : (addrForListen parse p).toOption = some addr := by simpa [hp,hrelays] using he
    cases ha : addrForListen parse p with
    | error e =>
      rw [ha] at hopt
      cases hopt
    | ok a =>
      rw [ha] at hopt
      cases hopt
      rfl
  · intro id q hid p hp hconnects
    have he := hc ⟨id,q⟩ (AList.mem_lookup_iff.mp hid)
    simpa [hp,hconnects] using he

/-- An octet of an IPv4 address: no leading zero and at most 255. -/
def parseOctet (ds : List Char) : Option ℕ :=
  (Text.parseDigits ds).bind (fun n => if n ≤ 255 ∧
    (ds.length = 1 ∨ ds.head? ≠ some '0') then some n else none)

/-- `SocketAddrV4::from_str`. -/
def parseSocketAddrV4 (s : String) : Option (List ℕ × ℕ) :=
  match s.toList.splitOn ':' with
  | [host,port] =>
    match (host.splitOn '.').mapM parseOctet,Text.parseDigits port with
    | some [a,b,c,d],some n => if n < 65536 then some ([a,b,c,d],n) else none
    | _,_ => none
  | _ => none

def tcpListener (id addr : String) (pending : ℕ) : TunnelProfile :=
  ⟨id,.listen,.tcpRelay,none,some addr,none,none,"",0,pending,300,30000,[],true,none,none,none⟩

def connector (id : String) (port : UInt16) : TunnelProfile :=
  ⟨id,.connector,.tcpRelay,none,none,some "http://127.0.0.1:9381",some "web","127.0.0.1",
    port,128,300,
    30000,[],true,none,none,none⟩

def rootOf (profiles : List TunnelProfile) : PersistRoot := ⟨1,profiles,[]⟩

/-- No connector comes round its loop. -/
def inSession : String → Bool := fun _ => false

/-- The connectors come round their loop. -/
def sessionEnded : String → Bool := fun _ => true

def webRoot : PersistRoot := rootOf [tcpListener "web" "0.0.0.0:9000" 8,connector "c" 80]

def grownRoot : PersistRoot :=
  rootOf [tcpListener "web" "0.0.0.0:9000" 8,connector "c" 81,Updates.busListener "bus"]

theorem resync_converges_iff_two : (∀ r ∈ [(webRoot,inSession)].map Prod.fst ++ [grownRoot],
      Updates.checkProfiles [] r.profiles = .ok ()) ∧
    Compatible parseSocketAddrV4 grownRoot sessionEnded
      (applyAll parseSocketAddrV4 [(webRoot,inSession)] .empty) ∧
    Converged parseSocketAddrV4 grownRoot
      (applyAll parseSocketAddrV4 ([(webRoot,inSession)] ++
        [(grownRoot,sessionEnded)]) .empty) := by
  have hvalid : ∀ r ∈ [(webRoot,inSession)].map Prod.fst ++ [grownRoot],
      Updates.checkProfiles [] r.profiles = .ok () := by decide +kernel
  have hcompatible : Compatible parseSocketAddrV4 grownRoot sessionEnded
      (applyAll parseSocketAddrV4 [(webRoot,inSession)] .empty) :=
    Compatible.of_check (by decide +kernel)
  exact ⟨hvalid,hcompatible,(resync_converges_iff _ _ _ hvalid).mpr hcompatible⟩

/-- What runs after `webRoot` and then another root, with the connector still in its session. -/
def afterWeb (root : PersistRoot) : Running (List ℕ × ℕ) :=
  applyAll parseSocketAddrV4 [(webRoot,inSession),(root,inSession)] .empty

theorem resync_keeps_old :
    ((afterWeb (rootOf [connector "c" 80])).queues.lookup "web" = some ⟨8,300000000000⟩ ∧
      ¬Converged parseSocketAddrV4 (rootOf [connector "c" 80])
        (afterWeb (rootOf [connector "c" 80]))) ∧
    ¬Converged parseSocketAddrV4 (rootOf [tcpListener "web" "0.0.0.0:9000" 9,connector "c" 80])
      (afterWeb (rootOf [tcpListener "web" "0.0.0.0:9000" 9,connector "c" 80])) ∧
    ¬Converged parseSocketAddrV4 (rootOf [tcpListener "web" "0.0.0.0:9001" 8,connector "c" 80])
      (afterWeb (rootOf [tcpListener "web" "0.0.0.0:9001" 8,connector "c" 80])) ∧
    ¬Converged parseSocketAddrV4 (rootOf [tcpListener "web" "0.0.0.0:9000" 8,connector "c" 81])
      (afterWeb (rootOf [tcpListener "web" "0.0.0.0:9000" 8,connector "c" 81])) := by
  refine ⟨⟨by decide +kernel,?_⟩,?_,?_,?_⟩
  · intro h
    exact absurd (h.queues "web") (by decide +kernel)
  · intro h
    exact absurd (h.queues "web") (by decide +kernel)
  · intro h
    exact absurd (h.listenerTasks "web") (by decide +kernel)
  · intro h
    exact absurd (h.connectorTasks "c") (by decide +kernel)

end PirateServer.StackTun.Resync
