import PirateServer.Lib.Utf8
import PirateServer.TaskQueue.Results
import PirateServer.TaskSession.Machine

/-! What becomes of the parts of `pump_completes` in the queue. While the claim is held, every part
is accepted and the task is completed; its result is the one that was sent, on top of what an
earlier claimant has left in the task. -/
namespace PirateServer.TaskQueue
open Lib Lib.Bytes List TaskEntry
open TaskSession (bodyParts pumpCompletes completeChunk)

/-! The headers of the response. -/

/-- The bytes that `HeaderValue::to_str` lets through. -/
def visibleAscii (b : UInt8) : Bool := (32 ≤ b && b < 127) || b = 9

/-- `HeaderValue::to_str`. -/
def toStr (value : List UInt8) : Option String :=
  if value.all visibleAscii then fromUtf8 value else none

/-- `req_headers_to_bus_kv`, for the entries of the header map in the order of its iterator. -/
def reqHeadersToBusKv (hm : List (String × List UInt8)) : List BusKv :=
  hm.filterMap (fun (n,v) => (toStr v).map (fun s => ⟨n,s⟩))

/-- A header whose value is ASCII; a `HeaderValue` has no other control character than the tab. -/
structure AsciiHeader where
  name : String
  value : String
  ascii : (ofText value).all visibleAscii = true

def AsciiHeader.entry (h : AsciiHeader) : String × List UInt8 := (h.name,ofText h.value)

def AsciiHeader.kv (h : AsciiHeader) : BusKv := ⟨h.name,h.value⟩

lemma reqHeadersToBusKv_ascii (hs : List AsciiHeader) :
    reqHeadersToBusKv (hs.map AsciiHeader.entry) = hs.map AsciiHeader.kv := by
  induction hs with
  | nil => rfl
  | cons h hs ih =>
    have hstr : toStr (ofText h.value) = some h.value := by
      rw [toStr,if_pos h.ascii,fromUtf8_ofText]
    rw [map_cons,map_cons,← ih]
    simp only [reqHeadersToBusKv,AsciiHeader.entry,filterMap_cons,hstr,Option.map_some]
    rfl

/-! Parts that are taken in one after the other. -/

def deliverOne (e : TaskEntry) (part : TaskComplete) : TaskEntry :=
  if part.finished then (e.absorb part).complete else e.absorb part

def deliver (e : TaskEntry) (parts : List TaskComplete) : TaskEntry := parts.foldl deliverOne e

structure Acceptable (e : TaskEntry) (part : TaskComplete) : Prop where
  regular : part.reportsFailure = false
  status : part.finished = true → (e.absorb part).responseStatus ≠ none

def AllAcceptable : TaskEntry → List TaskComplete → Prop
  | _,[] => True
  | e,part::parts => Acceptable e part ∧ AllAcceptable (deliverOne e part) parts

lemma allAcceptable_append {e : TaskEntry} {parts more : List TaskComplete} :
    AllAcceptable e (parts++more) ↔ AllAcceptable e parts ∧
      AllAcceptable (deliver e parts) more := by
  induction parts generalizing e with
  | nil => simp [AllAcceptable,deliver]
  | cons part parts ih =>
    rw [cons_append,AllAcceptable,AllAcceptable,ih,and_assoc]
    rfl

variable {e : TaskEntry} {status code : UInt32}

lemma acceptable_of_status {part : TaskComplete} (herr : part.error = "")
    (hst : e.responseStatus ≠ none) : Acceptable e part where
  regular := by
    have htrim : Text.trim "" = "" := by decide
    simp [TaskComplete.reportsFailure,herr,htrim]
  status := fun _ => by
    show (if part.status ≠ 0 then some part.status else e.responseStatus) ≠ none
    split_ifs
    · simp
    · exact hst

lemma deliver_bodyParts (rid : String) (chunks : List (List UInt8)) (hne : chunks ≠ [])
    (hst : e.responseStatus = some code) (hcode : status = 0 ∨ status = code) :
    AllAcceptable e (bodyParts rid status chunks) ∧
      (deliver e (bodyParts rid status chunks)).phase = .completed ∧
      (deliver e (bodyParts rid status chunks)).responseStatus = some code ∧
      (deliver e (bodyParts rid status chunks)).responseHeaders = e.responseHeaders ∧
      (deliver e (bodyParts rid status chunks)).responseBody = e.responseBody++chunks.flatten := by
  have hkeep : (if status ≠ 0 then some status else e.responseStatus) = some code := by
    rcases hcode with rfl | rfl
    · simpa using hst
    · simp [hst]
  induction chunks generalizing e status with
  | nil => exact absurd rfl hne
  | cons chunk chunks ih =>
    have hok : e.responseStatus ≠ none := by simp [hst]
    cases chunks with
    | nil =>
      refine ⟨⟨acceptable_of_status rfl hok,trivial⟩,rfl,?_,rfl,?_⟩
      · simp only [bodyParts,deliver,foldl_cons,foldl_nil,deliverOne,if_true,
          complete,absorb,hkeep,Option.getD_some]
      · simp [bodyParts,deliver,deliverOne,complete,absorb]
    | cons next chunks =>
      have hst' : (deliverOne e ⟨rid,status,[],chunk,false,""⟩).responseStatus = some code := hkeep
      obtain ⟨hall,hphase,hstatus,hheaders,hbody⟩ :=
        ih (e := deliverOne e ⟨rid,status,[],chunk,false,""⟩) (by simp) hst'
          (Or.inl (rfl : (0 : UInt32) = 0)) (by simpa using hst')
      refine ⟨⟨acceptable_of_status rfl hok,hall⟩,hphase,hstatus,hheaders,hbody.trans ?_⟩
      simp [deliverOne,absorb]

lemma flatten_toChunks_go {α : Type} (n : ℕ) (xs : List α) (acc : Array α) (done : Array (List α)) :
    (List.toChunks.go n xs acc done).flatten = done.toList.flatten++(acc.toList++xs) := by
  induction xs generalizing acc done with
  | nil => simp [List.toChunks.go]
  | cons x xs ih =>
    simp only [List.toChunks.go]
    split
    all_goals
      rw [ih]
      simp

lemma flatten_toChunks {α : Type} {n : ℕ} (hn : n ≠ 0) (xs : List α) :
    (xs.toChunks n).flatten = xs := by
  cases xs with
  | nil => simp [List.toChunks]
  | cons x xs =>
    obtain ⟨m,rfl⟩ := Nat.exists_eq_succ_of_ne_zero hn
    simp only [List.toChunks]
    rw [flatten_toChunks_go]
    simp

lemma deliver_pumpCompletes (e : TaskEntry) (rid : String) (hst : status ≠ 0)
    (headers : List BusKv) (body : List UInt8) : let sent := pumpCompletes rid status headers body
    AllAcceptable e (sent.1::sent.2) ∧ (deliver e (sent.1::sent.2)).phase = .completed ∧
      (deliver e (sent.1::sent.2)).responseStatus = some status ∧
      (deliver e (sent.1::sent.2)).responseHeaders =
        (if headers ≠ [] then headers else e.responseHeaders) ∧
      (deliver e (sent.1::sent.2)).responseBody = e.responseBody++body := by
  have hfirst : Acceptable e ⟨rid,status,headers,[],false,""⟩ := by
    refine ⟨?_,fun h => by cases h⟩
    simp [TaskComplete.reportsFailure]
  have hstatus : (deliverOne e ⟨rid,status,headers,[],false,""⟩).responseStatus = some status := by
    simp [deliverOne,absorb,hst]
  have hbody : (deliverOne e ⟨rid,status,headers,[],false,""⟩).responseBody = e.responseBody := by
    simp [deliverOne,absorb]
  by_cases hempty : body = []
  · have hlast : Acceptable (deliverOne e ⟨rid,status,headers,[],false,""⟩)
        ⟨rid,status,[],[],true,""⟩ := acceptable_of_status rfl (by simp [hstatus])
    simp only [pumpCompletes,if_pos hempty]
    refine ⟨⟨hfirst,hlast,trivial⟩,rfl,?_,rfl,?_⟩
    · simp [deliver,deliverOne,complete,absorb,hst]
    · simp [deliver,deliverOne,complete,absorb,hempty]
  · have hne : body.toChunks completeChunk ≠ [] := by
      intro hnil
      have hflat := flatten_toChunks (n := completeChunk) (by decide) body
      rw [hnil] at hflat
      exact hempty hflat.symm
    obtain ⟨hall,hphase,hcode,hheaders,hchunks⟩ := deliver_bodyParts
      rid (body.toChunks completeChunk) hne hstatus (.inr rfl)
    rw [flatten_toChunks (by decide),hbody] at hchunks
    simp only [pumpCompletes,if_neg hempty]
    exact ⟨⟨hfirst,hall⟩,hphase,hcode,hheaders,hchunks⟩

/-! The same parts in a run of the queue. -/

/-- A part that reached the task `id`, and whether it was accepted. -/
def partTo (id : String) : Event → Option (TaskComplete × Bool)
  | .part j _ part accepted => if j = id then some (part,accepted) else none
  | .claimed .. | .ended _ => none

def partsTo (id : String) (log : List Event) : List (TaskComplete × Bool) :=
  log.reverse.filterMap (partTo id)

lemma partsTo_append (id : String) (new log : List Event) :
    partsTo id (new++log) = partsTo id log++partsTo id new := by
  simp [partsTo]

lemma partsTo_about (id : String) (log : List Event) :
    partsTo id (about id log) = partsTo id log := by
  induction log with
  | nil => rfl
  | cons ev log ih =>
    have hsplit : partsTo id (ev::log) = partsTo id log++partsTo id [ev] :=
        partsTo_append id [ev] log
    rw [hsplit,← ih]
    unfold about
    by_cases hid : ev.id = id
    · rw [filter_cons_of_pos (by simpa using hid)]
      exact partsTo_append id [ev] _
    rw [filter_cons_of_neg (by simpa using hid)]
    have hnone : partsTo id [ev] = [] := by
      cases ev with
      | claimed | ended => rfl
      | part j w p acc =>
        have hj : j ≠ id := hid
        simp [partsTo,partTo,hj]
    rw [hnone,append_nil]

def ClaimHeld (id : String) (w : PubKey) (s : Sys) : Prop :=
  ∃ e, s.queue.tasks.lookup id = some e ∧ e.claimant = some w

instance (id : String) (w : PubKey) (s : Sys) : Decidable (ClaimHeld id w s) :=
  decidable_of_iff ((s.queue.tasks.lookup id).any (fun e => e.claimant = some w))
    (by simp [ClaimHeld,Option.any_eq_true])

structure SameResponse (e d : TaskEntry) : Prop where
  status : e.responseStatus = d.responseStatus
  headers : e.responseHeaders = d.responseHeaders
  body : e.responseBody = d.responseBody
  phase : d.phase = .completed → e.phase = .completed

variable {cfg : Config} {s s' : Sys} {t : Tid} {order : List String} {id : String} {w : PubKey}
  {e' d : TaskEntry} {part : TaskComplete}

lemma SameResponse.trans (h : SameResponse e' e) (h' : SameResponse e d) : SameResponse e' d :=
  ⟨h.status.trans h'.status,h.headers.trans h'.headers,h.body.trans h'.body,
    fun hp => h.phase (h'.phase hp)⟩

lemma SameResponse.deliverOne (h : SameResponse e d) (part : TaskComplete) :
    SameResponse (deliverOne e part) (deliverOne d part) := by
  have habsorb : SameResponse (e.absorb part) (d.absorb part) :=
    ⟨by simp only [absorb,h.status],by simp only [absorb,h.headers],
      by simp only [absorb,h.body],h.phase⟩
  unfold TaskQueue.deliverOne
  split_ifs
  · exact ⟨by simp only [complete,habsorb.status],habsorb.headers,habsorb.body,
      fun _ => rfl⟩
  · exact habsorb

lemma Acceptable.congr (h : SameResponse e d) (ha : Acceptable d part) : Acceptable e part := by
  refine ⟨ha.regular,fun hfin => ?_⟩
  have hst := ha.status hfin
  simp only [absorb] at hst ⊢
  rwa [h.status]

lemma exec_part {a : CompletePart} (hs : step cfg s (.exec t order) = some s')
    (hpc : s.pc t = .completeTasks a) (he : s.queue.tasks.lookup a.rid = some e)
    (hw : e.claimant = some a.worker) (hok : Acceptable e a.part) :
    s'.queue.tasks.lookup a.rid = some (deliverOne e a.part) ∧
      partsTo a.rid (s.effect cfg t order).events = [(a.part,true)] := by
  obtain ⟨-,-,-,rfl⟩ := step_exec hs
  have heffect : s.effect cfg t order = completeEffect s.queue s.stats a := by
    simp only [Sys.effect,hpc,advance]
  have hown := completeTasks_own he hw
  rw [if_neg (by simp [hok.regular])] at hown
  simp only [Sys.apply,heffect,completeEffect,deliverOne]
  cases hfin : a.part.finished with
  | false =>
    rw [if_pos hfin] at hown
    rw [hown]
    exact ⟨AList.lookup_insert _,by simp [partsTo,partTo]⟩
  | true =>
    have hst := hok.status hfin
    rw [if_neg (by simp [hfin]),if_neg (fun hempty => hst hempty.1)] at hown
    rw [hown]
    exact ⟨AList.lookup_insert _,by simp [partsTo,partTo]⟩

lemma EntryStep.held {evs : List Event} (h : EntryStep cfg s t id (some e) (some e') evs)
    (hinv : e.phase = .queued ∨ e.phase = .expired → e.claimant = none)
    (hw : e.claimant = some w) (hw' : e'.claimant = some w) :
    (SameResponse e' e ∧ partsTo id evs = []) ∨
      ∃ a, s.pc t = .completeTasks a ∧ a.rid = id ∧ e.claimant = some a.worker ∧
        (partsTo id evs).map Prod.fst = [a.part] := by
  cases h with
  | same => exact .inl ⟨⟨rfl,rfl,rfl,fun hp => hp⟩,rfl⟩
  | recycled _ lease =>
    obtain ⟨-,rfl⟩ := recycle_eq_some lease
    cases hw'
  | expired _ queued | claimed _ queued =>
    rw [hinv (.inl queued)] at hw
    cases hw
  | updated _ _ active =>
    refine .inl ⟨⟨rfl,rfl,rfl,fun hp => ?_⟩,rfl⟩
    rw [hp] at active
    cases active
  | failed pc rid own | absorbed pc rid own
  | refused pc rid own | completed pc rid own => exact .inr ⟨_,pc,rid,own,by simp [partsTo,partTo]⟩

/-- The parts that have come so far were all accepted, and the task is what they make of it, as
far as its response goes. -/
def Delivered (id : String) (e : TaskEntry) (log : List Event) (s : Sys) : Prop :=
  ∃ new, s.log = new++log ∧
    (AllAcceptable e ((partsTo id new).map Prod.fst) →
      (∀ x ∈ partsTo id new, x.2 = true) ∧
      ∃ e', s.queue.tasks.lookup id = some e' ∧
        SameResponse e' (deliver e ((partsTo id new).map Prod.fst)))

lemma Delivered.step {log : List Event} {a : Label} (hreach : Reachable cfg s)
    (hs : step cfg s a = some s') (hheld : ClaimHeld id w s) (hheld' : ClaimHeld id w s')
    (h : Delivered id e log s) : Delivered id e log s' := by
  obtain ⟨new,hlog,hdel⟩ := h
  rcases step_quiet hs with hquiet | ⟨t,order,rfl⟩
  · refine ⟨new,hquiet.log.trans hlog,?_⟩
    rwa [hquiet.queue]
  obtain ⟨e₁,he₁,hw₁⟩ := hheld
  obtain ⟨e₂,he₂,hw₂⟩ := hheld'
  have hentry := exec_entry hreach.guardInv hs id
  rw [he₁,he₂] at hentry
  have hlog' : s'.log = (s.effect cfg t order).events++new++log := by
    obtain ⟨-,-,-,rfl⟩ := step_exec hs
    simp only [Sys.apply,hlog,append_assoc]
  refine ⟨(s.effect cfg t order).events++new,hlog',?_⟩
  rw [partsTo_append,map_append,allAcceptable_append]
  rintro ⟨hall,hlast⟩
  obtain ⟨hflags,e₁',he₁',hsame⟩ := hdel hall
  rw [he₁,Option.some.injEq] at he₁'
  subst he₁'
  rcases hentry.held (hreach.claimInv id e₁ he₁) hw₁ hw₂ with ⟨hkeep,hnone⟩ | ⟨a,hpc,rfl,hown,hpart⟩
  · rw [partsTo_about] at hnone
    rw [hnone,map_nil,append_nil,append_nil]
    exact ⟨hflags,e₂,he₂,hkeep.trans hsame⟩
  · rw [partsTo_about] at hpart
    rw [hpart] at hlast
    have hok : Acceptable e₁ a.part := hlast.1.congr hsame
    obtain ⟨hnext,hevents⟩ := exec_part hs hpc he₁ hown hok
    rw [hevents]
    refine ⟨?_,deliverOne e₁ a.part,hnext,?_⟩
    · intro x hx
      rcases List.mem_append.mp hx with hold | hlast
      · exact hflags x hold
      · rw [List.mem_singleton.mp hlast]
    · rw [deliver,foldl_append]
      exact hsame.deliverOne a.part

lemma Delivered.of_run (hreach : Reachable cfg s) (he : s.queue.tasks.lookup id = some e)
    (run : Run (TaskQueue.step cfg) (fun u _ => ClaimHeld id w u) s s')
    (hend : ClaimHeld id w s') : Delivered id e s.log s' := by
  induction run with
  | refl => exact ⟨[],rfl,fun _ => ⟨by simp [partsTo],e,he,⟨rfl,rfl,rfl,fun hp => hp⟩⟩⟩
  | tail run hheld hstep ih =>
    obtain ⟨c,hr⟩ := hreach
    exact Delivered.step ⟨c,hr.trans run.weaken⟩ hstep hheld hend (ih hheld)

/-- A worker holds a claim and its parts are applied: none is rejected and the task is completed.
Status, headers and body are those that were sent exactly when the task had no body before, and no
headers if none were sent. -/
theorem worker_result_iff {cfg : Config} {s s' : Sys} (hreach : Reachable cfg s) {id : String}
    {w : PubKey} {e : TaskEntry} (he : s.queue.tasks.lookup id = some e) (rid : String)
    {status : UInt32} (hlow : 100 ≤ status.toNat) (hhigh : status.toNat ≤ 599)
    (headers : List AsciiHeader) (body : List UInt8)
    (run : Run (step cfg) (fun u _ => ClaimHeld id w u) s s') (hend : ClaimHeld id w s')
    {new : List Event} (hlog : s'.log = new++s.log) (hsent : (partsTo id new).map Prod.fst =
      let sent := pumpCompletes rid status (reqHeadersToBusKv (headers.map AsciiHeader.entry)) body
      sent.1::sent.2) :
    (∀ x ∈ partsTo id new, x.2 = true) ∧
      ∃ e', s'.queue.tasks.lookup id = some e' ∧ e'.phase = .completed ∧
        (e'.responseStatus = some status ∧ e'.responseHeaders = headers.map AsciiHeader.kv ∧
          e'.responseBody = body ↔
          e.responseBody = [] ∧ (headers = [] → e.responseHeaders = [])) := by
  have hne : status ≠ 0 := by
    rintro rfl
    simp at hlow
  obtain ⟨hall,hphase,hstatus,hheaders,hbody⟩ :=
    deliver_pumpCompletes e rid hne (reqHeadersToBusKv (headers.map AsciiHeader.entry)) body
  obtain ⟨new',hlog',hdel⟩ := Delivered.of_run hreach he run hend
  rw [hlog,append_cancel_right_eq] at hlog'
  subst hlog'
  rw [hsent] at hdel
  obtain ⟨hflags,e',he',hsame⟩ := hdel hall
  refine ⟨hflags,e',he',hsame.phase hphase,?_⟩
  rw [hsame.status,hsame.headers,hsame.body,hstatus,hheaders,hbody,reqHeadersToBusKv_ascii]
  have hnil : headers.map AsciiHeader.kv = [] ↔ headers = [] := map_eq_nil_iff
  constructor
  · rintro ⟨-,hh,hb⟩
    refine ⟨List.append_left_eq_self.mp hb,fun hnone => ?_⟩
    rw [hnone] at hh
    simpa using hh
  · rintro ⟨hb,hh⟩
    refine ⟨rfl,?_,by rw [hb,nil_append]⟩
    by_cases hnone : headers = []
    · simp [hnone,hh hnone]
    · rw [if_pos (fun hm => hnone (hnil.mp hm))]

lemma ascii_v : (ofText "v").all visibleAscii = true := by decide +kernel

def headerKv : AsciiHeader := ⟨"k","v",ascii_v⟩

def sentTwo : List Event :=
  [.ended "a",.part "a" (workerKey 1) ⟨"a",201,[],[1,2],true,""⟩ true,
    .part "a" (workerKey 1) ⟨"a",201,[⟨"k","v"⟩],[],false,""⟩ true]

theorem worker_result_two_bytes : ∃ (s : Sys) (e' : TaskEntry), s.queue.tasks.lookup "a" = some e' ∧
    e'.phase = .completed ∧ e'.responseStatus = some 201 ∧ e'.responseHeaders = [⟨"k","v"⟩] ∧
    e'.responseBody = [1,2] := by
  obtain ⟨s,hs,hblank,hnext⟩ : ∃ s, Run (step minuteTtl) anyStep (Sys.init 0) s ∧
      (s.queue.tasks.lookup "a").any (fun e => e.responseBody = [] ∧
        e.responseHeaders = []) = true ∧
      (execute (step minuteTtl) (fun u _ => ClaimHeld "a" (workerKey 1) u)
        (applyPart 1 ["a"] (workerKey 1) ⟨"a",201,[⟨"k","v"⟩],[],false,""⟩++
          applyPart 1 ["a"] (workerKey 1) ⟨"a",201,[],[1,2],true,""⟩) s).any
        (fun s' => ClaimHeld "a" (workerKey 1) s' ∧ s'.log = sentTwo++s.log) = true :=
    exists_run storeAndClaim (by decide +kernel)
  obtain ⟨e,he,hempty⟩ := (Option.any_eq_true _ _).mp hblank
  obtain ⟨s',hrun,hend⟩ := (Option.any_eq_true _ _).mp hnext
  obtain ⟨hend,hlog⟩ := of_decide_eq_true hend
  obtain ⟨hbody,hheaders⟩ := of_decide_eq_true hempty
  obtain ⟨-,e',he',hphase,hiff⟩ := worker_result_iff ⟨0,hs⟩ he "a"
    (show 100 ≤ (201 : UInt32).toNat by decide) (by decide) [headerKv] [1,2]
      (execute_run hrun) hend hlog (by decide +kernel)
  obtain ⟨hst,hh,hb⟩ := hiff.mpr ⟨hbody,fun _ => hheaders⟩
  exact ⟨s',e',he',hphase,hst,hh,hb⟩

/-- The first worker sends a byte and loses its lease; the second one claims the task. -/
def claimAgain : List Label :=
  storeAndClaim++applyPart 1 ["a"] (workerKey 1) ⟨"a",0,[],[1],false,""⟩++
  [.tick 30000000001,.call 2 (.claimNext (workerKey 2) 0)]++recycleSome 2 ["a"]++
  discardFresh 2++claimOnce 2

theorem worker_result_keeps_old_body : ∃ s s' new e', Reachable (halfMinuteLease 8) s ∧
    Run (step (halfMinuteLease 8)) (fun u _ => ClaimHeld "a" (workerKey 2) u) s s' ∧
    s'.log = new++s.log ∧ (partsTo "a" new).map Prod.fst =
      [(pumpCompletes "a" 200 [] [2]).1]++(pumpCompletes "a" 200 [] [2]).2 ∧
    s'.queue.tasks.lookup "a" = some e' ∧ e'.phase = .completed ∧ e'.responseBody = [1,2] := by
  obtain ⟨s,hs,hnext⟩ : ∃ s, Run (step (halfMinuteLease 8)) anyStep (Sys.init 0) s ∧
      (execute (step (halfMinuteLease 8)) (fun u _ => ClaimHeld "a" (workerKey 2) u)
        (applyPart 2 ["a"] (workerKey 2) ⟨"a",200,[],[],false,""⟩++
          applyPart 2 ["a"] (workerKey 2) ⟨"a",200,[],[2],true,""⟩) s).any
        (fun s' => s'.log = [.ended "a",.part "a" (workerKey 2) ⟨"a",200,[],[2],true,""⟩ true,
            .part "a" (workerKey 2) ⟨"a",200,[],[],false,""⟩ true]++s.log ∧
          (s'.queue.tasks.lookup "a").any
            (fun e => e.phase = .completed ∧ e.responseBody = [1,2])) = true :=
    exists_run claimAgain (by decide +kernel)
  obtain ⟨s',hrun,hend⟩ := (Option.any_eq_true _ _).mp hnext
  obtain ⟨hlog,hentry⟩ := of_decide_eq_true hend
  obtain ⟨e',he',hres⟩ := (Option.any_eq_true _ _).mp hentry
  exact ⟨s,s',_,e',⟨0,hs⟩,execute_run hrun,hlog,by decide +kernel,he',of_decide_eq_true hres⟩

end PirateServer.TaskQueue
