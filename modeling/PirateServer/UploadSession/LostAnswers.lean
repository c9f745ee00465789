import PirateServer.UploadSession.Client
import PirateServer.UploadSession.Commit

/-! Which lost answers a resumable upload survives. A session that is created again is another one,
and nothing depends on the first; but a chunk or a request to complete the session that is made
again is refused, as the server has moved on. -/
namespace PirateServer.UploadSession
open Lib List Option

/-! A request that is alone, in the state of the whole session. -/

variable {cfg : Config} {now : Int64} {x y : Slot} {t : Task} {a : Answer} {n m : ℕ}
  {sent sent' : Option Bytes} {sess : Session}

/-- A request that is alone is answered with `a` in `n` steps, and leaves the slot `y`; what was
accepted by the deploy server was `sent` and is `sent'`. -/
def Leads (cfg : Config) (now : Int64) (n : ℕ) (x : Slot) (t : Task)
    (sent : Option Bytes) (y : Slot)
    (a : Answer) (sent' : Option Bytes) : Prop :=
  ∀ (s : Sys) (before : List Task), s.slot = x → s.tasks = before++[t] → s.streamed = sent →
    ∃ s', Sys.drive cfg now before.length n s = some (s',a) ∧ s'.slot = y ∧ s'.streamed = sent'

lemma leads_answered : Leads cfg now n x (.answered a) sent x a sent := by
  intro s before hslot htasks hsent
  have hanswer : s.answer before.length = some a := by simp [Sys.answer,htasks]
  refine ⟨s,?_,hslot,hsent⟩
  cases n with
  | zero | succ n => simp [Sys.drive,hanswer]

lemma leads_step (z : Slot) (t' : Task) (hopen : ∀ a, t ≠ .answered a)
    (hturned : turned cfg x t (t.wants now (.ok ())) = some (z,t'))
    (h : Leads cfg now n z t' ((t.delivers t').or sent) y a sent') :
    Leads cfg now (n+1) x t sent y a sent' := by
  intro s before hslot htasks hsent
  have ht : s.tasks[before.length]? = some t := by simp [htasks]
  have hanswer : s.answer before.length = none := by
    unfold Sys.answer
    rw [ht]
    cases t with
    | answered a => exact absurd rfl (hopen a)
    | _ => rfl
  have hstep : s.step cfg (.act before.length (t.wants now (.ok ()))) =
      some (s.turn before.length t z t') := by
    simp [Sys.step,ht,hslot,hturned]
  obtain ⟨s',hdrive,hslot',hsent'⟩ := h (s.turn before.length t z t') before rfl
    (by simp [Sys.turn,htasks]) (by simp [Sys.turn,hsent])
  refine ⟨s',?_,hslot',hsent'⟩
  simp only [Sys.drive,hanswer,ht,bind_some,hstep]
  exact hdrive

lemma settle_dropping {b : Answer} {verdict : Except ApiError Unit}
    (h : settle cfg now verdict n x (.dropping b) = some (y,a)) : a = b := by
  obtain ⟨ht,_⟩ | ⟨m,z,t',_,hturned,hrest⟩ := settle_cases h
  · cases ht
  · cases hturned
    rw [settle_answered] at hrest
    cases hrest
    rfl

lemma leads_of_settle (h : settle cfg now (.ok ()) n x t = some (y,a)) (hm : n ≤ m)
    (hdeployed : a ≠ .ok .deployed) : Leads cfg now m x t sent y a sent := by
  induction n generalizing x t m with
  | zero =>
    obtain ⟨rfl,rfl⟩ | ⟨k,_,_,hk,_⟩ := settle_cases h
    · exact leads_answered
    · cases hk
  | succ n ih =>
    obtain ⟨rfl,rfl⟩ | ⟨k,z,t',hk,hturned,hrest⟩ := settle_cases h
    · exact leads_answered
    cases hk
    have hopen : ∀ b, t ≠ .answered b := by
      rintro b rfl
      cases hturned
    have hkeeps : t.delivers t' = none := by
      cases hd : t.delivers t' with
      | none => rfl
      | some d =>
        obtain ⟨⟨last,rfl⟩,done,rfl⟩ := delivers_eq_some hd
        have ha : a = .ok done := settle_dropping hrest
        cases last with
        | false => cases hturned
        | true =>
          cases hturned
          exact absurd ha hdeployed
    obtain ⟨m',rfl⟩ : ∃ m', m = m'+1 := ⟨m-1,by omega⟩
    refine leads_step z t' hopen hturned ?_
    rw [hkeeps,none_or]
    exact ih hrest (by omega)

variable {s s' : Sys}

lemma serve_of_leads {r : Request} (h : Leads cfg now 10 s.slot (.arrived r) s.streamed y a sent') :
    ∃ s', s.serve cfg now r = some (s',a) ∧ s'.slot = y ∧ s'.streamed = sent' :=
  h { s with tasks := s.tasks++[.arrived r] } s.tasks rfl rfl rfl

/-! A request to complete a session that has the whole file. -/

lemma nextPiece_whole {data : Bytes} (h : data.length ≤ maxFileBytes) :
    nextPiece data [] maxFileBytes = data := by
  simp only [nextPiece,length_nil,drop_zero]
  exact take_of_length_le (by omega)

lemma nextPiece_end (data : Bytes) (n : ℕ) : nextPiece data data n = [] := by
  simp [nextPiece]

/-- A complete session of a caller who may complete it. -/
structure Finished (cfg : Config) (now : Int64) (caller : Caller) (root : Root) (sess : Session)
    (data : Bytes) : Prop where
  admitted : admitCaller cfg.service caller = .ok ()
  configured : storageCfg cfg.service root = .ok ()
  belongs : sess.target.belongsTo caller.projectId = true
  live : sessionIsExpired cfg sess now = false
  received : sess.receivedBytes = sess.fileBytes
  length : data.length = sess.fileBytes
  nonempty : data ≠ []
  fits : data.length ≤ maxFileBytes
  sha256 : cfg.digest data = sess.fileSha256

variable {caller : Caller} {root : Root} {data : Bytes}

lemma leads_checked (h : Finished cfg now caller root sess data)
    (hrest : Leads cfg now n ⟨none,.temporary,data⟩ (.checked sess) sent y a sent') :
    Leads cfg now (n+5) ⟨some sess,.temporary,data⟩ (.arrived (.complete caller root)) sent y a
      sent' := by
  refine leads_step ⟨some sess,.temporary,data⟩ (.swept (.complete caller root))
    (by simp) ?_ ?_
  · simp [turned,locked,Task.wants,lockSweep_live h.live]
  refine leads_step ⟨none,.temporary,data⟩ (.taken sess) (by simp) ?_ ?_
  · simp [turned,locked,Task.wants,lockComplete,h.admitted,h.configured,h.belongs,h.live,h.received]
  refine leads_step ⟨none,.temporary,data⟩ (.hashing sess []) (by simp) ?_ ?_
  · simp [turned,operated,Task.wants]
  refine leads_step ⟨none,.temporary,data⟩ (.hashing sess data) (by simp) ?_ ?_
  · simp [turned,operated,Task.wants,nextPiece_whole h.fits,h.nonempty]
  refine leads_step ⟨none,.temporary,data⟩ (.checked sess) (by simp) ?_ hrest
  simp [turned,operated,Task.wants,nextPiece_end,h.sha256]

lemma leads_complete (h : Finished cfg now caller root sess data) :
    ∃ y done sent', Leads cfg now 10 ⟨some sess,.temporary,data⟩ (.arrived (.complete caller root))
      none y (.ok done) sent' ∧ y.session = none ∧ takenOver y sent' = [data] := by
  cases hservice : cfg.service with
  | storage =>
    refine ⟨⟨none,.committed,data⟩,.committed data.length,none,leads_checked h ?_,rfl,rfl⟩
    refine leads_step ⟨none,.temporary,data⟩ (.committing sess data.length) (by simp)
      (by simp [turned,judged,Task.wants,hservice]) ?_
    refine leads_step ⟨none,.committed,data⟩ (.reconciling data.length) (by simp)
      (by simp [turned,operated,Task.wants]) ?_
    exact leads_step _ _ (by simp) (by simp [turned,judged,Task.wants]) leads_answered
  | deploy =>
    refine ⟨⟨none,.removed,data⟩,.deployed,some data,leads_checked h ?_,rfl,rfl⟩
    refine leads_step ⟨none,.temporary,data⟩ (.streaming sess []) (by simp)
      (by simp [turned,judged,Task.wants,hservice]) ?_
    refine leads_step ⟨none,.temporary,data⟩ (.replying data true) (by simp)
      (by simp [turned,operated,Task.wants,nextPiece_whole h.fits,h.nonempty,h.length]) ?_
    refine leads_step ⟨none,.temporary,data⟩ (.dropping (.ok .deployed)) (by simp)
      (by simp [turned,judged,Task.wants]) ?_
    exact leads_step _ _ (by simp) (by simp [turned,operated,Task.wants,Slot.unlink]) leads_answered

/-! Requests that the server has already handled. -/

def Slot.Beyond (offset : ℕ) (x : Slot) : Prop :=
  ∀ sess, x.session = some sess → sess.receivedBytes ≠ offset

lemma beyond_none {offset : ℕ} {place : Place} : Slot.Beyond offset ⟨none,place,data⟩ := by
  intro sess hsess
  cases hsess

lemma lockChunk_beyond {r : ChunkRequest} {offset : ℕ} (hoffset : parseOffset r.offset = .ok offset)
    (h : x.Beyond offset) : ∃ session e, Slot.Beyond offset { x with session := session } ∧
      (lockChunk cfg now r x.session = (session,.answered (.error e)) ∨
        lockChunk cfg now r x.session = (session,.dropping (.error e))) := by
  obtain ⟨session,place,data⟩ := x
  unfold lockChunk
  cases admitCaller cfg.service r.caller with
  | error e => exact ⟨session,e,h,.inl rfl⟩
  | ok _ =>
    rw [hoffset]
    cases session with
    | none => exact ⟨none,_,h,.inl rfl⟩
    | some sess =>
      have hne : offset ≠ sess.receivedBytes := fun heq => h sess rfl heq.symm
      simp only [checkChunk,if_pos hne]
      split_ifs
      · exact ⟨some sess,_,h,.inl rfl⟩
      · exact ⟨none,_,beyond_none,.inr rfl⟩
      · exact ⟨some sess,_,h,.inl rfl⟩

lemma settle_swept_beyond {r : ChunkRequest} {offset : ℕ}
    (hoffset : parseOffset r.offset = .ok offset) (h : x.Beyond offset) :
    ∃ y e, settle cfg now (.ok ()) (n+2) x (.swept (.chunk r)) = some (y,.error e) ∧
      y.Beyond offset := by
  obtain ⟨session,e,hbeyond,hlook | hlook⟩ := @lockChunk_beyond cfg now x r offset hoffset h
  · have hturned : turned cfg x (.swept (.chunk r)) (.lock now) =
        some ({ x with session := session },.answered (.error e)) := by
      simp only [turned,locked,hlook,map_some]
    refine ⟨_,e,?_,hbeyond⟩
    rw [settle_succ (by simp) hturned]
    exact settle_answered
  · have hturned : turned cfg x (.swept (.chunk r)) (.lock now) =
        some ({ x with session := session },.dropping (.error e)) := by
      simp only [turned,locked,hlook,map_some]
    have hdropped : turned cfg { x with session := session } (.dropping (.error e))
        (.file (.ok maxFileBytes)) =
        some (Slot.unlink { x with session := session },.answered (.error e)) := rfl
    refine ⟨Slot.unlink { x with session := session },e,?_,hbeyond⟩
    rw [settle_succ (by simp) hturned,settle_succ (by simp) hdropped]
    exact settle_answered

lemma settle_beyond {r : ChunkRequest} {offset : ℕ} (hoffset : parseOffset r.offset = .ok offset)
    (h : x.Beyond offset) :
    ∃ y e, settle cfg now (.ok ()) 4 x (.arrived (.chunk r)) = some (y,.error e) ∧
      y.Beyond offset := by
  by_cases hswept : ∃ sess, x.session = some sess ∧ sessionIsExpired cfg sess now = true
  · obtain ⟨sess,hsess,hexpired⟩ := hswept
    have hsweep : turned cfg x (.arrived (.chunk r)) (.lock now) =
        some ({ x with session := none },.sweeping (.chunk r)) := by
      simp [turned,locked,lockSweep,hsess,hexpired]
    have hunlink : turned cfg { x with session := none } (.sweeping (.chunk r))
        (.file (.ok maxFileBytes)) =
        some (Slot.unlink { x with session := none },.swept (.chunk r)) := rfl
    rw [settle_succ (by simp) hsweep,settle_succ (by simp) hunlink]
    exact settle_swept_beyond hoffset beyond_none
  · have hsweep : turned cfg x (.arrived (.chunk r)) (.lock now) = some (x,.swept (.chunk r)) := by
      obtain ⟨session,place,data⟩ := x
      cases session with
      | none => rfl
      | some sess =>
        have hlive : sessionIsExpired cfg sess now = false := by
          simpa using fun hexpired => hswept ⟨sess,rfl,hexpired⟩
        simp [turned,locked,lockSweep_live hlive]
    rw [settle_succ (by simp) hsweep]
    exact settle_swept_beyond hoffset h

lemma settle_gone (hgone : x.session = none) :
    ∃ e, settle cfg now (.ok ()) 2 x (.arrived (.complete caller root)) = some (x,.error e) := by
  obtain ⟨session,place,data⟩ := x
  cases hgone
  have hlook : ∃ e, lockComplete cfg now caller root none = (none,.answered (.error e)) := by
    unfold lockComplete
    cases admitCaller cfg.service caller with
    | error e => exact ⟨e,rfl⟩
    | ok _ =>
      cases storageCfg cfg.service root with
      | error e => exact ⟨e,rfl⟩
      | ok _ => exact ⟨_,rfl⟩
  obtain ⟨e,hlook⟩ := hlook
  have hsweep : turned cfg ⟨none,place,data⟩ (.arrived (.complete caller root)) (.lock now) =
      some (⟨none,place,data⟩,.swept (.complete caller root)) := rfl
  have hturned : turned cfg ⟨none,place,data⟩ (.swept (.complete caller root)) (.lock now) =
      some (⟨none,place,data⟩,.answered (.error e)) := by
    simp only [turned,locked,hlook,map_some]
  refine ⟨e,?_⟩
  rw [settle_succ (by simp) hsweep,settle_succ (by simp) hturned]
  exact settle_answered

/-! How the client takes what comes back. -/

variable {cfg : Setting} {u : Upload} {w : World} {id j k offset : ℕ}

lemma readReply_fails {α : Type} {what place url : String} {limit : ℕ} {reply : Reply α}
    (h : ∀ a, reply ≠ .ok (.ok a)) : ∃ e, readReply what place limit url reply = .again e ∨
      readReply what place limit url reply = .stop e := by
  match reply with
  | .error e =>
    simp only [readReply]
    split_ifs
    · exact ⟨_,.inl rfl⟩
    · exact ⟨_,.inr rfl⟩
  | .ok (.error e) =>
    simp only [readReply]
    split_ifs
    · exact ⟨_,.inr rfl⟩
    · exact ⟨_,.inl rfl⟩
    · exact ⟨_,.inr rfl⟩
  | .ok (.ok a) => exact absurd rfl (h a)

variable {before : List Sys}

lemma ask_session {r : Request} {conf : Config}
    (read : Reply Done → Trial String Done) (h : s.serve conf (cfg.clock n) r = some (s',a)) :
    ask cfg j (serveSession conf before.length r) read k ⟨before++[s],n⟩ =
      some (⟨before++[s'],n+1⟩,read (delivered a (cfg.lost j k))) := by
  simp [ask,serveSession,h]

lemma fails_session {r : Request} {conf : Config}
    (what place url : String) (limit : ℕ) (h : s.serve conf (cfg.clock n) r = some (s',a))
    (hlost : cfg.lost j k ≠ none ∨ ∃ e, a = .error e) :
    Fails (ask cfg j (serveSession conf before.length r) (readReply what place limit url)) k
      ⟨before++[s],n⟩ ⟨before++[s'],n+1⟩ := by
  unfold Fails
  simp only [ask_session _ h,Option.some.injEq,Prod.mk.injEq,true_and]
  apply readReply_fails
  intro b hb
  cases hl : cfg.lost j k with
  | some e =>
    rw [hl] at hb
    cases hb
  | none =>
    rw [hl] at hb
    rcases hlost with hlost | ⟨e,rfl⟩
    · exact hlost hl
    · cases hb

/-! The course of an upload. -/

/-- A file within the limits for a purpose that the server accepts, and a server and a network
that only lose answers, of no request all five, and the client knows it by a timeout. No session
expires between one request and the next. -/
structure Ordinary (cfg : Setting) (u : Upload) : Prop where
  admitted : admitCaller u.purpose.service u.caller = .ok ()
  configured : storageCfg u.purpose.service cfg.root = .ok ()
  accepted : checkPurpose u.purpose = .ok ()
  nonempty : u.file.data ≠ []
  limit : u.file.data.length ≤ cfg.limit
  fits : u.file.data.length ≤ maxFileBytes
  hex : ∀ data, isSha256Hex (cfg.digest data) = true
  lower : ∀ data, Text.toAsciiLowercase (cfg.digest data) = cfg.digest data
  named : ∀ i, Text.trim (cfg.uuid i) ≠ ""
  timely : ∀ n sess, sess.updatedAtMs = cfg.clock n →
    sessionIsExpired (u.config cfg) sess (cfg.clock (n+1)) = false
  bounded : ∀ j, ∃ k < 5, cfg.lost j k = none
  timeouts : ∀ j k e, cfg.lost j k = some e → e.isTimeout = true ∧ e.isConnect = false

namespace Upload

def session (cfg : Setting) (u : Upload) (received : ℕ) (now : Int64) : Session :=
  ⟨u.purpose.target u.caller.projectId,u.file.data.length,cfg.digest u.file.data,received,now⟩

def chunks (cfg : Setting) (u : Upload) : List Bytes :=
  u.file.reads (if cfg.chunkBytes = 0 then 1024*1024 else cfg.chunkBytes) 0

end Upload

/-- The youngest session, to which the client sends the file, has the first `offset` bytes; it was
last used by the last request. The other sessions have taken over `old`. -/
def Ready (cfg : Setting) (u : Upload) (old : List Bytes) (id offset : ℕ) (w : World) : Prop :=
  ∃ before s n, w = ⟨before++[s],n+1⟩ ∧ before.length = id ∧ before.flatMap Sys.commits = old ∧
    s.slot = ⟨some (u.session cfg offset (cfg.clock n)),.temporary,u.file.data.take offset⟩ ∧
    s.streamed = none

/-- Whatever chunk the client sends at this offset is refused. -/
def Past (id offset : ℕ) (w : World) : Prop :=
  ∃ before s n, w = ⟨before++[s],n⟩ ∧ before.length = id ∧ s.slot.Beyond offset

/-- There is nothing to complete. -/
def Gone (id : ℕ) (w : World) : Prop :=
  ∃ before s n, w = ⟨before++[s],n⟩ ∧ before.length = id ∧ s.slot.session = none

variable {old : List Bytes}

lemma belongsTo_target (p : Purpose) (projectId : String) :
    (p.target projectId).belongsTo projectId = true := by
  cases p with
  | storage p => rfl
  | deploy v m => simp [Purpose.target,Target.belongsTo]

lemma checkCreate_ok (h : Ordinary cfg u) : checkCreate cfg u = .ok () := by
  have hsize : checkSize cfg u = .ok () := by
    simp [checkSize,h.nonempty,h.limit]
  have hsha : checkFileSha256 cfg u = .ok () := by simp [checkFileSha256,h.hex]
  have haccepted := h.accepted
  unfold checkCreate
  rw [h.admitted,h.configured,hsize,hsha,haccepted]
  cases u.purpose <;> rfl

lemma create_ok (h : Ordinary cfg u) (exhausted : String) :
    ∃ w' out, attempts (u.createOnce cfg) exhausted 0 5 w = some (w',.ok out) ∧
      out.chunkBytes = cfg.chunkBytes ∧ out.receivedBytes = 0 ∧
      Ready cfg u w.commits out.uploadId 0 w' := by
  have honce : ∀ k v, u.createOnce cfg k v = some
      (⟨v.sessions++[.create (u.purpose.target u.caller.projectId) u.file.data.length
        (cfg.digest u.file.data) (cfg.clock v.handled)],v.handled+1⟩,
        u.readCreate cfg (delivered (.ok ⟨v.sessions.length,cfg.chunkBytes,0⟩)
          (cfg.lost 0 k))) := by
    intro k v
    simp only [Upload.createOnce,ask,uploadSessionCreate,checkCreate_ok h,h.lower,map_some]
  refine attempts_ok (P := fun v => v.commits = w.commits)
    (Q := fun w' (out : CreateOut) => out.chunkBytes = cfg.chunkBytes ∧ out.receivedBytes = 0 ∧
      Ready cfg u w.commits out.uploadId 0 w') (fun k => cfg.lost 0 k ≠ none) ?_ ?_ rfl ?_
  · intro k v hv hlost
    obtain ⟨e,he⟩ := Option.ne_none_iff_exists'.mp hlost
    obtain ⟨htimeout,hconnect⟩ := h.timeouts 0 k e he
    have hagain := honce k v
    simp only [he,delivered,Upload.readCreate,readReply,isRetryable_timeout _ htimeout hconnect,
      if_true] at hagain
    refine ⟨_,_,hagain,?_⟩
    simp only [World.commits,flatMap_append,flatMap_singleton] at hv ⊢
    exact (append_nil _).trans hv
  · intro k v hv hlost
    have hdone := honce k v
    rw [not_not.mp hlost] at hdone
    exact ⟨_,_,hdone,rfl,rfl,v.sessions,_,v.handled,rfl,rfl,hv,rfl,rfl⟩
  · obtain ⟨k,hk,hl⟩ := h.bounded 0
    exact ⟨k,Nat.zero_le k,by omega,not_not.mpr hl⟩

/-! The chunks. -/

lemma checkSha256_digest (h : Ordinary cfg u) (caller : Caller) (text : Option String)
    (chunk : Bytes) :
    checkSha256 (u.config cfg) ⟨caller,text,some (some (cfg.digest chunk)),chunk⟩ = .ok () := by
  simp [checkSha256,Upload.config,h.hex,h.lower]

variable {chunk : Bytes}

lemma serve_chunk (h : Ordinary cfg u)
    (hslot : s.slot = ⟨some (u.session cfg offset (cfg.clock n)),.temporary,
      u.file.data.take offset⟩)
    (hsent : s.streamed = none) (hsome : chunk ≠ []) (hnext : chunk <+: u.file.data.drop offset) :
    ∃ s', s.serve (u.config cfg) (cfg.clock (n+1)) (u.chunkRequest cfg offset chunk) =
        some (s',.ok (.received (offset+chunk.length))) ∧
      s'.slot = ⟨some (u.session cfg (offset+chunk.length) (cfg.clock (n+1))),.temporary,
        u.file.data.take (offset+chunk.length)⟩ ∧ s'.streamed = none := by
  have hlength : chunk.length ≤ u.file.data.length-offset := by simpa using hnext.length_le
  have hpos : 0 < chunk.length := List.length_pos_iff.mpr hsome
  have hfits := h.fits
  have hmax : maxFileBytes < 2^64 := by decide
  have htake : u.file.data.take (offset+chunk.length) = u.file.data.take offset++chunk := by
    rw [take_add,← List.prefix_iff_eq_take.mp hnext]
  have hwelcome : Welcome (u.config cfg) (cfg.clock (n+1)) (u.session cfg offset (cfg.clock n))
      ⟨u.caller,some offset.repr,some (some (cfg.digest chunk)),chunk⟩ := by
    refine ⟨h.admitted,?_,belongsTo_target _ _,h.timely n _ rfl,hsome,?_,checkSha256_digest h _ _ _⟩
    · have hparse : Text.parseUnsigned 64 offset.repr = some offset :=
        Text.parseUnsigned_repr 64 (by omega)
      simp only [parseOffset,hparse]
      rfl
    · simp only [Upload.session]
      omega
  have hsettle := settle_chunk (x := s.slot) (.ok ()) hwelcome (by rw [hslot]) (by rw [hslot])
    (by rw [hslot]; simp only [length_take]; omega) (by simp only [Upload.session]; omega)
  obtain ⟨s',hserve,hslot',hsent'⟩ := serve_of_leads (leads_of_settle hsettle (by omega) (by simp))
  refine ⟨s',hserve,?_,hsent'.trans hsent⟩
  rw [hslot',hslot,htake]
  rfl

lemma past_fails (hoffset : offset < 2^64) (hw : Past id offset w) :
    ∃ w', Fails (u.chunkOnce cfg id j offset chunk) k w w' ∧ Past id offset w' := by
  obtain ⟨before,s,n,rfl,rfl,hbeyond⟩ := hw
  have hparse : parseOffset (some offset.repr) = .ok offset := by
    simp only [parseOffset,Text.parseUnsigned_repr 64 hoffset]
  obtain ⟨y,e,hsettle,hy⟩ := @settle_beyond (u.config cfg) (cfg.clock n) s.slot
    ⟨u.caller,some offset.repr,some (some (cfg.digest chunk)),chunk⟩ offset hparse hbeyond
  obtain ⟨s',hserve,hslot',_⟩ := serve_of_leads (leads_of_settle hsettle (by omega) (by simp))
  exact ⟨_,fails_session _ _ _ _ hserve (.inr ⟨e,rfl⟩),before,s',n+1,rfl,rfl,hslot' ▸ hy⟩

/-- The first attempt at a chunk: the server takes it, and the client learns of it unless the answer
is lost. -/
lemma chunk_first (h : Ordinary cfg u) (hw : Ready cfg u old id offset w)
    (hsome : chunk ≠ []) (hnext : chunk <+: u.file.data.drop offset) :
    ∃ w', Ready cfg u old id (offset+chunk.length) w' ∧
      (cfg.lost j 0 = none → u.chunkOnce cfg id j offset chunk 0 w =
        some (w',.done (.received (offset+chunk.length)))) ∧
      (cfg.lost j 0 ≠ none → Fails (u.chunkOnce cfg id j offset chunk) 0 w w') := by
  obtain ⟨before,s,n,rfl,rfl,hold,hslot,hsent⟩ := hw
  obtain ⟨s',hserve,hslot',hsent'⟩ := serve_chunk h hslot hsent hsome hnext
  refine ⟨⟨before++[s'],n+2⟩,⟨before,s',n+1,rfl,rfl,hold,hslot',hsent'⟩,?_,?_⟩
  · intro hlost
    unfold Upload.chunkOnce
    rw [ask_session _ hserve,hlost]
    rfl
  · intro hlost
    exact fails_session _ _ _ _ hserve (.inl hlost)

lemma ready_past {next : ℕ} (hw : Ready cfg u old id next w) (hne : next ≠ offset) :
    Past id offset w := by
  obtain ⟨before,s,n,rfl,rfl,_,hslot,_⟩ := hw
  refine ⟨before,s,n+1,rfl,rfl,?_⟩
  intro sess hsess
  rw [hslot] at hsess
  cases hsess
  exact hne

variable {chunks : List Bytes}

lemma chunk_split (hflat : (chunk::chunks).flatten = u.file.data.drop offset) :
    chunk <+: u.file.data.drop offset ∧
      chunks.flatten = u.file.data.drop (offset+chunk.length) := by
  rw [flatten_cons] at hflat
  refine ⟨⟨_,hflat⟩,?_⟩
  rw [← drop_drop,← hflat,drop_left]

lemma offset_lt (hsome : chunk ≠ []) (hnext : chunk <+: u.file.data.drop offset) :
    offset < u.file.data.length := by
  have hpos : 0 < chunk.length := List.length_pos_iff.mpr hsome
  have hlength : chunk.length ≤ u.file.data.length-offset := by simpa using hnext.length_le
  omega

lemma sendChunks_next {w' : World}
    (hlt : offset < u.file.data.length) (hfirst : u.chunkOnce cfg id j offset chunk 0 w =
      some (w',.done (.received (offset+chunk.length)))) :
    u.sendChunks cfg id (chunk::chunks) j offset w =
      u.sendChunks cfg id chunks (j+1) (offset+chunk.length) w' := by
  have hnot : ¬offset+chunk.length < offset := by omega
  rw [Upload.sendChunks,if_pos hlt,attempts_done hfirst,proceed_ok]
  simp only [if_neg hnot]

lemma sendChunks_ok (h : Ordinary cfg u) (hw : Ready cfg u old id offset w)
    (hle : offset ≤ u.file.data.length) (hflat : chunks.flatten = u.file.data.drop offset)
    (hsome : ∀ c ∈ chunks, c ≠ []) (hnone : ∀ i < chunks.length, cfg.lost (j+i) 0 = none) :
    ∃ w', u.sendChunks cfg id chunks j offset w = some (w',.ok (j+chunks.length)) ∧
      Ready cfg u old id u.file.data.length w' := by
  induction chunks generalizing j offset w with
  | nil =>
    have hend : u.file.data.length ≤ offset := by simpa using hflat.symm
    obtain rfl : offset = u.file.data.length := by omega
    exact ⟨w,rfl,hw⟩
  | cons chunk chunks ih =>
    obtain ⟨hnext,hrest⟩ := chunk_split hflat
    have hchunk := hsome chunk mem_cons_self
    have hlength : chunk.length ≤ u.file.data.length-offset := by simpa using hnext.length_le
    obtain ⟨w₁,hw₁,hdone,_⟩ := @chunk_first cfg u w id j offset old chunk h hw hchunk hnext
    rw [sendChunks_next (offset_lt hchunk hnext) (hdone (hnone 0 (by simp)))]
    have hnone' : ∀ i < chunks.length, cfg.lost (j+1+i) 0 = none := by
      intro i hi
      rw [Nat.add_assoc,Nat.add_comm 1 i]
      exact hnone (i+1) (by simpa using hi)
    obtain ⟨w₂,hsend,hw₂⟩ := ih hw₁ (by omega) hrest
      (fun c hc => hsome c (mem_cons_of_mem chunk hc)) hnone'
    refine ⟨w₂,?_,hw₂⟩
    rw [hsend,length_cons]
    congr 3
    omega

variable {i : ℕ}

lemma sendChunks_error (h : Ordinary cfg u)
    (hw : Ready cfg u old id offset w) (hflat : chunks.flatten = u.file.data.drop offset)
    (hsome : ∀ c ∈ chunks, c ≠ []) (hi : i < chunks.length) (hlost : cfg.lost (j+i) 0 ≠ none) :
    ∃ w' e, u.sendChunks cfg id chunks j offset w = some (w',.error e) := by
  induction chunks generalizing j offset w i with
  | nil => cases hi
  | cons chunk chunks ih =>
    obtain ⟨hnext,hrest⟩ := chunk_split hflat
    have hchunk := hsome chunk mem_cons_self
    have hpos : 0 < chunk.length := List.length_pos_iff.mpr hchunk
    have hlt := offset_lt hchunk hnext
    obtain ⟨w₁,hw₁,hdone,hfails⟩ := @chunk_first cfg u w id j offset old chunk h hw hchunk hnext
    by_cases hfirst : cfg.lost j 0 = none
    · rw [sendChunks_next hlt (hdone hfirst)]
      cases i with
      | zero => exact absurd hfirst hlost
      | succ i =>
        refine ih (j := j+1) (i := i) hw₁ hrest
          (fun c hc => hsome c (mem_cons_of_mem chunk hc)) (by simpa using hi) ?_
        rwa [Nat.add_assoc,Nat.add_comm 1 i]
    · have hmax : maxFileBytes < 2^64 := by decide
      have hfits := h.fits
      have herror : ∃ w₂ e, attempts (u.chunkOnce cfg id j offset chunk)
          (u.purpose.service.client++"chunk failed after retries") 0 5 w = some (w₂,.error e) :=
        attempts_error_of_first (hfails hfirst) (ready_past hw₁ (by omega))
          (fun k v hv => past_fails (by omega) hv)
      obtain ⟨w₂,e,herror⟩ := herror
      refine ⟨w₂,e,?_⟩
      rw [Upload.sendChunks,if_pos hlt,herror,proceed_error]

/-! The end. -/

lemma gone_fails (hw : Gone id w) : ∃ w', Fails (u.completeOnce cfg id j) k w w' ∧ Gone id w' := by
  obtain ⟨before,s,n,rfl,rfl,hgone⟩ := hw
  obtain ⟨e,hsettle⟩ := @settle_gone (u.config cfg) (cfg.clock n) s.slot u.caller cfg.root hgone
  obtain ⟨s',hserve,hslot',_⟩ := serve_of_leads (leads_of_settle hsettle (by omega) (by simp))
  exact ⟨_,fails_session _ _ _ _ hserve (.inr ⟨e,rfl⟩),before,s',n+1,rfl,rfl,hslot' ▸ hgone⟩

/-- The first attempt to complete the session: the file is taken over, and the client learns of it
unless the answer is lost. -/
lemma complete_first (h : Ordinary cfg u) (hw : Ready cfg u old id u.file.data.length w) :
    ∃ w' done, w'.commits = old++[u.file.data] ∧ Gone id w' ∧
      (cfg.lost j 0 = none → u.completeOnce cfg id j 0 w = some (w',.done done)) ∧
      (cfg.lost j 0 ≠ none → Fails (u.completeOnce cfg id j) 0 w w') := by
  obtain ⟨before,s,n,rfl,rfl,hold,hslot,hsent⟩ := hw
  rw [take_length] at hslot
  have hfinished : Finished (u.config cfg) (cfg.clock (n+1)) u.caller cfg.root
      (u.session cfg u.file.data.length (cfg.clock n)) u.file.data :=
    ⟨h.admitted,h.configured,belongsTo_target _ _,h.timely n _ rfl,rfl,rfl,h.nonempty,h.fits,rfl⟩
  obtain ⟨y,done,sent',hleads,hgone,hcommitted⟩ := leads_complete hfinished
  rw [← hslot,← hsent] at hleads
  obtain ⟨s',hserve,hslot',hsent'⟩ := serve_of_leads hleads
  have hcommits : s'.commits = [u.file.data] := by
    rw [← hcommitted,Sys.commits,hslot',hsent']
  refine ⟨⟨before++[s'],n+2⟩,done,?_,⟨before,s',n+2,rfl,rfl,hslot' ▸ hgone⟩,?_,?_⟩
  · rw [World.commits,flatMap_append,hold,flatMap_singleton,hcommits]
  · intro hlost
    unfold Upload.completeOnce
    rw [ask_session _ hserve,hlost]
    rfl
  · intro hlost
    exact fails_session _ _ _ _ hserve (.inl hlost)

lemma chunks_flatten (cfg : Setting) (u : Upload) :
    (u.chunks cfg).flatten = u.file.data.drop 0 := by
  apply u.file.whole
  split_ifs with hzero
  · decide
  · exact Nat.pos_of_ne_zero hzero

lemma run_created (h : Ordinary cfg u) (w : World) :
    ∃ id w₁, Ready cfg u w.commits id 0 w₁ ∧ u.run cfg w =
      proceed (u.sendChunks cfg id (u.chunks cfg) 1 0 w₁) (fun j w =>
        attempts (u.completeOnce cfg id j)
          (u.purpose.service.client++"complete failed after retries") 0 5 w) := by
  obtain ⟨w₁,⟨id,chunkBytes,received⟩,hcreate,hbytes,hreceived,hready⟩ := @create_ok cfg u w h
    (u.purpose.service.client++"create failed after retries")
  dsimp only at hbytes hreceived hready
  refine ⟨id,w₁,hready,?_⟩
  rw [Upload.run,hcreate,proceed_ok]
  simp only [hreceived,hbytes,if_neg (h.named id),Nat.not_lt_zero,if_false,Upload.chunks]

lemma run_ok (h : Ordinary cfg u) (w : World)
    (hnone : ∀ j, 1 ≤ j → j ≤ (u.chunks cfg).length+1 → cfg.lost j 0 = none) :
    ∃ w' done, u.run cfg w = some (w',.ok done) ∧ w'.commits = w.commits++[u.file.data] := by
  obtain ⟨id,w₁,hready,hrun⟩ := run_created h w
  obtain ⟨w₂,hsend,hready₂⟩ := @sendChunks_ok cfg u w₁ id 1 0 w.commits (u.chunks cfg) h hready
    (Nat.zero_le _) (chunks_flatten cfg u) (u.file.nonempty _ _)
    (fun i hi => hnone (1+i) (by omega) (by omega))
  obtain ⟨w₃,done,hcommits,_,hdone,_⟩ := @complete_first cfg u w₂ id (1+(u.chunks cfg).length)
    w.commits h hready₂
  refine ⟨w₃,done,?_,hcommits⟩
  rw [hrun,hsend,proceed_ok]
  exact attempts_done (hdone (hnone _ (by omega) (by omega)))

lemma run_error (h : Ordinary cfg u) (w : World) (hj : 1 ≤ j) (hle : j ≤ (u.chunks cfg).length+1)
    (hlost : cfg.lost j 0 ≠ none) : ∃ w' e, u.run cfg w = some (w',.error e) := by
  obtain ⟨id,w₁,hready,hrun⟩ := run_created h w
  by_cases hchunk : ∃ i < (u.chunks cfg).length, cfg.lost (1+i) 0 ≠ none
  · obtain ⟨i,hi,hlost⟩ := hchunk
    obtain ⟨w₂,e,hsend⟩ := sendChunks_error h hready (chunks_flatten cfg u)
        (u.file.nonempty _ _) hi hlost
    refine ⟨w₂,e,?_⟩
    rw [hrun,hsend,proceed_error]
  · have hnone : ∀ i < (u.chunks cfg).length, cfg.lost (1+i) 0 = none :=
      fun i hi => by_contra (fun hl => hchunk ⟨i,hi,hl⟩)
    -- so it is the answer to the last request
    have hlast : j = 1+(u.chunks cfg).length := by
      by_contra hne
      apply hlost
      have hnone' := hnone (j-1) (by omega)
      rwa [Nat.add_sub_cancel' hj] at hnone'
    obtain ⟨w₂,hsend,hready₂⟩ := sendChunks_ok h hready (Nat.zero_le _) (chunks_flatten cfg u)
      (u.file.nonempty _ _) hnone
    obtain ⟨w₃,done,_,hgone,_,hfails⟩ := @complete_first cfg u w₂ id j w.commits h hready₂
    rw [hrun,hsend,proceed_ok,← hlast]
    exact attempts_error_of_first (hfails hlost) hgone (fun k v hv => gone_fails hv)

/-- For every file within the limits, every chunk size, every way of reading the file and every
pattern of lost answers: the upload succeeds, and the server has taken over the file once and
nothing else, exactly when the first answers to every chunk and to the request to complete the
session come back. Lost answers to the creation do no harm. -/
theorem resumable_upload_iff (cfg : Setting) (u : Upload) (w : World) (h : Ordinary cfg u) :
    (∃ w' done, u.run cfg w = some (w',.ok done) ∧ w'.commits = w.commits++[u.file.data]) ↔
      ∀ j, 1 ≤ j → j ≤ (u.chunks cfg).length+1 → cfg.lost j 0 = none := by
  constructor
  · rintro ⟨w',done,hrun,_⟩ j hj hle
    by_contra hlost
    obtain ⟨w₁,e,herror⟩ := run_error h w hj hle hlost
    rw [hrun] at herror
    cases herror
  · intro hnone
    exact run_ok h w hnone

/-! A file of two bytes, each of which is read on its own. -/

lemma flatten_singletons (data : Bytes) : (data.map (fun b => [b])).flatten = data := by
  rw [← flatMap_def]
  exact flatMap_singleton' data

lemma length_of_mem_singletons {p : Bytes} (h : p ∈ data.map (fun b => [b])) : p.length = 1 := by
  obtain ⟨b,_,rfl⟩ := List.mem_map.mp h
  rfl

def LocalFile.byBytes (data : Bytes) : LocalFile where
  data := data
  reads _ offset := (data.drop offset).map (fun b => [b])
  whole _ offset _ := flatten_singletons (data.drop offset)
  nonempty _ _ _ hp := ne_nil_of_length_eq_add_one (length_of_mem_singletons hp)
  fits _ _ hbuffer _ hp := (length_of_mem_singletons hp).trans_le hbuffer

def sampleUpload : Service → Upload
  | .storage => ⟨.storage "a.txt",⟨true,"app"⟩,.byBytes [1,2]⟩
  | .deploy => ⟨.deploy "1.0" none,⟨true,"app"⟩,.byBytes [1,2]⟩

/-- The first `n` answers to request `j` are lost. -/
def sampleLost (j n : ℕ) (i k : ℕ) : Option SendError :=
  if i = j && k < n then some ⟨"error sending request",some "operation timed out",false,
    true⟩ else none

def sampleSetting (j n : ℕ) : Setting where
  ttlSecs := 3600
  digest data := String.ofList (List.replicate 64 (if data.length % 2 = 0 then '0' else '1'))
  limit := 100
  chunkBytes := 1
  root := .directory
  uuid _ := "5e55"
  clock _ := 0
  sessionsUrl := "http://host/api/v1/storage/upload-sessions"
  lost := sampleLost j n

lemma sampleLost_bounded (hn : n ≤ 4) : ∃ k < 5, sampleLost j n i k = none :=
  ⟨4,by decide,by simp [sampleLost,hn]⟩

lemma sampleLost_timeouts {e : SendError} (h : sampleLost j n i k = some e) :
    e.isTimeout = true ∧ e.isConnect = false := by
  unfold sampleLost at h
  split_ifs at h
  cases h
  exact ⟨rfl,rfl⟩

lemma sample_ordinary (v : Service) (hn : n ≤ 4) :
    Ordinary (sampleSetting j n) (sampleUpload v) where
  admitted := by cases v <;> decide +kernel
  configured := by cases v <;> rfl
  accepted := by cases v <;> decide +kernel
  nonempty := by cases v <;> decide
  limit := by cases v <;> simp [sampleUpload,sampleSetting,LocalFile.byBytes]
  fits := by cases v <;> decide
  hex data := by
    simp only [sampleSetting]
    split_ifs <;> decide +kernel
  lower data := by
    simp only [sampleSetting]
    split_ifs <;> decide +kernel
  named _ := by
    change Text.trim "5e55" ≠ ""
    decide +kernel
  timely _ sess hclock := by
    refine live_now ?_ sess 0 hclock
    change 0 ≤ (3600 : UInt64).toInt64.toInt
    decide
  bounded _ := sampleLost_bounded hn
  timeouts _ _ _ h := sampleLost_timeouts h

theorem resumable_upload_created_again :
    ∃ w' done, (sampleUpload .storage).run (sampleSetting 0 4) ⟨[],0⟩ = some (w',.ok done) ∧
      w'.commits = [[1,2]] := by
  refine (resumable_upload_iff (sampleSetting 0 4) (sampleUpload .storage) ⟨[],0⟩
    (sample_ordinary .storage (by decide))).mpr ?_
  intro j hj _
  have hne : j ≠ 0 := by omega
  simp [sampleSetting,sampleLost,hne]

theorem resumable_upload_gives_up :
    (∃ w' e, (sampleUpload .storage).run (sampleSetting 1 1) ⟨[],0⟩ = some (w',.error e)) ∧
    (∃ w' e, (sampleUpload .storage).run (sampleSetting 3 1) ⟨[],0⟩ = some (w',.error e)) ∧
    (∃ w' e, (sampleUpload .deploy).run (sampleSetting 1 1) ⟨[],0⟩ = some (w',.error e)) ∧
    ∃ w' e, (sampleUpload .deploy).run (sampleSetting 3 1) ⟨[],0⟩ = some (w',.error e) :=
  ⟨run_error (j := 1) (sample_ordinary .storage (by decide)) _ (by decide) (by decide) (by decide),
    run_error (j := 3) (sample_ordinary .storage (by decide)) _ (by decide) (by decide) (by decide),
    run_error (j := 1) (sample_ordinary .deploy (by decide)) _ (by decide) (by decide) (by decide),
    run_error (j := 3) (sample_ordinary .deploy (by decide)) _ (by decide) (by decide) (by decide)⟩

end PirateServer.UploadSession
