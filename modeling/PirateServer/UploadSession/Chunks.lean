import PirateServer.UploadSession.Alone

/-! The temporary file of an upload session holds the chunks that were answered with success, as
long as no two chunks are on their way at the same time and none is written in part. -/
namespace PirateServer.UploadSession
open Lib Census List

/-- A chunk passed the tests when `received` bytes were there. -/
structure Passed.Sound (received : ℕ) (c : Passed) : Prop where
  offset : c.offset = received
  next : c.next = saturatingAdd received c.body.length
  body : c.body ≠ []

/-- A chunk has brought `tail` into the file. -/
def Task.Fits (received : ℕ) (tail : Bytes) : Task → Prop
  | opening c => c.Sound received ∧ tail = []
  | writing c rest => c.Sound received ∧ tail++rest = c.body
  | updating c => c.Sound received ∧ tail = c.body
  | _ => False

/-- What the file is, beyond the chunks answered with success: nothing, or what the only chunk on
its way has brought. -/
inductive Filled (s : Sys) (received : ℕ) : Prop
  | quiet (idle : ∀ t ∈ s.tasks, t.busy = false) (data : s.slot.data = s.accepted.flatten)
  | one {i : ℕ} {t : Task} {tail : Bytes} (here : s.tasks[i]? = some t)
      (alone : ∀ (j : ℕ) (u : Task), s.tasks[j]? = some u → u.busy = true → j = i)
      (fits : t.Fits received tail) (data : s.slot.data = s.accepted.flatten++tail)

/-- The state of a session that is in the table. -/
structure Tidy (s : Sys) (sess : Session) : Prop where
  place : s.slot.place = .temporary
  kept : ∀ t ∈ s.tasks, t.closes = false
  received : sess.receivedBytes = s.accepted.flatten.length
  filled : Filled s sess.receivedBytes
  size : s.slot.data.length ≤ maxFileBytes

variable {cfg : Config} {s s' : Sys} {sess : Session} {i : ℕ} {t t' : Task} {x : Slot} {a : Act}

lemma mem_set_cases {l : List Task} {u v : Task} (h : u ∈ l.set i v) : u = v ∨ u ∈ l := by
  rcases mem_or_eq_of_mem_set h with h | h
  · exact .inr h
  · exact .inl h

lemma Task.Fits.busy {received : ℕ} {tail : Bytes} (h : t.Fits received tail) : t.busy = true := by
  cases t with
  | opening c | writing c rest | updating c => rfl
  | _ => cases h

variable {received : ℕ}

lemma Filled.of_busy (h : Filled s received) (ht : s.tasks[i]? = some t)
    (hbusy : t.busy = true) : ∃ tail, t.Fits received tail ∧
      s.slot.data = s.accepted.flatten++tail ∧
      ∀ j u, s.tasks[j]? = some u → u.busy = true → j = i := by
  cases h with
  | quiet idle data =>
    rw [idle t (mem_of_getElem? ht)] at hbusy
    cases hbusy
  | one here alone fits data =>
    obtain rfl := alone i t ht hbusy
    cases ht.symm.trans here
    exact ⟨_,fits,data,alone⟩

lemma Filled.data_of_idle (h : Filled s received)
    (hidle : ∀ t ∈ s.tasks, t.busy = false) : s.slot.data = s.accepted.flatten := by
  cases h with
  | quiet idle data => exact data
  | one here alone fits data =>
    have hbusy := hidle _ (mem_of_getElem? here)
    rw [fits.busy] at hbusy
    cases hbusy

lemma idle_set (alone : ∀ j u, s.tasks[j]? = some u → u.busy = true → j = i)
    (ht' : t'.busy = false) : ∀ u ∈ s.tasks.set i t', u.busy = false := by
  intro u hu
  obtain ⟨j,hj⟩ := List.mem_iff_getElem?.mp hu
  rcases getElem?_set_cases hj with ⟨_,rfl⟩ | ⟨hne,hold⟩
  · exact ht'
  · by_contra hbusy
    exact hne (alone j u hold (by simpa using hbusy))

lemma alone_set (alone : ∀ j u, s.tasks[j]? = some u → u.busy = true → j = i) :
    ∀ j u, (s.tasks.set i t')[j]? = some u → u.busy = true → j = i := by
  intro j u hj hbusy
  rcases getElem?_set_cases hj with ⟨rfl,_⟩ | ⟨_,hold⟩
  · rfl
  · exact alone j u hold hbusy

lemma getElem?_set_here (ht : s.tasks[i]? = some t) : (s.tasks.set i t')[i]? = some t' :=
  getElem?_set_self (List.getElem?_eq_some_iff.mp ht).1

lemma Filled.set_idle (h : Filled s received) (ht : s.tasks[i]? = some t)
    (hidle : t.busy = false) (hidle' : t'.busy = false) :
    Filled { s with tasks := s.tasks.set i t' } received := by
  cases h with
  | quiet idle data =>
    refine .quiet (fun u hu => ?_) data
    rcases mem_set_cases hu with rfl | hu
    · exact hidle'
    · exact idle u hu
  | @one k u tail here alone fits data =>
    have hne : k ≠ i := by
      rintro rfl
      cases ht.symm.trans here
      rw [fits.busy] at hidle
      cases hidle
    refine .one (i := k) (t := u) ?_ (fun j v hj hbusy => ?_) fits data
    · rw [getElem?_set_ne hne.symm]
      exact here
    · rcases getElem?_set_cases hj with ⟨_,rfl⟩ | ⟨_,hold⟩
      · rw [hidle'] at hbusy
        cases hbusy
      · exact alone j v hold hbusy

lemma Tidy.join {r : Request} (h : Tidy s sess) :
    Tidy { s with tasks := s.tasks++[.arrived r] } sess := by
  refine ⟨h.place,fun u hu => ?_,h.received,?_,h.size⟩
  · rcases List.mem_append.mp hu with hu | hu
    · exact h.kept u hu
    · rw [List.mem_singleton.mp hu]
      rfl
  · cases h.filled with
    | quiet idle data =>
      refine .quiet (fun u hu => ?_) data
      rcases List.mem_append.mp hu with hu | hu
      · exact idle u hu
      · rw [List.mem_singleton.mp hu]
        rfl
    | one here alone fits data =>
      have hlt := (List.getElem?_eq_some_iff.mp here).1
      refine .one ((getElem?_append_left hlt).trans here) (fun j u hj hbusy => ?_) fits data
      rcases getElem?_concat_cases hj with hold | ⟨_,rfl⟩
      · exact alone j u hold hbusy
      · cases hbusy

lemma kept_set (h : ∀ u ∈ s.tasks, u.closes = false) (ht' : t'.closes = false) :
    ∀ u ∈ s.tasks.set i t', u.closes = false := by
  intro u hu
  rcases mem_set_cases hu with rfl | hu
  · exact ht'
  · exact h u hu

lemma checkChunk_ok {offset next : ℕ} {r : ChunkRequest}
    (h : checkChunk cfg sess offset r = .ok next) :
    offset = sess.receivedBytes ∧ r.body ≠ [] ∧ next = saturatingAdd offset r.body.length ∧
      next ≤ sess.fileBytes := by
  simp only [checkChunk] at h
  split_ifs at h with hoffset hbody hfits
  cases hsha : checkSha256 cfg r with
  | error e =>
    rw [hsha] at h
    cases h
  | ok u =>
    rw [hsha] at h
    cases h
    exact ⟨not_not.mp hoffset,hbody,rfl,not_lt.mp hfits⟩

lemma waits_not_busy (h : t.waits = true) : t.busy = false := by
  cases t <;> first | rfl | cases h

lemma waits_not_closes (h : t.waits = true) : t.closes = false := by
  cases t <;> first | rfl | cases h

lemma acceptedBy_eq_nil (h : ∀ c, t ≠ .updating c) : t.acceptedBy t' = [] := by
  cases t with
  | updating c => exact absurd rfl (h c)
  | _ => rfl

lemma Tidy.set_idle (h : Tidy s sess) (ht : s.tasks[i]? = some t) (hidle : t.waits = true)
    (hidle' : t'.waits = true) : Tidy (s.turn i t s.slot t') sess := by
  have hsame : (s.turn i t s.slot t').accepted = s.accepted := by
    have hnil : t.acceptedBy t' = [] := acceptedBy_eq_nil (by rintro c rfl; cases hidle)
    simp [Sys.turn,hnil]
  have hfilled := h.filled.set_idle ht (waits_not_busy hidle) (waits_not_busy hidle')
  refine ⟨h.place,kept_set h.kept (waits_not_closes hidle'),?_,?_,h.size⟩
  · rw [hsame]
    exact h.received
  · cases hfilled with
    | quiet idle data => exact .quiet idle (by rw [hsame]; exact data)
    | one here alone fits data => exact .one here alone fits (by rw [hsame]; exact data)

lemma Tidy.set_busy (tail : Bytes) (h : Tidy s sess) (ht : s.tasks[i]? = some t)
    (alone : ∀ j u, s.tasks[j]? = some u → u.busy = true → j = i) (hnil : t.acceptedBy t' = [])
    (hfits : t'.Fits sess.receivedBytes tail) (hplace : x.place = s.slot.place)
    (hdata : x.data = s.accepted.flatten++tail) (hsize : x.data.length ≤ maxFileBytes) :
    Tidy (s.turn i t x t') sess := by
  have hsame : (s.turn i t x t').accepted = s.accepted := by simp [Sys.turn,hnil]
  have hkept : t'.closes = false := by
    cases t' with
    | opening c | writing c rest | updating c => rfl
    | _ => cases hfits
  refine ⟨hplace.trans h.place,kept_set h.kept hkept,?_,?_,hsize⟩
  · rw [hsame]
    exact h.received
  · refine .one (getElem?_set_here ht) (alone_set alone) hfits ?_
    rw [hsame]
    exact hdata

lemma Tidy.set_over (body : Bytes) {sess' : Session} (h : Tidy s sess)
    (alone : ∀ j u, s.tasks[j]? = some u → u.busy = true → j = i) {answer : Answer}
    (hflat : (t.acceptedBy (.answered answer)).flatten = body) (hplace : x.place = s.slot.place)
    (hreceived : sess'.receivedBytes = sess.receivedBytes+body.length)
    (hdata : x.data = s.accepted.flatten++body) (hsize : x.data.length ≤ maxFileBytes) :
    Tidy (s.turn i t x (.answered answer)) sess' := by
  have hsame : (s.turn i t x (.answered answer)).accepted.flatten = s.accepted.flatten++body := by
    simp [Sys.turn,hflat]
  refine ⟨hplace.trans h.place,kept_set h.kept rfl,?_,.quiet (idle_set alone rfl) ?_,hsize⟩
  · rw [hsame,length_append,← h.received]
    exact hreceived
  · rw [hsame]
    exact hdata

lemma tidy_turn (hI : ∀ sess, s.slot.session = some sess → Tidy s sess) (ht : s.tasks[i]? = some t)
    (hturn : Turn cfg s.slot a t x t') (hok : s.orderly cfg (.act i a) = true)
    (hsess : x.session = some sess) : Tidy (s.turn i t x t') sess := by
  have hmem : t ∈ s.tasks := mem_of_getElem? ht
  cases hturn with
  | wait before after fails => exact (hI sess hsess).set_idle ht before after
  | dismiss before after fails | take found whole looked => cases hsess
  | pass found passed body looked =>
    have h := hI sess hsess
    cases hsess.symm.trans found
    obtain ⟨hoffset,hbody,hnext,_⟩ := checkChunk_ok passed
    have hquiet : ∀ u ∈ s.tasks, u.busy = false := by
      simpa [Sys.orderly,ht,looked,Task.busy] using hok
    have halone : ∀ j u, s.tasks[j]? = some u → u.busy = true → j = i := by
      intro j u hj hbusy
      rw [hquiet u (mem_of_getElem? hj)] at hbusy
      cases hbusy
    have hdata : s.slot.data = s.accepted.flatten++[] := by
      rw [append_nil]
      exact h.filled.data_of_idle hquiet
    refine h.set_busy _ ht halone rfl ⟨⟨hoffset,?_,?_⟩,rfl⟩ rfl hdata h.size
    · rw [hnext,hoffset,body]
    · rw [body]
      exact hbody
  | start there =>
    have h := hI sess hsess
    obtain ⟨tail,hfits,hdata,halone⟩ := h.filled.of_busy ht rfl
    obtain ⟨hsound,rfl⟩ := hfits
    exact h.set_busy _ ht halone rfl ⟨hsound,rfl⟩ rfl hdata h.size
  | @write n c rest more fits =>
    have h := hI sess hsess
    obtain ⟨tail,⟨hsound,htail⟩,hdata,halone⟩ := h.filled.of_busy ht rfl
    refine h.set_busy (tail++rest.take (n+1)) ht halone rfl ⟨hsound,?_⟩ rfl ?_ ?_
    · rw [append_assoc,take_append_drop]
      exact htail
    · rw [hdata,append_assoc]
    · rw [length_append]
      exact fits
  | sync =>
    have h := hI sess hsess
    obtain ⟨tail,⟨hsound,htail⟩,hdata,halone⟩ := h.filled.of_busy ht rfl
    rw [append_nil] at htail
    exact h.set_busy _ ht halone rfl ⟨hsound,htail⟩ rfl hdata h.size
  | @quit error t e before =>
    have h := hI sess hsess
    have hbusy : t.busy = true := by
      rcases before with ⟨c,rfl⟩ | ⟨c,rest,rfl⟩
      · rfl
      · rfl
    obtain ⟨tail,hfits,hdata,halone⟩ := h.filled.of_busy ht hbusy
    -- nothing of the chunk has been written
    have htail : tail = [] := by
      rcases before with ⟨c,rfl⟩ | ⟨c,rest,rfl⟩
      · exact hfits.2
      · have hrest : rest = c.body := by simpa [Sys.orderly,ht] using hok
        have happend := hfits.2
        rw [hrest] at happend
        simpa using happend
    have hnil : t.acceptedBy (.answered (.error e)) = [] := acceptedBy_eq_nil (by
      rintro c rfl
      rcases before with ⟨d,hd⟩ | ⟨d,rest,hd⟩
      · cases hd
      · cases hd)
    refine h.set_over [] halone ?_ rfl rfl ?_ h.size
    · rw [hnil]
      rfl
    · rw [hdata,htail]
  | late differ =>
    have h := hI sess hsess
    obtain ⟨tail,⟨hsound,_⟩,_,_⟩ := h.filled.of_busy ht rfl
    exact absurd hsound.offset.symm (differ sess hsess)
  | @update now c old found same =>
    have h := hI old found
    obtain ⟨tail,⟨hsound,htail⟩,hdata,halone⟩ := h.filled.of_busy ht rfl
    cases hsess
    rw [htail] at hdata
    refine h.set_over c.body halone ?_ rfl ?_ hdata h.size
    · simp [Task.acceptedBy]
    · have hlen : old.receivedBytes+c.body.length ≤ maxFileBytes := by
        rw [h.received,← length_append,← hdata]
        exact h.size
      rw [hsound.next,saturatingAdd]
      exact min_eq_left (hlen.trans (by decide))
  | hash | read | check | commit | rename | finish | stream | send | last | cut | deliver =>
    exact absurd ((hI sess hsess).kept _ hmem) (by simp [Task.closes])
  | abandon before after => exact absurd ((hI sess hsess).kept _ hmem) (by simp [before])
  | unlink gone move =>
    have hkept : s.slot.session = some sess := by
      rcases gone with rfl | rfl
      all_goals exact hsess
    have hcloses : t.closes = true := by
      rcases move with ⟨r,rfl,_⟩ | ⟨a,rfl,_⟩
      · rfl
      · rfl
    exact absurd ((hI sess hkept).kept _ hmem) (by simp [hcloses])

lemma tidy_step {l : Label} (hI : ∀ sess, s.slot.session = some sess → Tidy s sess)
    (hok : s.orderly cfg l = true) (h : s.step cfg l = some s') :
    ∀ sess, s'.slot.session = some sess → Tidy s' sess := by
  intro sess hsess
  rcases step_turn h with ⟨r,rfl,rfl⟩ | ⟨i,a,t,x,t',rfl,ht,hturn,rfl⟩
  · exact (hI sess hsess).join
  · exact tidy_turn hI ht hturn hok hsess

/-- What a session was created for does not change. -/
structure Session.Same (sess sess' : Session) : Prop where
  target : sess'.target = sess.target
  fileBytes : sess'.fileBytes = sess.fileBytes
  fileSha256 : sess'.fileSha256 = sess.fileSha256

lemma same_turn {sess' : Session} (hturn : Turn cfg s.slot a t x t')
    (hsess : x.session = some sess') :
    ∃ sess, s.slot.session = some sess ∧ sess.Same sess' := by
  cases hturn with
  | update found same =>
    cases hsess
    exact ⟨_,found,rfl,rfl,rfl⟩
  | dismiss | take => cases hsess
  | unlink gone move =>
    rcases gone with rfl | rfl
    all_goals exact ⟨sess',hsess,rfl,rfl,rfl⟩
  | _ => exact ⟨sess',hsess,rfl,rfl,rfl⟩

lemma same_step {l : Label} (hI : ∀ sess', s.slot.session = some sess' → sess.Same sess')
    (h : s.step cfg l = some s') : ∀ sess', s'.slot.session = some sess' → sess.Same sess' := by
  intro sess' hsess
  rcases step_turn h with ⟨r,rfl,rfl⟩ | ⟨i,a,t,x,t',rfl,ht,hturn,rfl⟩
  · exact hI sess' hsess
  · obtain ⟨old,hold,hsame⟩ := same_turn hturn hsess
    have hI := hI old hold
    exact ⟨hsame.target.trans hI.target,hsame.fileBytes.trans hI.fileBytes,
      hsame.fileSha256.trans hI.fileSha256⟩

/-! The rest of the file can always be sent. -/

lemma live_now (httl : 0 ≤ cfg.ttlSecs.toInt64.toInt) (sess : Session) (now : Int64)
    (hnow : sess.updatedAtMs = now) : sessionIsExpired cfg sess now = false := by
  have hzero : Wrapping.saturate (now.toInt-sess.updatedAtMs.toInt) = 0 := by
    rw [hnow,sub_self]
    decide
  have hpos : 0 ≤ Wrapping.saturate (cfg.ttlSecs.toInt64.toInt*1000) := by
    unfold Wrapping.saturate
    omega
  unfold sessionIsExpired
  rw [hzero]
  simpa using hpos

lemma exists_finish {caller : Caller} {now : Int64} {pieces : List Bytes}
    (hcaller : admitCaller cfg.service caller = .ok ()) (httl : 0 ≤ cfg.ttlSecs.toInt64.toInt)
    (hI : ∀ sess, s.slot.session = some sess → Tidy s sess) (hsess : s.slot.session = some sess)
    (hidle : ∀ t ∈ s.tasks, t.busy = false)
    (hbelongs : sess.target.belongsTo caller.projectId = true)
    (hlive : sessionIsExpired cfg sess now = false) (hmax : sess.fileBytes ≤ maxFileBytes)
    (hpieces : ∀ p ∈ pieces, p ≠ [])
    (hfits : sess.receivedBytes+pieces.flatten.length ≤ sess.fileBytes) :
    ∃ s' sess', Run (Sys.step cfg) (fun s l => s.orderly cfg l = true) s s' ∧
      s'.slot.data = s.slot.data++pieces.flatten ∧ s'.slot.session = some sess' ∧
      sess'.receivedBytes = sess.receivedBytes+pieces.flatten.length := by
  induction pieces generalizing s sess with
  | nil => exact ⟨s,sess,.refl s,by simp,hsess,by simp⟩
  | cons p pieces ih =>
    have h := hI sess hsess
    rw [flatten_cons,length_append] at hfits
    have hdata : s.slot.data.length = sess.receivedBytes := by
      rw [h.filled.data_of_idle hidle,h.received]
    have hmax' : maxFileBytes < 2^64 := by decide
    let r : ChunkRequest := ⟨caller,some sess.receivedBytes.repr,none,p⟩
    have hwelcome : Welcome cfg now sess r := by
      refine ⟨hcaller,?_,hbelongs,hlive,hpieces p mem_cons_self,by simp only [r]; omega,rfl⟩
      have hparse : Text.parseUnsigned 64 sess.receivedBytes.repr = some sess.receivedBytes :=
        Text.parseUnsigned_repr 64 (by omega)
      simp only [r,parseOffset,hparse]
    have hsettle := settle_chunk (.ok ()) hwelcome hsess h.place
        (by simp only [r]; omega) (by omega)
    obtain ⟨s₁,hrun,hslot,htasks⟩ := settle_request hsettle hidle
    have hidle₁ : ∀ t ∈ s₁.tasks, t.busy = false := by
      intro t ht
      rw [htasks] at ht
      rcases List.mem_append.mp ht with ht | ht
      · exact hidle t ht
      · rw [List.mem_singleton.mp ht]
        rfl
    have hI₁ : ∀ sess, s₁.slot.session = some sess → Tidy s₁ sess :=
      hrun.invariant (I := fun s => ∀ sess, s.slot.session = some sess → Tidy s sess)
        (fun _ _ _ hI hok hs => tidy_step hI hok hs) hI
    have hsess₁ : s₁.slot.session = some { sess with
        receivedBytes := sess.receivedBytes+p.length, updatedAtMs := now } := by rw [hslot]
    obtain ⟨s₂,sess₂,hrun₂,hdata₂,hsess₂,hreceived₂⟩ := ih hI₁ hsess₁ hidle₁
      hbelongs (live_now httl _ now rfl) hmax (fun q hq => hpieces q (mem_cons_of_mem _ hq))
      (by simp only; omega)
    refine ⟨s₂,sess₂,hrun.trans hrun₂,?_,hsess₂,?_⟩
    · rw [hdata₂,hslot,flatten_cons,append_assoc]
    · rw [hreceived₂,flatten_cons,length_append]
      simp only
      omega

/-- In every run of requests for one session with no two chunks on their way at once and no
operation that fails inside a chunk: when no chunk is on its way, the temporary file is what the
successful chunks have brought, its length is the reported one, and the rest can be sent chunk by
chunk at the reported offset, in whatever pieces. -/
theorem session_file_is_accepted (cfg : Config) (target : Target) (fileBytes : ℕ)
    (fileSha256 : String) (created : Int64) (s : Sys) (sess : Session)
    (h : Run (Sys.step cfg) (fun s l => s.orderly cfg l = true)
      (.create target fileBytes fileSha256 created) s)
    (hsess : s.slot.session = some sess) (hidle : ∀ t ∈ s.tasks, t.busy = false) :
    s.slot.place = .temporary ∧ s.slot.data = s.accepted.flatten ∧
      s.slot.data.length = sess.receivedBytes ∧
      ∀ (caller : Caller) (now : Int64) (pieces : List Bytes),
        admitCaller cfg.service caller = .ok () →
        target.belongsTo caller.projectId = true → 0 ≤ cfg.ttlSecs.toInt64.toInt →
        sessionIsExpired cfg sess now = false → fileBytes ≤ maxFileBytes →
        (∀ p ∈ pieces, p ≠ []) → s.slot.data.length+pieces.flatten.length = fileBytes →
        ∃ (s' : Sys) (sess' : Session), Run (Sys.step cfg)
          (fun s l => s.orderly cfg l = true) s s' ∧
          s'.slot.data = s.slot.data++pieces.flatten ∧ s'.slot.session = some sess' ∧
          sess'.receivedBytes = fileBytes := by
  have hI : ∀ sess, s.slot.session = some sess → Tidy s sess := by
    refine h.invariant (I := fun s => ∀ sess, s.slot.session = some sess → Tidy s sess)
      (fun _ _ _ hI hok hs => tidy_step hI hok hs) ?_
    intro sess hnew
    cases hnew
    exact ⟨rfl,by simp [Sys.create],rfl,.quiet (by simp [Sys.create]) rfl,Nat.zero_le _⟩
  have hsame : (⟨target,fileBytes,fileSha256,0,created⟩ : Session).Same sess := by
    refine h.invariant (I := fun s => ∀ sess, s.slot.session = some sess →
      (⟨target,fileBytes,fileSha256,0,created⟩ : Session).Same sess)
      (fun _ _ _ hI _ hs => same_step hI hs) ?_ sess hsess
    intro sess hnew
    cases hnew
    exact ⟨rfl,rfl,rfl⟩
  have ht := hI sess hsess
  have hdata : s.slot.data = s.accepted.flatten := ht.filled.data_of_idle hidle
  have hlen : s.slot.data.length = sess.receivedBytes := by rw [hdata,ht.received]
  refine ⟨ht.place,hdata,hlen,?_⟩
  intro caller now pieces hcaller hbelongs httl hlive hmax hpieces hwhole
  obtain ⟨s',sess',hrun,hdata',hsess',hreceived⟩ := exists_finish hcaller httl hI hsess hidle
    (hsame.target ▸ hbelongs) hlive (hsame.fileBytes ▸ hmax) hpieces
    (by rw [← hlen,hwhole,hsame.fileBytes])
  exact ⟨s',sess',hrun,hdata',hsess',by rw [hreceived,← hlen,hwhole]⟩

/-! A session for three bytes. -/

def sampleConfig (v : Service) : Config := ⟨v,3600,fun data => (data.map UInt8.toNat).sum.repr⟩

def sampleTarget : Target := .storage "a.txt"

def sampleChunk (offset : String) (body : Bytes) : Request :=
  .chunk ⟨⟨true,"app"⟩,some offset,none,body⟩

/-- Two bytes have come. -/
def sampleSteps : List Label :=
  [.request (sampleChunk "0" [1,2]),.act 0 (.lock 5),.act 0 (.lock 5),.act 0 (.file (.ok 0)),
    .act 0 (.file (.ok 0)),.act 0 (.file (.ok 5)),.act 0 (.file (.ok 0)),.act 0 (.lock 6)]

theorem session_file_is_accepted_two_bytes :
    ∃ s sess, Run (Sys.step (sampleConfig .storage))
      (fun s l => s.orderly (sampleConfig .storage) l = true)
        (.create sampleTarget 3 "6" 0) s ∧ s.slot.session = some sess ∧ s.accepted = [[1,2]] ∧
      s.slot.data = s.accepted.flatten ∧ s.slot.data.length = sess.receivedBytes := by
  have hexists : ∃ s, Run (Sys.step (sampleConfig .storage))
      (fun s l => s.orderly (sampleConfig .storage) l = true) (.create sampleTarget 3 "6" 0) s ∧
      s.accepted = [[1,2]] ∧ (∀ t ∈ s.tasks, t.busy = false) ∧ s.slot.session.isSome = true :=
    exists_run sampleSteps (by decide +kernel)
  obtain ⟨s,hrun,haccepted,hidle,hsome⟩ := hexists
  obtain ⟨sess,hsess⟩ := Option.isSome_iff_exists.mp hsome
  obtain ⟨_,hdata,hlength,_⟩ := session_file_is_accepted
      (sampleConfig .storage) sampleTarget 3 "6" 0 s
    sess hrun hsess hidle
  exact ⟨s,sess,hrun,hsess,haccepted,hdata,hlength⟩

/-- Two chunks at the same offset are on their way at the same time; one of them is answered with
success, and what the other has brought is in the file as well. -/
def overlappingSteps : List Label :=
  [.request (sampleChunk "0" [1,2]),.request (sampleChunk "0" [1,2]),.act 0 (.lock 5),
    .act 1 (.lock 5),
    .act 0 (.lock 5),.act 1 (.lock 5),.act 0 (.file (.ok 0)),.act 1 (.file (.ok 0)),
    .act 0 (.file (.ok 5)),.act 1 (.file (.ok 5)),.act 0 (.file (.ok 0)),.act 1 (.file (.ok 0)),
    .act 0 (.lock 6),.act 1 (.lock 6)]

def partialSteps : List Label :=
  [.request (sampleChunk "0" [1,2]),.act 0 (.lock 5),.act 0 (.lock 5),.act 0 (.file (.ok 0)),
    .act 0 (.file (.ok 0)),.act 0 (.file (.error "No space left on device (os error 28)"))]

theorem session_file_differs :
    (∃ s, Run (Sys.step (sampleConfig .storage)) anyStep (.create sampleTarget 3 "6" 0) s ∧
      (∀ t ∈ s.tasks, t.busy = false) ∧ s.slot.session.map (·.receivedBytes) = some 2 ∧
      s.accepted = [[1,2]] ∧ s.slot.data = [1,2,1,2]) ∧
    ∃ s, Run (Sys.step (sampleConfig .storage)) anyStep (.create sampleTarget 3 "6" 0) s ∧
      (∀ t ∈ s.tasks, t.busy = false) ∧ s.slot.session.map (·.receivedBytes) = some 0 ∧
      s.accepted = [] ∧ s.slot.data = [1] := by
  constructor
  · exact exists_run overlappingSteps (by decide +kernel)
  · exact exists_run partialSteps (by decide +kernel)

end PirateServer.UploadSession
