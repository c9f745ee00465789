import PirateServer.UploadSession.Chunks

/-! What a complete upload hands over: the file that was announced, which no chunk can change
afterwards, as long as no chunk is on its way when the session is taken out of the table. -/
namespace PirateServer.UploadSession
open Lib Census List Option

def Sys.settled (cfg : Config) (s : Sys) (l : Label) : Bool :=
  s.orderly cfg l &&
    match l with
    | .act i (.lock now) =>
      match s.tasks[i]? with
      | some (.swept (.complete caller root)) =>
        match (lockComplete cfg now caller root s.slot.session).2 with
        | .taken _ => s.tasks.all (fun t => !t.busy)
        | _ => true
      | _ => true
    | _ => true

namespace Task

/-- Has a complete session in its hands. -/
def holds : Task → Bool
  | taken _ | hashing .. | checked _ | committing .. | reconciling _ | streaming .. | replying .. =>
    true
  | _ => false

def Right (cfg : Config) (bytes : ℕ) (sha : String) (data : Bytes) (renamed streamed : Bool) :
    Task → Prop
  | taken sess => sess.fileBytes = bytes ∧ sess.fileSha256 = sha
  | hashing sess read => (sess.fileBytes = bytes ∧ sess.fileSha256 = sha) ∧ read <+: data
  | checked sess => sess.fileBytes = bytes ∧ cfg.digest data = sha
  | committing _ _ => cfg.digest data = sha
  | streaming sess sent => sess.fileBytes = bytes ∧ cfg.digest data = sha ∧ sent <+: data
  | replying sent last => cfg.digest data = sha ∧ (last = true → sent = data)
  | reconciling _ | dropping (.ok (.committed _)) | answered (.ok (.committed _)) => renamed = true
  | dropping (.ok .deployed) | answered (.ok .deployed) => streamed = true
  | _ => True

end Task

def Sys.finishing (s : Sys) : Prop :=
  (∃ t ∈ s.tasks, t.holds = true) ∨ s.renamed.isSome = true ∨ s.streamed.isSome = true

/-- The session is out of the table, and the file is complete and no longer changes. -/
structure Closed (bytes : ℕ) (s : Sys) : Prop where
  session : s.slot.session = none
  idle : ∀ t ∈ s.tasks, t.busy = false
  length : s.slot.data.length = bytes

structure Sound (cfg : Config) (bytes : ℕ) (sha : String) (s : Sys) : Prop where
  tidy : ∀ sess, s.slot.session = some sess → Tidy s sess
  same : ∀ sess, s.slot.session = some sess → sess.fileBytes = bytes ∧ sess.fileSha256 = sha
  closed : s.finishing → Closed bytes s
  tasks : ∀ t ∈ s.tasks, t.Right cfg bytes sha s.slot.data s.renamed.isSome s.streamed.isSome
  renamed : ∀ d, s.renamed = some d → s.slot.data = d ∧ cfg.digest d = sha ∧
    s.slot.place = .committed
  streamed : ∀ d, s.streamed = some d → s.slot.data = d ∧ cfg.digest d = sha

section
variable {cfg : Config} {bytes : ℕ} {sha : String} {s s' : Sys} {i : ℕ} {t t' : Task}
    {x : Slot} {a : Act}
  {data data' : Bytes} {r r' m m' : Bool}

lemma Task.Right.of_not_holds (h : t.Right cfg bytes sha data r m) (hholds : t.holds = false)
    (hr : r = true → r' = true) (hm : m = true → m' = true) :
      t.Right cfg bytes sha data' r' m' := by
  cases t with
  | dropping b | answered b =>
    rcases b with e | d
    · trivial
    · cases d with
      | deployed => exact hm h
      | committed n => exact hr h
      | _ => trivial
  | taken | hashing | checked | committing | reconciling | streaming | replying => cases hholds
  | _ => trivial

lemma Task.Right.mono (h : t.Right cfg bytes sha data r m) (hr : r = true → r' = true)
    (hm : m = true → m' = true) : t.Right cfg bytes sha data r' m' := by
  cases t with
  | taken | hashing | checked | committing | streaming | replying => exact h
  | reconciling => exact hr h
  | _ => exact h.of_not_holds rfl hr hm

lemma waits_not_holds (h : t.waits = true) : t.holds = false := by
  cases t <;> first | rfl | cases h

lemma dismissed (h : t.waits = true ∨ (∃ r, t = .sweeping r) ∨ ∃ b, t = .dropping b) :
    t.busy = false ∧ t.holds = false := by
  rcases h with h | ⟨r,rfl⟩ | ⟨b,rfl⟩
  · exact ⟨waits_not_busy h,waits_not_holds h⟩
  · exact ⟨rfl,rfl⟩
  · exact ⟨rfl,rfl⟩

lemma right_of_fails (hholds : t.holds = false) (hfails : t.succeeds = false) :
    t.Right cfg bytes sha data r m := by
  cases t with
  | dropping b | answered b =>
    rcases b with e | d
    · trivial
    · cases d with
      | deployed | committed n => cases hfails
      | _ => trivial
  | taken | hashing | checked | committing | reconciling | streaming | replying => cases hholds
  | _ => trivial

section
variable (h : Closed bytes s) (ht : s.tasks[i]? = some t) (hturn : Turn cfg s.slot a t x t')
include h ht hturn

lemma Closed.turn : x.session = none ∧ x.data = s.slot.data ∧ t'.busy = false := by
  have hbusy := h.idle t (mem_of_getElem? ht)
  have hgone := h.session
  cases hturn with
  | wait before after fails => exact ⟨hgone,rfl,waits_not_busy after⟩
  | dismiss before after fails => exact ⟨rfl,rfl,(dismissed after).1⟩
  | pass found | update found | take found => cases hgone.symm.trans found
  | start | write | sync | late => cases hbusy
  | quit before => exact ⟨hgone,rfl,rfl⟩
  | hash | read | check | commit | rename | finish | stream | send | last | cut | deliver =>
    exact ⟨hgone,rfl,rfl⟩
  | abandon before after =>
    rcases after with rfl | rfl
    all_goals exact ⟨hgone,rfl,rfl⟩
  | unlink gone move =>
    have hsame : x.session = s.slot.session ∧ x.data = s.slot.data := by
      rcases gone with rfl | rfl
      all_goals exact ⟨rfl,rfl⟩
    refine ⟨hsame.1.trans hgone,hsame.2,?_⟩
    rcases move with ⟨r,_,rfl⟩ | ⟨b,_,rfl⟩
    · rfl
    · rfl

lemma Closed.after : Closed bytes (s.turn i t x t') := by
  obtain ⟨hsession,hdata,hbusy⟩ := h.turn ht hturn
  refine ⟨hsession,fun u hu => ?_,?_⟩
  · rcases mem_set_cases hu with rfl | hu
    · exact hbusy
    · exact h.idle u hu
  · have hlength := h.length
    rw [← hdata] at hlength
    exact hlength

end

lemma holds_of_renames (h : (t.renames x t').isSome = true) : t.holds = true := by
  cases t with
  | committing => rfl
  | _ => cases h

lemma holds_of_delivers (h : (t.delivers t').isSome = true) : t.holds = true := by
  cases t with
  | replying => rfl
  | _ => cases h

lemma Turn.holds_before (hturn : Turn cfg s.slot a t x t') (h : t'.holds = true) :
    t.holds = true ∨ ∃ sess, t' = .taken sess := by
  cases hturn with
  | take => exact .inr ⟨_,rfl⟩
  | hash | read | check | commit | rename | stream | send | last | cut => exact .inl rfl
  | wait before after fails =>
    rw [waits_not_holds after] at h
    cases h
  | dismiss before after fails =>
    rw [(dismissed after).2] at h
    cases h
  | pass | start | write | sync | quit | late | update | finish | deliver => cases h
  | abandon before after =>
    rcases after with rfl | rfl
    · cases h
    · cases h
  | unlink gone move =>
    rcases move with ⟨r,_,rfl⟩ | ⟨b,_,rfl⟩
    · cases h
    · cases h

lemma finishing_turn (hturn : Turn cfg s.slot a t x t') (ht : s.tasks[i]? = some t)
    (h : (s.turn i t x t').finishing) : s.finishing ∨ ∃ sess, t' = .taken sess := by
  have hmem : t ∈ s.tasks := mem_of_getElem? ht
  rcases h with ⟨u,hu,hholds⟩ | h | h
  · rcases mem_set_cases hu with rfl | hu
    · rcases hturn.holds_before hholds with hbefore | htaken
      · exact .inl (.inl ⟨t,hmem,hbefore⟩)
      · exact .inr htaken
    · exact .inl (.inl ⟨u,hu,hholds⟩)
  · simp only [Sys.turn,isSome_or,Bool.or_eq_true] at h
    rcases h with h | h
    · exact .inl (.inl ⟨t,hmem,holds_of_renames h⟩)
    · exact .inl (.inr (.inl h))
  · simp only [Sys.turn,isSome_or,Bool.or_eq_true] at h
    rcases h with h | h
    · exact .inl (.inl ⟨t,hmem,holds_of_delivers h⟩)
    · exact .inl (.inr (.inr h))

variable {sofar d : Bytes}

lemma append_nextPiece (h : sofar <+: data) (n : ℕ) : sofar++nextPiece data sofar n <+: data := by
  obtain ⟨rest,rfl⟩ := h
  rw [nextPiece,drop_left]
  exact (prefix_append_right_inj sofar).mpr (List.take_prefix _ _)

lemma eq_of_nextPiece_nil {n : ℕ} (h : sofar <+: data)
    (hnil : nextPiece data sofar n = []) : sofar = data := by
  obtain ⟨rest,rfl⟩ := h
  rw [nextPiece,drop_left] at hnil
  cases rest with
  | nil => simp
  | cons b rest => cases hnil

lemma Sys.renamed_turn (s : Sys) (h : s.renamed.isSome = true) :
    (s.turn i t x t').renamed.isSome = true := by
  simp only [Sys.turn,isSome_or,h,Bool.or_true]

lemma Sys.streamed_turn (s : Sys) (h : s.streamed.isSome = true) :
    (s.turn i t x t').streamed.isSome = true := by
  simp only [Sys.turn,isSome_or,h,Bool.or_true]

lemma Sound.right_turn (h : Sound cfg bytes sha s) (ht : s.tasks[i]? = some t)
    (hturn : Turn cfg s.slot a t x t') :
    t'.Right cfg bytes sha x.data (s.turn i t x t').renamed.isSome
      (s.turn i t x t').streamed.isSome := by
  have hmem : t ∈ s.tasks := mem_of_getElem? ht
  have hright := h.tasks t hmem
  have hlength : t.holds = true → s.slot.data.length = bytes :=
    fun hholds => (h.closed (.inl ⟨t,hmem,hholds⟩)).length
  cases hturn with
  | wait before after fails =>
    exact right_of_fails (waits_not_holds after) fails
  | dismiss before after fails => exact right_of_fails (dismissed after).2 fails
  | pass | start | write | sync | quit | late | update => trivial
  | take found whole looked =>
    exact h.same _ found
  | hash => exact ⟨hright,List.nil_prefix⟩
  | read => exact ⟨hright.1,append_nextPiece hright.2 _⟩
  | check ended same =>
    refine ⟨hright.1.1,?_⟩
    rw [← eq_of_nextPiece_nil hright.2 ended,same]
    exact hright.1.2
  | commit => exact hright.2
  | rename there => rfl
  | finish =>
    simp only [Task.Right,Sys.turn,isSome_or,Bool.or_eq_true]
    exact .inr hright
  | stream => exact ⟨hright.1,hright.2,List.nil_prefix⟩
  | send => exact ⟨hright.1,hright.2.1,append_nextPiece hright.2.2 _⟩
  | last whole =>
    refine ⟨hright.2.1,fun _ => ?_⟩
    apply (append_nextPiece hright.2.2 _).eq_of_length
    rw [whole,hright.1,hlength rfl]
  | cut => exact ⟨hright.2.1,by simp⟩
  | deliver => rfl
  | abandon before after =>
    rcases after with rfl | rfl
    · trivial
    · trivial
  | unlink gone move =>
    rcases move with ⟨r,rfl,rfl⟩ | ⟨b,rfl,rfl⟩
    · trivial
    rcases b with e | d
    · trivial
    · cases d with
      | deployed => exact s.streamed_turn hright
      | committed n => exact s.renamed_turn hright
      | _ => trivial

lemma Turn.place_committed (hturn : Turn cfg s.slot a t x t') (h : s.slot.place = .committed) :
    x.place = .committed := by
  cases hturn with
  | rename => rfl
  | unlink gone move =>
    rcases gone with rfl | rfl
    · exact h
    · simp [Slot.unlink,h]
  | _ => exact h

lemma renames_eq_some (h : t.renames x t' = some d) :
    x.data = d ∧ (∃ sess n, t = .committing sess n) ∧ ∃ n, t' = .reconciling n := by
  cases t with
  | committing sess n =>
    cases t' with
    | reconciling m =>
      cases h
      exact ⟨rfl,⟨_,_,rfl⟩,_,rfl⟩
    | _ => cases h
  | _ => cases h

lemma delivers_eq_some (h : t.delivers t' = some d) :
    (∃ last, t = .replying d last) ∧ ∃ done, t' = .dropping (.ok done) := by
  cases t with
  | replying sent last =>
    cases t' with
    | dropping b =>
      rcases b with e | done
      · cases h
      · cases h
        exact ⟨⟨_,rfl⟩,_,rfl⟩
    | _ => cases h
  | _ => cases h

lemma Turn.renamed {sess : Session} {n m : ℕ}
    (hturn : Turn cfg s.slot a (.committing sess n) x (.reconciling m)) :
    x.place = .committed ∧ x.data = s.slot.data := by
  cases hturn with
  | wait before | dismiss before => cases before
  | rename => exact ⟨rfl,rfl⟩
  | abandon before after => rcases after with h | h <;> cases h
  | unlink gone move => rcases move with ⟨_,h,_⟩ | ⟨_,h,_⟩ <;> cases h

lemma Turn.delivered {sent : Bytes} {last : Bool} {done : Done}
    (hturn : Turn cfg s.slot a (.replying sent last) x (.dropping (.ok done))) :
    last = true ∧ x.data = s.slot.data := by
  cases hturn with
  | wait before | dismiss before => cases before
  | deliver => exact ⟨rfl,rfl⟩
  | abandon before after => rcases after with h | h <;> cases h
  | unlink gone move => rcases move with ⟨_,h,_⟩ | ⟨_,h,_⟩ <;> cases h

lemma Closed.of_taken {sess : Session} (h : Sound cfg bytes sha s) (ht : s.tasks[i]? = some t)
    (hturn : Turn cfg s.slot a t x (.taken sess)) (hok : s.settled cfg (.act i a) = true) :
    Closed bytes (s.turn i t x (.taken sess)) := by
  cases hturn with
  | wait before after => cases after
  | dismiss before after =>
    rcases after with h | ⟨_,h⟩ | ⟨_,h⟩
    all_goals cases h
  | abandon before after => rcases after with h | h <;> cases h
  | unlink gone move => rcases move with ⟨_,_,h⟩ | ⟨_,_,h⟩ <;> cases h
  | take found whole looked =>
    have hidle : ∀ u ∈ s.tasks, u.busy = false := by
      have hall := (Bool.and_eq_true_iff.mp hok).2
      simp only [ht,looked] at hall
      simpa using hall
    have htidy := h.tidy sess found
    refine ⟨rfl,fun u hu => ?_,?_⟩
    · rcases mem_set_cases hu with rfl | hu
      · rfl
      · exact hidle u hu
    · have hdata := htidy.filled.data_of_idle hidle
      calc s.slot.data.length = sess.receivedBytes := by rw [hdata,htidy.received]
        _ = bytes := by rw [whole,(h.same sess found).1]

lemma Sound.turn (h : Sound cfg bytes sha s) (ht : s.tasks[i]? = some t)
    (hturn : Turn cfg s.slot a t x t') (hok : s.settled cfg (.act i a) = true) :
    Sound cfg bytes sha (s.turn i t x t') := by
  have hmem : t ∈ s.tasks := mem_of_getElem? ht
  have horderly : s.orderly cfg (.act i a) = true := by
    unfold Sys.settled at hok
    exact (Bool.and_eq_true_iff.mp hok).1
  have hdata : s.finishing → x.data = s.slot.data := fun hf => ((h.closed hf).turn ht hturn).2.1
  refine ⟨fun sess hsess => tidy_turn h.tidy ht hturn horderly hsess,?_,?_,?_,?_,?_⟩
  · intro sess hsess
    obtain ⟨old,hold,hsame⟩ := same_turn hturn hsess
    rw [hsame.fileBytes,hsame.fileSha256]
    exact h.same old hold
  · intro hfinishing
    rcases finishing_turn hturn ht hfinishing with hf | ⟨sess,rfl⟩
    · exact (h.closed hf).after ht hturn
    · exact .of_taken h ht hturn hok
  · intro u hu
    rcases mem_set_cases hu with rfl | hu
    · exact h.right_turn ht hturn
    cases hholds : u.holds with
    | false => exact (h.tasks u hu).of_not_holds hholds s.renamed_turn s.streamed_turn
    | true =>
      have hsame : (s.turn i t x t').slot.data = s.slot.data := hdata (.inl ⟨u,hu,hholds⟩)
      rw [hsame]
      exact (h.tasks u hu).mono s.renamed_turn s.streamed_turn
  · intro d hd
    rcases Option.or_eq_some_iff.mp hd with hd | ⟨_,hd⟩
    · obtain ⟨hx,⟨sess,n,rfl⟩,m,rfl⟩ := renames_eq_some hd
      have hright := h.tasks _ hmem
      obtain ⟨hplace,hsame⟩ := hturn.renamed
      exact ⟨hsame.trans hx,hx ▸ hright,hplace⟩
    · obtain ⟨hx,hsha,hplace⟩ := h.renamed d hd
      exact ⟨(hdata (.inr (.inl (by rw [hd]; rfl)))).trans hx,hsha,hturn.place_committed hplace⟩
  · intro d hd
    rcases Option.or_eq_some_iff.mp hd with hd | ⟨_,hd⟩
    · obtain ⟨⟨last,rfl⟩,done,rfl⟩ := delivers_eq_some hd
      obtain ⟨hlast,hsame⟩ := hturn.delivered
      obtain ⟨hsha,hsent⟩ := h.tasks _ hmem
      exact ⟨hsame.trans (hsent hlast).symm,(hsent hlast) ▸ hsha⟩
    · obtain ⟨hx,hsha⟩ := h.streamed d hd
      exact ⟨(hdata (.inr (.inr (by rw [hd]; rfl)))).trans hx,hsha⟩

lemma Sound.join {q : Request} (h : Sound cfg bytes sha s) :
    Sound cfg bytes sha { s with tasks := s.tasks++[.arrived q] } := by
  refine ⟨fun sess hsess => (h.tidy sess hsess).join,h.same,?_,?_,h.renamed,h.streamed⟩
  · intro hfinishing
    have hf : s.finishing := by
      rcases hfinishing with ⟨u,hu,hholds⟩ | h | h
      · rcases List.mem_append.mp hu with hu | hu
        · exact .inl ⟨u,hu,hholds⟩
        · rw [List.mem_singleton.mp hu] at hholds
          cases hholds
      · exact .inr (.inl h)
      · exact .inr (.inr h)
    obtain ⟨hsession,hidle,hlength⟩ := h.closed hf
    refine ⟨hsession,fun u hu => ?_,hlength⟩
    rcases List.mem_append.mp hu with hu | hu
    · exact hidle u hu
    · rw [List.mem_singleton.mp hu]
      rfl
  · intro u hu
    rcases List.mem_append.mp hu with hu | hu
    · exact h.tasks u hu
    · rw [List.mem_singleton.mp hu]
      trivial

lemma sound_step {l : Label} (h : Sound cfg bytes sha s) (hok : s.settled cfg l = true)
    (hstep : s.step cfg l = some s') : Sound cfg bytes sha s' := by
  rcases step_turn hstep with ⟨q,rfl,rfl⟩ | ⟨i,a,t,x,t',rfl,ht,hturn,rfl⟩
  · exact h.join
  · exact h.turn ht hturn hok

end

/-- In every run of requests for one session with no two chunks on their way at once, no operation
that fails inside a chunk, and no chunk on its way when the complete session is taken: a renamed
file keeps the announced length and digest, what was sent to the deploy server had them, and a
successful completion has one or the other. -/
theorem committed_file_as_announced (cfg : Config) (target : Target) (fileBytes : ℕ)
    (fileSha256 : String) (created : Int64) (s : Sys)
    (h : Run (Sys.step cfg) (fun s l => s.settled cfg l = true)
      (.create target fileBytes fileSha256 created) s) :
    (∀ d, s.renamed = some d → s.slot.place = .committed ∧ s.slot.data = d ∧
      d.length = fileBytes ∧ cfg.digest d = fileSha256) ∧
    (∀ d, s.streamed = some d → d.length = fileBytes ∧ cfg.digest d = fileSha256) ∧
    ∀ t ∈ s.tasks, (∀ n, t = .answered (.ok (.committed n)) → s.renamed ≠ none) ∧
      (t = .answered (.ok .deployed) → s.streamed ≠ none) := by
  have hs : Sound cfg fileBytes fileSha256 s := by
    refine h.invariant (I := Sound cfg fileBytes fileSha256)
      (fun _ _ _ hI hok hstep => sound_step hI hok hstep) ⟨?_,?_,?_,?_,?_,?_⟩
    · intro sess hnew
      cases hnew
      exact ⟨rfl,by simp [Sys.create],rfl,.quiet (by simp [Sys.create]) rfl,Nat.zero_le _⟩
    · intro sess hnew
      cases hnew
      exact ⟨rfl,rfl⟩
    · rintro (⟨t,ht,_⟩ | h | h)
      · cases ht
      · cases h
      · cases h
    · intro t ht
      cases ht
    · intro d hd
      cases hd
    · intro d hd
      cases hd
  refine ⟨fun d hd => ?_,fun d hd => ?_,fun t ht => ⟨fun n hn => ?_,fun hn => ?_⟩⟩
  · obtain ⟨hdata,hsha,hplace⟩ := hs.renamed d hd
    have hlength := (hs.closed (.inr (.inl (by rw [hd]; rfl)))).length
    exact ⟨hplace,hdata,hdata ▸ hlength,hsha⟩
  · obtain ⟨hdata,hsha⟩ := hs.streamed d hd
    have hlength := (hs.closed (.inr (.inr (by rw [hd]; rfl)))).length
    exact ⟨hdata ▸ hlength,hsha⟩
  · have hright := hs.tasks t ht
    rw [hn] at hright
    exact Option.isSome_iff_ne_none.mp hright
  · have hright := hs.tasks t ht
    rw [hn] at hright
    exact Option.isSome_iff_ne_none.mp hright

/-! A session for three bytes that all come in one chunk. -/

def sampleComplete : Request := .complete ⟨true,"app"⟩ .directory

def completeSteps (chunk complete : ℕ) : List Label :=
  [.act chunk (.file (.ok 5)),.act chunk (.file (.ok 0)),.act chunk (.lock 6),
    .act complete (.lock 7),.act complete (.lock 7),.act complete (.file (.ok 0)),
    .act complete (.file (.ok 9)),.act complete (.file (.ok 9)),.act complete (.judge (.ok ())),
    .act complete (.file (.ok 0)),.act complete (.judge (.ok ()))]

theorem committed_file_as_announced_three_bytes :
    ∃ s d, Run (Sys.step (sampleConfig .storage))
      (fun s l => s.settled (sampleConfig .storage) l = true)
        (.create sampleTarget 3 "6" 0) s ∧ .answered (.ok (.committed 3)) ∈ s.tasks ∧
      s.renamed = some d ∧ s.slot.data = d ∧ d.length = 3 ∧
        (sampleConfig .storage).digest d = "6" := by
  have hexists : ∃ s, Run (Sys.step (sampleConfig .storage))
      (fun s l => s.settled (sampleConfig .storage) l = true) (.create sampleTarget 3 "6" 0) s ∧
      .answered (.ok (.committed 3)) ∈ s.tasks :=
    exists_run ([.request (sampleChunk "0" [1,2,3]),.request sampleComplete,.act 0 (.lock 5),
      .act 0 (.lock 5),.act 0 (.file (.ok 0))]++completeSteps 0 1) (by decide +kernel)
  obtain ⟨s,hrun,hanswered⟩ := hexists
  obtain ⟨hrenamed,_,htasks⟩ := committed_file_as_announced
      (sampleConfig .storage) sampleTarget 3 "6" 0
    s hrun
  obtain ⟨d,hd⟩ := Option.ne_none_iff_exists'.mp ((htasks _ hanswered).1 3 rfl)
  obtain ⟨_,hdata,hlength,hsha⟩ := hrenamed d hd
  exact ⟨s,d,hrun,hanswered,hd,hdata,hlength,hsha⟩

theorem committed_file_changes :
    ∃ s, Run (Sys.step (sampleConfig .storage)) anyStep (.create sampleTarget 3 "6" 0) s ∧
      .answered (.ok (.committed 3)) ∈ s.tasks ∧ s.slot.place = .committed ∧
      s.renamed = some [1,2,3] ∧ s.slot.data = [1,2,3,4,5,6] :=
  exists_run ([.request (sampleChunk "0" [1,2,3]),.request sampleComplete,
    .request (sampleChunk "0" [4,5,6]),.act 0 (.lock 5),.act 0 (.lock 5),.act 2 (.lock 5),
    .act 2 (.lock 5),.act 0 (.file (.ok 0)),.act 2 (.file (.ok 0))]++completeSteps 0 1++
      [.act 2 (.file (.ok 5))]) (by decide +kernel)

end PirateServer.UploadSession
