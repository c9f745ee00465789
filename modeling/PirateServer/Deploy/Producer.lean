import PirateServer.Deploy.Service

/-! The senders of an upload: the client with the artifact in memory, the client with a reader of
known or unknown length, and the control service with a file. Each decides for itself which chunk
is the last one. -/
namespace PirateServer.Deploy
open Lib List

/-- What the chunks of an upload say besides the data; `digest` is `hex::encode` of the SHA-256
hash. -/
structure Artifact where
  version : String
  projectId : String
  manifestToml : Option String
  digest : Bytes → String

variable (a : Artifact)

/-- The first chunk names version and project, the last one has the digest of `content` and the
manifest. -/
def Artifact.chunk (first last : Bool) (data content : Bytes) : Chunk where
  data := data
  version := if first then a.version else ""
  isLast := last
  sha256Hex := if last then a.digest content else ""
  projectId := if first then a.projectId else ""
  manifestToml := if last then a.manifestToml.getD "" else ""

/-! An artifact in memory. -/

/-- The loop over the offsets, with what lies behind the offset. At most `n` rounds, which is
enough if there are `n` bytes. -/
def chunksFrom (a : Artifact) (bytes : Bytes) (chunkSize : ℕ) : ℕ → Bool → Bytes → List Chunk
  | 0,_,_ => []
  | n+1,first,rest =>
    if rest = [] then []
    else
      a.chunk first (rest.drop chunkSize = []) (rest.take chunkSize) bytes::
        chunksFrom a bytes chunkSize n false (rest.drop chunkSize)

/-- Nothing is returned where the source panics. -/
def buildChunksWithManifest (bytes : Bytes) (chunkSize : ℕ) : Option (List Chunk) :=
  if chunkSize = 0 then none
  else if bytes = [] then some [a.chunk true true [] bytes]
  else some (chunksFrom a bytes chunkSize bytes.length true bytes)

/-! A reader. -/

/-- What happens at the next turn of a loop that reads; the end of the list is the end of the file.
Only the loops of the client look whether they are cancelled. -/
inductive Read
  | bytes (head : UInt8) (tail : Bytes)
  | failed
  | cancelled
  deriving DecidableEq, Repr

def readKnown (a : Artifact) (expected : ℕ) : Bool → Bytes → List Read → List Chunk
  | first,hashed,.bytes b bs::reads =>
    let hashed' := hashed++b::bs
    if hashed'.length = expected then [a.chunk first true (b::bs) hashed']
    else a.chunk first false (b::bs) hashed'::readKnown a expected false hashed' reads
  | _,_,_ => []

def readUnknown (a : Artifact) : Bool → Option Bytes → Bytes → List Read → List Chunk
  | _,none,hashed,[] => [a.chunk true true [] hashed]
  | first,some p,hashed,[] => [a.chunk first true p hashed]
  | first,none,hashed,.bytes b bs::reads => readUnknown a first (some (b::bs)) (hashed++b::bs) reads
  | first,some p,hashed,.bytes b bs::reads =>
    a.chunk first false p hashed::readUnknown a false (some (b::bs)) (hashed++b::bs) reads
  | _,_,_,_ => []

/-- The stream of `upload_artifact_from_async_read`. -/
def uploadFromAsyncRead (totalLen : Option ℕ) (reads : List Read) : List Chunk :=
  match totalLen with
  | some 0 => [a.chunk true true [] []]
  | some expected => readKnown a expected true [] reads
  | none => readUnknown a true none [] reads

/-- The stream of `grpc_upload_project_artifact_from_path`, if there is a request at all. -/
def uploadFromPath (fileLen maxUploadBytes : ℕ) (opened : Bool) (reads : List Read) :
    Option (List Chunk) :=
  if maxUploadBytes < fileLen then none
  else if !opened then some []
  else if fileLen = 0 then some [a.chunk true true [] []]
  else some (readKnown a fileLen true [] reads)

inductive Producer
  | inMemory (bytes : Bytes) (chunkSize : ℕ)
  | asyncRead (totalLen : Option ℕ) (reads : List Read)
  | fromPath (fileLen maxUploadBytes : ℕ) (opened : Bool) (reads : List Read)

def Producer.stream : Producer → Option (List Chunk)
  | inMemory bytes chunkSize => buildChunksWithManifest a bytes chunkSize
  | asyncRead totalLen reads => some (uploadFromAsyncRead a totalLen reads)
  | fromPath fileLen maxUploadBytes opened reads =>
    uploadFromPath a fileLen maxUploadBytes opened reads

def given : List Read → Bytes
  | .bytes b bs::reads => b::bs++given reads
  | _ => []

def undisturbed : List Read → Bool
  | [] => true
  | .bytes _ _::reads => undisturbed reads
  | _ => false

def Producer.content : Producer → Bytes
  | inMemory bytes _ => bytes
  | asyncRead _ reads => given reads
  | fromPath _ _ _ reads => given reads

/-- The source has not failed and has the announced length. -/
def Producer.intact : Producer → Prop
  | inMemory _ _ => True
  | asyncRead none reads => undisturbed reads = true
  | asyncRead (some n) reads => (given reads).length = n
  | fromPath n _ opened reads => opened = true ∧ (given reads).length = n

/-- Nothing is left of the source when a piece of it ends after `n` bytes. -/
def StopsAt (n : ℕ) (reads : List Read) : Prop :=
  ∀ before after, reads = before++after → undisturbed before = true → (given before).length = n →
    given after = []

/-- The source has nothing left when a piece of it ends at the announced length. -/
def Producer.stops : Producer → Prop
  | asyncRead (some n) reads => StopsAt n reads
  | fromPath n _ opened reads => opened = true → StopsAt n reads
  | _ => True

/-! Both sides meet at this description of a stream. -/

/-- The chunks, after `sofar` has been sent, spell the rest of `content` and end with its digest. -/
inductive Spells (a : Artifact) (content : Bytes) : Bool → Bytes → List Chunk → Prop
  | last {first : Bool} {sofar data : Bytes} (whole : sofar++data = content) :
      Spells a content first sofar [a.chunk first true data content]
  | more {first : Bool} {sofar data other : Bytes} {chunks : List Chunk}
      (rest : Spells a content false (sofar++data) chunks) :
      Spells a content first sofar (a.chunk first false data other::chunks)

def Unfinished (chunks : List Chunk) : Prop := ∀ c ∈ chunks, c.isLast = false

section
variable {a : Artifact} {content : Bytes}

lemma unfinished_nil : Unfinished [] := fun _ hc => by cases hc

variable {chunks : List Chunk}

lemma unfinished_cons {c : Chunk} (hc : c.isLast = false)
    (h : Unfinished chunks) : Unfinished (c::chunks) := by
  intro d hd
  rcases List.mem_cons.mp hd with rfl | hd
  · exact hc
  · exact h d hd

variable {first : Bool} {sofar : Bytes}

section
variable (h : Spells a content first sofar chunks)
include h

lemma Spells.unfinished {k : ℕ} (hk : k < chunks.length) : Unfinished (chunks.take k) := by
  induction h generalizing k with
  | last whole =>
    have hzero : k = 0 := by simpa using hk
    rw [hzero]
    exact unfinished_nil
  | more rest ih =>
    cases k with
    | zero => exact unfinished_nil
    | succ k => exact unfinished_cons rfl (ih (by simpa using hk))

lemma Spells.length_le : sofar.length ≤ content.length := by
  induction h with
  | last whole =>
    rw [← whole,length_append]
    exact Nat.le_add_right _ _
  | more rest ih =>
    rw [length_append] at ih
    omega

lemma Spells.flatMap_data : sofar++chunks.flatMap Chunk.data = content := by
  induction h with
  | last whole => simpa [Artifact.chunk] using whole
  | more rest ih => simpa [Artifact.chunk] using ih

end

lemma given_append {before : List Read} (h : undisturbed before = true) (after : List Read) :
    given (before++after) = given before++given after := by
  induction before with
  | nil => rfl
  | cons x before ih =>
    cases x with
    | bytes b bs => simp [given,ih h]
    | failed | cancelled => cases h

variable {reads : List Read} {n expected : ℕ}

lemma stopsAt_of_length_le (h : (given reads).length ≤ n) : StopsAt n reads := by
  rintro before after rfl hbefore hlen
  rw [given_append hbefore,length_append] at h
  exact List.length_eq_zero_iff.mp (by omega)

lemma StopsAt.zero (h : StopsAt 0 reads) : given reads = [] := h [] reads rfl rfl rfl

lemma spells_chunksFrom {chunkSize : ℕ} {rest : Bytes} (hsize : 0 < chunkSize)
    (hn : rest.length ≤ n) (hrest : rest ≠ []) (hcontent : sofar++rest = content) :
    Spells a content first sofar (chunksFrom a content chunkSize n first rest) := by
  induction n generalizing first sofar rest with
  | zero => exact absurd (List.length_eq_zero_iff.mp (by omega)) hrest
  | succ n ih =>
    rw [chunksFrom,if_neg hrest]
    by_cases hlast : rest.drop chunkSize = []
    · have htake : rest.take chunkSize = rest := by
        have hall := take_append_drop chunkSize rest
        rwa [hlast,append_nil] at hall
      have hnone : chunksFrom a content chunkSize n false (rest.drop chunkSize) = [] := by
        rw [hlast]
        cases n with
        | zero => rfl
        | succ n => simp [chunksFrom]
      rw [hnone,htake,hlast]
      exact .last hcontent
    · have hlt : 0 < rest.length := List.length_pos_iff.mpr hrest
      simp only [hlast,decide_false]
      refine .more (ih ?_ hlast ?_)
      · rw [length_drop]
        omega
      · rw [append_assoc,take_append_drop]
        exact hcontent

/-- A reader of known length gives its content if the length is right, and else never ends. -/
lemma readKnown_spec (first : Bool) (sofar : Bytes) (reads : List Read)
    (hne : sofar.length ≠ expected)
    (hstops : ∀ before after, reads = before++after → undisturbed before = true →
      (sofar++given before).length = expected → given after = []) :
    ((sofar++given reads).length = expected →
      Spells a (sofar++given reads) first sofar (readKnown a expected first sofar reads)) ∧
    ((sofar++given reads).length ≠ expected →
      Unfinished (readKnown a expected first sofar reads)) := by
  induction reads generalizing first sofar with
  | nil => exact ⟨fun h => absurd (by simpa [given] using h) hne,fun _ => unfinished_nil⟩
  | cons x reads ih =>
    cases x with
    | failed
    | cancelled => exact ⟨fun h => absurd (by simpa [given] using h) hne,fun _ => unfinished_nil⟩
    | bytes b bs =>
      have hsame : ∀ l, sofar++given (.bytes b bs::l) = sofar++b::bs++given l := by simp [given]
      rw [hsame,readKnown]
      split_ifs with hlast
      · have hnil : given reads = [] := by
          refine hstops [.bytes b bs] reads rfl rfl ?_
          rw [hsame]
          simpa [given] using hlast
        rw [hnil,append_nil]
        exact ⟨fun _ => .last rfl,fun h => absurd hlast h⟩
      · obtain ⟨hspells,hunfinished⟩ := ih false (sofar++b::bs) hlast
          (fun before after heq hbefore hlen => hstops (.bytes b bs::before) after
            (by rw [heq]; rfl) hbefore (by rw [hsame]; exact hlen))
        exact ⟨fun h => .more (hspells h),fun h => unfinished_cons rfl (hunfinished h)⟩

lemma readKnown_cut (first : Bool) (sofar : Bytes) (before after : List Read)
    (hne : sofar.length ≠ expected) (hbefore : undisturbed before = true)
    (hlen : (sofar++given before).length = expected) :
    Spells a (sofar++given before) first sofar
      (readKnown a expected first sofar (before++after)) := by
  induction before generalizing first sofar with
  | nil => exact absurd (by simpa [given] using hlen) hne
  | cons x before ih =>
    cases x with
    | failed | cancelled => cases hbefore
    | bytes b bs =>
      have hsame : sofar++given (.bytes b bs::before) = sofar++b::bs++given before :=
          by simp [given]
      rw [hsame] at hlen ⊢
      rw [cons_append,readKnown]
      split_ifs with hlast
      · have hnil : given before = [] := by
          rw [length_append] at hlen
          exact List.length_eq_zero_iff.mp (by omega)
        rw [hnil,append_nil]
        exact .last rfl
      · exact .more (ih false _ hlast hbefore hlen)

/-- A reader of unknown length gives its content unless it is disturbed, and then never ends. -/
lemma readUnknown_spec (first : Bool) (sofar p : Bytes) (reads : List Read) :
    (undisturbed reads = true → Spells a (sofar++p++given reads) first sofar
      (readUnknown a first (some p) (sofar++p) reads)) ∧
    (undisturbed reads = false → Unfinished (readUnknown a first (some p) (sofar++p) reads)) := by
  induction reads generalizing first sofar p with
  | nil =>
    refine ⟨fun _ => ?_,fun h => by cases h⟩
    simp only [given,append_nil]
    exact .last rfl
  | cons x reads ih =>
    cases x with
    | failed | cancelled => exact ⟨fun h => (by cases h),fun _ => unfinished_nil⟩
    | bytes b bs =>
      obtain ⟨hspells,hunfinished⟩ := ih false (sofar++p) (b::bs)
      refine ⟨fun h => ?_,fun h => unfinished_cons rfl (hunfinished h)⟩
      have hsame : sofar++p++given (.bytes b bs::reads) = sofar++p++b::bs++given reads := by
        simp [given]
      rw [hsame]
      exact .more (hspells h)

lemma uploadFromAsyncRead_spec {totalLen : Option ℕ}
    (hstops : (Producer.asyncRead totalLen reads).stops) :
    ((Producer.asyncRead totalLen reads).intact →
      Spells a (given reads) true [] (uploadFromAsyncRead a totalLen reads)) ∧
    (¬(Producer.asyncRead totalLen reads).intact →
      Unfinished (uploadFromAsyncRead a totalLen reads)) := by
  unfold uploadFromAsyncRead
  cases totalLen with
  | none =>
    cases reads with
    | nil => exact ⟨fun _ => .last rfl,fun h => absurd rfl h⟩
    | cons x reads =>
      cases x with
      | failed | cancelled => exact ⟨fun h => (by cases h),fun _ => unfinished_nil⟩
      | bytes b bs =>
        obtain ⟨hspells,hunfinished⟩ := readUnknown_spec (a := a) true [] (b::bs) reads
        exact ⟨fun h => hspells h,fun h => hunfinished
          (by simpa [Producer.intact,undisturbed] using h)⟩
  | some n =>
    cases n with
    | zero =>
      have hnil := StopsAt.zero hstops
      rw [hnil]
      refine ⟨fun _ => .last rfl,fun h => absurd ?_ h⟩
      simp [Producer.intact,hnil]
    | succ n =>
      obtain ⟨hspells,hunfinished⟩ := readKnown_spec (a := a) true [] reads
          (Nat.succ_ne_zero n).symm hstops
      exact ⟨fun h => hspells h,fun h => hunfinished h⟩

variable {producer : Producer}

/-- A producer whose source stops where it says sends all of it, or never ends. -/
lemma Producer.stream_spec (hstream : producer.stream a = some chunks) (hstops : producer.stops) :
    (producer.intact → Spells a producer.content true [] chunks) ∧
      (¬producer.intact → Unfinished chunks) := by
  cases producer with
  | inMemory bytes chunkSize =>
    refine ⟨fun _ => ?_,fun h => absurd trivial h⟩
    simp only [stream,buildChunksWithManifest] at hstream
    split_ifs at hstream with hsize hbytes
    · cases hstream
      exact .last hbytes.symm
    · cases hstream
      exact spells_chunksFrom (by omega) le_rfl hbytes rfl
  | asyncRead totalLen reads =>
    cases hstream
    exact uploadFromAsyncRead_spec hstops
  | fromPath fileLen maxUploadBytes opened reads =>
    simp only [stream,uploadFromPath] at hstream
    split_ifs at hstream with hmax hopened hzero
    · cases hstream
      exact ⟨fun h => absurd h.1 (by simpa using hopened),fun _ => unfinished_nil⟩
    · cases hstream
      subst hzero
      have hnil := StopsAt.zero (hstops (by simpa using hopened))
      refine ⟨fun _ => ?_,fun h => absurd ⟨by simpa using hopened,by simp [hnil]⟩ h⟩
      rw [content,hnil]
      exact .last rfl
    · cases hstream
      obtain ⟨hspells,hunfinished⟩ :=
        readKnown_spec (a := a) true [] reads (Ne.symm hzero) (hstops (by simpa using hopened))
      refine ⟨fun h => hspells h.2,fun h => hunfinished (fun hlen => h ⟨?_,hlen⟩)⟩
      simpa using hopened

lemma Producer.stream_cut (hstream : producer.stream a = some chunks) (hcut : ¬producer.stops) :
    ∃ part, Spells a part true [] chunks ∧ ¬producer.intact := by
  have hknown : ∀ n reads, ¬StopsAt n reads → ∃ before after, reads = before++after ∧
      undisturbed before = true ∧ (given before).length = n ∧ (given reads).length ≠ n := by
    intro n reads h
    simp only [StopsAt,not_forall] at h
    obtain ⟨before,after,rfl,hbefore,hlen,hafter⟩ := h
    refine ⟨before,after,rfl,hbefore,hlen,?_⟩
    have hpos := List.length_pos_iff.mpr hafter
    rw [given_append hbefore,length_append]
    omega
  cases producer with
  | inMemory bytes chunkSize => exact absurd trivial hcut
  | asyncRead totalLen reads =>
    cases hstream
    cases totalLen with
    | none => exact absurd trivial hcut
    | some n =>
      obtain ⟨before,after,rfl,hbefore,hlen,hne⟩ := hknown n reads hcut
      refine ⟨given before,?_,hne⟩
      cases n with
      | zero =>
        rw [List.length_eq_zero_iff.mp hlen]
        exact .last rfl
      | succ n => exact readKnown_cut true [] before after (Nat.succ_ne_zero n).symm hbefore hlen
  | fromPath fileLen maxUploadBytes opened reads =>
    simp only [stops,Classical.not_imp] at hcut
    obtain ⟨rfl,hcut⟩ := hcut
    obtain ⟨before,after,rfl,hbefore,hlen,hne⟩ := hknown fileLen reads hcut
    refine ⟨given before,?_,fun h => hne h.2⟩
    simp only [stream,uploadFromPath,Bool.not_true,Bool.false_eq_true,if_false] at hstream
    split_ifs at hstream with hmax hzero
    · cases hstream
      subst hzero
      rw [List.length_eq_zero_iff.mp hlen]
      exact .last rfl
    · cases hstream
      exact readKnown_cut true [] before after (Ne.symm hzero) hbefore hlen

end

end PirateServer.Deploy
