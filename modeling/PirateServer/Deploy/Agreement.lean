import PirateServer.Deploy.Producer
import PirateServer.Deploy.Stages

/-! The senders of an upload and the loop that receives it, one after the other: what is sent is
received, and a stream that lacks anything is not promoted. -/
namespace PirateServer.Deploy
open Lib FileTree Script ProxySession List

/-- The sender writes digests as the server reads them. -/
structure Digests (cfg : Config) (a : Artifact) : Prop where
  nonempty : ∀ b, a.digest b ≠ ""
  decoded : ∀ b, cfg.hexDecode (Text.trim (a.digest b)) = some (cfg.sha256 b)
  length : ∀ b, (cfg.sha256 b).length = 32

/-- The server has received `data` so far, also in its temporary file, and nothing is going to
fail. -/
structure Holding (u : Receiving) (data : Bytes) (w : World Bytes States) : Prop where
  calm : Calm w
  file : HasFile w.disk u.tempPath data
  received : u.received = data
  written : u.written ≤ data.length

/-- All the chunks arrive at a server that accepts the first one and has nothing against the size.
-/
structure Accepting (cfg : Config) (chunks : List Chunk) (r : Upload)
    (w : World Bytes States) : Prop where
  stream : r.stream = chunks.map .ok
  calm : Calm w
  opens : ∀ c ∈ chunks.head?, ∃ u, (openUpload r c w).1 = .ok u
  size : (chunks.flatMap Chunk.data).length ≤ cfg.maxUploadBytes

/-- The content of an intact source is received, passes the hash check and goes on to be released.
With any part of the stream missing, or a source that is not intact, the request is over when the
stream is. -/
structure Agrees (cfg : Config) (producer : Producer) (chunks : List Chunk) (r : Upload)
    (w : World Bytes States) : Prop where
  whole : producer.intact → Accepting cfg chunks r w →
    ∃ u w', received cfg r w = (.ok u,w') ∧ u.received = producer.content ∧
      w'.disk.read u.tempPath = .ok producer.content ∧
      upload cfg r w = (storeRelease r u >>= fun m => activate cfg r.outside u m) w'
  cut : ∀ k tail, r.stream = (chunks.take k).map .ok++tail → (tail = [] ∨ ∃ e, tail = [.error e]) →
    (k < chunks.length ∨ tail ≠ [] ∨ ¬producer.intact) →
    ∃ e w', received cfg r w = (.error e,w') ∧ upload cfg r w = (.error e,w')

/-- The program does not end with an error. -/
def never : Status → World Bytes States → Prop := fun _ _ => False

variable {cfg : Config} {a : Artifact} {r : Upload} {w : World Bytes States} {content : Bytes}

lemma saturatingAdd_le (n m : ℕ) : saturatingAdd n m ≤ n+m := min_le_left _ _

def Accepted (chunk : Chunk) (sofar : Bytes) (u : Receiving) (w : World Bytes States) : Prop :=
  Holding u (sofar++chunk.data) w ∧ (chunk.isLast = true → u.expectedShaHex = some chunk.sha256Hex)

variable {u : Receiving} {chunk : Chunk}

lemma ends_acceptChunk {sofar : Bytes} (hmax : (sofar++chunk.data).length ≤ cfg.maxUploadBytes)
    (hdigest : chunk.isLast = true → chunk.sha256Hex ≠ "") :
    Ends (Holding u sofar) (acceptChunk cfg u chunk) (Accepted chunk sofar) never := by
  intro w hw
  have hle : (u.add chunk).written ≤ (sofar++chunk.data).length := by
    rw [length_append]
    exact (saturatingAdd_le _ _).trans (Nat.add_le_add_right hw.written _)
  have hhex : ¬(chunk.isLast = true ∧ chunk.sha256Hex = "") := fun h => hdigest h.1 h.2
  have hsize : ¬cfg.maxUploadBytes < saturatingAdd u.written chunk.data.length :=
    Nat.not_lt.mpr (hle.trans hmax)
  suffices hends : Ends (Holding u sofar)
      (io "write: " (write u.tempPath (fun old => old.getD []++chunk.data)))
      (fun _ => Holding (u.add chunk) (sofar++chunk.data)) never by
    rw [acceptChunk,if_neg hsize,if_neg hhex]
    have haccept : Ends (Holding u sofar) _ (Accepted chunk sofar) never :=
      ends_bind hends (fun _ => ends_pure (fun w hw => ⟨hw,fun hlast => if_pos hlast⟩))
    exact haccept w hw
  refine ends_mapError (ends_call_calm (fun w hw => hw.calm) (fun w hw _ t heq => ?_)
    (fun w hw e t heq => ?_))
  · obtain ⟨_,hfile⟩ := hw.file.write (f := fun old => old.getD []++chunk.data)
    rw [heq] at hfile
    exact ⟨hw.calm.tail _ _,hfile,by rw [← hw.received]; rfl,hle⟩
  · obtain ⟨hok,_⟩ := hw.file.write (f := fun old => old.getD []++chunk.data)
    rw [heq] at hok
    cases hok

lemma ends_receive_cons {P : World Bytes States → Prop} {Q : Receiving → World Bytes States → Prop}
    {R : Option Receiving → World Bytes States → Prop}
    {items : List (Except String Chunk)} (hversion : chunk.version = "")
    (hchunk : Ends P (acceptChunk cfg u chunk) Q never)
    (hrest : ∀ u', Ends (Q u') (receive cfg r (some u') items) R never) :
    Ends P (receive cfg r (some u) (.ok chunk::items)) R never := by
  have hnext : nextChunk cfg r (some u) chunk = acceptChunk cfg u chunk := by
    simp [nextChunk,hversion]
  rw [receive_cons_ok,hnext]
  exact ends_bind hchunk hrest

variable {chunks : List Chunk}

lemma ends_receive {sofar : Bytes} {first : Bool} (hd : Digests cfg a)
    (hs : Spells a content first sofar chunks) (hfirst : first = false)
    (hmax : content.length ≤ cfg.maxUploadBytes) :
    Ends (Holding u sofar) (receive cfg r (some u) (chunks.map .ok))
      (fun x w => ∃ u', x = some u' ∧ Holding u' content w ∧
        u'.expectedShaHex = some (a.digest content)) never := by
  induction hs generalizing u with
  | last whole =>
    subst hfirst
    subst whole
    refine ends_receive_cons rfl (ends_acceptChunk hmax (fun _ => hd.nonempty _))
      (fun u' => ends_pure (fun w hw => ⟨u',rfl,hw.1,hw.2 rfl⟩))
  | more rest ih =>
    subst hfirst
    refine ends_receive_cons rfl (ends_acceptChunk ?_ (fun h => by cases h)) (fun u' => ?_)
    · exact rest.length_le.trans hmax
    · exact (ih (u := u') rfl).mono (fun w hw => hw.1) (fun _ _ h => h) (fun _ _ h => h)

lemma ends_openUpload :
    Ends Calm (openUpload r chunk) (fun u => Holding u []) (fun _ _ => True) := by
  refine ends_bind (ends_ofExcept (fun w hw _ _ => hw) (fun _ _ _ _ => trivial)) (fun _ => ?_)
  refine ends_bind (Q := fun _ => Calm) ?_ (fun _ => ends_bind (Q := fun _ w => Calm w ∧
    HasFile w.disk (stagingDir (projectDeployRoot chunk.projectId)++[tempName r.stamp]) []) ?_
    (fun _ => ends_pure (fun w hw => ⟨hw.1,hw.2,rfl,le_rfl⟩)))
  · exact ends_mapError (ends_call_calm (fun w hw => hw) (fun w hw _ _ _ => hw.tail _ _)
      (fun _ _ _ _ _ => trivial))
  refine ends_mapError (ends_call_calm (fun w hw => hw) (fun w hw _ t heq => ⟨hw.tail _ _,?_⟩)
    (fun _ _ _ _ _ => trivial))
  have hok : (FileTree.write (stagingDir (projectDeployRoot chunk.projectId)++[tempName r.stamp])
      (fun _ => ([] : Bytes)) w.disk).1 = .ok () := by rw [heq]
  obtain ⟨_,hfile⟩ := hasFile_of_write hok
  rwa [heq] at hfile

lemma verifyHash_of_digest (hd : Digests cfg a) (hreceived : u.received = content)
    (hhex : u.expectedShaHex = some (a.digest content)) : verifyHash cfg u = pure () := by
  simp [verifyHash,hhex,hd.decoded,hd.length,hreceived]

lemma received_of_spells (hd : Digests cfg a)
    (hs : Spells a content true [] chunks) (hready : Accepting cfg chunks r w) :
    ∃ u, (received cfg r w).1 = .ok u ∧ Holding u content (received cfg r w).2 := by
  have hmax : content.length ≤ cfg.maxUploadBytes := by
    rw [← hs.flatMap_data]
    exact hready.size
  -- the first chunk is accepted as all the others, by an upload that has just been opened
  have hfirst : ∀ c ∈ chunks.head?, Ends (fun x => x = w) (openUpload r c) (fun u => Holding u [])
      never := by
    rintro c hc _ rfl
    obtain ⟨u,hu⟩ := hready.opens c hc
    refine ⟨(ends_openUpload _ hready.calm).1,fun e he => ?_⟩
    rw [hu] at he
    cases he
  have hreceive : Ends (fun x => x = w) (receive cfg r none (chunks.map .ok))
      (fun x w => ∃ u', x = some u' ∧ Holding u' content w ∧
        u'.expectedShaHex = some (a.digest content)) never := by
    cases hs with
    | last whole =>
      subst whole
      rw [map_cons,receive_cons_ok]
      refine ends_bind (ends_bind (hfirst _ rfl)
        (fun u => ends_acceptChunk hmax (fun _ => hd.nonempty _)))
          (fun u' => ends_pure (fun w hw => ⟨u',rfl,hw.1,hw.2 rfl⟩))
    | more rest =>
      rw [map_cons,receive_cons_ok]
      refine ends_bind (ends_bind (hfirst _ rfl)
        (fun u => ends_acceptChunk (rest.length_le.trans hmax) (fun h => by cases h)))
          (fun u' => ?_)
      exact (ends_receive hd rest rfl hmax).mono (fun w hw => hw.1) (fun _ _ h => h)
        (fun _ _ h => h)
  have hreceived : Ends (fun x => x = w) (received cfg r) (fun u => Holding u content) never := by
    rw [received,hready.stream]
    refine ends_bind hreceive (fun x => ?_)
    rintro w ⟨u,rfl,hw,hhex⟩
    dsimp only
    rw [verifyHash_of_digest hd hw.received hhex,pure_bind]
    exact ends_pure (fun _ hw => hw) w hw
  obtain ⟨hok,herror⟩ := hreceived w rfl
  cases hresult : (received cfg r w).1 with
  | ok u => exact ⟨u,rfl,hok u hresult⟩
  | error e => exact (herror e hresult).elim

lemma received_error {producer : Producer} (hstream : producer.stream a = some chunks)
    (hstops : producer.stops) {k : ℕ} {tail : List (Except String Chunk)}
    (hr : r.stream = (chunks.take k).map .ok++tail) (htail : tail = [] ∨ ∃ e, tail = [.error e])
    (hcut : k < chunks.length ∨ tail ≠ [] ∨ ¬producer.intact) (u : Receiving) :
    (received cfg r w).1 ≠ .ok u := by
  intro hu
  obtain ⟨hspells,hunfinished⟩ := producer.stream_spec hstream hstops
  obtain ⟨sent,hsent,_,c,hc,hlast⟩ := received_ok hu
  rw [hr] at hsent
  have hnil : tail = [] := by
    rcases htail with rfl | ⟨e,rfl⟩
    · rfl
    · have hmem : .error e ∈ sent.map Except.ok := hsent ▸ mem_append_right _ mem_cons_self
      obtain ⟨_,_,hne⟩ := List.mem_map.mp hmem
      cases hne
  subst hnil
  have hsame : chunks.take k = sent := by
    rw [append_nil] at hsent
    exact List.map_injective_iff.mpr (fun _ _ h => Except.ok.inj h) hsent
  subst hsame
  -- what arrives has a last chunk, so it is all of a stream that has one
  by_cases hintact : producer.intact
  · have hlt : k < chunks.length := by
      rcases hcut with hlt | hne | hnot
      · exact hlt
      · exact absurd rfl hne
      · exact absurd hintact hnot
    rw [(hspells hintact).unfinished hlt c hc] at hlast
    cases hlast
  · rw [hunfinished hintact c (mem_of_mem_take hc)] at hlast
    cases hlast

/-- Sender and server agree, whatever the source gives in whatever pieces, on every source that has
nothing left when a piece of it ends at the announced length, and on no other one that is sent to a
server which is ready for it. -/
theorem client_and_server_agree (cfg : Config) (a : Artifact) (producer : Producer)
    (chunks : List Chunk) (hd : Digests cfg a) (hstream : producer.stream a = some chunks) :
    (producer.stops → ∀ r w, Agrees cfg producer chunks r w) ∧
      ∀ r w, Accepting cfg chunks r w → Agrees cfg producer chunks r w → producer.stops := by
  refine ⟨fun hstops r w => ⟨fun hintact hready => ?_,fun k tail hr htail hcut => ?_⟩,
    fun r w hready hagrees => ?_⟩
  · have hspells := (producer.stream_spec hstream hstops).1 hintact
    obtain ⟨u,hu,hw⟩ := received_of_spells hd hspells hready
    have heq : received cfg r w = (.ok u,(received cfg r w).2) := Prod.ext hu rfl
    refine ⟨u,_,heq,hw.received,hw.file.read,?_⟩
    rw [upload_eq,bind_ok heq]
  · cases hu : (received cfg r w).1 with
    | error e =>
      have heq : received cfg r w = (.error e,(received cfg r w).2) := Prod.ext hu rfl
      exact ⟨e,_,heq,by rw [upload_eq,bind_error heq]⟩
    | ok u => exact absurd hu (received_error hstream hstops hr htail hcut u)
  · by_contra hnot
    obtain ⟨part,hspells,hintact⟩ := producer.stream_cut hstream hnot
    obtain ⟨u,hu,_⟩ := received_of_spells hd hspells hready
    obtain ⟨e,w',he,_⟩ := hagrees.cut chunks.length [] (by rw [hready.stream]; simp) (.inl rfl)
      (.inr (.inr hintact))
    rw [he] at hu
    cases hu

/-! A server that starts with nothing, and a client with an artifact for it. -/

def emptyWorld : World Bytes States := ⟨fun _ => none,fun _ => .default,[]⟩

def plainHash (b : Bytes) : Bytes := (b++List.replicate 32 0).take 32

def plainConfig : Config := ⟨"/srv",1000,"server",plainHash,Text.hexDecode⟩

def plainArtifact : Artifact := ⟨"2","",none,fun b => Text.hexEncode (plainHash b)⟩

lemma digests_plain : Digests plainConfig plainArtifact := by
  have hlength : ∀ b, (plainHash b).length = 32 := by simp [plainHash]
  refine ⟨fun b => Text.hexEncode_ne_empty ?_,fun b => ?_,hlength⟩
  · intro hnil
    have hlen := hlength b
    rw [hnil] at hlen
    cases hlen
  · simp only [plainConfig,plainArtifact,Text.trim_hexEncode,Text.hexDecode_hexEncode]

def plainUpload (chunks : List Chunk) : Upload :=
  ⟨some "2",none,chunks.map .ok,1,
    ⟨([⟨["run.sh"],.file [5] 0o600⟩],true),([],none),fun _ => .error "",none,.ok (),[],[]⟩⟩

def threeBytes : List Read := [.bytes 1 [2],.bytes 3 []]

def threeChunks : List Chunk := uploadFromAsyncRead plainArtifact (some 3) threeBytes

theorem client_and_server_agree_three_bytes :
    (∃ u w', received plainConfig (plainUpload threeChunks) emptyWorld = (.ok u,w') ∧
      u.received = [1,2,3] ∧ w'.disk.read u.tempPath = .ok [1,2,3]) ∧
    ∃ e w', upload plainConfig (plainUpload (threeChunks.take 1)) emptyWorld = (.error e,w') := by
  have hagrees := (client_and_server_agree plainConfig plainArtifact
      (.asyncRead (some 3) threeBytes)
    threeChunks digests_plain rfl).1 (stopsAt_of_length_le le_rfl)
  refine ⟨?_,?_⟩
  · obtain ⟨u,w',hreceived,hu,hread,_⟩ := (hagrees (plainUpload threeChunks) emptyWorld).whole rfl
      ⟨rfl,fun f hf => (by cases hf),fun c hc => ⟨_,by cases hc; rfl⟩,by decide⟩
    exact ⟨u,w',hreceived,hu,hread⟩
  · obtain ⟨e,w',_,hupload⟩ := (hagrees (plainUpload (threeChunks.take 1)) emptyWorld).cut 1 []
      (by rw [append_nil]; rfl) (.inl rfl) (.inl (by decide))
    exact ⟨e,w',hupload⟩

theorem longer_source_promoted : ∃ chunks,
    (Producer.asyncRead (some 1) [.bytes 1 [],.bytes 2 [3]]).stream plainArtifact = some chunks ∧
      (Producer.fromPath 1 1000 true [.bytes 1 [],.bytes 2 [3]]).stream plainArtifact =
        some chunks ∧
      (Producer.asyncRead (some 1) [.bytes 1 [],.bytes 2 [3]]).content = [1,2,3] ∧
      (upload plainConfig (plainUpload chunks) emptyWorld).1 = .ok () ∧
      (upload plainConfig (plainUpload chunks) emptyWorld).2.disk ["current"] =
        some (.link ["releases","2"]) := by
  refine ⟨_,rfl,rfl,rfl,?_,?_⟩
  all_goals decide +kernel

end PirateServer.Deploy
