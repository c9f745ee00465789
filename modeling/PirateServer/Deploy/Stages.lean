import PirateServer.Deploy.Service
import PirateServer.Lib.FileOutcome

/-! An upload in stages: what is received and checked, the release directory, and the switch to it.
The receiving stage is shown here to keep what the stream says. -/
namespace PirateServer.Deploy
open Lib FileTree Script ProxySession

def received (cfg : Config) (r : Upload) : Handler Receiving := do
  let x ← receive cfg r none r.stream
  match x with
  | none => .fail (invalidArgument "no version in stream")
  | some u => do
    verifyHash cfg u
    pure u

lemma upload_eq (cfg : Config) (r : Upload) :
    upload cfg r = received cfg r >>= fun u => storeRelease r u >>= fun manifest =>
      activate cfg r.outside u manifest := by
  unfold upload received
  rw [bind_assoc]
  congr 1
  funext x
  cases x with
  | none => rfl
  | some u => simp only [bind_assoc,pure_bind]

def fillRelease (o : Outside) (releaseDir : List String) : Handler Unit := do
  let found ← .look (fun t => t.pathExists releaseDir)
  (io "" (removeDirAll releaseDir)).when found
  io "" (createDirAll releaseDir)
  unpackTarGz o releaseDir
  ensureRunShExecutable releaseDir

lemma unpackRelease_eq (o : Outside) (tempPath releaseDir : List String) :
    unpackRelease o tempPath releaseDir =
      fillRelease o releaseDir >>= fun _ => io "" (removeFile tempPath) := by
  unfold unpackRelease fillRelease
  simp only [bind_assoc]

variable (r : Upload) (u : Receiving)

def makeRelease : Handler Unit := do
  io "releases dir: " (createDirAll (releasesDir u.root))
  fillRelease r.outside (releaseDirForVersion u.root u.version)
  io "" (removeFile u.tempPath)

def useManifest : Handler (Option Manifest) := do
  let releaseDir := releaseDirForVersion u.root u.version
  let manifest ← readManifest r.outside releaseDir u.manifestToml
  match manifest with
  | none => pure none
  | some m => do
    applySidecarManifest releaseDir m
    pure (some m)

lemma storeRelease_eq : storeRelease r u = makeRelease r u >>= fun _ => useManifest r u := by
  unfold storeRelease makeRelease
  simp only [unpackRelease_eq,bind_assoc]
  rfl

/-! The programs that do not use the memory. -/

section
variable {R : World Bytes States → World Bytes States → Prop} {cfg : Config} {r : Upload}
  {u : Receiving} {o : Outside} {dst : List String} {context : String} {α : Type}

section
variable (hR : Steady R)
include hR

lemma respects_io {op : Op Bytes α} : Respects R (io context op) :=
  fun w => hR.call op w

lemma respects_quietly {op : Op Bytes Unit} : Respects R (quietly op) :=
  fun w => hR.call op w

lemma respects_ofExcept {x : Except Status α} :
    Respects R (Script.ofExcept x : Handler α) := respects_same hR (fun _ => rfl)

lemma respects_look {f : Disk Bytes → α} : Respects R (Script.look f : Handler α) :=
  respects_same hR (fun _ => rfl)

lemma respects_pure {a : α} : Respects R (pure a : Handler α) :=
  respects_same hR (fun _ => rfl)

lemma respects_fail {e : Status} : Respects R (Script.fail e : Handler α) :=
  respects_same hR (fun _ => rfl)

lemma respects_discard {status : Status} : Respects R (discard u status : Handler α) :=
  respects_bind hR (respects_quietly hR) (fun _ => respects_fail hR)

lemma respects_openUpload {chunk : Chunk} : Respects R (openUpload r chunk) :=
  respects_bind hR (respects_ofExcept hR) (fun _ => respects_bind hR (respects_io hR)
    (fun _ => respects_bind hR (respects_io hR) (fun _ => respects_pure hR)))

lemma respects_acceptChunk {chunk : Chunk} : Respects R (acceptChunk cfg u chunk) := by
  unfold acceptChunk
  split
  · exact respects_discard hR
  · refine respects_bind hR (respects_io hR) (fun _ => ?_)
    split
    · exact respects_discard hR
    · exact respects_pure hR

lemma respects_receive {x : Option Receiving} {items : List (Except String Chunk)} :
    Respects R (receive cfg r x items) := by
  induction items generalizing x with
  | nil => exact respects_pure hR
  | cons item items ih =>
    refine respects_bind hR (respects_ofExcept hR) (fun chunk => respects_bind hR ?_ (fun _ => ih))
    unfold nextChunk
    split
    · exact respects_bind hR (respects_openUpload hR) (fun _ => respects_acceptChunk hR)
    · split
      · exact respects_discard hR
      · exact respects_acceptChunk hR

lemma respects_received : Respects R (received cfg r) := by
  refine respects_bind hR (respects_receive hR) (fun x => ?_)
  split
  · exact respects_fail hR
  refine respects_bind hR ?_ (fun _ => respects_pure hR)
  unfold verifyHash
  split
  · exact respects_discard hR
  split
  · exact respects_discard hR
  · split
    · exact respects_discard hR
    · split
      · exact respects_discard hR
      · exact respects_pure hR

end

variable {es : List (Entry Bytes)}

section
variable (hR : Steady R)
include hR

lemma respects_runTar : Respects R (runTar dst es) := by
  induction es with
  | nil => exact respects_pure hR
  | cons e es ih =>
    exact respects_bind hR (fun w => hR.call _ w)
      (fun _ => respects_bind hR ih (fun _ => respects_pure hR))

lemma respects_unpackEntries : Respects R (unpackEntries dst es) := by
  induction es with
  | nil => exact respects_pure hR
  | cons e es ih =>
    unfold unpackEntries
    split
    · exact respects_fail hR
    · exact respects_bind hR (respects_io hR) (fun _ => ih)

lemma respects_unpackTarGz : Respects R (unpackTarGz o dst) := by
  refine respects_bind hR (respects_io hR) (fun _ =>
    respects_bind hR (respects_runTar hR) (fun ok => ?_))
  split
  · exact respects_pure hR
  · refine respects_bind hR (respects_io hR)
      (fun _ => respects_bind hR (respects_unpackEntries hR) (fun _ => ?_))
    split
    · exact respects_pure hR
    · exact respects_fail hR

lemma respects_fillRelease : Respects R (fillRelease o dst) := by
  refine respects_bind hR (respects_look hR) (fun found => ?_)
  refine respects_bind hR (respects_when hR (respects_io hR) _) (fun _ => ?_)
  refine respects_bind hR (respects_io hR) (fun _ =>
    respects_bind hR (respects_unpackTarGz hR) (fun _ => ?_))
  exact respects_bind hR (respects_look hR) (fun _ => respects_when hR (respects_quietly hR) _)

lemma respects_applySidecarManifest {m : Manifest} : Respects R (applySidecarManifest dst m) := by
  refine respects_bind hR ?_ (fun _ => respects_bind hR ?_
    (fun _ => respects_bind hR ?_ (fun _ => ?_)))
  · exact respects_bind hR (respects_io hR) (fun _ => respects_io hR)
  · exact respects_bind hR (respects_ofExcept hR) (fun _ => respects_io hR)
  · intro w
    unfold writeServiceCompose
    cases m.compose with
    | none => exact hR.refl w
    | some lines => exact hR.call _ w
  · unfold writeNginxSnippet
    split
    · exact respects_pure hR
    · exact respects_bind hR (respects_ofExcept hR) (fun _ => respects_io hR)
    · exact respects_bind hR (respects_look hR)
        (fun _ => respects_bind hR (respects_ofExcept hR) (fun _ => respects_io hR))

lemma respects_readManifest {sidecar : Option String} :
    Respects R (readManifest o dst sidecar) := by
  unfold readManifest
  split
  · exact respects_bind hR (respects_ofExcept hR) (fun _ => respects_pure hR)
  · refine respects_bind hR (respects_look hR) (fun found => ?_)
    split
    · exact respects_bind hR (respects_look hR) (fun _ => respects_bind hR (respects_ofExcept hR)
        (fun _ => respects_bind hR (respects_ofExcept hR) (fun _ => respects_pure hR)))
    · exact respects_pure hR

lemma respects_storeRelease : Respects R (storeRelease r u) := by
  rw [storeRelease_eq]
  refine respects_bind hR ?_ (fun _ => ?_)
  · exact respects_bind hR (respects_io hR)
      (fun _ => respects_bind hR (respects_fillRelease hR) (fun _ => respects_io hR))
  · refine respects_bind hR (respects_readManifest hR) (fun manifest => ?_)
    cases manifest with
    | none => exact respects_pure hR
    | some m =>
      exact respects_bind hR (respects_applySidecarManifest hR) (fun _ => respects_pure hR)

lemma respects_replaceState {root : Place} {name temp : String} {text : Bytes} :
    Respects R (replaceState root name temp text) :=
  respects_bind hR (respects_io hR) (fun _ =>
    respects_bind hR (respects_io hR) (fun _ => respects_io hR))

lemma respects_spawnRelease {root : Place} {version : String} :
    Respects R (spawnRelease cfg o root version) := by
  refine respects_bind hR (respects_io hR) (fun _ =>
    respects_bind hR (respects_io hR) (fun _ => ?_))
  refine respects_bind hR (respects_look hR) (fun found => ?_)
  split
  · exact respects_ofExcept hR
  · exact respects_fail hR

end

end

variable {cfg : Config} {r : Upload} {w : World Bytes States}

lemma receive_cons_ok (u : Option Receiving) (chunk : Chunk) (items : List (Except String Chunk)) :
    receive cfg r u (.ok chunk::items) =
      nextChunk cfg r u chunk >>= fun u' => receive cfg r (some u') items := rfl

variable {chunk : Chunk}

lemma acceptChunk_ok {u u' : Receiving}
    (h : (acceptChunk cfg u chunk w).1 = .ok u') : u' = u.add chunk := by
  unfold acceptChunk at h
  split at h
  · obtain ⟨_,_,_,h⟩ := bind_result h
    cases h
  obtain ⟨_,_,_,h⟩ := bind_result h
  split at h
  · obtain ⟨_,_,_,h⟩ := bind_result h
    cases h
  · cases h
    rfl

lemma openUpload_ok {u : Receiving} (h : (openUpload r chunk w).1 = .ok u) :
    u = ⟨chunk.version,normalizeProjectId chunk.projectId,projectDeployRoot chunk.projectId,
      stagingDir (projectDeployRoot chunk.projectId)++[tempName r.stamp],[],0,none,none⟩ := by
  obtain ⟨_,_,_,h⟩ := bind_result h
  obtain ⟨_,_,_,h⟩ := bind_result h
  obtain ⟨_,_,_,h⟩ := bind_result h
  cases h
  rfl

def soFar (u : Option Receiving) : Bytes := (u.map Receiving.received).getD []

def digested (u : Option Receiving) : Bool := u.any (fun u => u.expectedShaHex.isSome)

lemma nextChunk_ok {u : Option Receiving} {u' : Receiving}
    (h : (nextChunk cfg r u chunk w).1 = .ok u') : u'.received = soFar u++chunk.data ∧
      (u'.expectedShaHex.isSome = true → digested u = true ∨ chunk.isLast = true) := by
  have hadd : ∀ v : Receiving, u' = v.add chunk → u'.received = v.received++chunk.data ∧
      (u'.expectedShaHex.isSome = true → v.expectedShaHex.isSome = true ∨ chunk.isLast = true) := by
    rintro v rfl
    refine ⟨rfl,fun hsome => ?_⟩
    by_cases hlast : chunk.isLast = true
    · exact .inr hlast
    · exact .inl (by simpa [Receiving.add,hlast] using hsome)
  cases u with
  | none =>
    obtain ⟨v,hv,_,h⟩ := bind_result h
    obtain ⟨hreceived,hsha⟩ := hadd v (acceptChunk_ok h)
    rw [openUpload_ok hv] at hreceived hsha
    exact ⟨hreceived,fun hsome => .inr ((hsha hsome).resolve_left (by simp))⟩
  | some v =>
    unfold nextChunk at h
    dsimp only at h
    split at h
    · obtain ⟨_,_,_,h⟩ := bind_result h
      cases h
    · exact hadd v (acceptChunk_ok h)

variable {items : List (Except String Chunk)}

lemma receive_ok {u x : Option Receiving} (h : (receive cfg r u items w).1 = .ok x) :
    ∃ chunks : List Chunk, items = chunks.map .ok ∧ soFar x = soFar u++chunks.flatMap Chunk.data ∧
      (digested x = true → digested u = true ∨ ∃ c ∈ chunks, c.isLast = true) := by
  induction items generalizing u w with
  | nil =>
    cases h
    exact ⟨[],rfl,by simp,fun hd => .inl hd⟩
  | cons item items ih =>
    obtain ⟨chunk,hchunk,_,h⟩ := bind_result h
    obtain ⟨u',hu',_,h⟩ := bind_result h
    obtain ⟨hreceived,hsha⟩ := nextChunk_ok hu'
    obtain ⟨chunks,hitems,hsofar,hdigest⟩ := ih h
    have hitem : item = .ok chunk := mapError_eq_ok hchunk
    refine ⟨chunk::chunks,by rw [hitem,hitems]; rfl,?_,fun hd => ?_⟩
    · have hfirst : soFar (some u') = soFar u++chunk.data := hreceived
      rw [hsofar,hfirst]
      simp
    · rcases hdigest hd with hd | ⟨c,hc,hlast⟩
      · rcases hsha hd with hd | hlast
        · exact .inl hd
        · exact .inr ⟨chunk,List.mem_cons_self,hlast⟩
      · exact .inr ⟨c,List.mem_cons_of_mem _ hc,hlast⟩

def SameUpload (u u' : Receiving) : Prop :=
  u'.projectKey = u.projectKey ∧ u'.root = u.root ∧ u'.version = u.version

variable {u : Receiving}

lemma receive_same {x : Option Receiving}
    (h : (receive cfg r (some u) items w).1 = .ok x) : ∃ u', x = some u' ∧ SameUpload u u' := by
  induction items generalizing u w with
  | nil =>
    cases h
    exact ⟨u,rfl,rfl,rfl,rfl⟩
  | cons item items ih =>
    obtain ⟨chunk,_,_,h⟩ := bind_result h
    obtain ⟨u',hu',_,h⟩ := bind_result h
    unfold nextChunk at hu'
    dsimp only at hu'
    split at hu'
    · obtain ⟨_,_,_,hu'⟩ := bind_result hu'
      cases hu'
    · obtain ⟨v,hv,hkey,hroot,hversion⟩ := ih h
      rw [acceptChunk_ok hu'] at hkey hroot hversion
      exact ⟨v,hv,hkey,hroot,hversion⟩

lemma received_first (h : (received cfg r w).1 = .ok u) :
    ∃ chunk items, r.stream = .ok chunk::items ∧ checkFirst r chunk = .ok () ∧
      u.projectKey = normalizeProjectId chunk.projectId ∧
      u.root = projectDeployRoot chunk.projectId ∧ u.version = chunk.version := by
  obtain ⟨x,hx,_,h⟩ := bind_result h
  cases hstream : r.stream with
  | nil =>
    rw [hstream] at hx
    cases hx
    cases h
  | cons item items =>
    rw [hstream] at hx
    obtain ⟨chunk,hchunk,_,hx⟩ := bind_result hx
    obtain ⟨u₁,hu₁,_,hx⟩ := bind_result hx
    obtain ⟨u₀,hopen,_,haccept⟩ := bind_result hu₁
    obtain ⟨u₂,hu₂,hkey,hroot,hversion⟩ := receive_same hx
    subst hu₂
    obtain ⟨_,_,_,hend⟩ := bind_result h
    cases hend
    obtain ⟨_,hcheck,_,_⟩ := bind_result hopen
    have hadded := acceptChunk_ok haccept
    have hopened := openUpload_ok hopen
    rw [hadded,hopened] at hkey hroot hversion
    simp only [Receiving.add] at hkey hroot hversion
    have hitem : item = .ok chunk := mapError_eq_ok hchunk
    exact ⟨chunk,items,by rw [hitem],hcheck,hkey,hroot,hversion⟩

lemma verifyHash_ok (h : (verifyHash cfg u w).1 = .ok ()) : u.expectedShaHex.isSome = true := by
  cases hhex : u.expectedShaHex with
  | some hex => rfl
  | none =>
    simp only [verifyHash,hhex] at h
    obtain ⟨_,_,_,h⟩ := bind_result h
    cases h

lemma received_ok (h : (received cfg r w).1 = .ok u) :
    ∃ chunks : List Chunk, r.stream = chunks.map .ok ∧ u.received = chunks.flatMap Chunk.data ∧
      ∃ c ∈ chunks, c.isLast = true := by
  obtain ⟨x,hx,_,h⟩ := bind_result h
  obtain ⟨chunks,hitems,hsofar,hdigest⟩ := receive_ok hx
  cases x with
  | none => cases h
  | some v =>
    obtain ⟨_,hverify,_,h⟩ := bind_result h
    cases h
    refine ⟨chunks,hitems,hsofar,?_⟩
    exact (hdigest (verifyHash_ok hverify)).resolve_left (by simp [digested])

end PirateServer.Deploy
