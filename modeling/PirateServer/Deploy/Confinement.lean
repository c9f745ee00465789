import PirateServer.Deploy.Stages

/-! What the requests of the deploy server do to the file system, step by step. A request stays with
the places of its project and its release, as long as neither has a dot for a name and no archive
brings a link. -/
namespace PirateServer.Deploy
open Lib FileTree Script ProxySession List

/-- The places that the requests of one project use, for the release `v`. -/
structure Allows (root : Place) (v : String) (G : Guarantee Bytes) : Prop where
  above : ∀ q, q ≠ [] → q <+: releasesDir root → G.rel q none (some .dir)
  staging : ∀ q, stagingDir root <+: q → G.Free q
  pirate : ∀ q, pirateDir root <+: q → G.Free q
  release : ∀ q, releaseDirForVersion root v <+: q → G.Free q
  link : ∀ c ∈ linkNames, G.Free (root++[c])

/-- The places that an upload uses while it is received. -/
structure Receives (root : Place) (stamp : ℕ) (G : Guarantee Bytes) : Prop where
  above : ∀ q, q ≠ [] → q <+: root → G.rel q none (some .dir)
  staging : G.rel (stagingDir root) none (some .dir)
  temp : G.Free (stagingDir root++[tempName stamp])

/-- The places that it uses while the release `v` is made. -/
structure Releases (root : Place) (v : String) (G : Guarantee Bytes) : Prop where
  above : ∀ q, q ≠ [] → q <+: root → G.rel q none (some .dir)
  releases : G.rel (releasesDir root) none (some .dir)
  release : ∀ q, releaseDirForVersion root v <+: q → G.Free q

/-- The places that a project uses while it runs. -/
structure Starts (root : Place) (G : Guarantee Bytes) : Prop where
  above : ∀ q, q ≠ [] → q <+: root → G.rel q none (some .dir)
  pirate : ∀ q, pirateDir root <+: q → G.Free q

variable {G : Guarantee Bytes} {root : Place} {v : String}

section
variable (ha : Allows root v G)
include ha

lemma Allows.above_root : ∀ q, q ≠ [] → q <+: root → G.rel q none (some .dir) :=
  fun q hne hq => ha.above q hne (hq.trans (prefix_append _ _))

lemma Allows.receives (stamp : ℕ) : Receives root stamp G :=
  ⟨ha.above_root,ha.staging _ (prefix_refl _) _ _,ha.staging _ (prefix_append _ _)⟩

lemma Allows.releases : Releases root v G :=
  ⟨ha.above_root,ha.above _ (by simp [releasesDir]) (prefix_refl _),ha.release⟩

lemma Allows.starts : Starts root G := ⟨ha.above_root,ha.pirate⟩

end

variable {α : Type} {context : String}

lemma within_io {op : Op Bytes α} (h : Confined LinkPlace G op) :
    Within LinkPlace G (io context op) (fun _ => True) := within_mapError (within_call h)

lemma within_quietly {op : Op Bytes Unit} (h : Confined LinkPlace G op) :
    Within LinkPlace G (quietly op) (fun _ => True) := within_ignore (within_call h)

lemma within_updateState {key : String} {f : AppState → AppState} :
    Within LinkPlace G (updateState key f) (fun _ => True) := within_remember _

section

def PlainName (c : String) : Prop := c ∉ linkNames ∧ c ≠ "projects" ∧ c ≠ "." ∧ c ≠ ".."

instance (c : String) : Decidable (PlainName c) := inferInstanceAs (Decidable (_ ∧ _ ∧ _ ∧ _))

variable {c : String}

lemma straight_name (last : Bool) {cs : List String} (hr : ProjectRoot root)
    (hc : PlainName c) (hcs : ∀ d ∈ cs, d ≠ "." ∧ d ≠ "..") :
    Straight LinkPlace last (root++c::cs) := by
  refine straight_below last hr hc.1 hc.2.1 (fun d hd => ?_)
  rcases List.mem_cons.mp hd with rfl | hd
  · exact hc.2.2
  · exact hcs d hd

lemma confined_createDir (hr : ProjectRoot root)
    (habove : ∀ q, q ≠ [] → q <+: root → G.rel q none (some .dir)) (hc : PlainName c)
      (hG : G.rel (root++[c]) none (some .dir)) :
    Confined LinkPlace G (createDirAll (root++[c]) : Op Bytes Unit) := by
  refine confined_createDirAll (straight_name true hr hc (by simp)) (fun q hne hq => ?_)
  rcases List.prefix_concat_iff.mp hq with rfl | hq
  · exact hG
  · exact habove q hne hq

lemma straight_release (last : Bool) (cs : List String) (hr : ProjectRoot root)
    (hv : v ≠ "." ∧ v ≠ "..") (hcs : ∀ d ∈ cs, d ≠ "." ∧ d ≠ "..") :
    Straight LinkPlace last (releaseDirForVersion root v++cs) := by
  have hpath : releaseDirForVersion root v++cs = root++"releases"::v::cs := by
    simp [releaseDirForVersion,releasesDir]
  rw [hpath]
  refine straight_name last hr (by decide) (fun d hd => ?_)
  rcases List.mem_cons.mp hd with rfl | hd
  · exact hv
  · exact hcs d hd

lemma straight_pirate (last : Bool) (hr : ProjectRoot root) (hc : c ≠ "." ∧ c ≠ "..") :
    Straight LinkPlace last (pirateDir root++[c]) := by
  have hpath : pirateDir root++[c] = root++".pirate"::[c] := by simp [pirateDir]
  rw [hpath]
  exact straight_name last hr (by decide) (by simpa using hc)

lemma parent_concat {p : List String} (hp : ∀ d ∈ p, d ≠ ".") (hc : c ≠ ".") :
    parent (p++[c]) = p := by
  have hfilter : (p++[c]).filter (· ≠ ".") = p++[c] := by
    rw [filter_eq_self]
    intro d hd
    rcases List.mem_append.mp hd with hd | hd
    · simpa using hp d hd
    · rw [List.mem_singleton.mp hd]
      simpa using hc
  unfold parent
  rw [hfilter]
  split
  · simp_all
  · rw [dropLast_concat]

lemma parent_parent (hr : ProjectRoot root) (hv : v ≠ "." ∧ v ≠ "..") :
    parent (parent (releaseDirForVersion root v)) = root := by
  have hroot : ∀ d ∈ root, d ≠ "." := fun d hd => (hr.regular d hd).1
  have hreleases : ∀ d ∈ releasesDir root, d ≠ "." := by
    intro d hd
    rcases List.mem_append.mp hd with hd | hd
    · exact hroot d hd
    · rw [List.mem_singleton.mp hd]
      decide
  rw [releaseDirForVersion,parent_concat hreleases hv.1,releasesDir,parent_concat hroot (by decide)]

lemma tempName_regular (stamp : ℕ) : tempName stamp ≠ "." ∧ tempName stamp ≠ ".." := by
  have hfirst : (tempName stamp).toList.head? = some 'u' := by
    simp [tempName,String.toList_append]
  constructor
  all_goals
    intro h
    rw [h] at hfirst
    exact absurd hfirst (by decide)

end

/-! The steps of an upload. -/

variable {stamp : ℕ}

section
variable {cfg : Config} {r : Upload} {o : Outside}

/-- The upload has found its project and its version. -/
structure Ready (root : Place) (v : String) (stamp : ℕ) (u : Receiving) : Prop where
  root_eq : u.root = root
  version_eq : u.version = v
  temp_eq : u.tempPath = stagingDir root++[tempName stamp]
  version_regular : v ≠ "." ∧ v ≠ ".."

lemma straight_temp (last : Bool) (hr : ProjectRoot root) (stamp : ℕ) :
    Straight LinkPlace last (stagingDir root++[tempName stamp]) := by
  have hpath : stagingDir root++[tempName stamp] = root++".staging"::[tempName stamp] := by
    simp [stagingDir]
  rw [hpath]
  exact straight_name last hr (by decide) (by simpa using tempName_regular stamp)

lemma confined_writeTemp {f : Option Bytes → Bytes} (hr : ProjectRoot root)
    (ha : Receives root stamp G) : Confined LinkPlace G
      (write (stagingDir root++[tempName stamp]) f) :=
  confined_write (straight_temp true hr stamp) ha.temp

lemma confined_removeTemp (hr : ProjectRoot root) (ha : Receives root stamp G) :
    Confined LinkPlace G (removeFile (stagingDir root++[tempName stamp]) : Op Bytes Unit) :=
  confined_removeFile (straight_temp false hr stamp) ha.temp

variable {u : Receiving}

lemma within_discard {post : α → Prop} (hr : ProjectRoot root)
    (ha : Receives root r.stamp G) (hu : Ready root v r.stamp u) (status : Status) :
    Within LinkPlace G (discard u status : Handler α) post := by
  unfold discard
  rw [hu.temp_eq]
  exact within_then (within_quietly (confined_removeTemp hr ha)) (fun _ => within_fail status)

variable {chunk : Chunk}

lemma version_of_checkFirst (h : checkFirst r chunk = .ok ()) :
    validateVersion chunk.version = .ok () := by
  unfold checkFirst at h
  split at h
  · cases h
  split at h
  · cases h
  obtain ⟨_,hv,_⟩ := bind_eq_ok h
  exact mapError_eq_ok hv

lemma within_openUpload (hr : ProjectRoot root) (ha : Receives root r.stamp G)
    (hroot : projectDeployRoot chunk.projectId = root) (hv : chunk.version = v) (hdot : v ≠ ".") :
    Within LinkPlace G (openUpload r chunk) (Ready root v r.stamp) := by
  unfold openUpload
  rw [hroot,hv]
  refine within_bind (within_ofExcept _) (fun _ hcheck => ?_)
  have hversion := version_of_checkFirst hcheck
  rw [hv] at hversion
  refine within_then (within_io ?_) (fun _ => ?_)
  · exact confined_createDir hr ha.above (by decide) ha.staging
  refine within_then (within_io (confined_writeTemp hr ha)) (fun _ => ?_)
  exact within_pure ⟨rfl,rfl,rfl,validateVersion_regular hversion hdot⟩

lemma within_acceptChunk (hr : ProjectRoot root)
    (ha : Receives root r.stamp G) (hu : Ready root v r.stamp u) :
    Within LinkPlace G (acceptChunk cfg u chunk) (Ready root v r.stamp) := by
  have hdiscard : ∀ status,
      Within LinkPlace G (discard u status : Handler Receiving) (Ready root v r.stamp) :=
    fun status => within_discard hr ha hu status
  unfold acceptChunk
  split
  · exact hdiscard _
  refine within_then (within_io ?_) (fun _ => ?_)
  · rw [hu.temp_eq]
    exact confined_writeTemp hr ha
  · split
    · exact hdiscard _
    · exact within_pure ⟨hu.root_eq,hu.version_eq,hu.temp_eq,hu.version_regular⟩

def firstChunk : List (Except String Chunk) → Option Chunk
  | .ok chunk::_ => some chunk
  | _ => none

section
variable (hr : ProjectRoot root) (ha : Receives root r.stamp G)
include hr ha

lemma within_nextChunk {u : Option Receiving} (hu : ∀ u', u = some u' → Ready root v r.stamp u')
    (hfirst : u = none → projectDeployRoot chunk.projectId = root ∧ chunk.version = v ∧ v ≠ ".") :
    Within LinkPlace G (nextChunk cfg r u chunk) (Ready root v r.stamp) := by
  cases u with
  | none =>
    obtain ⟨hroot,hv,hdot⟩ := hfirst rfl
    exact within_bind (within_openUpload hr ha hroot hv hdot)
      (fun u' hu' => within_acceptChunk hr ha hu')
  | some u =>
    unfold nextChunk
    dsimp only
    split
    · exact within_discard hr ha (hu u rfl) _
    · exact within_acceptChunk hr ha (hu u rfl)

lemma within_receive {u : Option Receiving} {items : List (Except String Chunk)}
    (hu : ∀ u', u = some u' → Ready root v r.stamp u')
    (hfirst : u = none → ∀ chunk, firstChunk items = some chunk →
      projectDeployRoot chunk.projectId = root ∧ chunk.version = v ∧ v ≠ ".") :
    Within LinkPlace G (receive cfg r u items)
      (fun x => ∀ u', x = some u' → Ready root v r.stamp u') := by
  induction items generalizing u with
  | nil => exact within_pure hu
  | cons item items ih =>
    refine within_bind (within_ofExcept _) (fun chunk hchunk => ?_)
    have hitem : item = .ok chunk := mapError_eq_ok hchunk
    have hnext : u = none → projectDeployRoot chunk.projectId = root ∧
        chunk.version = v ∧ v ≠ "." :=
      fun hnone => hfirst hnone chunk (by rw [hitem]; rfl)
    refine within_bind (within_nextChunk hr ha hu hnext) (fun u' hu' => ?_)
    refine ih (fun u'' heq => ?_) (fun hnone => by cases hnone)
    cases heq
    exact hu'

lemma within_verifyHash
    (hu : Ready root v r.stamp u) : Within LinkPlace G (verifyHash cfg u) (fun _ => True) := by
  have hdiscard : ∀ status,
      Within LinkPlace G (discard u status : Handler Unit) (fun _ => True) :=
    fun status => within_discard hr ha hu status
  unfold verifyHash
  split
  · exact hdiscard _
  split
  · exact hdiscard _
  · split
    · exact hdiscard _
    · split
      · exact hdiscard _
      · exact within_pure trivial

end

end

/-! The release directory. -/

section
variable {o : Outside}

def Outside.linkFree (o : Outside) : Prop :=
  ∀ e ∈ o.tar.1++o.tarEntries.1, ∀ target, e.node ≠ .link target

lemma straight_releaseDir (last : Bool) (hr : ProjectRoot root) (hv : v ≠ "." ∧ v ≠ "..") :
    Straight LinkPlace last (releaseDirForVersion root v) := by
  simpa using straight_release last [] hr hv (by simp)

section
variable (hr : ProjectRoot root) (ha : Releases root v G) (hv : v ≠ "." ∧ v ≠ "..")
include hr ha hv

lemma confined_createRelease :
    Confined LinkPlace G (createDirAll (releaseDirForVersion root v) : Op Bytes Unit) := by
  refine confined_createDirAll (straight_releaseDir true hr hv) (fun q hne hq => ?_)
  rcases List.prefix_concat_iff.mp hq with rfl | hq
  · exact ha.release _ (prefix_refl _) _ _
  rcases List.prefix_concat_iff.mp hq with rfl | hq
  · exact ha.releases
  · exact ha.above q hne hq

lemma confined_writeRelease {c : String} {f : Option Bytes → Bytes} (hc : c ≠ "." ∧ c ≠ "..") :
    Confined LinkPlace G (write (releaseDirForVersion root v++[c]) f) :=
  confined_write (straight_release true [c] hr hv (by simpa using hc))
    (ha.release _ (prefix_append _ _))

lemma confined_chmodRunSh : Confined LinkPlace G
      (setPermissions (releaseDirForVersion root v++["run.sh"]) 0o755 : Op Bytes Unit) :=
  confined_setPermissions (straight_release true ["run.sh"] hr hv (by decide))
    (ha.release _ (prefix_append _ _))

lemma confined_extractRelease {e : Entry Bytes} (he : ∀ target, e.node ≠ .link target) :
    Confined LinkPlace G (extract (releaseDirForVersion root v) e) :=
  confined_extract (straight_releaseDir true hr hv) ha.release he

variable {es : List (Entry Bytes)}

section
variable (he : ∀ e ∈ es, ∀ target, e.node ≠ .link target)
include he

lemma within_runTar :
    Within LinkPlace G (runTar (releaseDirForVersion root v) es) (fun _ => True) := by
  induction es with
  | nil => exact within_pure trivial
  | cons e es ih =>
    have hentry := confined_extractRelease hr ha hv (he e mem_cons_self)
    refine within_then (within_attempt (within_call hentry)) (fun _ => ?_)
    refine within_then (ih (fun d hd => he d (mem_cons_of_mem _ hd))) (fun _ => ?_)
    exact within_pure trivial

lemma within_unpackEntries :
    Within LinkPlace G (unpackEntries (releaseDirForVersion root v) es) (fun _ => True) := by
  induction es with
  | nil => exact within_pure trivial
  | cons e es ih =>
    unfold unpackEntries
    split
    · exact within_fail _
    · have hentry := confined_extractRelease hr ha hv (he e mem_cons_self)
      refine within_then (within_io hentry) (fun _ => ?_)
      exact ih (fun d hd => he d (mem_cons_of_mem _ hd))

end

lemma within_unpackTarGz (ho : o.linkFree) :
    Within LinkPlace G (unpackTarGz o (releaseDirForVersion root v)) (fun _ => True) := by
  have hcreate : Within LinkPlace G (io "" (createDirAll (releaseDirForVersion root v)))
      (fun _ => True) := within_io (confined_createRelease hr ha hv)
  refine within_then hcreate (fun _ => ?_)
  have htar := within_runTar hr ha hv (fun e he => ho e (mem_append_left _ he))
  refine within_then htar (fun _ => ?_)
  split
  · exact within_pure trivial
  refine within_then hcreate (fun _ => ?_)
  have hentries := within_unpackEntries hr ha hv (fun e he => ho e (mem_append_right _ he))
  refine within_then hentries (fun _ => ?_)
  split
  · exact within_pure trivial
  · exact within_fail _

lemma within_fillRelease (ho : o.linkFree) :
    Within LinkPlace G (fillRelease o (releaseDirForVersion root v)) (fun _ => True) := by
  refine within_then (within_look _) (fun _ => ?_)
  refine within_then (within_when (within_io ?_)) (fun _ => ?_)
  · exact confined_removeDirAll (straight_releaseDir false hr hv) ha.release
  refine within_then (within_io (confined_createRelease hr ha hv)) (fun _ => ?_)
  refine within_then (within_unpackTarGz hr ha hv ho) (fun _ => ?_)
  refine within_then (within_look _) (fun _ => ?_)
  exact within_when (within_quietly (confined_chmodRunSh hr ha hv))

end

lemma within_unpackRelease (hr : ProjectRoot root) (ht : Receives root stamp G)
    (ha : Releases root v G) (hv : v ≠ "." ∧ v ≠ "..") (ho : o.linkFree) : Within LinkPlace G
      (unpackRelease o (stagingDir root++[tempName stamp]) (releaseDirForVersion root v))
      (fun _ => True) := by
  rw [unpackRelease_eq]
  exact within_then (within_fillRelease hr ha hv ho)
    (fun _ => within_io (confined_removeTemp hr ht))

def ComposeAllowed (o : Outside) (root : Place) (G : Guarantee Bytes) : Prop :=
  ∀ text m, o.parse text = .ok m → m.compose ≠ none → G.Free (root++["docker-compose.pirate.yml"])

lemma within_writeServiceCompose {m : Manifest} (hr : ProjectRoot root)
    (hcompose : m.compose ≠ none → G.Free (root++["docker-compose.pirate.yml"])) :
    Within LinkPlace G (writeServiceCompose root m) (fun _ => True) := by
  unfold writeServiceCompose
  split
  · exact within_pure trivial
  · rename_i lines hlines
    refine within_io (confined_write (straight_name true hr (by decide) (by simp)) ?_)
    exact hcompose (by rw [hlines]; simp)

lemma within_applySidecarManifest {m : Manifest} (hr : ProjectRoot root) (ha : Releases root v G)
    (hv : v ≠ "." ∧ v ≠ "..")
    (hcompose : m.compose ≠ none → G.Free (root++["docker-compose.pirate.yml"])) :
    Within LinkPlace G (applySidecarManifest (releaseDirForVersion root v) m) (fun _ => True) := by
  have hwrite : ∀ (c : String) (text : Bytes), c ≠ "." ∧ c ≠ ".." →
      Within LinkPlace G (io "" (write (releaseDirForVersion root v++[c]) (fun _ => text)))
        (fun _ => True) :=
    fun c text hc => within_io (confined_writeRelease hr ha hv hc)
  unfold applySidecarManifest
  rw [parent_parent hr hv]
  refine within_then ?_ (fun _ => within_then ?_ (fun _ => within_then ?_ (fun _ => ?_)))
  · refine within_then (hwrite "run.sh" _ (by decide)) (fun _ => ?_)
    exact within_io (confined_chmodRunSh hr ha hv)
  · refine within_bind (within_ofExcept _) (fun toml _ => ?_)
    exact hwrite "pirate.toml" toml (by decide)
  · exact within_ignore (within_writeServiceCompose hr hcompose)
  unfold writeNginxSnippet
  split
  · exact within_pure trivial
  · refine within_bind (within_ofExcept _) (fun content _ => ?_)
    exact hwrite _ content (by decide)
  · refine within_then (within_look _) (fun content => ?_)
    refine within_bind (within_ofExcept _) (fun content _ => ?_)
    exact hwrite _ content (by decide)

lemma within_readManifest {dir : List String} {sidecar : Option String} :
    Within LinkPlace G (readManifest o dir sidecar)
      (fun x => ∀ m, x = some m → ∃ text, o.parse text = .ok m) := by
  unfold readManifest
  split
  · refine within_bind (within_ofExcept _) (fun m hm => within_pure ?_)
    intro m' heq
    cases heq
    exact ⟨_,mapError_eq_ok hm⟩
  · refine within_then (within_look _) (fun found => ?_)
    split
    · refine within_then (within_look _) (fun _ => ?_)
      refine within_bind (within_ofExcept _) (fun raw _ => ?_)
      refine within_bind (within_ofExcept _) (fun m hm => within_pure ?_)
      intro m' heq
      cases heq
      exact ⟨raw,mapError_eq_ok hm⟩
    · exact within_pure (fun m hm => by cases hm)

lemma within_storeRelease {r : Upload} {u : Receiving} (hr : ProjectRoot root)
    (ht : Receives root r.stamp G) (ha : Releases root v G) (hu : Ready root v r.stamp u)
      (ho : r.outside.linkFree)
    (hcompose : ComposeAllowed r.outside root G) :
    Within LinkPlace G (storeRelease r u) (fun _ => True) := by
  have hv := hu.version_regular
  unfold storeRelease
  rw [hu.root_eq,hu.version_eq,hu.temp_eq]
  refine within_then (within_io ?_) (fun _ => ?_)
  · exact confined_createDir hr ha.above (by decide) ha.releases
  refine within_then (within_unpackRelease hr ht ha hv ho) (fun _ => ?_)
  refine within_bind within_readManifest (fun manifest hmanifest => ?_)
  cases manifest with
  | none => exact within_pure trivial
  | some m =>
    obtain ⟨text,htext⟩ := hmanifest m rfl
    refine within_then (within_applySidecarManifest hr ha hv (hcompose text m htext)) (fun _ => ?_)
    exact within_pure trivial

end

/-! The switch to a release. -/

section
variable {cfg : Config} {o : Outside} {key version : String}

lemma within_setCurrentSymlink (hr : ProjectRoot root) (ha : Allows root v G) :
    Within LinkPlace G (setCurrentSymlink root version) (fun _ => True) := by
  have htemp := straight_link hr (c := ".current.tmp") (by decide)
  have hcurrent := straight_link hr (c := "current") (by decide)
  refine within_then (within_ignore (within_call ?_)) (fun _ => within_then ?_ (fun _ => ?_))
  · exact confined_removeFile htemp (ha.link _ (by decide))
  · exact within_call (confined_symlink htemp (ha.link _ (by decide)) (hr.linkPlace (by decide)))
  · exact within_call (confined_rename htemp hcurrent (ha.link _ (by decide))
      (ha.link _ (by decide)) (fun _ => hr.linkPlace (by decide)))

lemma not_linkPlace_of_straight {path : List String} (h : Straight LinkPlace true path)
    (hne : path ≠ []) : ¬LinkPlace path :=
  h.clear path (List.nil_prefix) hne (prefix_refl path) (.inr rfl)

section
variable (hr : ProjectRoot root)
include hr

lemma within_replaceState {name temp : String} {text : Bytes}
    (ha : Starts root G) (hname : name ≠ "." ∧ name ≠ "..") (htemp : temp ≠ "." ∧ temp ≠ "..") :
    Within LinkPlace G (replaceState root name temp text) (fun _ => True) := by
  have hfree : ∀ c, G.Free (pirateDir root++[c]) := fun c => ha.pirate _ (prefix_append _ _)
  refine within_then (within_io ?_) (fun _ => within_then (within_io ?_) (fun _ => within_io ?_))
  · exact confined_createDir hr ha.above (by decide) (ha.pirate _ (prefix_refl _) _ _)
  · exact confined_write (straight_pirate true hr htemp) (hfree temp)
  · refine confined_rename (straight_pirate false hr htemp) (straight_pirate false hr hname)
      (hfree temp) (hfree name) (fun hlink => ?_)
    exact absurd hlink (not_linkPlace_of_straight (straight_pirate true hr htemp) (by simp))

lemma within_spawnRelease (ha : Starts root G) :
    Within LinkPlace G (spawnRelease cfg o root version) (fun _ => True) := by
  refine within_then (within_io ?_) (fun _ => within_then (within_io ?_) (fun _ => ?_))
  · exact confined_createDir hr ha.above (by decide) (ha.pirate _ (prefix_refl _) _ _)
  · exact confined_write (straight_pirate true hr (by decide)) (ha.pirate _ (prefix_append _ _))
  · refine within_then (within_look _) (fun _ => ?_)
    split
    · exact (within_ofExcept _).weaken
    · exact within_fail _

lemma within_switchCurrent (ha : Allows root v G) :
    Within LinkPlace G (switchCurrent key root version) (fun _ => True) := by
  refine within_then within_updateState (fun _ => ?_)
  refine within_then (within_attempt (within_setCurrentSymlink hr ha)) (fun linked => ?_)
  cases linked with
  | ok _ => exact within_pure trivial
  | error e => exact within_then within_updateState (fun _ => within_fail _)

lemma within_startRelease (ha : Starts root G) :
    Within LinkPlace G (startRelease cfg o key root version) (fun _ => True) := by
  refine within_then (within_attempt (within_spawnRelease hr ha)) (fun started => ?_)
  cases started with
  | ok _ => exact within_updateState
  | error e => exact within_then within_updateState (fun _ => within_fail _)

end

variable {manifest : Option Manifest}

lemma within_applyVhost (hr : ProjectRoot root) (ha : Starts root G) :
    Within LinkPlace G (applyVhost o root manifest) (fun _ => True) := by
  unfold applyVhost
  split
  · exact within_ignore (within_replaceState hr ha (by decide) (by decide))
  · exact within_pure trivial

lemma within_activate {r : Upload} {u : Receiving}
    (hr : ProjectRoot root) (ha : Allows root v G) (hu : Ready root v r.stamp u) :
    Within LinkPlace G (activate cfg o u manifest) (fun _ => True) := by
  unfold activate
  rw [hu.root_eq]
  refine within_then (within_switchCurrent hr ha) (fun _ => ?_)
  refine within_then (within_applyVhost hr ha.starts) (fun _ => ?_)
  refine within_then (within_startRelease hr ha.starts) (fun _ => ?_)
  exact within_when (within_ignore (within_replaceState hr ha.starts (by decide) (by decide)))

end

/-! Whole requests. -/

variable {cfg : Config}

lemma within_receiveAll {r : Upload} (hr : ProjectRoot root) (ht : Receives root r.stamp G)
    (hfirst : ∀ chunk, firstChunk r.stream = some chunk →
      projectDeployRoot chunk.projectId = root ∧ chunk.version = v ∧ v ≠ ".") :
    Within LinkPlace G (receive cfg r none r.stream)
      (fun x => ∀ u, x = some u → Ready root v r.stamp u) :=
  within_receive hr ht (fun _ h => by cases h) (fun _ => hfirst)

theorem within_upload {r : Upload} (hr : ProjectRoot root) (ha : Allows root v G)
    (hfirst : ∀ chunk, firstChunk r.stream = some chunk →
      projectDeployRoot chunk.projectId = root ∧ chunk.version = v ∧ v ≠ ".")
    (ho : r.outside.linkFree) (hcompose : ComposeAllowed r.outside root G) :
    Within LinkPlace G (upload cfg r) (fun _ => True) := by
  refine within_bind (within_receiveAll hr (ha.receives _) hfirst) (fun received hready => ?_)
  cases received with
  | none => exact within_fail _
  | some u =>
    have hu := hready u rfl
    refine within_then (within_verifyHash hr (ha.receives _) hu) (fun _ => ?_)
    refine within_then (within_storeRelease hr (ha.receives _) ha.releases hu ho hcompose)
      (fun manifest => ?_)
    exact within_activate hr ha hu

theorem within_rollback {r : Rollback} (hr : ProjectRoot root) (ha : Allows root v G)
    (hroot : projectDeployRoot r.projectId = root) :
    Within LinkPlace G (rollback cfg r) (fun _ => True) := by
  unfold rollback
  rw [hroot]
  refine within_then (within_ofExcept _).weaken (fun _ => ?_)
  refine within_then (within_ofExcept _).weaken (fun _ => ?_)
  refine within_then (within_look _) (fun found => ?_)
  split
  · exact within_then (within_switchCurrent hr ha) (fun _ => within_startRelease hr ha.starts)
  · exact within_fail _

lemma within_clearDefault (ha : Allows [] v G) (hreleases : ∀ q, releasesDir [] <+: q → G.Free q) :
    Within LinkPlace G (clearDefault []) (fun _ => True) := by
  refine within_then (within_look _) (fun _ => within_then (within_when (within_quietly ?_)) ?_)
  · exact confined_removeFile (straight_link .base (by decide)) (ha.link _ (by decide))
  refine fun _ => within_then (within_look _) (fun _ => within_then (within_when (within_io ?_)) ?_)
  · exact confined_removeDirAll (straight_name false .base (by decide) (by simp)) hreleases
  refine fun _ => within_then (within_look _) (fun _ => within_when (within_quietly ?_))
  exact confined_removeDirAll (straight_name false .base (by decide) (by simp)) ha.pirate

/-- The default project loses its parts, any other one its directory. -/
theorem within_removeProject {r : RemoveProject} (hr : ProjectRoot root) (ha : Allows root v G)
    (hroot : projectDeployRoot r.projectId = root)
    (hreleases : ∀ q, releasesDir root <+: q → G.Free q)
    (hall : root ≠ [] → ∀ q, root <+: q → G.Free q) :
    Within LinkPlace G (removeProject r) (fun _ => True) := by
  unfold removeProject
  rw [hroot]
  refine within_then (within_ofExcept _).weaken (fun _ => ?_)
  refine within_then within_updateState (fun _ => ?_)
  split
  · exact within_then within_updateState (fun _ => within_fail _)
  refine within_then within_updateState (fun _ => ?_)
  unfold projectDeployRoot at hroot
  split
  · rename_i hkey
    rw [if_pos hkey] at hroot
    subst hroot
    exact within_clearDefault ha hreleases
  · rename_i hkey
    rw [if_neg hkey] at hroot
    subst hroot
    refine within_then (within_look _) (fun _ => within_when (within_io ?_))
    cases hr with
    | project dot dots =>
      exact confined_removeDirAll (straight_root false dot dots) (hall (by simp))

end PirateServer.Deploy
