import PirateServer.Deploy.Confinement
import PirateServer.Lib.Run

/-! Projects and releases are kept apart on disk: over any sequence of requests for one project the
files of another one stay as they are, and an upload changes nothing but its release and the state
of its project. -/
namespace PirateServer.Deploy
open Lib FileTree Script

def Owned (root p : Place) : Prop := ∃ c ∈ ["releases","current",".pirate"], root++[c] <+: p

/-- The places that requests for a project can change: anything in its directory, but for the
default project only what is not among the other projects. -/
inductive Touched : Place → Place → Prop
  | base {c : String} {cs : List String} (name : c ≠ "projects") : Touched [] (c::cs)
  | above {n : String} : Touched ["projects",n] ["projects"]
  | project {n : String} {cs : List String} : Touched ["projects",n] ("projects"::n::cs)

inductive UploadPlace (root : Place) (v : String) (p : Place) : Prop
  | staging (below : stagingDir root <+: p)
  | runtime (below : pirateDir root <+: p)
  | current {c : String} (name : c ∈ linkNames) (here : p = root++[c])
  | release (below : releaseDirForVersion root v <+: p)

def onlyTouched (root : Place) : Guarantee Bytes where
  rel p a b := Touched root p ∨ a = b
  refl _ _ := .inr rfl
  trans := by
    rintro p a b c (h | rfl) h'
    · exact .inl h
    · exact h'

/-- Only the places with the property `free` change; at those with `made` a directory may be made.
-/
def onlyAt (free made : Place → Prop) : Guarantee Bytes where
  rel p a b := free p ∨ a = b ∨ (a = none ∧ b = some .dir ∧ made p)
  refl _ _ := .inr (.inl rfl)
  trans := by
    rintro p a b c (h | rfl | ⟨rfl,rfl,hp⟩) h'
    · exact .inl h
    · exact h'
    · rcases h' with h' | rfl | ⟨hb,_⟩
      · exact .inl h'
      · exact .inr (.inr ⟨rfl,rfl,hp⟩)
      · cases hb

/-- Only places of the upload change, but the directories above its release may be made. -/
def onlyUpload (root : Place) (v : String) : Guarantee Bytes where
  rel p a b := UploadPlace root v p ∨ a = b ∨ (a = none ∧ b = some .dir ∧ p <+: releasesDir root)
  refl _ _ := .inr (.inl rfl)
  trans := (onlyAt (UploadPlace root v) (· <+: releasesDir root)).trans

variable {root : Place} {v : String}

lemma touched_of_below {c : String} {q : Place} (hr : ProjectRoot root) (hc : c ≠ "projects")
    (hq : root++[c] <+: q) : Touched root q := by
  obtain ⟨cs,rfl⟩ := hq
  cases hr with
  | base => exact .base hc
  | project dot dots => exact .project

lemma touched_of_above {q : Place} (hr : ProjectRoot root) (hne : q ≠ [])
    (hq : q <+: releasesDir root) : Touched root q := by
  rcases List.prefix_concat_iff.mp hq with rfl | hq
  · exact touched_of_below hr (by decide) (List.prefix_refl _)
  cases hr with
  | base => exact absurd (List.prefix_nil.mp hq) hne
  | project dot dots =>
    obtain ⟨cs,hcs⟩ := hq
    cases q with
    | nil => exact absurd rfl hne
    | cons a q =>
      cases q with
      | nil =>
        cases hcs
        exact .above
      | cons b q =>
        obtain ⟨rfl,rfl,_⟩ : a = "projects" ∧ b = _ ∧ q++cs = [] := by simpa using hcs
        exact .project

lemma allows_touched (hr : ProjectRoot root) : Allows root v (onlyTouched root) := by
  refine ⟨fun q hne hq => .inl (touched_of_above hr hne hq),fun q hq _ _ => .inl ?_,
    fun q hq _ _ => .inl ?_,fun q hq _ _ => .inl ?_,fun c hc _ _ => .inl ?_⟩
  · exact touched_of_below hr (by decide) hq
  · exact touched_of_below hr (by decide) hq
  · exact touched_of_below hr (by decide) ((List.prefix_append _ _).trans hq)
  · refine touched_of_below hr ?_ (List.prefix_refl _)
    rintro rfl
    exact absurd hc (by decide)

lemma allows_upload (root : Place) (v : String) : Allows root v (onlyUpload root v) :=
  ⟨fun _ _ hq => .inr (.inr ⟨rfl,rfl,hq⟩),fun _ hq _ _ => .inl (.staging hq),
    fun _ hq _ _ => .inl (.runtime hq),fun _ hq _ _ => .inl (.release hq),
    fun _ hc _ _ => .inl (.current hc rfl)⟩

lemma not_touched_of_owned {other p : Place} (hr : ProjectRoot root) (ho : ProjectRoot other)
    (hne : root ≠ other) (hp : Owned other p) : ¬Touched root p := by
  obtain ⟨c,hc,cs,rfl⟩ := hp
  have hproj : c ≠ "projects" := by
    rintro rfl
    exact absurd hc (by decide)
  intro ht
  cases hr with
  | base =>
    cases ho with
    | base => exact hne rfl
    | project dot dots =>
      cases ht with
      | base name => exact name rfl
  | project dot dots =>
    cases ho with
    | base =>
      cases ht with
      | above | project => exact hproj rfl
    | project dot' dots' =>
      cases ht with
      | project => exact hne rfl

variable {b project : String}

lemma projectDeployRoot_congr {a : String} (h : normalizeProjectId a = normalizeProjectId b) :
    projectDeployRoot a = projectDeployRoot b := by
  unfold projectDeployRoot
  rw [h]

lemma normalizeProjectId_of_root {a : String} (h : projectDeployRoot a = projectDeployRoot b) :
    normalizeProjectId a = normalizeProjectId b := by
  simp only [projectDeployRoot] at h
  split_ifs at h with ha hb hb
  · rw [ha,hb]
  · simpa using h

def Request.isFor (project : String) : Request → Prop
  | .upload r => ∀ chunk, firstChunk r.stream = some chunk →
      normalizeProjectId chunk.projectId = normalizeProjectId project
  | .rollback r => normalizeProjectId r.projectId = normalizeProjectId project
  | .removeProject r => normalizeProjectId r.projectId = normalizeProjectId project

def Request.plain : Request → Prop
  | .upload r => r.outside.linkFree ∧
      ∀ chunk, firstChunk r.stream = some chunk → chunk.version ≠ "."
  | _ => True

lemma evolves_upload {G : Guarantee Bytes} {cfg : Config} {r : Upload}
    {w : World Bytes States} (hr : ProjectRoot (projectDeployRoot project))
    (ha : ∀ v, (∀ chunk, firstChunk r.stream = some chunk → chunk.version = v) →
      Allows (projectDeployRoot project) v G)
    (hfor : (Request.upload r).isFor project) (hplain : (Request.upload r).plain)
    (hcompose : ComposeAllowed r.outside (projectDeployRoot project) G)
    (hl : LinksAt LinkPlace w.disk) : Evolves LinkPlace G w.disk (upload cfg r w).2.disk := by
  cases hfirst : firstChunk r.stream with
  | none =>
    refine (within_upload (v := "") hr (ha "" ?_) ?_ hplain.1 hcompose).evolves w hl
    all_goals simp [hfirst]
  | some chunk =>
    refine (within_upload (v := chunk.version) hr (ha _ ?_) ?_ hplain.1 hcompose).evolves w hl
    · simp [hfirst]
    · intro c hc
      obtain rfl : chunk = c := Option.some.inj (hfirst.symm.trans hc)
      exact ⟨projectDeployRoot_congr (hfor chunk hfirst),rfl,hplain.2 chunk hfirst⟩

lemma evolves_step {cfg : Config} {w w' : World Bytes States}
    {a : Request × List (Option Fault)} (hr : ProjectRoot (projectDeployRoot project))
    (hfor : a.1.isFor project) (hplain : a.1.plain) (hl : LinksAt LinkPlace w.disk)
    (h : step cfg w a = some w') :
    Evolves LinkPlace (onlyTouched (projectDeployRoot project)) w.disk w'.disk := by
  cases h
  obtain ⟨r,faults⟩ := a
  cases r with
  | upload r =>
    dsimp only [handle]
    refine evolves_upload (w := { w with faults := faults }) hr (fun v _ => allows_touched hr) hfor
      hplain (fun _ _ _ _ _ _ => .inl ?_) hl
    exact touched_of_below hr (by decide) (List.prefix_refl _)
  | rollback r =>
    dsimp only [handle]
    exact (within_rollback (v := "") hr (allows_touched hr) (projectDeployRoot_congr hfor)).evolves
      { w with faults := faults } hl
  | removeProject r =>
    dsimp only [handle]
    refine (within_removeProject (v := "") hr (allows_touched hr) (projectDeployRoot_congr hfor) ?_
      ?_).evolves { w with faults := faults } hl
    · exact fun q hq _ _ => .inl (touched_of_below hr (by decide) hq)
    intro hne q hq _ _
    left
    obtain ⟨cs,rfl⟩ := hq
    cases hr' : projectDeployRoot project with
    | nil => exact absurd hr' hne
    | cons a as =>
      rw [hr'] at hr
      cases hr with
      | project dot dots => exact .project

/-- In every sequence of plain requests for one project: the files of another project stay as they
are; an upload changes the staging area, the current link, the runtime state and its release, and
makes the directories above it; and the path of a release leads to a directory of its own right
below the releases. -/
theorem projects_isolated (cfg : Config) (project other : String) (w w' : World Bytes States)
    (hproject : validateProjectId project = .ok ()) (hother : validateProjectId other = .ok ())
    (hne : normalizeProjectId project ≠ normalizeProjectId other)
    (hdot : normalizeProjectId project ≠ ".") (hdot' : normalizeProjectId other ≠ ".")
    (hlinks : LinksAt LinkPlace w.disk)
    (h : Run (step cfg) (fun _ a => a.1.isFor project ∧ a.1.plain) w w') :
    (∀ p, Owned (projectDeployRoot other) p → w'.disk p = w.disk p) ∧
    (∀ r faults chunk w'', (Request.upload r).isFor project → (Request.upload r).plain →
      (∀ text m, r.outside.parse text = .ok m → m.compose = none) →
      firstChunk r.stream = some chunk → step cfg w' (.upload r,faults) = some w'' → ∀ p,
        UploadPlace (projectDeployRoot project) chunk.version p ∨ w'.disk p = w''.disk p ∨
          (w'.disk p = none ∧ w''.disk p = some .dir ∧
            p <+: releasesDir (projectDeployRoot project))) ∧
    (∀ v q, validateVersion v = .ok () → v ≠ "." →
      w'.disk.resolve true (releaseDirForVersion (projectDeployRoot project) v) = .ok q →
      q = releasesDir (projectDeployRoot project)++[v]) ∧
    ∀ v v' p, v ≠ v' → releasesDir (projectDeployRoot project)++[v] <+: p →
      ¬releasesDir (projectDeployRoot project)++[v'] <+: p := by
  have hr := projectRoot_of_validate hproject hdot
  have ho := projectRoot_of_validate hother hdot'
  have hroots : projectDeployRoot project ≠ projectDeployRoot other :=
    fun heq => hne (normalizeProjectId_of_root heq)
  have hevolves : Evolves LinkPlace (onlyTouched (projectDeployRoot project)) w.disk w'.disk :=
    h.invariant (I := fun x => Evolves LinkPlace (onlyTouched (projectDeployRoot project)) w.disk
      x.disk) (fun _ _ _ hI hok hs => hI.trans (evolves_step hr hok.1 hok.2 hI.links hs))
      (.refl hlinks)
  refine ⟨fun p hp => ?_,fun r faults chunk w'' hfor hplain hcompose hfirst hstep p => ?_,
    fun v q hv hvdot hq => ?_,fun v v' p hvv hp hp' => ?_⟩
  · rcases hevolves.rel p with ht | heq
    · exact absurd ht (not_touched_of_owned hr ho hroots hp)
    · exact heq.symm
  · cases hstep
    dsimp only [handle]
    refine (evolves_upload (G := onlyUpload (projectDeployRoot project) chunk.version)
      (w := { w' with faults := faults }) hr (fun v hv => ?_) hfor hplain (fun text m hm hc => ?_)
      hevolves.links).rel p
    · obtain rfl := hv chunk hfirst
      exact allows_upload _ _
    · exact absurd (hcompose text m hm) hc
  · exact resolve_straight (straight_releaseDir true hr (validateVersion_regular hv hvdot))
      hevolves.links hq
  · have hsame := List.prefix_of_prefix_length_le hp hp' (by simp)
    have heq := hsame.eq_of_length (by simp)
    exact hvv (by simpa using heq)

/-! A server with one release of the default project and one of the project q. -/

def sampleDisk : Disk Bytes := fun p =>
  if p ∈ [["projects"],["projects","q"],["projects","q","releases"],["projects","q","releases","1"],
    ["releases"],["releases","1"]] then some .dir
  else if p ∈ [["projects","q","releases","1","run.sh"],["releases","1","run.sh"]] then
    some (.file [1] 0o644)
  else if p ∈ [["projects","q","current"],["current"]] then some (.link ["releases","1"])
  else none

def sampleWorld : World Bytes States := ⟨sampleDisk,fun _ => .default,[]⟩

def sampleConfig : Config :=
  ⟨"/srv",1000,"server",fun _ => List.replicate 32 0,fun _ => some (List.replicate 32 0)⟩

/-- An archive, and a manifest with or without services. -/
def sampleOutside (entries : List (Entry Bytes)) (compose : Option Bytes) : Outside :=
  ⟨(entries,true),([],none),fun _ => .ok ⟨[9],.ok [8],compose,.none⟩,none,.ok (),[],[]⟩

def sampleUpload (version manifestToml : String) (o : Outside) : Upload :=
  ⟨some version,none,[.ok ⟨[7],version,true,"00","",manifestToml⟩],1,o⟩

def runShOfQ : Place := ["projects","q","releases","1","run.sh"]

lemma linksAt_sample : LinksAt LinkPlace sampleDisk := by
  intro p target h
  unfold sampleDisk at h
  split_ifs at h with hdir hfile hlink
  · cases h
  · cases h
  · rcases List.mem_cons.mp hlink with rfl | hlink
    · exact .project (by decide)
    · rw [List.mem_singleton.mp hlink]
      exact .base (by decide)

def sampleRequest : Request :=
  .upload (sampleUpload "2" "" (sampleOutside [⟨["run.sh"],.file [5] 0o600⟩] none))

lemma plain_sampleRequest : sampleRequest.isFor "" ∧ sampleRequest.plain := by
  refine ⟨fun chunk h => ?_,fun e he target => ?_,fun chunk h => ?_⟩
  · cases h
    rfl
  · rw [List.mem_singleton.mp he]
    simp
  · cases h
    decide

theorem projects_isolated_second_release : ∃ w',
    step sampleConfig sampleWorld (sampleRequest,[]) = some w' ∧
      w'.disk ["releases","2","run.sh"] = some (.file [5] 0o755) ∧
      w'.disk ["current"] = some (.link ["releases","2"]) ∧
      ∀ p, Owned ["projects","q"] p → w'.disk p = sampleDisk p := by
  refine ⟨_,rfl,?_,?_,fun p hp => ?_⟩
  · decide +kernel
  · decide +kernel
  · exact (projects_isolated sampleConfig "" "q" sampleWorld _ (by decide +kernel)
      (by decide +kernel) (by decide +kernel) (by decide +kernel) (by decide +kernel) linksAt_sample
      (.tail (.refl _) plain_sampleRequest rfl)).1 p hp

def linkToQ : Entry Bytes :=
  ⟨["run.sh"],.link ["..","..","projects","q","releases","1","run.sh"]⟩

/-- The removal of the project with a dot for a name removes a file of the project q; an upload of
the version with a dot for a name, one of another version; an archive with a link for `run.sh`
overwrites a file of the project q; and a manifest with services puts a file into the project
directory. -/
theorem isolation_broken :
    (validateProjectId "." = .ok () ∧ normalizeProjectId "." ≠ normalizeProjectId "q" ∧
      sampleDisk runShOfQ = some (.file [1] 0o644) ∧
      (removeProject ⟨".",sampleOutside [] none⟩ sampleWorld).2.disk runShOfQ = none) ∧
    (validateVersion "." = .ok () ∧ sampleDisk ["releases","1","run.sh"] = some (.file [1] 0o644) ∧
      (upload sampleConfig (sampleUpload "." "" (sampleOutside [] none)) sampleWorld).2.disk
        ["releases","1","run.sh"] = none) ∧
    ((upload sampleConfig (sampleUpload "2" "[project]" (sampleOutside [linkToQ] none))
      sampleWorld).2.disk runShOfQ = some (.file [9] 0o755)) ∧
    sampleDisk ["docker-compose.pirate.yml"] = none ∧
      (upload sampleConfig (sampleUpload "2" "[project]" (sampleOutside [] (some [3])))
        sampleWorld).2.disk ["docker-compose.pirate.yml"] = some (.file [3] 0o644) := by
  refine ⟨⟨?_,?_,?_,?_⟩,⟨?_,?_,?_⟩,?_,?_,?_⟩
  all_goals decide +kernel

end PirateServer.Deploy
