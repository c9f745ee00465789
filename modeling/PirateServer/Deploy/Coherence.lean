import PirateServer.Deploy.Process

/-! The version that the deploy server remembers, the current link and the running process. They
agree between any two requests as long as no upload and no rollback fails after it has switched the
link. -/
namespace PirateServer.Deploy
open Lib FileTree Script ProxySession

/-! The link. -/

def keepsLink (root : Place) : Guarantee Bytes where
  rel p a b := p <+: root++["current"] → ∀ n, a = some n → b = some n
  refl _ _ := fun _ _ h => h
  trans _ _ _ _ h h' := fun hp n hn => h' hp n (h hp n hn)

variable {root : Place} {v : String} {t t' : Disk Bytes} {stamp : ℕ}

lemma straight_current (hr : ProjectRoot root) : Straight LinkPlace false (root++["current"]) :=
  straight_link hr (by decide)

lemma readCurrent_kept (hr : ProjectRoot root) (hl : LinksAt LinkPlace t)
    (h : Evolves LinkPlace (keepsLink root) t t')
    (hv : readCurrentVersionFromSymlink root t = some v) :
    readCurrentVersionFromSymlink root t' = some v := by
  obtain ⟨target,htarget,hname⟩ := Option.bind_eq_some_iff.mp hv
  have hkept := readLink_kept (straight_current hr) hl h.links (by simp)
    (fun q n _ hq hn => h.rel q hq n hn) htarget
  rw [readCurrentVersionFromSymlink,hkept]
  exact hname

lemma fileName_release (hv : v ≠ "." ∧ v ≠ "..") : fileName ["releases",v] = some v := by
  have hfilter : ["releases",v].filter (· ≠ ".") = ["releases",v] := by simp [hv.1]
  unfold fileName
  rw [hfilter]
  simp [hv.2]

lemma free_keepsLink {c : String} {q : Place} (hc : c ≠ "current") (hq : root++[c] <+: q) :
    (keepsLink root).Free q := by
  intro a b hp
  have hsub := hq.trans hp
  simp [hc] at hsub

lemma receives_keepsLink : Receives root stamp (keepsLink root) :=
  ⟨fun _ _ _ _ _ h => (by cases h),fun _ _ h => (by cases h),
    free_keepsLink (c := ".staging") (by decide) (List.prefix_append _ _)⟩

lemma releases_keepsLink : Releases root v (keepsLink root) :=
  ⟨fun _ _ _ _ _ h => (by cases h),fun _ _ h => (by cases h),
    fun _ hq => free_keepsLink (c := "releases") (by decide) ((List.prefix_append _ _).trans hq)⟩

lemma starts_keepsLink : Starts root (keepsLink root) :=
  ⟨fun _ _ _ _ _ h => (by cases h),fun _ hq => free_keepsLink (c := ".pirate") (by decide) hq⟩

/-! What the server remembers of one project. -/

structure Sound (st : AppState) : Prop where
  child : ∀ v, st.child = some v → v = st.currentVersion ∧ st.currentVersion ≠ ""
  running : st.state = .running → st.child ≠ none

/-- The child has been stopped because of an error. -/
structure Halted (st st' : AppState) : Prop where
  child : st'.child = none
  state : st'.state = .error
  currentVersion : st'.currentVersion = st.currentVersion

lemma Halted.sound {st st' : AppState} (h : Halted st st') : Sound st' := by
  refine ⟨fun v hv => ?_,fun hrun => ?_⟩
  · rw [h.child] at hv
    cases hv
  · rw [h.state] at hrun
    cases hrun

lemma sound_started (hv : v ≠ "") : Sound ⟨some v,v,.running,none⟩ := by
  refine ⟨fun v' h => ?_,fun _ h => by cases h⟩
  cases h
  exact ⟨rfl,hv⟩

lemma sound_childless {st : AppState} (hchild : st.child = none) (hstate : st.state ≠ .running) :
    Sound st := by
  refine ⟨fun v hv => ?_,fun hrun => absurd hrun hstate⟩
  rw [hchild] at hv
  cases hv

lemma sound_refresh {st : AppState} (x : Waited) (h : Sound st) :
    Sound (refreshProcessState x st) := by
  unfold refreshProcessState
  cases hchild : st.child with
  | none =>
    dsimp only
    split
    · exact sound_childless rfl (by simp)
    · exact h
  | some v =>
    cases x with
    | exited success status =>
      cases success with
      | true | false => exact sound_childless rfl (by simp)
    | alive => exact ⟨fun v' hv' => h.child v' (hchild.trans hv'),fun _ hnone => by cases hnone⟩
    | failed text => exact sound_childless rfl (by simp)

lemma refresh_currentVersion (x : Waited) (st : AppState) :
    (refreshProcessState x st).currentVersion = st.currentVersion := by
  unfold refreshProcessState
  cases st.child with
  | none =>
    dsimp only
    split
    · rfl
    · rfl
  | some v =>
    cases x with
    | exited success status =>
      cases success with
      | true => rfl
      | false => rfl
    | alive => rfl
    | failed text => rfl

/-! The parts of a request. -/

section
variable {key : String} {st : AppState} {cfg : Config} {o : Outside} {α : Type}

/-- The current link names the release `v`, and links are only where they should be. -/
structure Linked (root : Place) (v : String) (w : World Bytes States) : Prop where
  links : LinksAt LinkPlace w.disk
  names : readCurrentVersionFromSymlink root w.disk = some v

/-- The server remembers `st` of the project. -/
def Knows (key : String) (st : AppState) (w : World Bytes States) : Prop := w.memory key = st

lemma ends_knows {E : Type} {m : Script Bytes States E α} (key : String) (st : AppState)
    (h : Respects (fun w w' : World Bytes States => w'.memory = w.memory) m) :
    Ends (Knows key st) m (fun _ => Knows key st) (fun _ => Knows key st) := by
  intro w hw
  have hsame : (m w).2.memory key = st := by
    rw [h w]
    exact hw
  exact ⟨fun _ _ => hsame,fun _ _ => hsame⟩

lemma ends_linked {m : Handler α} {post : α → Prop} (hr : ProjectRoot root)
    (h : Within LinkPlace (keepsLink root) m post) :
    Ends (Linked root v) m (fun _ => Linked root v) (fun _ => Linked root v) := by
  intro w hw
  have he := h.evolves w hw.links
  have hkept : Linked root v (m w).2 := ⟨he.links,readCurrent_kept hr hw.links he hw.names⟩
  exact ⟨fun _ _ => hkept,fun _ _ => hkept⟩

lemma knows_update {f : AppState → AppState} {w : World Bytes States} (h : Knows key st w) :
    Knows key (f st) { w with memory := Function.update w.memory key (f (w.memory key)) } := by
  have hself : f (w.memory key) = f st := congrArg f h
  exact (Function.update_self (α := String) (β := fun _ => AppState) key _ w.memory).trans hself

variable {X : Status → World Bytes States → Prop}

lemma ends_update {f : AppState → AppState} :
    Ends (Knows key st) (updateState key f) (fun _ => Knows key (f st)) X :=
  ends_remember (fun _ hw => knows_update hw)

lemma ends_startRelease (hst : st.child = none) :
    Ends (Knows key st) (startRelease cfg o key root v)
      (fun _ => Knows key ⟨some v,v,.running,none⟩)
      (fun _ w => Halted st (w.memory key)) := by
  have hspawn : Ends (Knows key st) (spawnRelease cfg o root v) (fun _ => Knows key st)
      (fun _ => Knows key st) := ends_knows key st (respects_spawnRelease steady_memory)
  refine ends_bind (ends_attempt (Q := fun _ => Knows key st) hspawn) (fun started => ?_)
  cases started with
  | ok _ => exact ends_update
  | error e =>
    refine ends_bind ends_update (fun _ => ends_fail (fun w hw => ?_))
    rw [hw]
    exact ⟨hst,rfl,rfl⟩

section
variable (hr : ProjectRoot root)
include hr

lemma ends_setCurrentSymlink (hv : v ≠ "." ∧ v ≠ "..") :
    Ends (fun w => LinksAt LinkPlace w.disk) (setCurrentSymlink root v) (fun _ => Linked root v)
      (fun _ _ => True) := by
  have htemp := straight_link hr (c := ".current.tmp") (by decide)
  have hcurrent := straight_current hr
  have hremove : Within LinkPlace Guarantee.anything
      ((Script.call (removeFile (root++[".current.tmp"])) :
      Script Bytes States IoError Unit).ignore : Script Bytes States IoError Unit)
        (fun _ => True) :=
    within_ignore (within_call (confined_removeFile htemp (fun _ _ => trivial)))
  refine ends_bind (Q := fun _ w => LinksAt LinkPlace w.disk) ?_ (fun _ => ?_)
  · intro w hl
    have he := (hremove.evolves w hl).links
    exact ⟨fun _ _ => he,fun _ _ => trivial⟩
  refine ends_bind (Q := fun _ w => LinksAt LinkPlace w.disk ∧
    w.disk (root++[".current.tmp"]) = some (.link ["releases",v])) ?_ (fun _ => ?_)
  · refine (ends_call (c := False) (X := fun _ _ => True) (fun _ _ h => h.elim)
      (fun w hl _ t heq => ?_) (fun h => h.elim)).mono (fun _ h => h) (fun _ _ h => h)
      (fun _ _ _ => trivial)
    have hconfined : Confined LinkPlace .anything
        (symlink ["releases",v] (root++[".current.tmp"]) : Op Bytes Unit) :=
      confined_symlink htemp (fun _ _ => trivial) (hr.linkPlace (by decide))
    have hok : (symlink ["releases",v] (root++[".current.tmp"]) w.disk).1 = .ok () := by rw [heq]
    have hlinks := hconfined.linksAt hl
    have hlink := symlinked htemp hl hok
    rw [heq] at hlinks hlink
    exact ⟨hlinks,hlink⟩
  · refine (ends_call (c := False) (X := fun _ _ => True) (fun _ _ h => h.elim)
      (fun w hw _ t heq => ?_) (fun h => h.elim)).mono (fun _ h => h) (fun _ _ h => h)
      (fun _ _ _ => trivial)
    have hlinks := (confined_rename (G := .anything) htemp hcurrent (fun _ _ => trivial)
      (fun _ _ => trivial) (fun _ => hr.linkPlace (by decide))).linksAt hw.1
    obtain ⟨hresolve,n,hn,hend⟩ := renamed htemp hcurrent hw.1 (by rw [heq])
    rw [heq] at hlinks hend
    rw [Disk.node,if_neg (by simp),hw.2] at hn
    cases hn
    obtain rfl : t = (w.disk.set (root++[".current.tmp"]) none).set (root++["current"])
      (some (.link ["releases",v])) := hend
    have hread : Disk.readLink _ (root++["current"]) = some ["releases",v] :=
      (readLink_eq_some hcurrent hlinks (by simp)).mpr
        ⟨resolve_parents hcurrent hw.1 (fun q n _ hq hne hn => ?_) hresolve,by simp [Disk.set]⟩
    · refine ⟨hlinks,?_⟩
      change ((Disk.readLink _ _).bind fileName) = some v
      rw [hread]
      exact fileName_release hv
    · have hother : q ≠ root++[".current.tmp"] := by
        intro heq
        rw [heq] at hq
        simp at hq
      simp [Disk.set,hne,hother,hn]

lemma ends_switchCurrent (hv : v ≠ "." ∧ v ≠ "..") :
    Ends (fun w => Knows key st w ∧ LinksAt LinkPlace w.disk) (switchCurrent key root v)
      (fun _ w => Knows key { st with child := none } w ∧ Linked root v w)
      (fun _ w => Halted st (w.memory key)) := by
  refine ends_bind (Q := fun _ w => Knows key { st with child := none } w ∧
    LinksAt LinkPlace w.disk) ?_ (fun _ => ?_)
  · refine ends_remember (fun w hw => ⟨?_,hw.2⟩)
    exact knows_update (f := fun st => { st with child := none }) hw.1
  have hknows := ends_knows key { st with child := none }
    (m := setCurrentSymlink root v) (respects_bind steady_memory (fun w => steady_memory.call _ w)
      (fun _ => respects_bind steady_memory (fun w => steady_memory.call _ w)
        (fun _ w => steady_memory.call _ w)))
  have hattempt := hknows.and (ends_setCurrentSymlink hr hv)
  refine ends_bind (ends_attempt (Q := fun x w => Knows key { st with child := none } w ∧
    ∀ a, x = .ok a → Linked root v w) (hattempt.mono (fun _ h => h)
      (fun a w h => ⟨h.1,fun _ _ => h.2⟩)
      (fun e w h => ⟨h.1,fun a ha => by cases ha⟩))) (fun x => ?_)
  cases x with
  | ok _ => exact ends_pure (fun w hw => ⟨hw.1,hw.2 _ rfl⟩)
  | error e =>
    refine ends_bind (Q := fun _ (w : World Bytes States) => Halted st (w.memory key)) ?_
      (fun _ => ends_fail (fun _ h => h))
    refine ends_update.mono (fun w hw => hw.1) (fun _ w hw => ?_) (fun _ _ h => h)
    rw [hw]
    exact ⟨rfl,rfl,rfl⟩

lemma ends_ignored {m : Handler Unit}
    (hm : Respects (fun w w' : World Bytes States => w'.memory = w.memory) m)
    (hl : Within LinkPlace (keepsLink root) m (fun _ => True)) :
    Ends (fun w => Knows key st w ∧ Linked root v w) (m.ignore)
      (fun _ w => Knows key st w ∧ Linked root v w) X :=
  ends_ignore ((ends_knows key st hm).and (ends_linked hr hl))

lemma ends_activate {u : Receiving} {manifest : Option Manifest}
    (hv : v ≠ "." ∧ v ≠ "..") (hkey : u.projectKey = key) (hroot : u.root = root)
    (hversion : u.version = v) :
    Ends (fun w => Knows key st w ∧ LinksAt LinkPlace w.disk) (activate cfg o u manifest)
      (fun _ w => Knows key ⟨some v,v,.running,none⟩ w ∧ Linked root v w)
      (fun _ w => Halted st (w.memory key)) := by
  unfold activate
  rw [hkey,hroot,hversion]
  refine ends_bind (ends_switchCurrent hr hv) (fun _ => ?_)
  refine ends_bind (Q := fun _ w => Knows key { st with child := none } w ∧ Linked root v w) ?_
    (fun _ => ?_)
  · unfold applyVhost
    split
    · exact ends_ignored hr (respects_replaceState steady_memory)
        (within_replaceState hr starts_keepsLink (by decide) (by decide))
    · exact ends_pure (fun _ hw => hw)
  have hstart : Ends (fun w => Knows key { st with child := none } w ∧ Linked root v w)
      (startRelease cfg o key root v)
      (fun _ w => Knows key ⟨some v,v,.running,none⟩ w ∧ Linked root v w)
      (fun _ w => Halted { st with child := none } (w.memory key) ∧ Linked root v w) :=
    (ends_startRelease rfl).and (ends_linked hr (within_startRelease hr starts_keepsLink))
  refine ends_bind (hstart.mono (fun _ h => h) (fun _ _ h => h)
    (fun _ _ h => ⟨h.1.child,h.1.state,h.1.currentVersion⟩)) (fun _ => ?_)
  exact ends_when (fun _ => ends_ignored hr (respects_replaceState steady_memory)
    (within_replaceState hr starts_keepsLink (by decide) (by decide))) (fun _ _ hw => hw)

end

/-- The state is as it was, or the child has been stopped because of an error. -/
def Spoiled (st st' : AppState) : Prop := st' = st ∨ Halted st st'

lemma ends_upload (cfg : Config) {r : Upload} (st : AppState) (hr : ProjectRoot root)
    (ho : r.outside.linkFree)
    (hfirst : ∀ chunk, firstChunk r.stream = some chunk → normalizeProjectId chunk.projectId = key ∧
      projectDeployRoot chunk.projectId = root ∧ chunk.version = v ∧ v ≠ ".") :
    Ends (fun w => Knows key st w ∧ LinksAt LinkPlace w.disk) (upload cfg r)
      (fun _ w => v ≠ "" ∧ Knows key ⟨some v,v,.running,none⟩ w ∧ Linked root v w)
      (fun _ w => Spoiled st (w.memory key)) := by
  have ht : Receives root r.stamp (Guarantee.anything : Guarantee Bytes) :=
    ⟨fun _ _ _ => trivial,trivial,fun _ _ => trivial⟩
  have ha : Releases root v (Guarantee.anything : Guarantee Bytes) :=
    ⟨fun _ _ _ => trivial,trivial,fun _ _ _ _ => trivial⟩
  have hreceived : Ends (fun w => Knows key st w ∧ LinksAt LinkPlace w.disk) (received cfg r)
      (fun u w => (Ready root v r.stamp u ∧ u.projectKey = key ∧ v ≠ "") ∧ Knows key st w ∧
        LinksAt LinkPlace w.disk) (fun _ w => Spoiled st (w.memory key)) := by
    intro w hw
    have hwithin : Within LinkPlace .anything (received cfg r) (Ready root v r.stamp) :=
      within_received hr ht (fun chunk hc => (hfirst chunk hc).2)
    have hmemory : (received cfg r w).2.memory key = st := by
      rw [respects_received steady_memory w]
      exact hw.1
    refine ⟨fun u hu => ⟨⟨hwithin.result w hw.2 u hu,?_⟩,hmemory,(hwithin.evolves w hw.2).links⟩,
      fun _ _ => .inl hmemory⟩
    obtain ⟨chunk,items,hstream,hcheck,hkey,_⟩ := received_first hu
    obtain ⟨hfor,_,hversion,_⟩ := hfirst chunk (by rw [hstream]; rfl)
    refine ⟨hkey.trans hfor,?_⟩
    rintro rfl
    have hvalid := version_of_checkFirst hcheck
    rw [hversion] at hvalid
    cases hvalid
  rw [upload_eq]
  refine ends_bind hreceived (fun u => ?_)
  rintro w ⟨⟨hu,hkey,hne⟩,hw⟩
  have hstored : Ends (fun w => Knows key st w ∧ LinksAt LinkPlace w.disk) (storeRelease r u)
      (fun _ w => Knows key st w ∧ LinksAt LinkPlace w.disk)
        (fun _ w => Spoiled st (w.memory key)) := by
    intro w hw
    have hwithin := within_storeRelease hr ht ha hu ho (fun _ _ _ _ _ _ => trivial)
    have hmemory : (storeRelease r u w).2.memory key = st := by
      rw [respects_storeRelease steady_memory w]
      exact hw.1
    exact ⟨fun _ _ => ⟨hmemory,(hwithin.evolves w hw.2).links⟩,fun _ _ => .inl hmemory⟩
  have hactivate : ∀ m, Ends (fun w => Knows key st w ∧ LinksAt LinkPlace w.disk)
      (activate cfg r.outside u m)
      (fun _ w => v ≠ "" ∧ Knows key ⟨some v,v,.running,none⟩ w ∧ Linked root v w)
      (fun _ w => Spoiled st (w.memory key)) :=
    fun m => (ends_activate hr hu.version_regular hkey hu.root_eq hu.version_eq).mono (fun _ h => h)
      (fun _ _ h => ⟨hne,h⟩) (fun _ _ h => .inr h)
  exact ends_bind hstored hactivate w hw

lemma ends_rollback (cfg : Config) {r : Rollback} (st : AppState) (hr : ProjectRoot root)
    (hkey : normalizeProjectId r.projectId = key) (hroot : projectDeployRoot r.projectId = root)
    (hversion : r.version = v) (hdot : v ≠ ".") :
    Ends (fun w => Knows key st w ∧ LinksAt LinkPlace w.disk) (rollback cfg r)
      (fun _ w => v ≠ "" ∧ Knows key ⟨some v,v,.running,none⟩ w ∧ Linked root v w)
      (fun _ w => Spoiled st (w.memory key)) := by
  unfold rollback
  rw [hkey,hroot,hversion]
  refine ends_bind (ends_ofExcept (fun _ hw _ _ => hw) (fun _ hw _ _ => .inl hw.1)) (fun _ => ?_)
  refine ends_bind (Q := fun _ w => validateVersion v = .ok () ∧ Knows key st w ∧
    LinksAt LinkPlace w.disk) ?_ (fun _ => ?_)
  · exact ends_ofExcept (fun _ hw _ h => ⟨mapError_eq_ok h,hw⟩) (fun _ hw _ _ => .inl hw.1)
  refine ends_bind (Q := fun _ w => validateVersion v = .ok () ∧ Knows key st w ∧
    LinksAt LinkPlace w.disk) (ends_look (fun _ hw => hw)) (fun found => ?_)
  rintro w ⟨hvalid,hw⟩
  have hne : v ≠ "" := by
    rintro rfl
    cases hvalid
  split
  · have hswitch : Ends (fun w => Knows key st w ∧ LinksAt LinkPlace w.disk)
        (switchCurrent key root v)
        (fun _ w => Knows key { st with child := none } w ∧ Linked root v w)
        (fun _ w => Spoiled st (w.memory key)) :=
      (ends_switchCurrent hr (validateVersion_regular hvalid hdot)).mono (fun _ h => h)
        (fun _ _ h => h) (fun _ _ h => .inr h)
    have hstart : Ends (fun w => Knows key { st with child := none } w ∧ Linked root v w)
        (startRelease cfg r.outside key root v)
        (fun _ w => v ≠ "" ∧ Knows key ⟨some v,v,.running,none⟩ w ∧ Linked root v w)
        (fun _ w => Spoiled st (w.memory key)) :=
      ((ends_startRelease rfl).and (ends_linked hr (within_startRelease hr starts_keepsLink))).mono
        (fun _ h => h) (fun _ _ h => ⟨hne,h⟩)
        (fun _ _ h => .inr ⟨h.1.child,h.1.state,h.1.currentVersion⟩)
    exact ends_bind hswitch (fun _ => hstart) w hw
  · have hfail : Ends (fun w => Knows key st w ∧ LinksAt LinkPlace w.disk)
        (Script.fail ⟨.notFound,"release "++v++" not found"⟩ : Handler Unit)
        (fun _ w => v ≠ "" ∧ Knows key ⟨some v,v,.running,none⟩ w ∧ Linked root v w)
        (fun _ w => Spoiled st (w.memory key)) := ends_fail (fun _ hw => .inl hw.1)
    exact hfail w hw

end

/-! Between requests. -/

/-- What the server remembers of a project agrees with the current link. -/
structure Coherent (key : String) (root : Place) (w : World Bytes States) : Prop where
  links : LinksAt LinkPlace w.disk
  sound : Sound (w.memory key)
  version : (w.memory key).currentVersion ≠ "" →
    readCurrentVersionFromSymlink root w.disk = some (w.memory key).currentVersion

def findRelease (r : Rollback) : Handler Unit := do
  .ofExcept ((validateProjectId r.projectId).mapError invalidArgument)
  .ofExcept ((validateVersion r.version).mapError invalidArgument)
  let found ← .look (fun t => t.isDir (releaseDirForVersion
      (projectDeployRoot r.projectId) r.version))
  if found then pure () else .fail ⟨.notFound,"release "++r.version++" not found"⟩

lemma rollback_eq (cfg : Config) (r : Rollback) : rollback cfg r = findRelease r >>= fun _ =>
      switchCurrent (normalizeProjectId r.projectId) (projectDeployRoot r.projectId) r.version >>=
        fun _ => startRelease cfg r.outside (normalizeProjectId r.projectId)
          (projectDeployRoot r.projectId) r.version := by
  unfold rollback findRelease
  simp only [bind_assoc]
  refine bind_congr (fun _ => bind_congr (fun _ => bind_congr (fun found => ?_)))
  cases found with
  | true => rfl
  | false => rfl

def beforeRollback (r : Rollback) : Handler Unit := do
  findRelease r
  updateState (normalizeProjectId r.projectId) (fun st => { st with child := none })
  (prepareLink (projectDeployRoot r.projectId) r.version).mapError
    (fun e => internal ("symlink: "++e.text))

def RollbackFailsBeforeSwitch (r : Rollback) (w : World Bytes States) : Prop :=
  (∃ e w', beforeRollback r w = (.error e,w')) ∨
    ∃ w' e w'', beforeRollback r w = (.ok (),w') ∧ w''.disk = w'.disk ∧
      (Script.call (rename (projectDeployRoot r.projectId++[".current.tmp"])
        (projectDeployRoot r.projectId++["current"])) : Script Bytes States IoError Unit) w' =
          (.error e,w'')

lemma rollback_of_failsBeforeSwitch {cfg : Config} {r : Rollback} {w : World Bytes States}
    (h : RollbackFailsBeforeSwitch r w) : (rollback cfg r w).2.disk =
      (beforeRollback r w).2.disk := by
  rw [rollback_eq]
  unfold RollbackFailsBeforeSwitch at h
  unfold beforeRollback at h ⊢
  rcases hfind : findRelease r w with ⟨x,w₁⟩
  cases x with
  | error e => rw [bind_error hfind,bind_error hfind]
  | ok _ =>
    have hchild : updateState (normalizeProjectId r.projectId)
        (fun st => { st with child := none }) w₁ =
      (.ok (),childless (normalizeProjectId r.projectId) w₁) := rfl
    simp only [bind_ok hfind,bind_ok hchild] at h ⊢
    rcases hlink : prepareLink (projectDeployRoot r.projectId) r.version
      (childless (normalizeProjectId r.projectId) w₁) with ⟨x,w₂⟩
    have hend : ((prepareLink (projectDeployRoot r.projectId) r.version).mapError
        (fun e => internal ("symlink: "++e.text)) (childless (normalizeProjectId r.projectId) w₁)) =
          (x.mapError (fun e => internal ("symlink: "++e.text)),w₂) := by
      unfold Script.mapError
      rw [hlink]
    rw [hend] at h ⊢
    -- in both cases the switch fails, with the disk as it is then
    obtain ⟨e,w₃,hswitch,hdisk⟩ : ∃ e w₃, setCurrentSymlink
        (projectDeployRoot r.projectId) r.version
        (childless (normalizeProjectId r.projectId) w₁) = (.error e,w₃) ∧ w₃.disk = w₂.disk := by
      rw [setCurrentSymlink_eq]
      cases x with
      | error e => exact ⟨e,w₂,bind_error hlink,rfl⟩
      | ok _ =>
        rcases h with ⟨e,w',h⟩ | ⟨w',e,w'',h,hdisk,hrename⟩
        · cases h
        · cases h
          exact ⟨e,w'',(bind_ok hlink).trans hrename,hdisk⟩
    obtain ⟨e',w₄,hfails,hsame⟩ := switchCurrent_of_link_error hswitch
    rw [bind_error hfails]
    exact hsame.trans hdisk

lemma within_beforeRollback {G : Guarantee Bytes} {r : Rollback} (hr : ProjectRoot root)
    (hroot : projectDeployRoot r.projectId = root) (hlink : G.Free (root++[".current.tmp"])) :
    Within LinkPlace G (beforeRollback r) (fun _ => True) := by
  unfold beforeRollback findRelease
  rw [hroot]
  refine within_then ?_ (fun _ => ?_)
  · refine within_then (within_ofExcept _).weaken (fun _ => ?_)
    refine within_then (within_ofExcept _).weaken (fun _ => ?_)
    refine within_then (within_look _) (fun found => ?_)
    split
    · exact within_pure trivial
    · exact within_fail _
  · exact within_then within_updateState (fun _ => within_mapError (within_prepareLink hr hlink))

abbrev CoherentFor (project : String) : World Bytes States → Prop :=
  Coherent (normalizeProjectId project) (projectDeployRoot project)

section
variable {cfg : Config} {key project : String} {w w' : World Bytes States}

lemma Coherent.of_evolves (hr : ProjectRoot root) (h : Coherent key root w)
    (he : Evolves LinkPlace (keepsLink root) w.disk w'.disk) (hs : Sound (w'.memory key))
    (hv : (w'.memory key).currentVersion = (w.memory key).currentVersion ∨
      readCurrentVersionFromSymlink root w.disk = some (w'.memory key).currentVersion) :
    Coherent key root w' := by
  refine ⟨he.links,hs,fun hne => ?_⟩
  refine readCurrent_kept hr h.links he ?_
  rcases hv with hsame | hread
  · rw [hsame] at hne ⊢
    exact h.version hne
  · exact hread

lemma Spoiled.sound {st st' : AppState} (h : Spoiled st st') (hs : Sound st) : Sound st' := by
  rcases h with rfl | hhalted
  · exact hs
  · exact hhalted.sound

lemma Spoiled.currentVersion {st st' : AppState} (h : Spoiled st st') :
    st'.currentVersion = st.currentVersion := by
  rcases h with rfl | hhalted
  · rfl
  · exact hhalted.currentVersion

lemma coherent_started (hne : v ≠ "") (hk : Knows key ⟨some v,v,.running,none⟩ w)
    (hl : Linked root v w) : Coherent key root w := by
  refine ⟨hl.links,?_,fun _ => ?_⟩
  · rw [hk]
    exact sound_started hne
  · rw [hk]
    exact hl.names

lemma coherent_upload {r : Upload} (hr : ProjectRoot (projectDeployRoot project))
    (hfor : (Request.upload r).isFor project) (hplain : (Request.upload r).plain)
    (hfails : ∀ e, (upload cfg r w).1 = .error e → FailsBeforeSwitch cfg r w)
    (h : CoherentFor project w) : CoherentFor project (upload cfg r w).2 := by
  obtain ⟨v,hfirst⟩ : ∃ v, ∀ chunk, firstChunk r.stream = some chunk →
      normalizeProjectId chunk.projectId = normalizeProjectId project ∧
      projectDeployRoot chunk.projectId = projectDeployRoot project ∧ chunk.version = v ∧
        v ≠ "." := by
    cases hfirst : firstChunk r.stream with
    | none => exact ⟨"",fun chunk hc => by cases hc⟩
    | some chunk =>
      refine ⟨chunk.version,fun c hc => ?_⟩
      cases hc
      exact ⟨hfor chunk hfirst,projectDeployRoot_congr (hfor chunk hfirst),rfl,
        hplain.2 chunk hfirst⟩
  obtain ⟨hok,herror⟩ := ends_upload cfg (w.memory (normalizeProjectId project)) hr
    hplain.1 hfirst w ⟨rfl,h.links⟩
  cases hx : (upload cfg r w).1 with
  | ok _ =>
    obtain ⟨hne,hk,hl⟩ := hok () hx
    exact coherent_started hne hk hl
  | error e =>
    have hspoiled := herror e hx
    refine h.of_evolves hr ?_ (hspoiled.sound h.sound) (.inl hspoiled.currentVersion)
    rw [(upload_of_failsBeforeSwitch (hfails e hx)).2]
    have hwithin : Within LinkPlace (keepsLink (projectDeployRoot project)) (beforeSwitch cfg r)
        (fun _ => True) :=
      within_beforeSwitch hr receives_keepsLink releases_keepsLink (fun c hc => (hfirst c hc).2)
        hplain.1 (free_keepsLink (by decide) (List.prefix_refl _))
        (free_keepsLink (by decide) (List.prefix_refl _))
    exact hwithin.evolves w h.links

lemma coherent_rollback {r : Rollback} (hr : ProjectRoot (projectDeployRoot project))
    (hfor : (Request.rollback r).isFor project) (hdot : r.version ≠ ".")
    (hfails : ∀ e, (rollback cfg r w).1 = .error e → RollbackFailsBeforeSwitch r w)
    (h : CoherentFor project w) : CoherentFor project (rollback cfg r w).2 := by
  have hroot := projectDeployRoot_congr hfor
  obtain ⟨hok,herror⟩ := ends_rollback cfg (w.memory (normalizeProjectId project)) hr
    hfor hroot rfl hdot w ⟨rfl,h.links⟩
  cases hx : (rollback cfg r w).1 with
  | ok _ =>
    obtain ⟨hne,hk,hl⟩ := hok () hx
    exact coherent_started hne hk hl
  | error e =>
    have hspoiled := herror e hx
    refine h.of_evolves hr ?_ (hspoiled.sound h.sound) (.inl hspoiled.currentVersion)
    rw [rollback_of_failsBeforeSwitch (hfails e hx)]
    have hwithin := within_beforeRollback (G := keepsLink (projectDeployRoot project)) hr hroot
      (free_keepsLink (by decide) (List.prefix_refl _))
    exact hwithin.evolves w h.links

/-- The server remembers `st` of the project, and the disk is `t`. -/
def Holds (key : String) (st : AppState) (t : Disk Bytes) (w : World Bytes States) : Prop :=
  Knows key st w ∧ w.disk = t

variable {st : AppState}

lemma ends_update_holds {f : AppState → AppState} {X : Status → World Bytes States → Prop} :
    Ends (Holds key st t) (updateState key f) (fun _ => Holds key (f st) t) X :=
  ends_remember (fun _ hw => ⟨knows_update hw.1,hw.2⟩)

/-- Nothing is remembered of a project that is removed. -/
structure Removed (st : AppState) : Prop where
  child : st.child = none
  state : st.state = .stopped
  currentVersion : st.currentVersion = ""

lemma ends_removeProject {r : RemoveProject} (st : AppState) (t : Disk Bytes)
    (hkey : normalizeProjectId r.projectId = key) :
    Ends (Holds key st t) (removeProject r) (fun _ w => Removed (w.memory key))
      (fun _ w => Removed (w.memory key) ∨ Spoiled st (w.memory key) ∧ w.disk = t) := by
  unfold removeProject
  rw [hkey]
  refine ends_bind (Q := fun _ => Holds key st t) ?_
    (fun _ => ends_bind ends_update_holds (fun _ => ?_))
  · exact ends_ofExcept (fun _ hw _ _ => hw) (fun _ hw _ _ => .inr ⟨.inl hw.1,hw.2⟩)
  split
  · refine ends_bind ends_update_holds (fun _ => ends_fail (fun w hw => .inr ⟨.inr ?_,hw.2⟩))
    rw [hw.1]
    exact ⟨rfl,rfl,rfl⟩
  have hgone : ∀ {m : Handler Unit} {st' : AppState}, Removed st' →
      Respects (fun w w' : World Bytes States => w'.memory = w.memory) m →
      Ends (Knows key st') m (fun _ w => Removed (w.memory key))
        (fun _ w => Removed (w.memory key) ∨ Spoiled st (w.memory key) ∧ w.disk = t) := by
    intro m st' hst' hm
    refine (ends_knows key st' hm).mono (fun _ h => h) (fun _ w h => ?_) (fun _ w h => .inl ?_)
    all_goals
      rw [h]
      exact hst'
  refine ends_bind (ends_update_holds.mono (fun _ h => h) (fun _ _ h => h.1) (fun _ _ h => h))
    (fun _ => ?_)
  split
  · refine hgone ⟨rfl,rfl,rfl⟩ ?_
    refine respects_bind steady_memory (respects_look steady_memory) (fun _ => ?_)
    refine respects_bind steady_memory (respects_when steady_memory
      (respects_quietly steady_memory) _)
      (fun _ => respects_bind steady_memory (respects_look steady_memory) (fun _ => ?_))
    refine respects_bind steady_memory (respects_when steady_memory (respects_io steady_memory) _)
      (fun _ => respects_bind steady_memory (respects_look steady_memory) (fun _ => ?_))
    exact respects_when steady_memory (respects_quietly steady_memory) _
  · refine hgone ⟨rfl,rfl,rfl⟩ ?_
    exact respects_bind steady_memory (respects_look steady_memory)
      (fun _ => respects_when steady_memory (respects_io steady_memory) _)

lemma coherent_removeProject {r : RemoveProject} (hr : ProjectRoot (projectDeployRoot project))
    (hfor : (Request.removeProject r).isFor project) (h : CoherentFor project w) :
    CoherentFor project (removeProject r w).2 := by
  have hlinks : LinksAt LinkPlace (removeProject r w).2.disk := by
    have ha : Allows (projectDeployRoot project) "" (Guarantee.anything : Guarantee Bytes) :=
      ⟨fun _ _ _ => trivial,fun _ _ _ _ => trivial,fun _ _ _ _ => trivial,fun _ _ _ _ => trivial,
        fun _ _ _ _ => trivial⟩
    exact ((within_removeProject hr ha (projectDeployRoot_congr hfor) (fun _ _ _ _ => trivial)
      (fun _ _ _ _ _ => trivial)).evolves w h.links).links
  have hremoved : Removed ((removeProject r w).2.memory (normalizeProjectId project)) →
      CoherentFor project (removeProject r w).2 := by
    intro hgone
    refine ⟨hlinks,sound_childless hgone.child (by simp [hgone.state]),fun hne => ?_⟩
    exact absurd hgone.currentVersion hne
  obtain ⟨hok,herror⟩ := ends_removeProject (w.memory (normalizeProjectId project)) w.disk hfor w
    ⟨rfl,rfl⟩
  cases hx : (removeProject r w).1 with
  | ok _ => exact hremoved (hok () hx)
  | error e =>
    rcases herror e hx with hgone | ⟨hspoiled,hdisk⟩
    · exact hremoved hgone
    · refine h.of_evolves hr ?_ (hspoiled.sound h.sound) (.inl hspoiled.currentVersion)
      rw [hdisk]
      exact .refl h.links

lemma Coherent.of_holds (hr : ProjectRoot root) (h : Coherent key root w)
    (hw : Holds key st w.disk w') (hs : Sound st)
    (hv : st.currentVersion = (w.memory key).currentVersion ∨
      readCurrentVersionFromSymlink root w.disk = some st.currentVersion) :
        Coherent key root w' := by
  obtain ⟨hk,hdisk⟩ := hw
  refine h.of_evolves hr ?_ ?_ ?_
  · rw [hdisk]
    exact .refl h.links
  · rw [hk]
    exact hs
  · rw [hk]
    exact hv

variable {r : ProcessRequest}

lemma adoptVersion_spec (linked : Option String) (st : AppState) :
    (adoptVersion linked st).child = st.child ∧ (adoptVersion linked st).state = st.state ∧
      ((adoptVersion linked st).currentVersion = st.currentVersion ∨
        linked = some (adoptVersion linked st).currentVersion) := by
  unfold adoptVersion
  split
  · cases linked with
    | none => exact ⟨rfl,rfl,.inl rfl⟩
    | some v => exact ⟨rfl,rfl,.inr rfl⟩
  · exact ⟨rfl,rfl,.inl rfl⟩

lemma coherentFor_of_ends {α : Type} {f : Handler α} (hends : Ends
    (Holds (normalizeProjectId project) (w.memory (normalizeProjectId project)) w.disk) f
    (fun _ => CoherentFor project) (fun _ => CoherentFor project)) : CoherentFor project (f w).2 :=
  hends.always ⟨rfl,rfl⟩

section
variable (hr : ProjectRoot (projectDeployRoot project))
  (hfor : normalizeProjectId r.projectId = normalizeProjectId project) (h : CoherentFor project w)
include hr hfor h

lemma coherent_getStatus : CoherentFor project (getStatus r w).2 := by
  refine coherentFor_of_ends ?_
  unfold getStatus
  rw [hfor]
  refine ends_bind (ends_ofExcept (fun _ hw _ _ => hw)
    (fun _ hw _ _ => h.of_holds hr hw h.sound (.inl rfl))) (fun _ => ?_)
  refine ends_update_holds.mono (fun _ hw => hw) (fun _ _ hw => ?_) (fun _ _ hx => hx)
  exact h.of_holds hr hw (sound_refresh _ h.sound) (.inl (refresh_currentVersion _ _))

lemma coherent_stopProcess : CoherentFor project (stopProcess r w).2 := by
  refine coherentFor_of_ends ?_
  unfold stopProcess
  rw [hfor,projectDeployRoot_congr hfor]
  refine ends_bind (ends_ofExcept (fun _ hw _ _ => hw)
    (fun _ hw _ _ => h.of_holds hr hw h.sound (.inl rfl))) (fun _ => ?_)
  refine ends_bind ends_update_holds (fun _ => ends_bind ends_update_holds (fun _ => ?_))
  refine ends_bind (Q := fun linked w' => linked = readCurrentVersionFromSymlink
    (projectDeployRoot project) w.disk ∧ Holds (normalizeProjectId project) _ w.disk w')
    (ends_look (fun _ hw => ⟨congrArg _ hw.2,hw⟩)) (fun linked => ends_fact (fun hlinked => ?_))
  rw [hlinked]
  refine ends_update_holds.mono (fun _ hw => hw) (fun _ _ hw => ?_) (fun _ _ hx => hx)
  obtain ⟨hchild,hstate,hv⟩ := adoptVersion_spec
    (readCurrentVersionFromSymlink (projectDeployRoot project) w.disk)
    { refreshProcessState r.waited (w.memory (normalizeProjectId project)) with
      child := none, state := .stopped, lastError := none }
  refine h.of_holds hr hw (sound_childless hchild (by simp [hstate])) ?_
  exact hv.imp_left (fun hsame => hsame.trans (refresh_currentVersion _ _))

end

lemma versionToRestart_linked {linked : Option String}
    (hversion : st.currentVersion ≠ "" → linked = some st.currentVersion)
    (hne : versionToRestart st linked ≠ "") : linked = some (versionToRestart st linked) := by
  unfold versionToRestart at hne ⊢
  split at hne
  · rename_i hempty
    rw [if_pos hempty]
    cases linked with
    | none => exact absurd rfl hne
    | some v => rfl
  · rename_i hknown
    rw [if_neg hknown]
    exact hversion hknown

lemma ends_restartProcess (cfg : Config)
    (hr : ProjectRoot root) (hkey : normalizeProjectId r.projectId = key)
    (hroot : projectDeployRoot r.projectId = root) (hl : LinksAt LinkPlace t)
    (hversion : st.currentVersion ≠ "" →
      readCurrentVersionFromSymlink root t = some st.currentVersion) :
    Ends (Holds key st t) (restartProcess cfg r)
      (fun _ w => Evolves LinkPlace (keepsLink root) t w.disk ∧
        ∃ v, v ≠ "" ∧ readCurrentVersionFromSymlink root t = some v ∧
          Knows key ⟨some v,v,.running,none⟩ w)
      (fun _ w => Evolves LinkPlace (keepsLink root) t w.disk ∧
        (w.memory key = st ∨ Spoiled (refreshProcessState r.waited st) (w.memory key))) := by
  unfold restartProcess
  rw [hkey,hroot]
  refine ends_bind (Q := fun _ => Holds key st t) ?_
    (fun _ => ends_bind ends_update_holds (fun _ => ?_))
  · refine ends_ofExcept (fun _ hw _ _ => hw) (fun w hw _ _ => ⟨?_,.inl hw.1⟩)
    rw [hw.2]
    exact .refl hl
  have hversion' : (refreshProcessState r.waited st).currentVersion ≠ "" →
      readCurrentVersionFromSymlink root t =
        some (refreshProcessState r.waited st).currentVersion := by
    rw [refresh_currentVersion]
    exact hversion
  generalize refreshProcessState r.waited st = st₁ at hversion'
  have hkept : ∀ w : World Bytes States, Holds key st₁ t w →
      Evolves LinkPlace (keepsLink root) t w.disk := by
    intro w hw
    rw [hw.2]
    exact .refl hl
  refine ends_bind (Q := fun s w => s = st₁ ∧ Holds key st₁ t w)
    (ends_consult (fun _ hw => ⟨hw.1,hw⟩)) (fun s => ends_fact (fun hs => ?_))
  subst hs
  refine ends_bind (Q := fun linked w => linked = readCurrentVersionFromSymlink root t ∧
    Holds key s t w) (ends_look (fun _ hw => ⟨congrArg _ hw.2,hw⟩))
      (fun linked => ends_fact (fun hlinked => ?_))
  subst hlinked
  dsimp only
  by_cases hne : versionToRestart s (readCurrentVersionFromSymlink root t) = ""
  · rw [if_pos hne]
    exact ends_fail (fun w hw => ⟨hkept w hw,.inr (.inl hw.1)⟩)
  rw [if_neg hne]
  have hlinked := versionToRestart_linked hversion' hne
  refine ends_bind (Q := fun _ => Holds key s t) (ends_look (fun _ hw => hw)) (fun found => ?_)
  by_cases hfound : (!found) = true
  · rw [if_pos hfound]
    exact ends_fail (fun w hw => ⟨hkept w hw,.inr (.inl hw.1)⟩)
  rw [if_neg hfound]
  refine ends_bind ends_update_holds (fun _ => ?_)
  by_cases hbusy : r.outside.busyPorts ≠ []
  · rw [if_pos hbusy]
    refine ends_bind ends_update_holds (fun _ => ends_fail (fun w hw => ⟨?_,.inr (.inr ?_)⟩))
    · rw [hw.2]
      exact .refl hl
    · rw [hw.1]
      exact ⟨rfl,rfl,rfl⟩
  rw [if_neg hbusy]
  have hdisk : Ends (fun w : World Bytes States => w.disk = t)
      (startRelease cfg r.outside key root (versionToRestart s
        (readCurrentVersionFromSymlink root t)))
      (fun _ w => Evolves LinkPlace (keepsLink root) t w.disk)
      (fun _ w => Evolves LinkPlace (keepsLink root) t w.disk) := by
    rintro w rfl
    have hwithin : Within LinkPlace (keepsLink root) (startRelease cfg r.outside key root
        (versionToRestart s (readCurrentVersionFromSymlink root w.disk))) (fun _ => True) :=
      within_startRelease hr starts_keepsLink
    have he := hwithin.evolves w hl
    exact ⟨fun _ _ => he,fun _ _ => he⟩
  refine ((ends_startRelease rfl).and hdisk).mono (fun _ hw => hw)
    (fun _ w hw => ⟨hw.2,_,hne,hlinked,hw.1⟩) (fun _ w hw => ⟨hw.2,.inr (.inr ?_)⟩)
  exact ⟨hw.1.child,hw.1.state,hw.1.currentVersion⟩

lemma coherent_restartProcess (hr : ProjectRoot (projectDeployRoot project))
    (hfor : normalizeProjectId r.projectId = normalizeProjectId project)
    (h : CoherentFor project w) : CoherentFor project (restartProcess cfg r w).2 := by
  have hends := ends_restartProcess cfg hr hfor (projectDeployRoot_congr hfor) h.links h.version
  refine (hends.mono (fun _ hw => hw) (fun _ w' hw => ?_) (fun _ w' hw => ?_)).always ⟨rfl,rfl⟩
  · obtain ⟨he,v,hne,hlinked,hk⟩ := hw
    refine h.of_evolves hr he ?_ (.inr ?_)
    · rw [hk]
      exact sound_started hne
    · rw [hk]
      exact hlinked
  · obtain ⟨he,hsame | hspoiled⟩ := hw
    · refine h.of_evolves hr he ?_ (.inl ?_)
      · rw [hsame]
        exact h.sound
      · rw [hsame]
    · refine h.of_evolves hr he (hspoiled.sound (sound_refresh _ h.sound)) (.inl ?_)
      rw [hspoiled.currentVersion,refresh_currentVersion]

def Action.isFor (project : String) : Action → Prop
  | .change r => r.isFor project
  | .getStatus r => normalizeProjectId r.projectId = normalizeProjectId project
  | .stop r => normalizeProjectId r.projectId = normalizeProjectId project
  | .restart r => normalizeProjectId r.projectId = normalizeProjectId project

/-- No upload and no rollback fails after it has switched the link; none is for the version with a
dot for a name, and no archive brings links. -/
def Action.settles (cfg : Config) (w : World Bytes States) : Action → Prop
  | .change (.upload r) => (Request.upload r).plain ∧
      ∀ e, (upload cfg r w).1 = .error e → FailsBeforeSwitch cfg r w
  | .change (.rollback r) => r.version ≠ "." ∧
      ∀ e, (rollback cfg r w).1 = .error e → RollbackFailsBeforeSwitch r w
  | _ => True

lemma coherent_step {a : Action × List (Option Fault)}
    (hr : ProjectRoot (projectDeployRoot project))
    (hfor : a.1.isFor project) (hsettles : a.1.settles cfg { w with faults := a.2 })
    (h : CoherentFor project w)
    (hstep : actStep cfg w a = some w') :
    CoherentFor project w' := by
  cases hstep
  have h₀ : CoherentFor project
    { w with faults := a.2 } := ⟨h.links,h.sound,h.version⟩
  obtain ⟨r,faults⟩ := a
  dsimp only at h₀ hsettles ⊢
  cases r with
  | change r =>
    rw [act]
    cases r with
    | upload r =>
      rw [handle]
      exact coherent_upload hr hfor hsettles.1 hsettles.2 h₀
    | rollback r =>
      rw [handle]
      exact coherent_rollback hr hfor hsettles.1 hsettles.2 h₀
    | removeProject r =>
      rw [handle]
      exact coherent_removeProject hr hfor h₀
  | getStatus r =>
    rw [act]
    exact coherent_getStatus hr hfor h₀
  | stop r =>
    rw [act]
    exact coherent_stopProcess hr hfor h₀
  | restart r =>
    rw [act]
    exact coherent_restartProcess hr hfor h₀

end

/-- In every sequence of requests for one project, from the start of the server on, with any
failures, as long as no upload and no rollback fails after it has switched the link: the version
that the server remembers is the one that the current link names, a running child was started from
it, and a restart that succeeds has started it. -/
theorem deploy_state_coherent (cfg : Config) (project : String) (w w' : World Bytes States)
    (hproject : validateProjectId project = .ok ()) (hdot : normalizeProjectId project ≠ ".")
    (hlinks : LinksAt LinkPlace w.disk) (hstart : w.memory (normalizeProjectId project) = .default)
    (h : Run (actStep cfg) (fun x a => a.1.isFor project ∧
      a.1.settles cfg { x with faults := a.2 }) w w') :
    ((w'.memory (normalizeProjectId project)).currentVersion ≠ "" →
      readCurrentVersionFromSymlink (projectDeployRoot project) w'.disk =
        some (w'.memory (normalizeProjectId project)).currentVersion) ∧
    ((w'.memory (normalizeProjectId project)).state = .running →
      ∃ v, (w'.memory (normalizeProjectId project)).child = some v ∧
        readCurrentVersionFromSymlink (projectDeployRoot project) w'.disk = some v) ∧
    ∀ r faults w'', normalizeProjectId r.projectId = normalizeProjectId project →
      restartProcess cfg r { w' with faults := faults } = (.ok (),w'') →
      ∃ v, readCurrentVersionFromSymlink (projectDeployRoot project) w'.disk = some v ∧
        (w''.memory (normalizeProjectId project)).child = some v ∧
        readCurrentVersionFromSymlink (projectDeployRoot project) w''.disk = some v := by
  have hr := projectRoot_of_validate hproject hdot
  have hinitial : CoherentFor project w := by
    refine ⟨hlinks,?_,fun hne => ?_⟩
    · rw [hstart]
      exact sound_childless rfl (by simp [AppState.default])
    · rw [hstart] at hne
      exact absurd rfl hne
  have hc : CoherentFor project w' :=
    h.invariant (I := CoherentFor project)
      (fun _ _ _ hI hok hs => coherent_step hr hok.1 hok.2 hI hs) hinitial
  refine ⟨hc.version,fun hrun => ?_,fun r faults w'' hfor hrestart => ?_⟩
  · cases hchild : (w'.memory (normalizeProjectId project)).child with
    | none => exact absurd hchild (hc.sound.running hrun)
    | some v =>
      obtain ⟨rfl,hne⟩ := hc.sound.child v hchild
      exact ⟨_,rfl,hc.version hne⟩
  · have hends := ends_restartProcess cfg hr hfor (projectDeployRoot_congr hfor) hc.links hc.version
    obtain ⟨he,v,_,hlinked,hk⟩ := (hends { w' with faults := faults } ⟨rfl,rfl⟩).1 ()
        (by rw [hrestart])
    rw [hrestart] at he hk
    refine ⟨v,hlinked,?_,readCurrent_kept hr hc.links he hlinked⟩
    rw [hk]

/-! A server with the version 1, to which the version 2 is uploaded. -/

/-- After the upload. -/
def secondVersion : World Bytes States := (handle sampleConfig sampleRequest sampleWorld).2

def sampleProcess (spawn : Except String Unit) : ProcessRequest :=
  ⟨"",.alive,[],{ sampleOutside [] none with spawn := spawn }⟩

theorem deploy_state_coherent_second_version :
    readCurrentVersionFromSymlink [] secondVersion.disk = some "2" ∧
      (secondVersion.memory "default").child = some "2" ∧
      ∃ w', restartProcess sampleConfig (sampleProcess
        (.ok ())) { secondVersion with faults := [] } =
        (.ok (),w') ∧ (w'.memory "default").child = some "2" := by
  have hok : (handle sampleConfig sampleRequest sampleWorld).1 = .ok () := by decide +kernel
  have hsettles : (Action.change sampleRequest).settles sampleConfig sampleWorld := by
    refine ⟨plain_sampleRequest.2,fun e he => ?_⟩
    cases hok.symm.trans he
  have hkey : normalizeProjectId "" = "default" := by decide +kernel
  have hroot : projectDeployRoot "" = [] := by decide +kernel
  obtain ⟨hversion,hrunning,hrestart⟩ := deploy_state_coherent sampleConfig "" sampleWorld
      secondVersion
    (by decide +kernel) (by decide +kernel) linksAt_sample rfl
    (.tail (.refl _) (a := (.change sampleRequest,[])) ⟨plain_sampleRequest.1,hsettles⟩ rfl)
  rw [hkey,hroot] at hversion hrunning hrestart
  have hsecond : (secondVersion.memory "default").currentVersion = "2" := by decide +kernel
  have hread : readCurrentVersionFromSymlink [] secondVersion.disk = some "2" := by
    rw [← hsecond]
    exact hversion (by rw [hsecond]; decide)
  have hagain : (restartProcess sampleConfig (sampleProcess (.ok ()))
      { secondVersion with faults := [] }).1 = .ok () := by decide +kernel
  refine ⟨hread,?_,_,Prod.ext hagain rfl,?_⟩
  · obtain ⟨v,hchild,hv⟩ := hrunning (by decide +kernel)
    rw [hread] at hv
    cases hv
    exact hchild
  · obtain ⟨v,hv,hchild,_⟩ := hrestart (sampleProcess (.ok ())) [] _ hkey (Prod.ext hagain rfl)
    rw [hread] at hv
    cases hv
    exact hchild

def backToFirst : Rollback := ⟨"","1",{ sampleOutside [] none with spawn := .error "no memory" }⟩

def failedRollback : World Bytes States := (rollback sampleConfig backToFirst secondVersion).2

/-- A rollback that cannot start its process has switched the link to the version 1, but the server
remembers the version 2, and this is what a restart then starts. -/
theorem deploy_state_incoherent :
    (rollback sampleConfig backToFirst secondVersion).1 = .error
      (internal "spawn failed: no memory") ∧
      (failedRollback.memory "default").currentVersion = "2" ∧
      readCurrentVersionFromSymlink [] failedRollback.disk = some "1" ∧
      (restartProcess sampleConfig (sampleProcess (.ok ())) failedRollback).1 = .ok () ∧
      ((restartProcess sampleConfig (sampleProcess (.ok ())) failedRollback).2.memory
        "default").child = some "2" := by
  refine ⟨?_,?_,?_,?_,?_⟩
  all_goals decide +kernel

end PirateServer.Deploy
