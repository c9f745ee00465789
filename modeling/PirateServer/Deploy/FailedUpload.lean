import PirateServer.Deploy.Isolation

/-! An upload up to the switch to its release: what it does when it fails before, and what it may
change on the way. -/
namespace PirateServer.Deploy
open Lib FileTree Script ProxySession List

/-- The new link is made beside the old one. -/
def prepareLink (root : Place) (version : String) : Script Bytes States IoError Unit := do
  (Script.call (removeFile (root++[".current.tmp"])) : Script Bytes States IoError Unit).ignore
  Script.call (symlink ["releases",version] (root++[".current.tmp"]))

lemma setCurrentSymlink_eq (root : Place) (version : String) :
    setCurrentSymlink root version = prepareLink root version >>= fun _ =>
      Script.call (rename (root++[".current.tmp"]) (root++["current"])) := by
  unfold setCurrentSymlink prepareLink
  simp only [bind_assoc]

def beforeSwitch (cfg : Config) (r : Upload) : Handler Receiving := do
  let u ← received cfg r
  let _ ← storeRelease r u
  updateState u.projectKey (fun st => { st with child := none })
  (prepareLink u.root u.version).mapError (fun e => internal ("symlink: "++e.text))
  pure u

def FailsBeforeSwitch (cfg : Config) (r : Upload) (w : World Bytes States) : Prop :=
  (∃ e w', beforeSwitch cfg r w = (.error e,w')) ∨
    ∃ u w' e w'', beforeSwitch cfg r w = (.ok u,w') ∧ w''.disk = w'.disk ∧
      (Script.call (rename (u.root++[".current.tmp"]) (u.root++["current"])) :
        Script Bytes States IoError Unit) w' = (.error e,w'')

def childless (key : String) (w : World Bytes States) : World Bytes States :=
  { w with memory := Function.update w.memory key { w.memory key with child := none } }

variable {w w' : World Bytes States}

lemma switchCurrent_of_link_error {key version : String} {root : Place}
    {e : IoError} (h : setCurrentSymlink root version (childless key w) = (.error e,w')) :
    ∃ e w'', switchCurrent key root version w = (.error e,w'') ∧ w''.disk = w'.disk := by
  have hattempt : ((setCurrentSymlink root version).attempt : Handler (Except IoError Unit))
      (childless key w) = (.ok (.error e),w') := by
    unfold attempt
    rw [h]
  have hchild : updateState key (fun st => { st with child := none }) w =
      (.ok (),childless key w) := rfl
  unfold switchCurrent
  rw [bind_ok hchild,bind_ok hattempt]
  exact ⟨_,_,rfl,rfl⟩

lemma activate_of_link_error (cfg : Config) (o : Outside) {u : Receiving} (m : Option Manifest)
    {e : IoError}
    (h : setCurrentSymlink u.root u.version (childless u.projectKey w) = (.error e,w')) :
    (∃ e, (activate cfg o u m w).1 = .error e) ∧ (activate cfg o u m w).2.disk = w'.disk := by
  obtain ⟨e,w'',hswitch,hdisk⟩ := switchCurrent_of_link_error h
  unfold activate
  rw [bind_error hswitch]
  exact ⟨⟨e,rfl⟩,hdisk⟩

lemma upload_of_failsBeforeSwitch {cfg : Config} {r : Upload}
    (h : FailsBeforeSwitch cfg r w) : (∃ e, (upload cfg r w).1 = .error e) ∧
      (upload cfg r w).2.disk = (beforeSwitch cfg r w).2.disk := by
  rw [upload_eq]
  unfold FailsBeforeSwitch at h
  unfold beforeSwitch at h ⊢
  rcases hreceived : received cfg r w with ⟨x,w₁⟩
  cases x with
  | error e =>
    rw [bind_error hreceived,bind_error hreceived]
    exact ⟨⟨e,rfl⟩,rfl⟩
  | ok u =>
    simp only [bind_ok hreceived] at h ⊢
    rcases hstored : storeRelease r u w₁ with ⟨x,w₂⟩
    cases x with
    | error e =>
      rw [bind_error hstored,bind_error hstored]
      exact ⟨⟨e,rfl⟩,rfl⟩
    | ok m =>
      have hchild : updateState u.projectKey (fun st => { st with child := none }) w₂ =
        (.ok (),childless u.projectKey w₂) := rfl
      simp only [bind_ok hstored,bind_ok hchild] at h ⊢
      rcases hlink : prepareLink u.root u.version (childless u.projectKey w₂) with ⟨x,w₃⟩
      have hmap : (prepareLink u.root u.version).mapError (fun e => internal ("symlink: "++e.text))
          (childless u.projectKey w₂) = (x.mapError
            (fun e => internal ("symlink: "++e.text)),w₃) := by
        unfold Script.mapError
        rw [hlink]
      cases x with
      | error e =>
        rw [bind_error hmap]
        exact activate_of_link_error cfg r.outside m (by rw [setCurrentSymlink_eq,bind_error hlink])
      | ok _ =>
        simp only [bind_ok hmap] at h ⊢
        rcases h with ⟨e,w',h⟩ | ⟨u',w',e,w'',h,hdisk,hrename⟩
        · cases h
        cases h
        have hswitch : setCurrentSymlink u.root u.version (childless u.projectKey w₂) =
            (.error e,w'') := by
          rw [setCurrentSymlink_eq,bind_ok hlink]
          exact hrename
        obtain ⟨herror,hend⟩ := activate_of_link_error cfg r.outside m hswitch
        exact ⟨herror,hend.trans hdisk⟩

/-! Where it writes. -/

section
variable {G : Guarantee Bytes} {cfg : Config} {r : Upload} {root : Place} {v : String} {stamp : ℕ}

lemma within_received (hr : ProjectRoot root) (ht : Receives root r.stamp G)
    (hfirst : ∀ chunk, firstChunk r.stream = some chunk →
      projectDeployRoot chunk.projectId = root ∧ chunk.version = v ∧ v ≠ ".") :
    Within LinkPlace G (received cfg r) (Ready root v r.stamp) := by
  refine within_bind (within_receiveAll hr ht hfirst) (fun x hready => ?_)
  cases x with
  | none => exact within_fail _
  | some u =>
    have hu := hready u rfl
    exact within_then (within_verifyHash hr ht hu) (fun _ => within_pure hu)

lemma within_useManifest {u : Receiving} (hr : ProjectRoot root) (ha : Releases root v G)
    (hu : Ready root v stamp u) (hcompose : G.Free (root++["docker-compose.pirate.yml"])) :
    Within LinkPlace G (useManifest r u) (fun _ => True) := by
  unfold useManifest
  rw [hu.root_eq,hu.version_eq]
  refine within_then within_readManifest.weaken (fun manifest => ?_)
  cases manifest with
  | none => exact within_pure trivial
  | some m =>
    exact within_then (within_applySidecarManifest hr ha hu.version_regular (fun _ => hcompose))
      (fun _ => within_pure trivial)

lemma within_prepareLink {version : String} (hr : ProjectRoot root)
    (hlink : G.Free (root++[".current.tmp"])) :
    Within LinkPlace G (prepareLink root version) (fun _ => True) := by
  have htemp := straight_link hr (c := ".current.tmp") (by decide)
  exact within_then (within_ignore (within_call (confined_removeFile htemp hlink)))
    (fun _ => within_call (confined_symlink htemp hlink (hr.linkPlace (by decide))))

/-- What follows when the release has been made. -/
def afterMake (r : Upload) (u : Receiving) : Handler Receiving := do
  let _ ← useManifest r u
  updateState u.projectKey (fun st => { st with child := none })
  (prepareLink u.root u.version).mapError (fun e => internal ("symlink: "++e.text))
  pure u

lemma beforeSwitch_eq (cfg : Config) (r : Upload) :
    beforeSwitch cfg r = received cfg r >>= fun u => makeRelease r u >>= fun _ =>
      afterMake r u := by
  unfold beforeSwitch afterMake
  simp only [storeRelease_eq,bind_assoc]

lemma within_afterMake {u : Receiving} (hr : ProjectRoot root) (ha : Releases root v G)
    (hu : Ready root v stamp u) (hcompose : G.Free (root++["docker-compose.pirate.yml"]))
    (hlink : G.Free (root++[".current.tmp"])) :
    Within LinkPlace G (afterMake r u) (fun _ => True) := by
  unfold afterMake
  refine within_then (within_useManifest hr ha hu hcompose) (fun _ => ?_)
  refine within_then within_updateState (fun _ => ?_)
  rw [hu.root_eq]
  exact within_then (within_mapError (within_prepareLink hr hlink)) (fun _ => within_pure trivial)

section
variable (hr : ProjectRoot root) (ht : Receives root r.stamp G) (ha : Releases root v G)
include hr ht ha

lemma within_makeRelease {u : Receiving} (hu : Ready root v r.stamp u) (ho : r.outside.linkFree) :
    Within LinkPlace G (makeRelease r u) (fun _ => True) := by
  unfold makeRelease
  rw [hu.root_eq,hu.version_eq,hu.temp_eq]
  refine within_then (within_io (confined_createDir hr ha.above (by decide) ha.releases))
    (fun _ => ?_)
  exact within_then (within_fillRelease hr ha hu.version_regular ho)
    (fun _ => within_io (confined_removeTemp hr ht))

lemma within_beforeSwitch (hfirst : ∀ chunk, firstChunk r.stream = some chunk →
      projectDeployRoot chunk.projectId = root ∧ chunk.version = v ∧ v ≠ ".")
    (ho : r.outside.linkFree) (hcompose : G.Free (root++["docker-compose.pirate.yml"]))
    (hlink : G.Free (root++[".current.tmp"])) :
    Within LinkPlace G (beforeSwitch cfg r) (fun _ => True) := by
  rw [beforeSwitch_eq]
  refine within_bind (within_received hr ht hfirst) (fun u hu => ?_)
  exact within_then (within_makeRelease hr ht ha hu ho)
    (fun _ => within_afterMake hr ha hu hcompose hlink)

end

end

end PirateServer.Deploy
