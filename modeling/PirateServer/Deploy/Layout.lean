import PirateServer.Lib.FileTree
import PirateServer.Lib.Text

/-! Where the deploy server keeps its projects and their releases. Paths are relative to the base
directory, name by name: an accepted project id or version has no separator and is one name. -/
namespace PirateServer.Deploy
open Lib FileTree List

def maxVersionLen : ℕ := 128

def maxProjectIdLen : ℕ := 64

def normalizeProjectId (projectId : String) : String :=
  let s := Text.trim projectId
  if s = "" || Text.eqIgnoreAsciiCase s "default" then "default" else s

/-- `c.is_ascii_alphanumeric() || c == '.' || c == '_' || c == '-'`. -/
def labelChar (c : Char) : Bool := c.isAlphanum || c = '.' || c = '_' || c = '-'

/-- The tests that project ids and versions share. -/
def validateLabel (max : ℕ) (tooLong charset invalid label : String) : Except String Unit :=
  if max < label.utf8ByteSize then .error tooLong
  else if !label.toList.all labelChar then .error charset
  else if Text.contains label ".." || Text.contains label "/" || Text.contains label "\\" then
    .error invalid
  else .ok ()

def validateProjectId (projectId : String) : Except String Unit :=
  let n := normalizeProjectId projectId
  if n = "default" then .ok ()
  else
    validateLabel maxProjectIdLen "project_id too long"
      "project_id may only contain [a-zA-Z0-9._-]" "invalid project_id" n

def validateVersion (version : String) : Except String Unit :=
  if version = "" then .error "version must not be empty"
  else
    validateLabel maxVersionLen "version too long" "version may only contain [a-zA-Z0-9._-]"
      "invalid version string" version

def projectDeployRoot (projectId : String) : Place :=
  let n := normalizeProjectId projectId
  if n = "default" then [] else ["projects",n]

def releasesDir (root : Place) : Place := root++["releases"]

def releaseDirForVersion (root : Place) (version : String) : Place := releasesDir root++[version]

def stagingDir (root : Place) : Place := root++[".staging"]

/-- `pirate_dir`, with the state of the running release. -/
def pirateDir (root : Place) : Place := root++[".pirate"]

def linkNames : List String := ["current",".current.tmp"]

/-- The places of these links, in the base directory and in the project directories. -/
inductive LinkPlace : Place → Prop
  | base {c : String} (name : c ∈ linkNames) : LinkPlace [c]
  | project {n c : String} (name : c ∈ linkNames) : LinkPlace ["projects",n,c]

/-- A project directory, with a name that is not special to the file system. -/
inductive ProjectRoot : Place → Prop
  | base : ProjectRoot []
  | project {n : String} (dot : n ≠ ".") (dots : n ≠ "..") : ProjectRoot ["projects",n]

lemma validateLabel_ne_dots {max : ℕ} {a b c label : String}
    (h : validateLabel max a b c label = .ok ()) : label ≠ ".." := by
  rintro rfl
  unfold validateLabel at h
  split_ifs at h with h1 h2 h3
  exact h3 (by decide)

lemma validateVersion_regular {v : String} (h : validateVersion v = .ok ()) (hdot : v ≠ ".") :
    v ≠ "." ∧ v ≠ ".." := by
  unfold validateVersion at h
  split_ifs at h
  exact ⟨hdot,validateLabel_ne_dots h⟩

lemma projectRoot_of_validate {id : String} (h : validateProjectId id = .ok ())
    (hdot : normalizeProjectId id ≠ ".") : ProjectRoot (projectDeployRoot id) := by
  unfold validateProjectId at h
  dsimp only [projectDeployRoot]
  split_ifs with hn
  · exact .base
  · rw [if_neg hn] at h
    exact .project hdot (validateLabel_ne_dots h)

variable {r : Place} {c : String} {cs : List String}

lemma ProjectRoot.regular (hr : ProjectRoot r) : ∀ d ∈ r, d ≠ "." ∧ d ≠ ".." := by
  cases hr with
  | base => simp
  | project dot dots => simp [dot,dots]

lemma ProjectRoot.linkPlace (hr : ProjectRoot r) (hc : c ∈ linkNames) : LinkPlace (r++[c]) := by
  cases hr with
  | base => exact .base hc
  | project dot dots => exact .project hc

lemma straight_below (last : Bool) (hr : ProjectRoot r) (hc : c ∉ linkNames)
    (hproj : c ≠ "projects")
    (hreg : ∀ d ∈ c::cs, d ≠ "." ∧ d ≠ "..") : Straight LinkPlace last (r++c::cs) := by
  refine ⟨fun d hd => ?_,fun q _ _ hq _ hlink => ?_⟩
  · rcases List.mem_append.mp hd with hd | hd
    · exact hr.regular d hd
    · exact hreg d hd
  · cases hr with
    | base =>
      cases hlink with
      | base name =>
        simp only [nil_append,cons_prefix_cons] at hq
        exact hc (hq.1 ▸ name)
      | project name =>
        simp only [nil_append,cons_prefix_cons] at hq
        exact hproj hq.1.symm
    | project dot dots =>
      cases hlink with
      | base name =>
        simp only [nil_append,cons_append,cons_prefix_cons] at hq
        exact absurd (hq.1 ▸ name) (by decide)
      | project name =>
        simp only [nil_append,cons_append,cons_prefix_cons] at hq
        exact hc (hq.2.2.1 ▸ name)

lemma straight_link (hr : ProjectRoot r) (hc : c ∈ linkNames) :
    Straight LinkPlace false (r++[c]) := by
  have hname : c ≠ "." ∧ c ≠ ".." := by
    constructor
    all_goals
      rintro rfl
      exact absurd hc (by decide)
  refine ⟨fun d hd => ?_,fun q _ _ hq hend hlink => ?_⟩
  · rcases List.mem_append.mp hd with hd | hd
    · exact hr.regular d hd
    · rw [List.mem_singleton.mp hd]
      exact hname
  · have hne : q ≠ r++[c] := hend.resolve_right (by simp)
    rw [nil_append] at hq
    -- a shorter path is too short for a link
    cases hr with
    | base =>
      cases hlink with
      | base name =>
        simp only [nil_append,cons_prefix_cons] at hq
        exact hne (by rw [hq.1]; rfl)
      | project name => simp at hq
    | project dot dots =>
      cases hlink with
      | base name =>
        simp only [cons_append,cons_prefix_cons] at hq
        exact absurd (hq.1 ▸ name) (by decide)
      | project name =>
        simp only [cons_append,nil_append,cons_prefix_cons] at hq
        exact hne (by rw [hq.2.1,hq.2.2.1]; rfl)

lemma straight_root (last : Bool) {n : String} (dot : n ≠ ".") (dots : n ≠ "..") :
    Straight LinkPlace last ["projects",n] := by
  refine ⟨by simp [dot,dots],fun q _ _ hq _ hlink => ?_⟩
  cases hlink with
  | base name =>
    simp only [nil_append,cons_prefix_cons] at hq
    exact absurd (hq.1 ▸ name) (by decide)
  | project name => simp at hq

end PirateServer.Deploy
