import PirateServer.Lib.Lines
import PirateServer.Nginx.Zones

/-! The vhost of a project after a deploy: it is written and nginx is reloaded unless the hash of
the release's snippet is that of the last apply and of the live site file. -/
namespace PirateServer.Nginx.AutoApply
open Lib Lines

structure Antiddos where
  enabled : Bool
  burst : ℕ
  maxConnectionsPerIp : ℕ
  aggressive : Bool

/-- A route of the proxy: its path, the upstream, and whether it upgrades to WebSocket. -/
structure Route where
  path : Chars
  upstream : Chars
  websocket : Bool

structure Manifest where
  deployProjectId : String
  hasCustomNginxTemplate : Bool
  nginxAutoApply : Option Bool
  nginxEdgeIntended : Bool
  serverName : Chars
  port : ℕ
  routes : List Route
  antiddos : Antiddos

structure Release where
  projectRoot : Chars
  version : Chars

structure Snippet where
  contentSha256 : Chars
  content : Chars

/-- The snippet of the release, the site and the hash in the state, where they can be read. -/
structure Files where
  release : Option Chars
  site : Option Chars
  appliedContentSha256 : Option Chars

/-- What the checks of the manifest, the scripts and the two writes of the state come to. -/
structure Outside where
  accepted : Bool
  put : Bool
  leftover : Option Chars
  enable : Bool
  persist : Bool
  persistAgain : Bool

inductive Action
  | skipped
  | unchanged
  | updated
  | failed

/-- Replaces what is found from left to right, after some characters that are passed over. -/
def replaceFrom (old new : Chars) : ℕ → Chars → Chars
  | _,[] => []
  | skip+1,_::cs => replaceFrom old new skip cs
  | 0,c::cs =>
    if old.isPrefixOf (c::cs) then new++replaceFrom old new (old.length-1) cs
    else c::replaceFrom old new 0 cs

/-- `str::replace`, for a pattern that is not empty. -/
def replace (old : String) (new text : Chars) : Chars := replaceFrom old.toList new 0 text

def substituteNginxTemplate (r : Release) (content : Chars) : Chars :=
  let content := replace "<PATH_PROJECT>" r.projectRoot content
  let content := replace "<VERSION>" r.version content
  replace "<RELEASE_ROOT>" (r.projectRoot++"/releases/".toList++r.version) content

def nginxProxyLocationBlock (r : Route) (pre : Chars) : Chars :=
  let ws := if r.websocket then
      "        proxy_http_version 1.1;\n        proxy_set_header Upgrade $http_upgrade;\n".toList++
      "        proxy_set_header Connection \"upgrade\";\n".toList
    else []
  "    location ".toList++r.path++" \x7b\n".toList++pre++ws++"        proxy_pass http://".toList++
    r.upstream++";\n        proxy_set_header Host $host;\n".toList++
    "        proxy_set_header X-Real-IP $remote_addr;\n".toList++
    "        proxy_set_header X-Forwarded-For $proxy_add_x_forwarded_for;\n    \x7d\n".toList

variable (sha256 : Chars → Chars) (r : Release) (m : Manifest) (o : Outside) (snippet : Snippet)
  (w : Files)

def antiddosSlug : Chars := antiddosZoneSlug (Deploy.normalizeProjectId m.deployProjectId)

/-- A limit of the manifest, in `u32`, lowered to seven tenths where it is aggressive. -/
def antiddosLimit (value most : ℕ) : ℕ :=
  let value := if m.antiddos.aggressive then max (min (value*7) (2^32-1)/10) 1 else value
  min (max value 1) most

def antiddosLocationPrefix : Chars :=
  if m.antiddos.enabled = false then []
  else
    "    limit_req zone=pirate_rl_prj_".toList++antiddosSlug m++" burst=".toList++
      Nat.toDigits 10 (antiddosLimit m m.antiddos.burst 1000)++
      " nodelay;\n    limit_conn pirate_conn_prj_".toList++antiddosSlug m++" ".toList++
      Nat.toDigits 10 (antiddosLimit m m.antiddos.maxConnectionsPerIp 10000)++";\n".toList

def nginxReleaseSnippetContent : Option Chars :=
  if m.nginxEdgeIntended = false || m.routes.isEmpty then none
  else
    let comment := if m.antiddos.enabled then
        "# [antiddos] zones pirate_rl_prj_".toList++antiddosSlug m++" / pirate_conn_prj_".toList++
          antiddosSlug m++
          " must exist on the host (control-api antiddos project + apply).\n".toList
      else []
    some ("# server_name ".toList++m.serverName++
      ";\n# Generated by Pirate — merge into your server block\n".toList++comment++
      m.routes.flatMap (fun r =>
        nginxProxyLocationBlock r (antiddosLocationPrefix m)++"\n".toList))

def generateNginxServerConfig : Option Chars :=
  if m.routes.isEmpty then none
  else
    let port := Nat.toDigits 10 (if 0 < m.port && m.port < 1024 then m.port else 80)
    some ("# Pirate: project vhost (control-api apply)\nserver \x7b\n    listen ".toList++port++
      ";\n    listen [::]:".toList++port++";\n    server_name ".toList++m.serverName++
      ";\n".toList++m.routes.flatMap (nginxProxyLocationBlock · [])++"\x7d\n".toList)

def writeNginxSnippet (template : Option Chars) : Option Snippet :=
  if m.hasCustomNginxTemplate then
    template.map fun raw =>
      ⟨sha256 (substituteNginxTemplate r raw),substituteNginxTemplate r raw⟩
  else (nginxReleaseSnippetContent m).map fun content => ⟨sha256 content,content⟩

def resolveProjectNginxVhostContent : Option Chars :=
  if m.hasCustomNginxTemplate then w.release.filter (fun content => !(trim content).isEmpty)
  else generateNginxServerConfig m

def applyProjectNginxVhost : Files × Bool :=
  match o.accepted,resolveProjectNginxVhostContent m w,o.put,o.enable with
  | false,_,_,_ => (w,false)
  | _,none,_,_ => (w,false)
  | _,some _,false,_ => ({ w with site := o.leftover },false)
  | _,some content,_,false => ({ w with site := some content },false)
  | _,some content,_,_ =>
    (⟨w.release,some content,if o.persist then sha256 content else w.appliedContentSha256⟩,true)

def nginxVhostContentChanged : Bool :=
  w.appliedContentSha256 != some snippet.contentSha256 ||
    w.site.map sha256 != some snippet.contentSha256

def maybeAutoApplyProjectNginxVhost : Files × Action :=
  if m.nginxAutoApply.getD m.hasCustomNginxTemplate = false then (w,.skipped)
  else if nginxVhostContentChanged sha256 snippet w = false then (w,.unchanged)
  else match applyProjectNginxVhost sha256 m o w with
    | (w',false) => (w',.failed)
    | (w',true) =>
      -- this replaces the hash of the written content by that of the snippet
      (if o.persistAgain then { w' with appliedContentSha256 := snippet.contentSha256 } else w',
        .updated)

/-- Two texts have one hash. -/
def Collides (c d : Chars) : Prop := c ≠ d ∧ sha256 c = sha256 d

/-- The server block has the hash of the fragment that is generated for the release. -/
def BlockCollides : Prop := ∃ block fragment, generateNginxServerConfig m = some block ∧
  nginxReleaseSnippetContent m = some fragment ∧ Collides sha256 block fragment

variable {sha256 r m o snippet w} {w' : Files} {template : Option Chars}

lemma apply_ok (h : applyProjectNginxVhost sha256 m o w = (w',true)) :
    ∃ content, resolveProjectNginxVhostContent m w = some content ∧ w' = ⟨w.release,some content,
      if o.persist then sha256 content else w.appliedContentSha256⟩ := by
  unfold applyProjectNginxVhost at h
  split at h
  all_goals cases h
  exact ⟨_,‹_›,rfl⟩

lemma writeNginxSnippet_sha256 (h : writeNginxSnippet sha256 r m template = some snippet) :
    snippet.contentSha256 = sha256 snippet.content := by
  unfold writeNginxSnippet at h
  split_ifs at h
  all_goals
    obtain ⟨_,_,rfl⟩ := Option.map_eq_some_iff.mp h
    rfl

/-- They differ in the third character. -/
lemma block_ne_fragment {block fragment : Chars} (hblock : generateNginxServerConfig m = some block)
    (hfragment : nginxReleaseSnippetContent m = some fragment) : block ≠ fragment := by
  rw [generateNginxServerConfig] at hblock
  rw [nginxReleaseSnippetContent] at hfragment
  by_cases hroutes : m.routes.isEmpty = true
  · rw [if_pos hroutes] at hblock
    cases hblock
  by_cases hskip : (m.nginxEdgeIntended = false || m.routes.isEmpty) = true
  · rw [if_pos hskip] at hfragment
    cases hfragment
  rw [if_neg hroutes] at hblock
  rw [if_neg hskip] at hfragment
  cases hblock
  cases hfragment
  intro h
  have hthird := congrArg (fun l : Chars => l[2]?) h
  cases (show some 'P' = some 's' from hthird)

lemma resolve_custom (hcustom : m.hasCustomNginxTemplate = true)
    (hrelease : w.release = some snippet.content) : resolveProjectNginxVhostContent m w =
      if trim snippet.content = [] then none else some snippet.content := by
  rw [resolveProjectNginxVhostContent,if_pos hcustom,hrelease]
  by_cases hblank : trim snippet.content = []
  · rw [if_pos hblank]
    simp [hblank]
  · rw [if_neg hblank]
    simp [hblank]

/-- What a fresh apply writes has the hash of the snippet only if it is the snippet, or by a
collision. -/
lemma same_hash_iff {content : Chars} (hsnippet : writeNginxSnippet sha256 r m template =
    some snippet)
    (hrelease : w.release = some snippet.content)
    (hcontent : resolveProjectNginxVhostContent m w = some content) :
    sha256 content = snippet.contentSha256 ↔
      m.hasCustomNginxTemplate = true ∨ BlockCollides sha256 m := by
  rw [writeNginxSnippet_sha256 hsnippet]
  by_cases hcustom : m.hasCustomNginxTemplate = true
  · rw [resolve_custom hcustom hrelease] at hcontent
    split_ifs at hcontent
    cases hcontent
    exact iff_of_true rfl (.inl hcustom)
  · rw [resolveProjectNginxVhostContent,if_neg hcustom] at hcontent
    rw [writeNginxSnippet,if_neg hcustom] at hsnippet
    obtain ⟨fragment,hfragment,rfl⟩ := Option.map_eq_some_iff.mp hsnippet
    constructor
    · intro hhash
      exact .inr ⟨content,fragment,hcontent,hfragment,block_ne_fragment hcontent hfragment,hhash⟩
    · rintro (h | ⟨block,fragment',hblock,hfragment',_,hhash⟩)
      · exact absurd h hcustom
      · cases hcontent.symm.trans hblock
        cases hfragment.symm.trans hfragment'
        exact hhash

lemma contentChanged_eq_false_iff : nginxVhostContentChanged sha256 snippet w = false ↔
    w.appliedContentSha256 = some snippet.contentSha256 ∧
      w.site.map sha256 = some snippet.contentSha256 := by
  rw [nginxVhostContentChanged,Bool.or_eq_false_iff,bne_eq_false_iff_eq,bne_eq_false_iff_eq]

section
variable (hauto : m.nginxAutoApply.getD m.hasCustomNginxTemplate = true)
include hauto

lemma unchanged_iff : maybeAutoApplyProjectNginxVhost sha256 m o snippet w = (w',.unchanged) ↔
    w' = w ∧ nginxVhostContentChanged sha256 snippet w = false := by
  rw [maybeAutoApplyProjectNginxVhost,if_neg (by simp [hauto])]
  cases hchanged : nginxVhostContentChanged sha256 snippet w with
  | false =>
    rw [if_pos rfl,Prod.mk.injEq,and_iff_left rfl,and_iff_left rfl]
    exact eq_comm
  | true =>
    rw [if_neg (by simp)]
    refine iff_of_false (fun h => ?_) (fun h => Bool.false_ne_true h.2.symm)
    split at h <;> cases h

lemma updated_cases (h : maybeAutoApplyProjectNginxVhost sha256 m o snippet w = (w',.updated)) :
    ∃ content, resolveProjectNginxVhostContent m w = some content ∧ w'.site = some content ∧
      w'.appliedContentSha256 = (if o.persistAgain then some snippet.contentSha256
        else if o.persist then some (sha256 content) else w.appliedContentSha256) := by
  rw [maybeAutoApplyProjectNginxVhost,if_neg (by simp [hauto])] at h
  split at h
  · cases h
  split at h
  · cases h
  next happly =>
  obtain ⟨content,hcontent,rfl⟩ := apply_ok happly
  refine ⟨content,hcontent,?_⟩
  cases h
  cases o.persistAgain with
  | false => cases o.persist <;> exact ⟨rfl,rfl⟩
  | true => exact ⟨rfl,rfl⟩

/-- An update is not repeated exactly if the snippet is the project's own, or the hash has a
collision, and the state has the hash of the snippet; and the site that an apply is spared for is
what it would write only for a snippet of the project's own, and then unless this is blank or its
hash has a collision in the site. -/
theorem auto_apply_idempotent_iff (hsnippet : writeNginxSnippet sha256 r m template = some snippet)
    (hrelease : w.release = some snippet.content) :
    (maybeAutoApplyProjectNginxVhost sha256 m o snippet w = (w',.updated) →
      ((∀ o', maybeAutoApplyProjectNginxVhost sha256 m o' snippet w' = (w',.unchanged)) ↔
        (m.hasCustomNginxTemplate = true ∨ BlockCollides sha256 m) ∧
          (o.persist = true ∨ o.persistAgain = true ∨
            w.appliedContentSha256 = some snippet.contentSha256))) ∧
    (maybeAutoApplyProjectNginxVhost sha256 m o snippet w = (w',.unchanged) → w' = w ∧
      (w.site = resolveProjectNginxVhostContent m w →
        m.hasCustomNginxTemplate = true ∨ BlockCollides sha256 m) ∧
      (m.hasCustomNginxTemplate = true → (w.site = resolveProjectNginxVhostContent m w ↔
        trim snippet.content ≠ [] ∧ ∀ c, w.site = some c →
          ¬Collides sha256 c snippet.content))) := by
  constructor
  · intro h
    obtain ⟨content,hcontent,hsite,happlied⟩ := updated_cases hauto h
    have hnext : (∀ o', maybeAutoApplyProjectNginxVhost sha256 m o' snippet w' = (w',.unchanged)) ↔
        nginxVhostContentChanged sha256 snippet w' = false :=
      ⟨fun h => ((unchanged_iff hauto).mp (h o)).2,fun h _ => (unchanged_iff hauto).mpr ⟨rfl,h⟩⟩
    rw [hnext,contentChanged_eq_false_iff,hsite,happlied,Option.map_some,Option.some_inj,and_comm,
      ← same_hash_iff hsnippet hrelease hcontent]
    refine and_congr_right fun hhash => ?_
    cases o.persistAgain with
    | true => simp
    | false =>
      cases o.persist with
      | true => simp [hhash]
      | false => simp
  · intro h
    obtain ⟨rfl,hsame⟩ := (unchanged_iff hauto).mp h
    obtain ⟨site,hsite,hhash⟩ := Option.map_eq_some_iff.mp (contentChanged_eq_false_iff.mp hsame).2
    refine ⟨rfl,fun heq => ?_,fun hcustom => ?_⟩
    · exact (same_hash_iff hsnippet hrelease (heq.symm.trans hsite)).mp hhash
    · rw [resolve_custom hcustom hrelease,hsite]
      rw [writeNginxSnippet_sha256 hsnippet] at hhash
      by_cases hblank : trim snippet.content = []
      · rw [if_pos hblank]
        exact iff_of_false nofun (fun h => h.1 hblank)
      · rw [if_neg hblank,Option.some_inj]
        constructor
        · rintro rfl
          refine ⟨hblank,?_⟩
          rintro c hc ⟨hne,_⟩
          exact hne (Option.some.inj hc).symm
        · rintro ⟨_,hcollides⟩
          by_contra hne
          exact hcollides site rfl ⟨hne,hhash⟩

end

def sampleRelease : Release := ⟨"/srv/app".toList,"1.0.0".toList⟩

def sampleManifest (custom : Bool) : Manifest :=
  ⟨"app",custom,some true,true,"app.example".toList,80,
    [⟨['/'],"127.0.0.1:3000".toList,false⟩,⟨"/ws".toList,"127.0.0.1:3001".toList,true⟩],
    ⟨true,20,10,true⟩⟩

/-- All checks, scripts and writes succeed. -/
def smooth : Outside := ⟨true,true,none,true,true,true⟩

def sampleTemplate : Option Chars := some "root <RELEASE_ROOT>/dist;".toList

theorem auto_apply_idempotent_template :
    ∃ snippet w', writeNginxSnippet id sampleRelease (sampleManifest true) sampleTemplate =
        some snippet ∧ snippet.content = "root /srv/app/releases/1.0.0/dist;".toList ∧
      maybeAutoApplyProjectNginxVhost id (sampleManifest true) smooth snippet
        ⟨some snippet.content,some ['a'],none⟩ = (w',.updated) ∧
      ∀ o', maybeAutoApplyProjectNginxVhost id (sampleManifest true) o' snippet w' =
        (w',.unchanged) :=
  ⟨_,_,rfl,rfl,rfl,((auto_apply_idempotent_iff (o := smooth) (w := ⟨_,some ['a'],none⟩) rfl
    (show writeNginxSnippet id sampleRelease (sampleManifest true) sampleTemplate = _ from rfl)
    rfl).1 rfl).mpr ⟨.inl rfl,.inl rfl⟩⟩

set_option maxRecDepth 4000 in
/-- A generated snippet is a fragment, the site a whole server block: every call applies again. -/
theorem generated_vhost_applied_again :
    ∃ snippet w', writeNginxSnippet id sampleRelease (sampleManifest false) none = some snippet ∧
      maybeAutoApplyProjectNginxVhost id (sampleManifest false) smooth snippet
        ⟨some snippet.content,none,none⟩ = (w',.updated) ∧
      maybeAutoApplyProjectNginxVhost id (sampleManifest false) smooth snippet w' = (w',.updated) :=
  ⟨_,_,rfl,rfl,rfl⟩

end PirateServer.Nginx.AutoApply
