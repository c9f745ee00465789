import PirateServer.Auth.Types
import PirateServer.Lib.Census
import PirateServer.Lib.Run
import PirateServer.StackTun.Types

/-! The three handlers that change the configuration of the tunnel service, side by side. One step
is one critical section on the store, one access to a file, or the opening of a file to be written,
which leaves it empty. A file of peers that cannot be parsed counts as empty. A ghost records the
requests in the order of their effects. -/
namespace PirateServer.StackTun.Updates
open Lib Auth List

/-- The configuration in memory and on disk. -/
structure Store where
  root : PersistRoot
  disk : Option PersistRoot
  peersFile : Finset PubKey
  peers : Finset PubKey
  deriving DecidableEq

/-- A request with its parsed body; `none` stands for a key that does not parse. -/
inductive Request
  | putConfig (profiles : List TunnelProfile)
  | putRoutes (routes : List StackTunRouteRule)
  | postPeer (key : Option PubKey)
  deriving DecidableEq

/-- The loop of `put_config` over the profiles, with the text for the audit log. -/
def checkProfiles : List String → List TunnelProfile → Except String Unit
  | _,[] => .ok ()
  | seen,p::ps =>
    if p.id ∈ seen then .error ("duplicate profile id " ++ p.id)
    else
      match p.validate with
      | .error e => .error ("profile " ++ p.id ++ " invalid: " ++ e)
      | .ok () => checkProfiles (p.id::seen) ps

namespace Request

def valid : Request → Bool
  | putConfig profiles => (checkProfiles [] profiles).isOk
  | putRoutes _ => true
  | postPeer key => key.isSome

def isPeer : Request → Bool
  | postPeer _ => true
  | _ => false

def newRoot : Request → PersistRoot → PersistRoot
  | putConfig profiles,prev => ⟨1,profiles,prev.routes⟩
  | putRoutes routes,prev => { prev with routes := routes }
  | postPeer _,prev => prev

def keys : Request → Finset PubKey
  | postPeer (some key) => {key}
  | _ => ∅

def current (prev now : PersistRoot) : Request → Bool
  | putConfig _ => now.routes = prev.routes
  | putRoutes _ => now.version = prev.version ∧ now.profiles = prev.profiles
  | postPeer _ => true

def apply (r : Request) (st : Store) : Store :=
  if r.isPeer then
    { st with peersFile := r.keys ∪ st.peersFile, peers := r.keys ∪ st.peersFile }
  else { st with root := r.newRoot st.root, disk := some (r.newRoot st.root) }

end Request

def runAll (rs : List Request) (st : Store) : Store := rs.foldl (fun st r => r.apply st) st

/-- Program points. `put_config` and `put_routes` go from `read` to `saveWrite`, and
`post_authorized_peer` from `load` to `reloadSet`. -/
inductive Pc
  | read
  | replace (prev : PersistRoot)
  | saveGuard
  | saveOpen
  | saveWrite
  | resync
  | load
  | saveOpenPeers (loaded : Finset PubKey)
  | saveWritePeers (loaded : Finset PubKey)
  | reloadLoad
  | reloadSet (loaded : Finset PubKey)
  | done (ok : Bool)
  deriving DecidableEq

namespace Pc

/-- The read guard of `save_to_disk` is held. -/
def holdsRead : Pc → Bool
  | saveOpen | saveWrite => true
  | _ => false

/-- The request has taken effect. -/
def committed : Pc → Bool
  | saveGuard | saveOpen | saveWrite | resync | reloadLoad | reloadSet _ | done true => true
  | _ => false

def writing : Pc → Bool
  | saveWritePeers _ => true
  | _ => false

def reloads : Pc → Bool
  | saveWritePeers _ | reloadLoad | reloadSet _ => true
  | _ => false

def failed : Pc → Bool
  | done false => true
  | _ => false

def peerSide : Pc → Option Bool
  | read | replace _ | saveGuard | saveOpen | saveWrite | resync => some false
  | load | saveOpenPeers _ | saveWritePeers _ | reloadLoad | reloadSet _ => some true
  | done _ => none

lemma reloads_of_writing {pc : Pc} (h : pc.writing = true) : pc.reloads = true := by
  cases pc with
  | saveWritePeers => rfl
  | _ => cases h

lemma not_writing_of_not_reloads {pc : Pc} (h : pc.reloads = false) : pc.writing = false := by
  cases pc with
  | saveWritePeers => cases h
  | _ => rfl

end Pc

structure Thread where
  request : Request
  pc : Pc
  deriving DecidableEq

def Thread.committed (th : Thread) : Option Request :=
  if th.pc.committed then some th.request else none

structure Sys where
  store : Store
  threads : List Thread
  commits : List Request
  deriving DecidableEq

def Sys.init (st : Store) : Sys := ⟨st,[],[]⟩

inductive Label
  | request (r : Request)
  | exec (t : ℕ)
  | fail (t : ℕ)
  deriving DecidableEq

/-- Where a handler begins. -/
def Request.start (r : Request) : Pc :=
  if r.valid = false then .done false else if r.isPeer then .load else .read

namespace Sys

def goto (s : Sys) (t : ℕ) (th : Thread) (pc : Pc) : Sys :=
  { s with threads := s.threads.set t { th with pc := pc } }

def advance (s : Sys) (t : ℕ) (th : Thread) : Option Sys :=
  match th.pc with
  | .read => some (s.goto t th (.replace s.store.root))
  | .replace prev =>
    -- the write guard excludes the readers
    if s.threads.any (fun u => u.pc.holdsRead) then none
    else some { s.goto t th .saveGuard with
      store := { s.store with root := th.request.newRoot prev }
      commits := s.commits ++ [th.request] }
  | .saveGuard => some (s.goto t th .saveOpen)
  | .saveOpen => some { s.goto t th .saveWrite with store := { s.store with disk := none } }
  | .saveWrite =>
    let next := match th.request with
      | .putConfig _ => Pc.resync
      | _ => .done true
    some { s.goto t th next with store := { s.store with disk := some s.store.root } }
  | .resync => some (s.goto t th (.done true))
  | .load => some (s.goto t th (.saveOpenPeers s.store.peersFile))
  | .saveOpenPeers loaded =>
    some { s.goto t th (.saveWritePeers loaded) with store := { s.store with peersFile := ∅ } }
  | .saveWritePeers loaded =>
    some { s.goto t th .reloadLoad with
      store := { s.store with peersFile := th.request.keys ∪ loaded }
      commits := s.commits ++ [th.request] }
  | .reloadLoad => some (s.goto t th (.reloadSet s.store.peersFile))
  | .reloadSet loaded =>
    some { s.goto t th (.done true) with store := { s.store with peers := loaded } }
  | .done _ => none

end Sys

/-- The points at which an access to a file can fail. -/
def Pc.fallible : Pc → Bool
  | saveOpen | saveWrite | load | saveOpenPeers _ | saveWritePeers _ | reloadLoad => true
  | _ => false

def step (s : Sys) : Label → Option Sys
  | .request r => some { s with threads := s.threads ++ [⟨r,r.start⟩] }
  | .exec t => (s.threads[t]?).bind (s.advance t)
  | .fail t =>
    match s.threads[t]? with
    | some th => if th.pc.fallible then some (s.goto t th (.done false)) else none
    | none => none

/-- Everything that a step can do. -/
inductive Move (s : Sys) : Label → Sys → Prop
  | request {r} : Move s (.request r) { s with threads := s.threads ++ [⟨r,r.start⟩] }
  | read {t th} (at_t : s.threads[t]? = some th) (pc : th.pc = .read) :
      Move s (.exec t) (s.goto t th (.replace s.store.root))
  | replace {t th prev} (at_t : s.threads[t]? = some th) (pc : th.pc = .replace prev) :
      Move s (.exec t) { s.goto t th .saveGuard with
        store := { s.store with root := th.request.newRoot prev }
        commits := s.commits ++ [th.request] }
  | saving {t th next disk} (at_t : s.threads[t]? = some th) (pc : th.pc.committed = true)
      (next_pc : Pc.committed next = true) (quiet : th.pc.reloads = false)
      (quiet_next : next.reloads = false)
      (side : ∀ b, next.peerSide = some b → th.pc.peerSide = some b) :
      Move s (.exec t) { s.goto t th next with store := { s.store with disk := disk } }
  | load {t th} (at_t : s.threads[t]? = some th) (pc : th.pc = .load) :
      Move s (.exec t) (s.goto t th (.saveOpenPeers s.store.peersFile))
  | openPeers {t th loaded} (at_t : s.threads[t]? = some th) (pc : th.pc = .saveOpenPeers loaded) :
      Move s (.exec t) { s.goto t th (.saveWritePeers loaded) with
        store := { s.store with peersFile := ∅ } }
  | writePeers {t th loaded} (at_t : s.threads[t]? = some th) (pc : th.pc = .saveWritePeers loaded) :
      Move s (.exec t) { s.goto t th .reloadLoad with
        store := { s.store with peersFile := th.request.keys ∪ loaded }
        commits := s.commits ++ [th.request] }
  | reloadLoad {t th} (at_t : s.threads[t]? = some th) (pc : th.pc = .reloadLoad) :
      Move s (.exec t) (s.goto t th (.reloadSet s.store.peersFile))
  | reloadSet {t th loaded} (at_t : s.threads[t]? = some th) (pc : th.pc = .reloadSet loaded) :
      Move s (.exec t) { s.goto t th (.done true) with
        store := { s.store with peers := loaded } }
  | fail {t th} (at_t : s.threads[t]? = some th) :
      Move s (.fail t) (s.goto t th (.done false))

variable {a : Label}

/-- The list above is complete. -/
theorem step_move {s s' : Sys} (h : step s a = some s') : Move s a s' := by
  cases a with
  | request r => cases h; exact .request
  | exec t =>
    obtain ⟨th,ht,h⟩ := Option.bind_eq_some_iff.mp h
    simp only [Sys.advance] at h
    cases hpc : th.pc with
    | read => rw [hpc] at h; cases h; exact .read ht hpc
    | replace prev =>
      simp only [hpc] at h
      split at h
      · cases h
      · cases h; exact .replace ht hpc
    | saveGuard | saveOpen =>
      rw [hpc] at h; cases h
      exact .saving ht (by rw [hpc]; rfl) rfl (by rw [hpc]; rfl) rfl
        (by rw [hpc]; exact fun b hb => hb)
    | saveWrite =>
      rw [hpc] at h; cases h
      cases hr : th.request with
      | putConfig profiles =>
        exact .saving ht (by rw [hpc]; rfl) rfl (by rw [hpc]; rfl) rfl
          (by rw [hpc]; exact fun b hb => hb)
      | putRoutes | postPeer =>
        exact .saving ht (by rw [hpc]; rfl) rfl (by rw [hpc]; rfl) rfl (fun b hb => nomatch hb)
    | resync =>
      rw [hpc] at h; cases h
      exact .saving ht (by rw [hpc]; rfl) rfl (by rw [hpc]; rfl) rfl (fun b hb => nomatch hb)
    | load => rw [hpc] at h; cases h; exact .load ht hpc
    | saveOpenPeers loaded => rw [hpc] at h; cases h; exact .openPeers ht hpc
    | saveWritePeers loaded => rw [hpc] at h; cases h; exact .writePeers ht hpc
    | reloadLoad => rw [hpc] at h; cases h; exact .reloadLoad ht hpc
    | reloadSet loaded => rw [hpc] at h; cases h; exact .reloadSet ht hpc
    | done ok => rw [hpc] at h; cases h
  | fail t =>
    simp only [step] at h
    split at h
    · split at h
      · cases h; exact .fail ‹_›
      · cases h
    · cases h

def writesCurrent (s : Sys) : Label → Bool
  | .exec t =>
    match s.threads[t]? with
    | none => true
    | some th =>
      match th.pc with
      | .replace prev => th.request.current prev s.store.root
      | .saveOpenPeers loaded =>
        loaded = s.store.peersFile && s.threads.all (fun u => u.pc.writing = false)
      | .reloadSet loaded => loaded = s.store.peersFile
      | _ => true
  | _ => true

/-- No handler has reported an error. -/
def Sys.unfailed (s : Sys) : Prop := ∀ th ∈ s.threads, th.pc.failed = false

variable {st : Store} {rs : List Request} {r : Request}

lemma runAll_concat : runAll (rs ++ [r]) st = r.apply (runAll rs st) := by
  simp [runAll]

lemma newRoot_of_current {prev now : PersistRoot} (hr : r.isPeer = false)
    (h : r.current prev now = true) : r.newRoot prev = r.newRoot now := by
  cases r with
  | putConfig profiles =>
    have hroutes : now.routes = prev.routes := by simpa [Request.current] using h
    simp only [Request.newRoot,hroutes]
  | putRoutes routes =>
    obtain ⟨hversion,hprofiles⟩ : now.version = prev.version ∧ now.profiles = prev.profiles := by
      simpa [Request.current] using h
    simp only [Request.newRoot,hversion,hprofiles]
  | postPeer key => cases hr

lemma runAll_peers (h : ∃ r ∈ rs, r.isPeer = true) :
    (runAll rs st).peers = (runAll rs st).peersFile := by
  induction rs using List.reverseRecOn with
  | nil => simp at h
  | append_singleton rs r ih =>
    rw [runAll_concat]
    by_cases hr : r.isPeer = true
    · simp only [Request.apply,hr,if_true]
    have hrs : ∃ r ∈ rs, r.isPeer = true := by
      obtain ⟨r',hmem,hp⟩ := h
      rcases List.mem_append.mp hmem with hmem | hmem
      · exact ⟨r',hmem,hp⟩
      · cases List.mem_singleton.mp hmem
        exact absurd hp hr
    simp only [Request.apply,hr]
    exact ih hrs

/-- The store is what the requests that took effect make of the first one, in their order;
except while the file of peers is being written, and the peers in memory are going to be
replaced. -/
structure Serial (st : Store) (s : Sys) : Prop where
  side_eq : ∀ th ∈ s.threads, ∀ b, th.pc.peerSide = some b → th.request.isPeer = b
  commits_perm : (s.threads.filterMap Thread.committed).Perm s.commits
  root_eq : s.store.root = (runAll s.commits st).root
  writing_one : ∀ {t u : ℕ} {th uh : Thread}, s.threads[t]? = some th → s.threads[u]? = some uh →
    th.pc.writing = true → uh.pc.writing = true → t = u
  writing_eq : ∀ th ∈ s.threads, ∀ loaded, th.pc = .saveWritePeers loaded →
    loaded = (runAll s.commits st).peersFile
  file_eq : (∀ th ∈ s.threads, th.pc.writing = false) →
    s.store.peersFile = (runAll s.commits st).peersFile
  peers_eq : s.store.peers = (runAll s.commits st).peers ∨ ∃ th ∈ s.threads, th.pc.reloads = true

namespace Serial
variable {s s' : Sys} {t : ℕ} {th : Thread} {pc : Pc}

lemma init (st : Store) : Serial st (Sys.init st) := by
  constructor <;> simp [Sys.init,runAll]

lemma side_set (h : Serial st s) (ht : s.threads[t]? = some th)
    (hside : ∀ b, pc.peerSide = some b → th.pc.peerSide = some b) :
    ∀ q ∈ s.threads.set t ⟨th.request,pc⟩, ∀ b, q.pc.peerSide = some b → q.request.isPeer = b := by
  intro q hq b hb
  rcases mem_or_eq_of_mem_set hq with hq | rfl
  · exact h.side_eq q hq b hb
  · exact h.side_eq th (mem_of_getElem? ht) b (hside b hb)

lemma writing_one_set (h : Serial st s) (hw : pc.writing = false) {u v : ℕ} {uh vh : Thread}
    (hu : (s.threads.set t ⟨th.request,pc⟩)[u]? = some uh)
    (hv : (s.threads.set t ⟨th.request,pc⟩)[v]? = some vh)
    (huw : uh.pc.writing = true) (hvw : vh.pc.writing = true) : u = v := by
  rcases Census.getElem?_set_cases hu with ⟨_,rfl⟩ | ⟨_,hu⟩
  · cases hw.symm.trans huw
  · rcases Census.getElem?_set_cases hv with ⟨_,rfl⟩ | ⟨_,hv⟩
    · cases hw.symm.trans hvw
    · exact h.writing_one hu hv huw hvw

lemma not_writing_of_set (ht : s.threads[t]? = some th) (hw : th.pc.writing = false)
    (h : ∀ q ∈ s.threads.set t ⟨th.request,pc⟩, q.pc.writing = false) :
    ∀ q ∈ s.threads, q.pc.writing = false := by
  intro q hq
  by_cases hqt : q = th
  · rw [hqt]
    exact hw
  · exact h q (Census.mem_set_of_ne ht hq hqt)

lemma reloads_set (ht : s.threads[t]? = some th)
    (hreload : th.pc.reloads = true → pc.reloads = true)
    (h : ∃ q ∈ s.threads, q.pc.reloads = true) :
    ∃ q ∈ s.threads.set t ⟨th.request,pc⟩, q.pc.reloads = true := by
  obtain ⟨q,hq,hqr⟩ := h
  by_cases hqt : q = th
  · subst hqt
    have hlen : t < s.threads.length := (List.getElem?_eq_some_iff.mp ht).1
    exact ⟨_,mem_set hlen _,hreload hqr⟩
  · exact ⟨q,Census.mem_set_of_ne ht hq hqt,hqr⟩

lemma commits_perm_keep (h : Serial st s) (ht : s.threads[t]? = some th)
    (hc : pc.committed = th.pc.committed) :
    ((s.threads.set t ⟨th.request,pc⟩).filterMap Thread.committed).Perm s.commits := by
  have hsame : Thread.committed ⟨th.request,pc⟩ = Thread.committed th := by
    simp only [Thread.committed,hc]
  rw [Census.filterMap_set ht hsame]
  exact h.commits_perm

lemma quiet (h : Serial st s) (ht : s.threads[t]? = some th)
    (hthreads : s'.threads = s.threads.set t ⟨th.request,pc⟩)
    (hroot : s'.store.root = s.store.root) (hfile : s'.store.peersFile = s.store.peersFile)
    (hpeers : s'.store.peers = s.store.peers) (hcommits : s'.commits = s.commits)
    (hside : ∀ b, pc.peerSide = some b → th.pc.peerSide = some b)
    (hcommitted : pc.committed = th.pc.committed) (hw : th.pc.writing = false)
    (hw' : pc.writing = false) (hreload : th.pc.reloads = true → pc.reloads = true) :
    Serial st s' := by
  have hmove : ∀ q ∈ s'.threads, ∀ loaded, q.pc = .saveWritePeers loaded → q ∈ s.threads := by
    intro q hq loaded hqpc
    rw [hthreads] at hq
    rcases mem_or_eq_of_mem_set hq with hq | rfl
    · exact hq
    · have hqpc : pc = .saveWritePeers loaded := hqpc
      rw [hqpc] at hw'
      cases hw'
  refine ⟨?_,?_,?_,?_,?_,?_,?_⟩
  · rw [hthreads]
    exact h.side_set ht hside
  · rw [hthreads,hcommits]
    exact h.commits_perm_keep ht hcommitted
  · rw [hroot,hcommits]
    exact h.root_eq
  · intro u v uh vh hu hv
    rw [hthreads] at hu hv
    exact h.writing_one_set hw' hu hv
  · intro q hq loaded hqpc
    rw [hcommits]
    exact h.writing_eq q (hmove q hq loaded hqpc) loaded hqpc
  · intro hnone
    rw [hthreads] at hnone
    rw [hfile,hcommits]
    exact h.file_eq (not_writing_of_set ht hw hnone)
  · rw [hpeers,hcommits,hthreads]
    exact h.peers_eq.imp_right (reloads_set ht hreload)

lemma commits_perm_set (h : Serial st s) (ht : s.threads[t]? = some th)
    (hc : th.pc.committed = false) (hc' : pc.committed = true) :
    ((s.threads.set t ⟨th.request,pc⟩).filterMap Thread.committed).Perm
      (s.commits ++ [th.request]) := by
  have hnone : th.committed = none := by simp [Thread.committed,hc]
  have hsome : Thread.committed ⟨th.request,pc⟩ = some th.request := by simp [Thread.committed,hc']
  refine (Census.filterMap_set_perm ht hnone hsome).trans ?_
  refine (h.commits_perm.cons _).trans ?_
  exact (perm_append_singleton th.request s.commits).symm

lemma replace (h : Serial st s) {prev : PersistRoot} (ht : s.threads[t]? = some th)
    (hpc : th.pc = .replace prev) (hcurrent : th.request.current prev s.store.root = true) :
    Serial st { s.goto t th .saveGuard with
      store := { s.store with root := th.request.newRoot prev }
      commits := s.commits ++ [th.request] } := by
  have hpeer : th.request.isPeer = false :=
    h.side_eq th (mem_of_getElem? ht) false (by rw [hpc]; rfl)
  have hw : th.pc.writing = false := by rw [hpc]; rfl
  have happly : runAll (s.commits ++ [th.request]) st =
      { runAll s.commits st with
        root := th.request.newRoot (runAll s.commits st).root
        disk := some (th.request.newRoot (runAll s.commits st).root) } := by
    rw [runAll_concat,Request.apply,hpeer]
    rfl
  refine ⟨h.side_set ht (by rw [hpc]; exact fun b hb => hb),
    h.commits_perm_set ht (by rw [hpc]; rfl) rfl,?_,fun hu hv =>
      h.writing_one_set rfl hu hv,?_,?_,?_⟩
  · rw [happly,← h.root_eq]
    exact newRoot_of_current hpeer hcurrent
  · intro q hq loaded hqpc
    rw [happly]
    rcases mem_or_eq_of_mem_set hq with hq | rfl
    · exact h.writing_eq q hq loaded hqpc
    · cases hqpc
  · intro hnone
    rw [happly]
    exact h.file_eq (not_writing_of_set ht hw hnone)
  · rw [happly]
    exact h.peers_eq.imp_right (reloads_set ht (by rw [hpc]; exact fun hc => nomatch hc))

variable {loaded : Finset PubKey}

section
variable (h : Serial st s) (ht : s.threads[t]? = some th)
include h ht

lemma openPeers (hpc : th.pc = .saveOpenPeers loaded) (hloaded : loaded = s.store.peersFile)
    (hnone : ∀ q ∈ s.threads, q.pc.writing = false) :
    Serial st { s.goto t th (.saveWritePeers loaded) with
      store := { s.store with peersFile := ∅ } } := by
  have hself : ∀ {u q}, (s.threads.set t ⟨th.request,.saveWritePeers loaded⟩)[u]? = some q →
      q.pc.writing = true → u = t := by
    intro u q hu hqw
    rcases Census.getElem?_set_cases hu with ⟨hut,_⟩ | ⟨_,hu⟩
    · exact hut
    · cases (hnone q (mem_of_getElem? hu)).symm.trans hqw
  have hlen : t < s.threads.length := (List.getElem?_eq_some_iff.mp ht).1
  refine ⟨h.side_set ht (by rw [hpc]; exact fun b hb => hb),
    h.commits_perm_keep ht (by rw [hpc]; rfl),h.root_eq,?_,?_,?_,?_⟩
  · intro u v uh vh hu hv huw hvw
    rw [hself hu huw,hself hv hvw]
  · intro q hq loaded' hqpc
    rcases mem_or_eq_of_mem_set hq with hq | rfl
    · have hqw := hnone q hq
      rw [hqpc] at hqw
      cases hqw
    · cases hqpc
      rw [hloaded]
      exact h.file_eq hnone
  · intro hfree
    cases hfree _ (mem_set hlen _)
  · exact Or.inr ⟨_,mem_set hlen _,rfl⟩

lemma writePeers (hpc : th.pc = .saveWritePeers loaded) : Serial st { s.goto t th .reloadLoad with
      store := { s.store with peersFile := th.request.keys ∪ loaded }
      commits := s.commits ++ [th.request] } := by
  have hmem := mem_of_getElem? ht
  have hpeer : th.request.isPeer = true := h.side_eq th hmem true (by rw [hpc]; rfl)
  have hlen : t < s.threads.length := (List.getElem?_eq_some_iff.mp ht).1
  have hothers : ∀ q ∈ s.threads.set t ⟨th.request,.reloadLoad⟩, q.pc.writing = false := by
    intro q hq
    obtain ⟨u,hu⟩ := List.mem_iff_getElem?.mp hq
    rcases Census.getElem?_set_cases hu with ⟨_,rfl⟩ | ⟨hut,hu⟩
    · rfl
    · by_contra hqw
      exact hut (h.writing_one hu ht (by simpa using hqw) (by rw [hpc]; rfl))
  have happly : runAll (s.commits ++ [th.request]) st =
      { runAll s.commits st with
        peersFile := th.request.keys ∪ (runAll s.commits st).peersFile
        peers := th.request.keys ∪ (runAll s.commits st).peersFile } := by
    rw [runAll_concat,Request.apply,hpeer]
    rfl
  refine ⟨h.side_set ht (by rw [hpc]; exact fun b hb => hb),
    h.commits_perm_set ht (by rw [hpc]; rfl) rfl,?_,fun hu hv =>
      h.writing_one_set rfl hu hv,?_,?_,?_⟩
  · rw [happly]
    exact h.root_eq
  · intro q hq loaded' hqpc
    have hqw := hothers q hq
    rw [hqpc] at hqw
    cases hqw
  · intro _
    rw [happly]
    show th.request.keys ∪ loaded = th.request.keys ∪ (runAll s.commits st).peersFile
    rw [h.writing_eq th hmem loaded hpc]
  · exact Or.inr ⟨_,mem_set hlen _,rfl⟩

lemma reloadSet {loaded : Finset PubKey}
    (hpc : th.pc = .reloadSet loaded) (hloaded : loaded = s.store.peersFile) :
    Serial st { s.goto t th (.done true) with store := { s.store with peers := loaded } } := by
  have hmem := mem_of_getElem? ht
  have hw : th.pc.writing = false := by rw [hpc]; rfl
  have hpeer : th.request.isPeer = true := h.side_eq th hmem true (by rw [hpc]; rfl)
  have hcommitted : th.request ∈ s.commits := by
    apply h.commits_perm.mem_iff.mp
    refine List.mem_filterMap.mpr ⟨th,hmem,?_⟩
    rw [Thread.committed,hpc]
    rfl
  refine ⟨h.side_set ht (fun b hb => nomatch hb),h.commits_perm_keep ht (by rw [hpc]; rfl),
    h.root_eq,fun hu hv => h.writing_one_set rfl hu hv,?_,?_,?_⟩
  · intro q hq loaded' hqpc
    rcases mem_or_eq_of_mem_set hq with hq | rfl
    · exact h.writing_eq q hq loaded' hqpc
    · cases hqpc
  · exact fun hnone => h.file_eq (not_writing_of_set ht hw hnone)
  · by_cases hfree : ∀ q ∈ s.threads, q.pc.writing = false
    · refine Or.inl ?_
      show loaded = (runAll s.commits st).peers
      rw [hloaded,h.file_eq hfree,runAll_peers ⟨th.request,hcommitted,hpeer⟩]
    · -- another handler writes the file and is going to replace the peers after that
      simp only [not_forall] at hfree
      obtain ⟨q,hq,hqw⟩ := hfree
      have hne : q ≠ th := by
        rintro rfl
        exact hqw hw
      have hqr : q.pc.reloads = true := Pc.reloads_of_writing (by simpa using hqw)
      exact Or.inr ⟨q,Census.mem_set_of_ne ht hq hne,hqr⟩

end

lemma request (h : Serial st s) (r : Request) :
    Serial st { s with threads := s.threads ++ [⟨r,r.start⟩] } := by
  have hstart : r.start = .done false ∨ (r.start = .load ∧ r.isPeer = true) ∨
      (r.start = .read ∧ r.isPeer = false) := by
    unfold Request.start
    split
    · exact Or.inl rfl
    · split
      · exact Or.inr (Or.inl ⟨rfl,‹_›⟩)
      · rename_i hp
        exact Or.inr (Or.inr ⟨rfl,by simpa using hp⟩)
  have hw : r.start.writing = false := by
    rcases hstart with he | ⟨he,_⟩ | ⟨he,_⟩ <;> rw [he] <;> rfl
  have hc : Thread.committed ⟨r,r.start⟩ = none := by
    rw [Thread.committed]
    rcases hstart with he | ⟨he,_⟩ | ⟨he,_⟩ <;> rw [he] <;> rfl
  have hold : ∀ {u : ℕ} {q : Thread}, (s.threads ++ [⟨r,r.start⟩])[u]? = some q →
      q.pc.writing = true → s.threads[u]? = some q := by
    intro u q hu hqw
    rcases Census.getElem?_concat_cases hu with hu | ⟨_,rfl⟩
    · exact hu
    · cases hw.symm.trans hqw
  refine ⟨?_,?_,h.root_eq,?_,?_,?_,?_⟩
  · intro q hq b hb
    rcases List.mem_append.mp hq with hq | hq
    · exact h.side_eq q hq b hb
    · cases List.mem_singleton.mp hq
      rcases hstart with he | ⟨he,hp⟩ | ⟨he,hp⟩ <;> simp only [he] at hb <;> cases hb
      · exact hp
      · exact hp
  · simp only [filterMap_append,filterMap_cons,hc,filterMap_nil,append_nil]
    exact h.commits_perm
  · intro u v uh vh hu hv huw hvw
    exact h.writing_one (hold hu huw) (hold hv hvw) huw hvw
  · intro q hq loaded hqpc
    obtain ⟨u,hu⟩ := List.mem_iff_getElem?.mp hq
    exact h.writing_eq q (mem_of_getElem? (hold hu (by rw [hqpc]; rfl))) loaded hqpc
  · exact fun hnone => h.file_eq (fun q hq => hnone q (mem_append_left _ hq))
  · refine h.peers_eq.imp_right ?_
    rintro ⟨q,hq,hqr⟩
    exact ⟨q,mem_append_left _ hq,hqr⟩

theorem step (h : Serial st s) (hok : writesCurrent s a = true)
    (hs : Updates.step s a = some s') (hunfailed : s'.unfailed) : Serial st s' := by
  cases step_move hs with
  | request => exact h.request _
  | read ht hpc | load ht hpc | reloadLoad ht hpc =>
    exact h.quiet ht rfl rfl rfl rfl rfl (by rw [hpc]; exact fun b hb => hb) (by rw [hpc]; rfl)
      (by rw [hpc]; rfl) rfl (by rw [hpc]; exact fun hc => hc)
  | saving ht hc hc' hq hq' hside =>
    exact h.quiet ht rfl rfl rfl rfl rfl hside (hc'.trans hc.symm)
      (Pc.not_writing_of_not_reloads hq)
      (Pc.not_writing_of_not_reloads hq') (fun hr => nomatch hq.symm.trans hr)
  | replace ht hpc =>
    refine h.replace ht hpc ?_
    simpa only [writesCurrent,ht,hpc] using hok
  | openPeers ht hpc =>
    simp only [writesCurrent,ht,hpc,Bool.and_eq_true,decide_eq_true_eq,List.all_eq_true] at hok
    exact h.openPeers ht hpc hok.1 hok.2
  | writePeers ht hpc => exact h.writePeers ht hpc
  | reloadSet ht hpc =>
    refine h.reloadSet ht hpc ?_
    simpa only [writesCurrent,ht,hpc,decide_eq_true_eq] using hok
  | fail ht =>
    have hlen := (List.getElem?_eq_some_iff.mp ht).1
    cases hunfailed _ (mem_set hlen _)

end Serial

lemma unfailed_of_step {s s' : Sys} (hs : step s a = some s') (h : s'.unfailed) : s.unfailed := by
  have hset : ∀ {t th} {pc : Pc}, s.threads[t]? = some th → th.pc.failed = false →
      (∀ q ∈ s.threads.set t ⟨th.request,pc⟩, q.pc.failed = false) → s.unfailed := by
    intro t th pc ht hf hall q hq
    by_cases hqt : q = th
    · rw [hqt]
      exact hf
    · exact hall q (Census.mem_set_of_ne ht hq hqt)
  cases step_move hs with
  | request => exact fun q hq => h q (mem_append_left _ hq)
  | read ht hpc | replace ht hpc | load ht hpc | openPeers ht hpc | writePeers ht hpc
  | reloadLoad ht hpc => exact hset ht (by rw [hpc]; rfl) h
  | reloadSet ht hpc => exact hset ht (by rw [hpc]; rfl) h
  | @saving t th _ _ ht hc =>
    refine hset ht ?_ h
    cases hpc : th.pc with
    | done ok =>
      rw [hpc] at hc
      cases ok with
      | true => rfl
      | false => cases hc
    | _ => rfl
  | fail ht =>
    have hlen := (List.getElem?_eq_some_iff.mp ht).1
    cases h _ (mem_set hlen _)

abbrev CurrentReachable (st : Store) (s : Sys) : Prop :=
  Run step (fun s a => writesCurrent s a = true) (Sys.init st) s

lemma CurrentReachable.serial {s : Sys} (h : CurrentReachable st s)
    (hunfailed : s.unfailed) : Serial st s := by
  refine Run.invariant (I := fun s => s.unfailed → Serial st s) ?_
    (fun _ => Serial.init st) h hunfailed
  intro s a s' hi hok hs hu
  exact (hi (unfailed_of_step hs hu)).step hok hs hu

/-- One request, from its arrival to its answer, while no other one holds the read guard. -/
lemma execute_alone {s : Sys} (hvalid : r.valid = true)
    (hfree : ∀ u ∈ s.threads, u.pc.holdsRead = false) :
    ∃ k, execute step anyStep (.request r::List.replicate k (.exec s.threads.length)) s =
      some ⟨r.apply s.store,s.threads ++ [⟨r,.done true⟩],s.commits ++ [r]⟩ := by
  have hread : ∀ prev, (s.threads ++ [Thread.mk r (.replace prev)]).any (fun u => u.pc.holdsRead) =
      false := by
    intro prev
    simpa [Pc.holdsRead] using hfree
  -- the handler is executed symbolically, up to the guard that `hread` opens
  cases r <;> [use 6; use 5; use 5] <;>
    simp [execute,anyStep,step,Sys.advance,Sys.goto,Request.start,hvalid,List.replicate,hread,
      -any_append,Request.isPeer,Request.apply,Request.newRoot]

/-- Requests that come one after the other all succeed, with the effect that `runAll` says. -/
theorem requests_in_order (st : Store) (rs : List Request) (hvalid : ∀ r ∈ rs, r.valid = true) :
    ∃ s', Run step anyStep (Sys.init st) s' ∧ s'.store = runAll rs st ∧ s'.commits = rs ∧
      s'.threads = rs.map (fun r => ⟨r,.done true⟩) := by
  induction rs using List.reverseRecOn with
  | nil => exact ⟨Sys.init st,.refl _,rfl,rfl,rfl⟩
  | append_singleton rs r ih =>
    obtain ⟨s,hrun,hstore,hcommits,hthreads⟩ := ih (fun q hq => hvalid q (mem_append_left _ hq))
    have hfree : ∀ u ∈ s.threads, u.pc.holdsRead = false := by
      rw [hthreads,forall_mem_map]
      exact fun _ _ => rfl
    obtain ⟨k,hk⟩ := execute_alone (hvalid r (by simp)) hfree
    refine ⟨_,hrun.trans (execute_run hk),?_,?_,?_⟩
    · simp only [hstore,runAll_concat]
    · simp only [hcommits]
    · simp only [hthreads,map_append,map_singleton]

def busListener (id : String) : TunnelProfile :=
  ⟨id,.listen,.requestBus,none,none,none,none,"",0,128,300,30000,[],true,none,none,none⟩

def denyAll : StackTunRouteRule := ⟨"deny",0,none,none,none,.deny,none,none,none⟩

def peerKey (b : UInt8) : PubKey := List.Vector.replicate 32 b

/-- A server with a listener and a peer. -/
def usedStore : Store :=
  ⟨⟨1,[busListener "old"],[]⟩,some ⟨1,[busListener "old"],[]⟩,{peerKey 3},{peerKey 3}⟩

theorem requests_in_order_three : ∃ s, Run step anyStep (Sys.init usedStore) s ∧
    s.store.root = ⟨1,[busListener "bus"],[denyAll]⟩ ∧ s.store.disk = some s.store.root ∧
      s.store.peers = {peerKey 1,peerKey 3} ∧ s.store.peersFile = s.store.peers := by
  obtain ⟨s,hrun,hstore,_⟩ := requests_in_order usedStore [.putRoutes [denyAll],
    .postPeer (some (peerKey 1)),.putConfig [busListener "bus"]] (by decide +kernel)
  refine ⟨s,hrun,?_⟩
  rw [hstore]
  decide +kernel

/-- If every handler writes back only what is current and all of them succeed, then the root and
the peers are what the requests leave when they are carried out one after the other, in some
order. -/
theorem updates_serializable {st : Store} {s : Sys} (h : CurrentReachable st s)
    (hdone : ∀ th ∈ s.threads, th.pc = .done true) :
    ∃ order : List Request, order.Perm (s.threads.map Thread.request) ∧
      s.store.root = (runAll order st).root ∧ s.store.peers = (runAll order st).peers ∧
      s.store.peersFile = (runAll order st).peersFile := by
  have hserial := h.serial (fun th hth => by rw [hdone th hth]; rfl)
  have hall : s.threads.filterMap Thread.committed = s.threads.map Thread.request := by
    rw [← filterMap_eq_map]
    apply filterMap_congr
    intro th hth
    rw [Thread.committed,hdone th hth]
    rfl
  refine ⟨s.commits,?_,hserial.root_eq,?_,?_⟩
  · rw [← hall]
    exact hserial.commits_perm.symm
  · rcases hserial.peers_eq with hpeers | ⟨th,hth,hr⟩
    · exact hpeers
    · rw [hdone th hth] at hr
      cases hr
  · apply hserial.file_eq
    intro th hth
    rw [hdone th hth]
    rfl

/-- `n` steps of handler `t`. -/
def steps (t n : ℕ) : List Label := List.replicate n (.exec t)

def emptyStore : Store := ⟨.default,none,∅,∅⟩

def interleaved : List Label :=
  [.request (.putConfig [busListener "bus"]),.request (.putRoutes [denyAll]),
    .request (.postPeer (some (peerKey 1))),.request (.postPeer (some (peerKey 2)))] ++
  steps 0 2 ++ steps 1 2 ++ steps 2 3 ++ steps 0 4 ++ steps 3 3 ++ steps 1 3 ++ steps 2
    2 ++ steps 3 2

theorem updates_serializable_four : ∃ s, CurrentReachable emptyStore s ∧ s.threads.length = 4 ∧
    s.store.root = ⟨1,[busListener "bus"],[denyAll]⟩ ∧ s.store.peers = {peerKey 1,peerKey 2} ∧
    ∃ order : List Request, order.Perm (s.threads.map Thread.request) ∧
      s.store.root = (runAll order emptyStore).root ∧
      s.store.peers = (runAll order emptyStore).peers ∧
      s.store.peersFile = (runAll order emptyStore).peersFile := by
  obtain ⟨s,hs,hp⟩ := (Option.any_eq_true _ _).mp (show
    (execute step (fun s a => writesCurrent s a = true) interleaved (Sys.init emptyStore)).any
      (fun s => s.threads.length = 4 ∧ s.store.root = ⟨1,[busListener "bus"],[denyAll]⟩ ∧
        s.store.peers = {peerKey 1,peerKey 2} ∧ ∀ th ∈ s.threads, th.pc = .done true) = true
    by decide +kernel)
  obtain ⟨hlen,hroot,hpeers,hdone⟩ := of_decide_eq_true hp
  have hr : CurrentReachable emptyStore s := execute_run hs
  exact ⟨s,hr,hlen,hroot,hpeers,updates_serializable hr hdone⟩

/-- `put_routes` runs as a whole between the read and the write of `put_config`. -/
def routesUndone : List Label :=
  [.request (.putConfig [busListener "bus"]),.request (.putRoutes [denyAll])] ++
  steps 0 1 ++ steps 1 5 ++ steps 0 5

def peerLost : List Label :=
  [.request (.postPeer (some (peerKey 1))),.request (.postPeer (some (peerKey 2)))] ++
  steps 0 1 ++ steps 1 1 ++ steps 0 4 ++ steps 1 4

theorem updates_lost : (∃ s, execute step anyStep routesUndone (Sys.init emptyStore) = some s ∧
      (∀ th ∈ s.threads, th.pc = .done true) ∧ s.store.root.routes = [] ∧
      ∀ order : List Request, order.Perm (s.threads.map Thread.request) →
        s.store.root ≠ (runAll order emptyStore).root) ∧
    ∃ s, execute step anyStep peerLost (Sys.init emptyStore) = some s ∧
      (∀ th ∈ s.threads, th.pc = .done true) ∧ s.store.peers = {peerKey 2} ∧
      ∀ order : List Request, order.Perm (s.threads.map Thread.request) →
        s.store.peers ≠ (runAll order emptyStore).peers := by
  constructor
  · obtain ⟨s,hs,hp⟩ := (Option.any_eq_true _ _).mp (show
      (execute step anyStep routesUndone (Sys.init emptyStore)).any (fun s =>
        (∀ th ∈ s.threads, th.pc = .done true) ∧ s.store.root.routes = [] ∧
          ∀ order ∈ (s.threads.map Thread.request).permutations',
            s.store.root ≠ (runAll order emptyStore).root) = true
      by decide +kernel)
    obtain ⟨hdone,hroutes,hno⟩ := of_decide_eq_true hp
    exact ⟨s,hs,hdone,hroutes,fun order hperm => hno order (List.mem_permutations'.mpr hperm)⟩
  · obtain ⟨s,hs,hp⟩ := (Option.any_eq_true _ _).mp (show
      (execute step anyStep peerLost (Sys.init emptyStore)).any (fun s =>
        (∀ th ∈ s.threads, th.pc = .done true) ∧ s.store.peers = {peerKey 2} ∧
          ∀ order ∈ (s.threads.map Thread.request).permutations',
            s.store.peers ≠ (runAll order emptyStore).peers) = true
      by decide +kernel)
    obtain ⟨hdone,hpeers,hno⟩ := of_decide_eq_true hp
    exact ⟨s,hs,hdone,hpeers,fun order hperm => hno order (List.mem_permutations'.mpr hperm)⟩

end PirateServer.StackTun.Updates
