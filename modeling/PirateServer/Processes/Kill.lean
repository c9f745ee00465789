import PirateServer.Deploy.Layout
import PirateServer.Processes.Listeners

/-! Which processes a project may stop: the attribution of a process to the deploy root of a
project, and `kill_process_listener`. Deploy roots are directories, not links. -/
namespace PirateServer.Processes
open Lib FileTree Deploy List

/-- An open file: the text of its link and where it leads. -/
structure OpenFile where
  link : String
  canonical : Option Place
  deriving DecidableEq, Repr

/-- What `/proc` shows of a process; a part that cannot be read is missing. -/
structure Proc where
  cwd : Option Place
  cmdline : Option String
  exe : Option String
  fds : List OpenFile
  ppid : Option ℕ
  deriving DecidableEq, Repr

/-- The machine: its processes, the tables of its sockets, the directories that exist, and what is
stored for the projects. -/
structure Host where
  procs : ℕ → Option Proc
  tcp : Option (List Char)
  tcp6 : Option (List Char)
  names : Option (List (List Char))
  dirs : Place → Bool
  projectPorts : Place → List UInt16
  runtimePid : Place → Option ℕ

def pathText (p : Place) : String :=
  if p = [] then "/" else String.ofList (p.flatMap (fun name => '/' :: name.toList))

variable (host : Host)

/-- The part of `/proc` that the search for listeners reads. -/
def Host.sockets : Listeners.Proc where
  tcp := host.tcp
  tcp6 := host.tcp6
  names := host.names
  fds pid := (host.procs pid).elim .hidden (fun p => .links (p.fds.map (·.link.toList)))

def canonicalize (p : Place) : Option Place := if host.dirs p then some p else none

variable (pid : ℕ) (root : Place)

def pidCwdStartsWithDeployRoot : Bool :=
  (canonicalize host root).any (fun start =>
    ((host.procs pid).bind (·.cwd)).any (fun cwd => start <+: cwd))

def pidCmdlineOrExeContainsDeployRoot : Bool :=
  (canonicalize host root).any (fun start =>
    ((host.procs pid).bind (·.cmdline)).any (fun raw => Text.contains raw (pathText start)) ||
      ((host.procs pid).bind (·.exe)).any (fun exe => Text.contains exe (pathText start)))

def OpenFile.counts (f : OpenFile) : Bool :=
  !(Text.startsWith f.link "socket:[" || Text.startsWith f.link "pipe:[" ||
    Text.contains f.link "anon_inode:")

def pidHasOpenFileUnderDeployRoot : Bool :=
  (canonicalize host root).any (fun start =>
    (host.procs pid).any (fun p => (p.fds.take 512).any (fun f =>
      f.counts && f.canonical.any (fun c => start <+: c))))

def pidBelongsToDeployRoot : Bool :=
  pidCwdStartsWithDeployRoot host pid root || pidCmdlineOrExeContainsDeployRoot host pid root ||
    pidHasOpenFileUnderDeployRoot host pid root

/-- The walk along the parents, for at most `fuel` steps. -/
def walkParents (ancestor : ℕ) : ℕ → ℕ → Bool
  | 0, _ => false
  | fuel+1, pid =>
    if pid = ancestor then true
    else if pid = 0 then false
    else match (host.procs pid).bind (·.ppid) with
      | none => false
      | some ppid => walkParents ancestor fuel ppid

def pidIsDescendantOf (pid ancestor : ℕ) : Bool :=
  if ancestor = 0 then false else walkParents host ancestor 96 pid

def listensForProject (root : Place) (pid : ℕ) (port : Option UInt16) : Bool :=
  port.any (fun port => (host.projectPorts root).contains port &&
    (Listeners.listenerPidsForPort host.sockets port).contains pid)

def descendsFromRuntime (root : Place) (pid : ℕ) : Bool :=
  (host.runtimePid root).any (fun pp => pp = pid || pidIsDescendantOf host pid pp)

variable (base : Place)

def deployRootOf (projectId : String) : Place := base ++ projectDeployRoot projectId

def pidAllowedForKill (projectId : String) (pid : ℕ) (port : Option UInt16) : Bool :=
  let root := deployRootOf base projectId
  if pid = 0 then false
  else if pidBelongsToDeployRoot host pid root then true
  else if listensForProject host root pid port then true
  else descendsFromRuntime host root pid

inductive Signal
  | term
  | kill
  deriving DecidableEq, Repr

def Signal.name : Signal → String
  | .term => "TERM"
  | .kill => "KILL"

inductive ControlError
  | grpc (message : String)
  | processListeners (message : String)
  | elevationRequired (message : String)
  | elevationFailed (message : String)
  deriving DecidableEq, Repr

def signalName (sig : String) : Except ControlError Signal :=
  let s := String.ofList ((Text.trim sig).toList.map Char.toUpper)
  if s = "TERM" || s = "T" || s = "15" then .ok .term
  else if s = "KILL" || s = "K" || s = "9" then .ok .kill
  else .error (.processListeners ("signal must be TERM or KILL, got '" ++ s ++ "'"))

/-- What a started command returns, with its exit status as it is displayed. -/
structure Output where
  code : Option ℕ
  status : String
  stdout : String
  stderr : String
  deriving DecidableEq, Repr

def Output.success (o : Output) : Bool := o.code = some 0

/-- The outcomes of `kill` and of `su -c kill`; both commands are taken to start. -/
structure Commands where
  plain : Output
  su : Output
  deriving DecidableEq, Repr

/-- A signal that was given to `kill`. -/
structure Sent where
  pid : ℕ
  signal : Signal
  elevated : Bool
  deriving DecidableEq, Repr

structure KillListenerResultView where
  ok : Bool
  pid : ℕ
  signal : String
  elevated : Bool
  message : String
  deriving DecidableEq, Repr

structure KillRequest where
  projectId : String
  pid : ℕ
  signal : String
  port : Option UInt16
  rootPassword : Option String
  allowForeign : Bool
  deriving DecidableEq, Repr

def suAuthFailed (o : Output) : Bool :=
  let merged := Text.trim o.stdout ++ " " ++ Text.trim o.stderr
  Text.contains merged "Authentication failure" || Text.contains merged "incorrect password"

def needsRoot (o : Output) : Bool :=
  o.code = some 1 && (Text.contains o.stderr "Operation not permitted" ||
    Text.contains o.stderr "not permitted" || Text.contains o.stderr "Permission denied")

/-- From the first `kill` on. The source tests once more for a foreign process before `su`, where
the answer is known. -/
def deliver (cmds : Commands) (r : KillRequest) (sig : Signal) :
    List Sent × Except ControlError KillListenerResultView :=
  let first : Sent := ⟨r.pid,sig,false⟩
  let pid := toString r.pid
  if cmds.plain.success then
    ([first],.ok ⟨true,r.pid,sig.name,false,"sent SIG" ++ sig.name ++ " to pid " ++ pid⟩)
  else if !needsRoot cmds.plain then
    ([first],.ok ⟨false,r.pid,sig.name,false,
      "kill failed (" ++ cmds.plain.status ++ "): " ++ Text.trim cmds.plain.stderr⟩)
  else match r.rootPassword.filter (· ≠ "") with
    | none =>
      ([first],.error (.elevationRequired
        ("permission denied killing pid " ++ pid ++ "; provide root_password")))
    | some _ =>
      ([first,⟨r.pid,sig,true⟩],
        if cmds.su.success then
          .ok ⟨true,r.pid,sig.name,true,"sent SIG" ++ sig.name ++ " to pid " ++ pid ++ " via su"⟩
        else if suAuthFailed cmds.su then
          .error (.elevationFailed "su authentication failed (wrong password?)")
        else .error (.elevationFailed ("su kill failed: " ++
          Text.trim (Text.trim cmds.su.stdout ++ " " ++ Text.trim cmds.su.stderr))))

def killProcessListener (cmds : Commands) (r : KillRequest) :
    List Sent × Except ControlError KillListenerResultView :=
  match validateProjectId r.projectId with
  | .error e => ([],.error (.grpc e))
  | .ok _ =>
    if r.pid = 0 then ([],.error (.processListeners "invalid pid"))
    else match signalName r.signal with
      | .error e => ([],.error e)
      | .ok sig =>
        let id := normalizeProjectId r.projectId
        if !pidAllowedForKill host base id r.pid r.port && !r.allowForeign then
          ([],.error (.processListeners ("pid " ++ toString r.pid ++
            " is not attributed to project " ++ id ++
            "; set allow_foreign with root password to force")))
        else deliver cmds r sig

lemma deliver_sent_ne_nil (cmds : Commands) (r : KillRequest) (sig : Signal) :
    (deliver cmds r sig).1 ≠ [] := by
  simp only [deliver]
  split
  · simp
  · split
    · simp
    · split
      · simp
      · simp

/-- The request passes the checks that do not look at the process. -/
def KillRequest.Valid (r : KillRequest) : Prop :=
  validateProjectId r.projectId = .ok () ∧ r.pid ≠ 0 ∧ ∃ sig, signalName r.signal = .ok sig

def cmdlinePaths (raw : String) : List String :=
  (Text.split '\x00' raw).filter (fun word => Text.startsWith word "/")

/-- Working directory, executable, paths of the command line and open files lie in the
directory. -/
structure Inside (root : Place) (p : Proc) : Prop where
  cwd : ∀ c, p.cwd = some c → root <+: c
  exe : ∀ t, p.exe = some t → ∃ c, root <+: c ∧ t = pathText c
  cmdline : ∀ t, p.cmdline = some t → ∀ word ∈ cmdlinePaths t, ∃ c, root <+: c ∧ word = pathText c
  files : ∀ f ∈ p.fds, f.counts = true → ∀ c, f.canonical = some c → root <+: c

/-- None of them lies in the directory. -/
structure Outside (root : Place) (p : Proc) : Prop where
  cwd : ∀ c, p.cwd = some c → ¬ root <+: c
  exe : ∀ c, p.exe = some (pathText c) → ¬ root <+: c
  cmdline : ∀ t, p.cmdline = some t → ∀ c, pathText c ∈ cmdlinePaths t → ¬ root <+: c
  files : ∀ f ∈ p.fds, f.counts = true → ∀ c, f.canonical = some c → ¬ root <+: c

/-- Neither the working directory nor an open file that is looked at lies in the directory. -/
def NoPathIn (root : Place) (p : Proc) : Prop :=
  (∀ c, p.cwd = some c → ¬ root <+: c) ∧
    ∀ f ∈ p.fds.take 512, f.counts = true → ∀ c, f.canonical = some c → ¬ root <+: c

/-- The text of the directory stands neither in the command line nor in the executable's path. -/
def NoTextOf (root : Place) (p : Proc) : Prop :=
  (∀ t, p.cmdline = some t → Text.contains t (pathText root) = false) ∧
    ∀ t, p.exe = some t → Text.contains t (pathText root) = false

open Listeners (Row) in
/-- A row of the process's own that listens on the port, in one of the tables. -/
def ListensOn (rows rows6 : List Row) (p : Proc) (port : UInt16) : Prop :=
  ∃ r ∈ rows++rows6, r.Listens6 port ∧ ∃ f ∈ p.fds, f.link = "socket:[" ++ r.inode.repr ++ "]"

open Listeners (Row) in
/-- No row that is looked at for the port ends in the number of a socket of the process. -/
def NoRowEndsIn (rows rows6 : List Row) (p : Proc) (port : UInt16) : Prop :=
  ∀ n, ((∃ r ∈ rows, r.Listens4 port ∧ r.lastNumber = some n) ∨
      ∃ r ∈ rows6, r.Listens6 port ∧ r.lastNumber = some n) →
    ∀ f ∈ p.fds, Listeners.socketInode f.link.toList ≠ some n

def OwnRoots (P Q : String) : Prop :=
  normalizeProjectId P ≠ "default" ∧ normalizeProjectId Q ≠ "default"

lemma normalizeProjectId_idem (id : String) :
    normalizeProjectId (normalizeProjectId id) = normalizeProjectId id := by
  by_cases h : (Text.trim id = "" || Text.eqIgnoreAsciiCase (Text.trim id) "default") = true
  · have hdef : normalizeProjectId id = "default" := if_pos h
    rw [hdef]
    decide
  · have hid : normalizeProjectId id = Text.trim id := if_neg h
    rw [hid]
    unfold normalizeProjectId
    rw [Text.trim_trim]
    exact if_neg h

lemma optionAny_eq_false_iff {α : Type} {o : Option α} {f : α → Bool} :
    o.any f = false ↔ ∀ a, o = some a → f a = false := by
  cases o with
  | none => simp
  | some a => simp

section
variable {host : Host} {base : Place} {p : Proc} {pid : ℕ}

lemma deployRootOf_normalize (id : String) :
    deployRootOf base (normalizeProjectId id) = deployRootOf base id := by
  simp only [deployRootOf,projectDeployRoot,normalizeProjectId_idem]

lemma startsWith_pathText {root c : Place} (hroot : root ≠ []) (h : root <+: c) :
    Text.startsWith (pathText c) (pathText root) = true := by
  obtain ⟨d,rfl⟩ := h
  have hne : root++d ≠ [] := by simp [hroot]
  simp [Text.startsWith,pathText,hroot,hne]

variable {root : Place}

section
variable (hp : host.procs pid = some p) (hd : host.dirs root = true)
include hp hd

lemma pidCwd_eq_false_iff : pidCwdStartsWithDeployRoot host pid root = false ↔
      ∀ c, p.cwd = some c → ¬ root <+: c := by
  simp [pidCwdStartsWithDeployRoot,canonicalize,hd,hp,optionAny_eq_false_iff]

lemma pidCmdlineOrExe_eq_false_iff : pidCmdlineOrExeContainsDeployRoot host pid root = false ↔
      NoTextOf root p := by
  simp [pidCmdlineOrExeContainsDeployRoot,canonicalize,hd,hp,NoTextOf,optionAny_eq_false_iff]

lemma pidHasOpenFile_eq_false_iff : pidHasOpenFileUnderDeployRoot host pid root = false ↔
      ∀ f ∈ p.fds.take 512, f.counts = true → ∀ c, f.canonical = some c → ¬ root <+: c := by
  simp [pidHasOpenFileUnderDeployRoot,canonicalize,hd,hp,optionAny_eq_false_iff]

end

lemma pidBelongsToDeployRoot_eq_false_iff (hp : host.procs pid = some p) :
    pidBelongsToDeployRoot host pid root = false ↔
      host.dirs root = false ∨ (NoTextOf root p ∧ NoPathIn root p) := by
  cases hd : host.dirs root with
  | false =>
    simp [pidBelongsToDeployRoot,pidCwdStartsWithDeployRoot,pidCmdlineOrExeContainsDeployRoot,
      pidHasOpenFileUnderDeployRoot,canonicalize,hd]
  | true =>
    rw [pidBelongsToDeployRoot,Bool.or_eq_false_iff,Bool.or_eq_false_iff,pidCwd_eq_false_iff hp hd,
      pidCmdlineOrExe_eq_false_iff hp hd,pidHasOpenFile_eq_false_iff hp hd,NoPathIn]
    constructor
    · rintro ⟨⟨hcwd,htext⟩,hfiles⟩
      exact .inr ⟨htext,hcwd,hfiles⟩
    · rintro (h | ⟨htext,hcwd,hfiles⟩)
      · cases h
      · exact ⟨⟨hcwd,htext⟩,hfiles⟩

lemma not_prefix_of_projects {P Q : String} {c : Place} (hown : OwnRoots P Q)
    (hne : normalizeProjectId P ≠ normalizeProjectId Q) (hc : deployRootOf base Q <+: c) :
    ¬ deployRootOf base P <+: c := by
  intro hc'
  simp only [deployRootOf,projectDeployRoot,hown.1,hown.2,if_false] at hc hc'
  have hlen : (base++["projects",normalizeProjectId P]).length =
      (base++["projects",normalizeProjectId Q]).length := by simp
  have heq : base++["projects",normalizeProjectId P] = base++["projects",normalizeProjectId Q] :=
    (prefix_of_prefix_length_le hc' hc hlen.le).eq_of_length hlen
  have hids : ["projects",normalizeProjectId P] = ["projects",normalizeProjectId Q] :=
    append_cancel_left heq
  apply hne
  simpa using hids

lemma Inside.noPathIn {P Q : String} (hin : Inside (deployRootOf base Q) p) (hown : OwnRoots P Q)
    (hne : normalizeProjectId P ≠ normalizeProjectId Q) : NoPathIn (deployRootOf base P) p := by
  constructor
  · intro c hc
    exact not_prefix_of_projects hown hne (hin.cwd c hc)
  · intro f hf hcounts c hc
    exact not_prefix_of_projects hown hne (hin.files f (mem_of_mem_take hf) hcounts c hc)

variable {cmds : Commands} {r : KillRequest}

open Listeners (Row InKernelFormat) in
lemma listensForProject_eq_false_iff {raw raw6 : List Char} {rows rows6 : List Row}
    (hp : host.procs pid = some p) (hname : pid ∈ Listeners.pids host.sockets)
    (htcp : host.tcp = some raw) (htcp6 : host.tcp6 = some raw6) (hraw : InKernelFormat raw rows)
    (hraw6 : InKernelFormat raw6 rows6) (port : Option UInt16) :
    listensForProject host root pid port = false ↔
      ∀ q, port = some q → q ∈ host.projectPorts root → NoRowEndsIn rows rows6 p q := by
  have hwant : ∀ q n, n ∈ Listeners.loopbackAnyListenInodesForPort host.sockets q ↔
      (∃ r ∈ rows, r.Listens4 q ∧ r.lastNumber = some n) ∨
        ∃ r ∈ rows6, r.Listens6 q ∧ r.lastNumber = some n := by
    intro q n
    have h4 := Listeners.mem_listenInodes hraw
      (fun r => and_congr_right' (Listeners.onPort4_row r q)) n
    have h6 := Listeners.mem_listenInodes hraw6
      (fun r => and_congr_right' (Listeners.onPort6_row r q)) n
    rw [Listeners.loopbackAnyListenInodesForPort,Finset.mem_union]
    simp only [Host.sockets,htcp,htcp6,Option.elim_some]
    exact or_congr h4 h6
  have hholds : ∀ q, Listeners.holdsAny host.sockets
      (Listeners.loopbackAnyListenInodesForPort host.sockets q) pid = false ↔
        NoRowEndsIn rows rows6 p q := by
    intro q
    have hsock : Listeners.socketInodesForPid host.sockets pid =
        some ((p.fds.map (·.link.toList)).filterMap Listeners.socketInode).toFinset := by
      simp [Listeners.socketInodesForPid,Host.sockets,hp]
    rw [Listeners.holdsAny,hsock,Option.any_some,decide_eq_false_iff_not,
      Finset.not_nonempty_iff_eq_empty,← Finset.disjoint_iff_inter_eq_empty,Finset.disjoint_left]
    refine forall_congr' (fun n => imp_congr (hwant q n) ?_)
    simp
  rw [listensForProject,optionAny_eq_false_iff]
  refine forall₂_congr (fun q _ => ?_)
  rw [Bool.and_eq_false_iff,← hholds q,Listeners.listenerPidsForPort_eq]
  simp [hname,or_iff_not_imp_left]

lemma killProcessListener_sent_nil_iff (hforeign : r.allowForeign = false) :
    (killProcessListener host base cmds r).1 = [] ↔
      ¬ r.Valid ∨ pidAllowedForKill host base r.projectId r.pid r.port = false := by
  have hallowed : pidAllowedForKill host base (normalizeProjectId r.projectId) r.pid r.port =
      pidAllowedForKill host base r.projectId r.pid r.port := by
    simp only [pidAllowedForKill,deployRootOf_normalize]
  unfold killProcessListener
  cases hid : validateProjectId r.projectId with
  | error e => simp [KillRequest.Valid,hid]
  | ok u =>
    by_cases hpid : r.pid = 0
    · simp [KillRequest.Valid,hpid]
    cases hsig : signalName r.signal with
    | error e => simp [KillRequest.Valid,hsig,hpid]
    | ok sig =>
      have hvalid : r.Valid := ⟨hid,hpid,sig,hsig⟩
      cases ha : pidAllowedForKill host base r.projectId r.pid r.port with
      | false => simp [hpid,hallowed,ha,hforeign]
      | true => simp [hpid,hallowed,ha,hvalid,deliver_sent_ne_nil]

section
open Listeners (Row InKernelFormat)
variable (host base r p) (rows rows6 : List Row)

/-- The process listens on the given port, which is one of the project, or belongs to its runtime.
-/
def Excepted : Prop :=
  (∃ q, r.port = some q ∧ q ∈ host.projectPorts (deployRootOf base r.projectId) ∧
    ListensOn rows rows6 p q) ∨
  descendsFromRuntime host (deployRootOf base r.projectId) r.pid = true

/-- What the request, the process and the tables must be like for the process to be spared. -/
def Spared (Q : String) : Prop :=
  ¬ r.Valid ∨
    (host.dirs (deployRootOf base r.projectId) = false ∨
      (NoTextOf (deployRootOf base r.projectId) p ∧
        (OwnRoots r.projectId Q ∨ NoPathIn (deployRootOf base r.projectId) p))) ∧
    ∀ q, r.port = some q → q ∈ host.projectPorts (deployRootOf base r.projectId) →
      NoRowEndsIn rows rows6 p q

variable {host base r p rows rows6} {raw raw6 : List Char}

end
end

def serverIn (dir : Place) : Proc where
  cwd := some dir
  cmdline := some (pathText (dir++["server"]))
  exe := some (pathText (dir++["server"]))
  fds := [⟨"socket:[5]",none⟩]
  ppid := some 1

/-- One process, in the release `v1` of a project below `/srv`, with a socket; all directories
exist, and another socket listens on the port 8080. -/
def hostOf (project : String) : Host where
  procs pid := if pid = 7 then
    some (serverIn (releaseDirForVersion (deployRootOf ["srv"] project) "v1")) else none
  tcp := some (Listeners.table [Listeners.sampleLine])
  tcp6 := some (Listeners.table [])
  names := some ["7".toList]
  dirs _ := true
  projectPorts _ := [8080]
  runtimePid _ := none

def killSeven (project : String) : KillRequest := ⟨project,7,"TERM",some 8080,none,false⟩

def killSucceeds : Commands := ⟨⟨some 0,"exit status: 0","",""⟩,⟨some 0,"exit status: 0","",""⟩⟩

lemma inside_serverIn {root dir : Place} (h : root <+: dir)
    (hline : cmdlinePaths (pathText (dir++["server"])) = [pathText (dir++["server"])]) :
    Inside root (serverIn dir) := by
  have hserver : root <+: dir++["server"] := h.trans (prefix_append dir ["server"])
  refine ⟨?_,?_,?_,?_⟩
  · rintro c ⟨⟩
    exact h
  · rintro t ⟨⟩
    exact ⟨_,hserver,rfl⟩
  · rintro t ⟨⟩ word hword
    rw [hline,mem_singleton] at hword
    exact ⟨_,hserver,hword⟩
  · intro f hf hcounts
    rw [mem_singleton.mp hf] at hcounts
    exact absurd hcounts (by decide +kernel)

lemma outside_serverIn {root dir : Place} (hroot : root ≠ []) (hcwd : ¬ root <+: dir)
    (hline : cmdlinePaths (pathText (dir++["server"])) = [pathText (dir++["server"])])
    (htext : Text.startsWith (pathText (dir++["server"])) (pathText root) = false) :
    Outside root (serverIn dir) := by
  have hexe : ∀ c, pathText c = pathText (dir++["server"]) → ¬ root <+: c := by
    intro c hc hprefix
    have hstart := startsWith_pathText hroot hprefix
    rw [hc,htext] at hstart
    cases hstart
  refine ⟨?_,?_,?_,?_⟩
  · rintro c ⟨⟩
    exact hcwd
  · intro c hc
    exact hexe c (Option.some.inj hc).symm
  · rintro t ⟨⟩ c hc
    rw [hline,mem_singleton] at hc
    exact hexe c hc
  · intro f hf hcounts
    rw [mem_singleton.mp hf] at hcounts
    exact absurd hcounts (by decide +kernel)

end PirateServer.Processes
