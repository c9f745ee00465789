import PirateServer.Lib.Lines

/-! Who listens on a port: the tables `/proc/net/tcp` and `/proc/net/tcp6`, and the sockets that the
processes hold. The parsers take the last field of a row for the inode. -/
namespace PirateServer.Processes.Listeners
open Lib Lib.Lines List Option

/-- `str::split_whitespace`. -/
def splitWhitespace (l : Chars) : List Chars :=
    (l.splitOnP Text.isWhitespace).filter (fun w => w ≠ [])

def upperDigit (k : ℕ) : Char := (Nat.digitChar (k%16)).toUpper

/-- `{:04X}` of a `u16`. -/
def hex4 (port : UInt16) : Chars :=
  [upperDigit (port.toNat/4096),upperDigit (port.toNat/256),upperDigit (port.toNat/16),
    upperDigit port.toNat]

def eqIgnoreCase (a b : Chars) : Bool := a.map Char.toLower = b.map Char.toLower

def LOCALHOST_HEX : Chars := ['0','1','0','0','0','0','7','F']

def ANY_HEX : Chars := ['0','0','0','0','0','0','0','0']

/-- `str::parse::<u64>`. -/
def parseU64 (w : Chars) : Option ℕ := Text.parseUnsigned 64 (String.ofList w)

/-- One line of the loop that both parsers have; they differ in the test of the local address. -/
def lineInode (onPort : Chars → Bool) (line : Chars) : Option ℕ :=
  match splitWhitespace line with
  | _sl::loc::_rem::st::parts =>
    if st ≠ ['0','A'] then none
    else if onPort loc = false then none
    else parts.getLast?.bind parseU64
  | _ => none

def listenInodes (onPort : Chars → Bool) (raw : Chars) : Finset ℕ :=
  (((lines raw).drop 1).filterMap (lineInode onPort)).toFinset

def onPort4 (port : UInt16) (loc : Chars) : Bool :=
  match splitOnce ':' loc with
  | none => false
  | some (ipHex,pHex) =>
    eqIgnoreCase pHex (hex4 port) && (ipHex = LOCALHOST_HEX || ipHex = ANY_HEX)

def onPort6 (port : UInt16) (loc : Chars) : Bool :=
  match rsplitOnce ':' loc with
  | none => false
  | some (_,pHex) => eqIgnoreCase pHex (hex4 port)

def tcpListenInodesForPortFromText (raw : Chars) (port : UInt16) : Finset ℕ :=
  listenInodes (onPort4 port) raw

def tcp6ListenInodesForPortFromText (raw : Chars) (port : UInt16) : Finset ℕ :=
  listenInodes (onPort6 port) raw

/-- What `read_dir` of the descriptors of a process gives: the links that can be read. -/
inductive FdDir
  | hidden
  | failed
  | links (texts : List Chars)
  deriving DecidableEq, Repr

/-- What is read of `/proc`; a table or the directory may not be readable. -/
structure Proc where
  tcp : Option Chars
  tcp6 : Option Chars
  names : Option (List Chars)
  fds : ℕ → FdDir

variable (proc : Proc)

def socketInode (link : Chars) : Option ℕ :=
  (stripStart "socket:[".toList link).bind (fun rest =>
    if rest.getLast? = some ']' then parseU64 rest.dropLast else none)

def socketInodesForPid (pid : ℕ) : Option (Finset ℕ) :=
  match proc.fds pid with
  | .hidden => some ∅
  | .failed => none
  | .links texts => some (texts.filterMap socketInode).toFinset

def loopbackAnyListenInodesForPort (port : UInt16) : Finset ℕ :=
  proc.tcp.elim ∅ (fun raw => tcpListenInodesForPortFromText raw port) ∪
    proc.tcp6.elim ∅ (fun raw => tcp6ListenInodesForPortFromText raw port)

/-- `want_inodes.iter().any(|i| own.contains(i))`, where the sockets can be read. -/
def holdsAny (want : Finset ℕ) (pid : ℕ) : Bool :=
  (socketInodesForPid proc pid).any (fun own => (want ∩ own).Nonempty)

def pidListensOnDeployPort (pid : ℕ) (port : UInt16) : Bool :=
  let want := loopbackAnyListenInodesForPort proc port
  if want = ∅ then false else holdsAny proc want pid

/-- The processes of `/proc`, in the order of the directory. -/
def pids : List ℕ :=
  (proc.names.getD []).filterMap (fun name => Text.parseUnsigned 32 (String.ofList name))

def pidsHoldingInodes (want : Finset ℕ) : List ℕ := (pids proc).filter (holdsAny proc want)

def listenerPidsForPort (port : UInt16) : List ℕ :=
  let want := loopbackAnyListenInodesForPort proc port
  if want = ∅ then [] else pidsHoldingInodes proc want

/-! The tables as the kernel writes them. -/

/-- The fields of a row. The inode is the tenth; more may follow. -/
structure Row where
  sl : Chars
  ip : Chars
  port : UInt16
  remAddress : Chars
  st : Chars
  txRx : Chars
  trTm : Chars
  retrnsmt : Chars
  uid : Chars
  timeout : Chars
  inode : ℕ
  more : List Chars
  ip_free : ':' ∉ ip
  inode_lt : inode < 2^64

namespace Row
variable (r : Row)

def words : List Chars :=
  [r.sl,r.ip++ ':'::hex4 r.port,r.remAddress,r.st,r.txRx,r.trTm,r.retrnsmt,r.uid,r.timeout,
    r.inode.repr.toList]++r.more

def lastNumber : Option ℕ := r.more.getLast?.elim (some r.inode) parseU64

def Listens4 (port : UInt16) : Prop :=
  r.st = ['0','A'] ∧ r.port = port ∧ (r.ip = LOCALHOST_HEX ∨ r.ip = ANY_HEX)

def Listens6 (port : UInt16) : Prop := r.st = ['0','A'] ∧ r.port = port

instance (port : UInt16) : Decidable (r.Listens4 port) := inferInstanceAs (Decidable (_ ∧ _))

instance (port : UInt16) : Decidable (r.Listens6 port) := inferInstanceAs (Decidable (_ ∧ _))

end Row

def InKernelFormat (raw : Chars) (rows : List Row) : Prop :=
  ∃ header ls, lines raw = header::ls ∧
    List.Forall₂ (fun line r => splitWhitespace line = Row.words r) ls rows

def inodesOf (rows : List Row) (listens : Row → Prop) [DecidablePred listens] : Finset ℕ :=
  ((rows.filter (fun r => listens r)).map Row.inode).toFinset

def LastFieldsAgree (rows : List Row) (listens : Row → Prop) : Prop :=
  ∀ n, (∃ r ∈ rows, listens r ∧ r.lastNumber = some n) ↔ ∃ r ∈ rows, listens r ∧ r.inode = n

/-! One row. -/

lemma toLower_upperDigit_inj : ∀ a < 16, ∀ b < 16,
    (upperDigit a).toLower = (upperDigit b).toLower → a = b := by
  decide

lemma upperDigit_mod (k : ℕ) : upperDigit (k%16) = upperDigit k := by
  rw [upperDigit,Nat.mod_mod,upperDigit]

lemma mod_eq_of_upperDigit {a b : ℕ} (h : (upperDigit a).toLower = (upperDigit b).toLower) :
    a%16 = b%16 := by
  rw [← upperDigit_mod a,← upperDigit_mod b] at h
  exact toLower_upperDigit_inj _ (Nat.mod_lt _ (by decide)) _ (Nat.mod_lt _ (by decide)) h

lemma eqIgnoreCase_hex4 (p q : UInt16) : eqIgnoreCase (hex4 p) (hex4 q) = true ↔ p = q := by
  unfold eqIgnoreCase hex4
  rw [decide_eq_true_iff]
  constructor
  · intro h
    simp only [map_cons,map_nil,List.cons.injEq,and_true] at h
    obtain ⟨h3,h2,h1,h0⟩ := h
    have e3 := mod_eq_of_upperDigit h3
    have e2 := mod_eq_of_upperDigit h2
    have e1 := mod_eq_of_upperDigit h1
    have e0 := mod_eq_of_upperDigit h0
    have hp := p.toNat_lt
    have hq := q.toNat_lt
    apply UInt16.toNat_inj.mp
    omega
  · rintro rfl
    rfl

lemma upperDigit_ne_colon (k : ℕ) : upperDigit k ≠ ':' := by
  have hall : ∀ a < 16, upperDigit a ≠ ':' := by decide
  rw [← upperDigit_mod]
  exact hall _ (Nat.mod_lt _ (by decide))

lemma colon_notMem_hex4 (p : UInt16) : ':' ∉ hex4 p := by
  simp only [hex4,mem_cons,not_mem_nil,or_false,not_or]
  exact ⟨(upperDigit_ne_colon _).symm,(upperDigit_ne_colon _).symm,(upperDigit_ne_colon _).symm,
    (upperDigit_ne_colon _).symm⟩

lemma parseU64_repr {n : ℕ} (h : n < 2^64) : parseU64 n.repr.toList = some n := by
  rw [parseU64,String.ofList_toList]
  exact Text.parseUnsigned_repr 64 h

lemma onPort4_row (r : Row) (port : UInt16) : onPort4 port (r.ip++ ':'::hex4 r.port) = true ↔
      r.port = port ∧ (r.ip = LOCALHOST_HEX ∨ r.ip = ANY_HEX) := by
  rw [onPort4,splitOnce_append r.ip_free]
  simp only [Bool.and_eq_true,Bool.or_eq_true,decide_eq_true_eq,eqIgnoreCase_hex4]

lemma onPort6_row (r : Row) (port : UInt16) :
    onPort6 port (r.ip++ ':'::hex4 r.port) = true ↔ r.port = port := by
  rw [onPort6,rsplitOnce_append (colon_notMem_hex4 r.port)]
  exact eqIgnoreCase_hex4 _ _

lemma getLast?_words (r : Row) : (r.words.drop 4).getLast?.bind parseU64 = r.lastNumber := by
  have hdrop : r.words.drop 4 = [r.txRx,r.trTm,r.retrnsmt,r.uid,r.timeout]++
      r.inode.repr.toList::r.more := rfl
  rw [hdrop,getLast?_append_cons,Row.lastNumber]
  cases hmore : r.more.getLast? with
  | none =>
    rw [getLast?_eq_none_iff] at hmore
    rw [hmore,getLast?_singleton,bind_some,parseU64_repr r.inode_lt,elim_none]
  | some w =>
    rw [getLast?_cons,hmore,getD_some,bind_some,elim_some]

variable {onPort : Chars → Bool}

lemma lineInode_row {line : Chars} {r : Row} (hline : splitWhitespace line = r.words) :
    lineInode onPort line =
      if r.st = ['0','A'] ∧ onPort (r.ip++ ':'::hex4 r.port) =
        true then r.lastNumber else none := by
  have hlast := getLast?_words r
  rw [lineInode,hline]
  change (if r.st ≠ ['0','A'] then none
    else if onPort (r.ip++ ':'::hex4 r.port) = false then none
    else (r.words.drop 4).getLast?.bind parseU64) = _
  rw [hlast]
  by_cases hst : r.st = ['0','A']
  · by_cases hport : onPort (r.ip++ ':'::hex4 r.port) = true
    all_goals simp [hst,hport]
  · simp [hst]

variable {rows : List Row} {listens : Row → Prop} {raw : Chars}

lemma mem_listenInodes (hraw : InKernelFormat raw rows)
    (hlistens : ∀ r : Row, r.st = ['0','A'] ∧ onPort (r.ip++ ':'::hex4 r.port) = true ↔ listens r)
    (n : ℕ) : n ∈ listenInodes onPort raw ↔ ∃ r ∈ rows, listens r ∧ r.lastNumber = some n := by
  obtain ⟨header,ls,hlines,hrows⟩ := hraw
  rw [listenInodes,hlines,drop_one,tail_cons,List.mem_toFinset,mem_filterMap]
  clear hlines
  induction hrows with
  | nil => simp
  | @cons line r ls rows hline _ ih =>
    rw [exists_mem_cons_iff,exists_mem_cons_iff,← ih,lineInode_row hline,← hlistens]
    refine or_congr_left ?_
    split_ifs with h <;> simp [h]

lemma mem_inodesOf [DecidablePred listens] (n : ℕ) :
    n ∈ inodesOf rows listens ↔ ∃ r ∈ rows, listens r ∧ r.inode = n := by
  simp only [inodesOf,List.mem_toFinset,List.mem_map,mem_filter,decide_eq_true_eq,and_assoc]

lemma listenInodes_eq_iff [DecidablePred listens] (hraw : InKernelFormat raw rows)
    (hlistens : ∀ r : Row, r.st = ['0','A'] ∧ onPort (r.ip++ ':'::hex4 r.port) = true ↔ listens r) :
    listenInodes onPort raw = inodesOf rows listens ↔ LastFieldsAgree rows listens := by
  rw [Finset.ext_iff,LastFieldsAgree]
  refine forall_congr' (fun n => ?_)
  rw [mem_listenInodes hraw hlistens,mem_inodesOf]

lemma tcp_eq_iff (hraw : InKernelFormat raw rows) (port : UInt16) :
    tcpListenInodesForPortFromText raw port = inodesOf rows (fun r => r.Listens4 port) ↔
      LastFieldsAgree rows (fun r => r.Listens4 port) :=
  listenInodes_eq_iff hraw (fun r => and_congr_right' (onPort4_row r port))

lemma tcp6_eq_iff (hraw : InKernelFormat raw rows) (port : UInt16) :
    tcp6ListenInodesForPortFromText raw port = inodesOf rows (fun r => r.Listens6 port) ↔
      LastFieldsAgree rows (fun r => r.Listens6 port) :=
  listenInodes_eq_iff hraw (fun r => and_congr_right' (onPort6_row r port))

lemma lastFieldsAgree_of_short
    (h : ∀ r ∈ rows, listens r → r.more = []) : LastFieldsAgree rows listens := by
  intro n
  refine exists_congr (fun r => and_congr_right (fun hr => and_congr_right (fun hl => ?_)))
  rw [Row.lastNumber,h r hr hl,getLast?_nil,elim_none,Option.some.injEq]

/-! The processes. -/

lemma holdsAny_empty (proc : Proc) (pid : ℕ) : holdsAny proc ∅ pid = false := by
  unfold holdsAny
  cases socketInodesForPid proc pid with
  | none => rfl
  | some own => simp

lemma pidListensOnDeployPort_eq (proc : Proc) (pid : ℕ) (port : UInt16) :
    pidListensOnDeployPort proc pid port =
      holdsAny proc (loopbackAnyListenInodesForPort proc port) pid := by
  unfold pidListensOnDeployPort
  dsimp only
  split_ifs with hempty
  · rw [hempty,holdsAny_empty]
  · rfl

lemma listenerPidsForPort_eq (proc : Proc) (port : UInt16) : listenerPidsForPort proc port =
      (pids proc).filter (holdsAny proc (loopbackAnyListenInodesForPort proc port)) := by
  unfold listenerPidsForPort
  dsimp only
  split_ifs with hempty
  · rw [hempty,eq_comm,filter_eq_nil_iff]
    intro pid _
    rw [holdsAny_empty]
    decide
  · rfl

/-- The parsers, and with them the functions about processes, are right exactly when in both tables
the last fields of the rows that are meant agree with their inodes. -/
theorem listener_inodes_iff (proc : Proc) (raw raw6 : Chars) (rows rows6 : List Row) (port : UInt16)
    (hproc : proc.tcp = some raw ∧ proc.tcp6 = some raw6) (hraw : InKernelFormat raw rows)
    (hraw6 : InKernelFormat raw6 rows6) :
    (tcpListenInodesForPortFromText raw port = inodesOf rows (fun r => r.Listens4 port) ∧
      tcp6ListenInodesForPortFromText raw6 port = inodesOf rows6 (fun r => r.Listens6 port) ∧
      (∀ pid, pidListensOnDeployPort proc pid port = holdsAny proc
        (inodesOf rows (fun r => r.Listens4 port) ∪ inodesOf rows6
          (fun r => r.Listens6 port)) pid) ∧
      listenerPidsForPort proc port = (pids proc).filter (holdsAny proc
        (inodesOf rows (fun r => r.Listens4 port) ∪ inodesOf rows6 (fun r => r.Listens6 port)))) ↔
    LastFieldsAgree rows (fun r => r.Listens4 port) ∧
      LastFieldsAgree rows6 (fun r => r.Listens6 port) := by
  rw [← tcp_eq_iff hraw,← tcp6_eq_iff hraw6]
  refine ⟨fun h => ⟨h.1,h.2.1⟩,fun ⟨h4,h6⟩ => ⟨h4,h6,?_⟩⟩
  have hwant : loopbackAnyListenInodesForPort proc port =
      inodesOf rows (fun r => r.Listens4 port) ∪ inodesOf rows6 (fun r => r.Listens6 port) := by
    rw [loopbackAnyListenInodesForPort,hproc.1,hproc.2,elim_some,elim_some,h4,h6]
  refine ⟨fun pid => ?_,?_⟩
  · rw [pidListensOnDeployPort_eq,hwant]
  · rw [listenerPidsForPort_eq,hwant]

lemma colon_notMem_localhost : ':' ∉ LOCALHOST_HEX := by decide

lemma sampleInode_lt : 12345 < 2^64 := by decide

def sampleRow (more : List Chars) : Row where
  sl := "0:".toList
  ip := LOCALHOST_HEX
  port := 8080
  remAddress := "00000000:0000".toList
  st := ['0','A']
  txRx := "00000000:00000000".toList
  trTm := "00:00000000".toList
  retrnsmt := "00000000".toList
  uid := "1000".toList
  timeout := "0".toList
  inode := 12345
  more := more
  ip_free := colon_notMem_localhost
  inode_lt := sampleInode_lt

def sampleHeader : Chars := "  sl  local_address rem_address   st".toList

def sampleLine : Chars :=
  "   0: 0100007F:1F90 00000000:0000 0A 00000000:00000000 00:00000000 00000000  1000        0 12345".toList

/-- The fields that Linux writes after the inode. -/
def sampleMore : Chars := " 1 0000000000000000 100 0 0 10 0".toList

def table (ls : List Chars) : Chars := joinLines (sampleHeader::ls)++['\n']

def sampleProc (raw : Chars) : Proc where
  tcp := some raw
  tcp6 := some (table [])
  names := some ["7".toList]
  fds pid := if pid = 7 then .links ["socket:[12345]".toList] else .hidden

lemma inKernelFormat_empty : InKernelFormat (table []) [] :=
  ⟨sampleHeader,[],by decide +kernel,.nil⟩

lemma inKernelFormat_short : InKernelFormat (table [sampleLine]) [sampleRow []] :=
  ⟨sampleHeader,[sampleLine],by decide +kernel,.cons (by decide +kernel) .nil⟩

theorem listener_inodes_short : tcpListenInodesForPortFromText (table [sampleLine]) 8080 = {12345} ∧
      pidListensOnDeployPort (sampleProc (table [sampleLine])) 7 8080 = true := by
  have h := (listener_inodes_iff (sampleProc (table [sampleLine])) _ _ _ _ 8080 ⟨rfl,rfl⟩
    inKernelFormat_short inKernelFormat_empty).mpr
    ⟨lastFieldsAgree_of_short (fun r hr _ => by rw [List.mem_singleton.mp hr]; rfl),
      lastFieldsAgree_of_short (fun r hr _ => absurd hr not_mem_nil)⟩
  refine ⟨h.1.trans (by decide +kernel),(h.2.2.1 7).trans (by decide +kernel)⟩

theorem trailing_fields_misread : InKernelFormat (table [sampleLine++sampleMore])
        [sampleRow (["1","0000000000000000","100","0","0","10","0"].map String.toList)] ∧
      tcpListenInodesForPortFromText (table [sampleLine++sampleMore]) 8080 = {0} ∧
      pidListensOnDeployPort (sampleProc (table [sampleLine++sampleMore])) 7 8080 = false ∧
      holdsAny (sampleProc (table [sampleLine++sampleMore])) {12345} 7 = true := by
  refine ⟨⟨sampleHeader,[sampleLine++sampleMore],by decide +kernel,.cons (by decide +kernel) .nil⟩,
    by decide +kernel,by decide +kernel,by decide +kernel⟩

end PirateServer.Processes.Listeners
