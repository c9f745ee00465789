import PirateServer.Lib.Text

/-! The renewal of certificates: one loop over the rows, which an error of certbot or of the
database can end, and then one post-check of nginx. -/
namespace PirateServer.Ssl
open Lib List

structure Row where
  primaryDomain : String
  certName : String
  domains : List String
  expiryUtcMs : ℤ

/-- The exit status of certbot, if it starts, and whether the writes after a success succeed. -/
structure Outcome where
  run : Option ℤ
  upsert : Bool
  event : Bool

structure Config where
  expiryThresholdDays : ℤ
  postCheckEnabled : Bool
  postCheckHost : String
  useSudo : Bool
  reloadCmd : Option String
  strictNginxReload : Bool

structure Probe where
  classified : String
  ok : Bool

/-- What the commands of the post-check do: whether they succeed, if they start. -/
structure Nginx where
  validate : Option Bool
  reload : Option Bool
  shell : String → Option Bool
  httpsProbe : String → Probe

/-- A command that has been started. -/
inductive Command where
  | validate
  | reload
  | reloadCmd (cmd : String)
deriving DecidableEq

structure PostCheck where
  nginxTestOk : Bool
  reloadOk : Bool
  upstreamHealthOk : Bool
  classifiedError : String

structure Progress where
  attempts : List String
  failed : ℕ
  anyRenewSuccess : Bool
  probeHost : Option String

structure Report where
  degraded : Bool
  failed : ℕ
  postCheck : Option PostCheck
  commands : List Command

variable (cfg : Config) (now : ℤ) (forceAll : Bool)

def concrete (name : String) : Option String :=
  let t := Text.trim name
  if t = "" || Text.startsWith t "*." then none else some t

def concreteProbeHost (domains : List String) (primary : String) : Option String :=
  (primary::domains).findSome? concrete

def resolveSslProbeHost (domains : List String) (primary : String) : Option String :=
  (concrete cfg.postCheckHost).or (concreteProbeHost domains primary)

def due (row : Row) : Bool :=
  forceAll || row.expiryUtcMs ≤ now+max cfg.expiryThresholdDays 0*86400000

def dueRows (rows : List (Row × Outcome)) : List (Row × Outcome) :=
  rows.filter (fun x => due cfg now forceAll x.1)

/-- The body of the loop for a row that is due; `false` is an error that ends the call. -/
def renewRow (row : Row) (out : Outcome) (p : Progress) : Progress × Bool :=
  let p := { p with attempts := p.attempts++[row.certName] }
  match out.run with
  | none => (p,false)
  | some status =>
    if status ≠ 0 then ({ p with failed := min (p.failed+1) (2^31-1) },true)
    else if out.upsert && out.event then
      (⟨p.attempts,p.failed,true,
        p.probeHost.or (resolveSslProbeHost cfg row.domains row.primaryDomain)⟩,true)
    else ({ p with anyRenewSuccess := true },false)

def renewRows : List (Row × Outcome) → Progress → Progress × Bool
  | [],p => (p,true)
  | (row,out)::rest,p =>
    if due cfg now forceAll row then
      match renewRow cfg row out p with
      | (p,true) => renewRows rest p
      | (p,false) => (p,false)
    else renewRows rest p

variable (nginx : Nginx)

/-- With the result, the commands that were started. -/
def nginxValidate (out : PostCheck) : PostCheck × List Command :=
  if cfg.useSudo = false then ({ out with nginxTestOk := true },[])
  else match nginx.validate with
    | some ok => ({ out with nginxTestOk := ok },[.validate])
    | none => ({ out with nginxTestOk := false },[])

/-- `false` is an error, which ends the post-check; a command that does not start leaves `reloadOk`.
-/
def reloadBy (cmd : Command) (run : Option Bool) (out : PostCheck) :
    PostCheck × Bool × List Command :=
  match run with
  | none => (out,false,[])
  | some ok => ({ out with reloadOk := ok },ok || !cfg.strictNginxReload,[cmd])

def reloadNginxResult (out : PostCheck) : PostCheck × Bool × List Command :=
  if cfg.useSudo then reloadBy cfg .reload nginx.reload out
  else match cfg.reloadCmd with
    | some cmd => reloadBy cfg (.reloadCmd cmd) (nginx.shell cmd) out
    | none => ({ out with reloadOk := true },true,[])

def tlsErrors : List String := ["tls_name_mismatch","tls_peer_cert","tls_cert_problem"]

def applyHttpsProbe (host : String) (out : PostCheck) : PostCheck :=
  if cfg.postCheckEnabled = false then out
  else
    let pr := nginx.httpsProbe host
    if pr.classified = "skipped_wildcard_or_empty" then { out with upstreamHealthOk := true }
    else if pr.classified = "curl_unavailable" then
      { out with classifiedError := "curl_unavailable", upstreamHealthOk := true }
    else
      { out with
        upstreamHealthOk := pr.classified ∉ tlsErrors && pr.ok
        classifiedError := if pr.classified = "" then out.classifiedError else pr.classified }

def runPostCheckAfterCert (host : String) : PostCheck × List Command :=
  if cfg.postCheckEnabled = false then (⟨true,true,true,""⟩,[])
  else if Text.trim host = "" then (⟨true,true,true,"no_concrete_host"⟩,[])
  else
    let (out,tested) := nginxValidate cfg nginx ⟨true,true,true,""⟩
    match reloadNginxResult cfg nginx out with
    | (out,false,reloaded) => (out,tested++reloaded)
    | (out,true,reloaded) => (applyHttpsProbe cfg nginx host out,tested++reloaded)

def isDegraded (c : PostCheck) : Bool :=
  c.classifiedError == "no_concrete_host" || !c.reloadOk || !c.nginxTestOk ||
    (!c.upstreamHealthOk && c.classifiedError != "curl_unavailable")

def checkAndRenew (rows : List (Row × Outcome)) : List String × Option Report :=
  match renewRows cfg now forceAll rows ⟨[],0,false,none⟩ with
  | (p,false) => (p.attempts,none)
  | (p,true) =>
    let (check,commands) := runPostCheckAfterCert cfg nginx (p.probeHost.getD "")
    (p.attempts,some (if p.anyRenewSuccess then ⟨isDegraded check,p.failed,some check,commands⟩
      else ⟨false,p.failed,none,[]⟩))

/-- Certbot starts, and after a success both writes succeed. -/
def Outcome.completes (o : Outcome) : Bool := o.run.any (fun s => s ≠ 0 || (o.upsert && o.event))

def Outcome.renewed (o : Outcome) : Bool := o.run == some 0

/-- The host of the first renewed row that has a concrete one. -/
def hostOf (l : List (Row × Outcome)) : Option String :=
  (l.filter (fun x => x.2.renewed)).findSome?
    (fun x => resolveSslProbeHost cfg x.1.domains x.1.primaryDomain)

/-- What the loop has done once it has been through some rows that were due. -/
structure Progress.Of (p : Progress) (l : List (Row × Outcome)) : Prop where
  failed : p.failed = 0 ↔ ∀ x ∈ l, x.2.renewed = true
  success : p.anyRenewSuccess = true ↔ ∃ x ∈ l, x.2.renewed = true
  host : p.probeHost = hostOf cfg l

/-- The rows up to the first one whose renewal does not complete. -/
def attempted (l : List (Row × Outcome)) : List (Row × Outcome) :=
  l.takeWhile (fun x => x.2.completes)++(l.dropWhile (fun x => x.2.completes)).take 1

/-- Every certificate that is due is attempted once, nginx is tested and reloaded if one of them is
renewed, and the status is ok only if all of them are. -/
structure Isolated (rows : List (Row × Outcome)) : Prop where
  attempts : (checkAndRenew cfg now forceAll nginx rows).1 =
    (dueRows cfg now forceAll rows).map (fun x => x.1.certName)
  reloads : (∃ x ∈ dueRows cfg now forceAll rows, x.2.renewed = true) →
    ∃ r, (checkAndRenew cfg now forceAll nginx rows).2 = some r ∧ .validate ∈ r.commands ∧
      (.reload ∈ r.commands ∨ ∃ cmd, .reloadCmd cmd ∈ r.commands)
  status : ∀ r, (checkAndRenew cfg now forceAll nginx rows).2 = some r → r.degraded = false →
    ∀ x ∈ dueRows cfg now forceAll rows, x.2.renewed = true

/-- A probe that counts: curl has run, and nginx has not answered well. -/
def Probe.bad (pr : Probe) : Bool :=
  pr.classified != "skipped_wildcard_or_empty" && pr.classified != "curl_unavailable" &&
    (pr.classified == "no_concrete_host" || pr.classified ∈ tlsErrors || !pr.ok)

/-- The post-check is made: it is enabled, has a host and may use sudo, whose commands start. -/
structure Checked (l : List (Row × Outcome)) : Prop where
  enabled : cfg.postCheckEnabled = true
  host : (hostOf cfg l).isSome
  useSudo : cfg.useSudo = true
  validates : nginx.validate.isSome
  reloads : nginx.reload.isSome

/-- Nginx fails its test or the reload, or the probe of the host is bad. -/
def Unhealthy (l : List (Row × Outcome)) : Prop :=
  nginx.validate = some false ∨ nginx.reload = some false ∨
    ∃ h, hostOf cfg l = some h ∧ (nginx.httpsProbe h).bad = true

/-- The conditions on the rows that are due. -/
structure Orderly (l : List (Row × Outcome)) : Prop where
  completes : ∀ x ∈ l.dropLast, x.2.completes = true
  checked : (∃ x ∈ l, x.2.renewed = true) →
    (∀ x ∈ l, x.2.completes = true) ∧ Checked cfg nginx l
  fails : (∀ x ∈ l, x.2.completes = true) → (∀ x ∈ l, x.2.renewed = true) ∨
    (∃ x ∈ l, x.2.renewed = true) ∧ Unhealthy cfg nginx l

variable {cfg : Config} {now : ℤ} {forceAll : Bool} {rows l : List (Row × Outcome)} {p : Progress}
  {row : Row} {out : Outcome}

lemma trim_concrete {name t : String} (h : concrete name = some t) : Text.trim t ≠ "" := by
  simp only [concrete] at h
  split_ifs at h with hc
  cases h
  rw [Text.trim_trim]
  intro hblank
  simp [hblank] at hc

lemma trim_resolve {domains : List String} {primary h : String}
    (hh : resolveSslProbeHost cfg domains primary = some h) : Text.trim h ≠ "" := by
  rcases Option.or_eq_some_iff.mp hh with hh | ⟨_,hh⟩
  · exact trim_concrete hh
  · obtain ⟨_,_,hname⟩ := exists_of_findSome?_eq_some hh
    exact trim_concrete hname

lemma trim_hostOf {h : String} (hh : hostOf cfg l = some h) : Text.trim h ≠ "" := by
  obtain ⟨_,_,hrow⟩ := exists_of_findSome?_eq_some hh
  exact trim_resolve hrow

lemma hostOf_append (x : Row × Outcome) : hostOf cfg (l++[x]) = (hostOf cfg l).or
    (if x.2.renewed then resolveSslProbeHost cfg x.1.domains x.1.primaryDomain else none) := by
  rw [hostOf,filter_append,findSome?_append]
  cases hx : x.2.renewed with
  | false => rw [filter_cons_of_neg (by simp [hx])]; rfl
  | true =>
    rw [filter_cons_of_pos (by exact hx),if_pos rfl,filter_nil,findSome?_singleton]
    rfl

lemma Progress.Of.renewRow (h : p.Of cfg l) (hout : out.completes = true) :
    ∃ q, renewRow cfg row out p = (q,true) ∧ q.Of cfg (l++[(row,out)]) := by
  obtain ⟨run,upsert,event⟩ := out
  cases run with
  | none => cases hout
  | some status =>
    by_cases hs : status = 0
    · subst hs
      have hwrites : (upsert && event) = true := by simpa [Outcome.completes] using hout
      refine ⟨_,by simp only [Ssl.renewRow,ne_eq,not_true,if_false,if_pos hwrites]; rfl,?_,?_,?_⟩
      · rw [forall_mem_append,forall_mem_singleton]
        exact h.failed.trans (and_iff_left rfl).symm
      · exact iff_of_true rfl ⟨_,mem_append_right l (mem_singleton.mpr rfl),rfl⟩
      · rw [hostOf_append,← h.host]
        rfl
    · have hfails : ∀ b c, Outcome.renewed ⟨some status,b,c⟩ = false := fun _ _ =>
        beq_false_of_ne (fun h => hs (Option.some.inj h))
      refine ⟨_,by simp only [Ssl.renewRow,ne_eq,hs,not_false_iff,if_true]; rfl,?_,?_,?_⟩
      · rw [forall_mem_append,forall_mem_singleton,hfails]
        refine iff_of_false ?_ (fun h => Bool.false_ne_true h.2)
        change min (p.failed+1) (2^31-1) ≠ 0
        omega
      · simp only [mem_append,mem_singleton,or_and_right,exists_or,exists_eq_left,hfails,
          Bool.false_eq_true,or_false]
        exact h.success
      · rw [hostOf_append,hfails,if_neg Bool.false_ne_true,Option.or_none]
        exact h.host

/-- Where no error ends the loop, it goes through all rows that are due. -/
lemma Progress.Of.renewRows (h : p.Of cfg l)
    (hout : ∀ x ∈ dueRows cfg now forceAll rows, x.2.completes = true) :
    ∃ q, renewRows cfg now forceAll rows p = (q,true) ∧
      q.Of cfg (l++dueRows cfg now forceAll rows) := by
  induction rows generalizing l p with
  | nil => exact ⟨p,rfl,by simpa [dueRows] using h⟩
  | cons x rows ih =>
    cases hdue : due cfg now forceAll x.1 with
    | false =>
      have hskip : dueRows cfg now forceAll (x::rows) = dueRows cfg now forceAll rows :=
        filter_cons_of_neg (by simp [hdue])
      rw [hskip] at hout ⊢
      rw [Ssl.renewRows,if_neg (by simp [hdue])]
      exact ih h hout
    | true =>
      have htake : dueRows cfg now forceAll (x::rows) = x::dueRows cfg now forceAll rows :=
        filter_cons_of_pos (by exact hdue)
      rw [htake,forall_mem_cons] at hout
      obtain ⟨q,hq,hof⟩ := h.renewRow hout.1
      rw [htake,Ssl.renewRows,if_pos hdue,hq,append_cons]
      exact ih hof hout.2

lemma renewRow_attempts : (renewRow cfg row out p).1.attempts = p.attempts++[row.certName] ∧
    (renewRow cfg row out p).2 = out.completes := by
  unfold renewRow Outcome.completes
  cases out.run with
  | none => exact ⟨rfl,rfl⟩
  | some status =>
    by_cases hs : status = 0 <;> cases hw : out.upsert && out.event <;> simp [hs]

lemma attempted_cons (x : Row × Outcome) :
    attempted (x::l) = if x.2.completes then x::attempted l else [x] := by
  cases hx : x.2.completes with
  | false => simp [attempted,hx]
  | true => simp [attempted,hx]

lemma renewRows_attempts : (renewRows cfg now forceAll rows p).1.attempts = p.attempts++
      (attempted (dueRows cfg now forceAll rows)).map (fun x => x.1.certName) ∧
    ((renewRows cfg now forceAll rows p).2 = true ↔
      ∀ x ∈ dueRows cfg now forceAll rows, x.2.completes = true) := by
  induction rows generalizing p with
  | nil => simp [renewRows,dueRows,attempted]
  | cons x rows ih =>
    obtain ⟨row,out⟩ := x
    simp only [renewRows,dueRows,filter_cons] at ih ⊢
    split_ifs with hdue
    · obtain ⟨hattempts,hcompletes⟩ := @renewRow_attempts cfg p row out
      rw [attempted_cons,forall_mem_cons,← hcompletes]
      rcases hr : renewRow cfg row out p with ⟨q,_ | _⟩
      · rw [hr] at hattempts
        rw [if_neg Bool.false_ne_true]
        exact ⟨hattempts,iff_of_false Bool.false_ne_true (fun h => Bool.false_ne_true h.1)⟩
      · rw [hr] at hattempts
        obtain ⟨hq,hrest⟩ := @ih q
        rw [if_pos rfl,map_cons,append_cons,← hattempts]
        exact ⟨hq,hrest.trans (and_iff_right rfl).symm⟩
    · exact ih

/-- All rows are attempted exactly if those before the last one complete. -/
lemma attempted_all_iff : (attempted l).map (fun x => x.1.certName) = l.map
    (fun x => x.1.certName) ↔
    ∀ x ∈ l.dropLast, x.2.completes = true := by
  induction l with
  | nil => simp [attempted]
  | cons x l ih =>
    rw [attempted_cons]
    cases l with
    | nil => cases x.2.completes <;> simp [attempted]
    | cons y l =>
      rw [dropLast_cons_cons,forall_mem_cons]
      cases hx : x.2.completes with
      | false => simp
      | true => rw [if_pos rfl,map_cons,map_cons,cons_inj_right,ih,and_iff_right rfl]

lemma checkAndRenew_error (h : ¬∀ x ∈ dueRows cfg now forceAll rows, x.2.completes = true) :
    (checkAndRenew cfg now forceAll nginx rows).2 = none := by
  rw [← (@renewRows_attempts cfg now forceAll rows ⟨[],0,false,none⟩).2,Bool.not_eq_true] at h
  unfold checkAndRenew
  rcases hr : renewRows cfg now forceAll rows ⟨[],0,false,none⟩ with ⟨p,_ | _⟩
  · rfl
  · rw [hr] at h
    cases h

lemma checkAndRenew_attempts : (checkAndRenew cfg now forceAll nginx rows).1 =
    (attempted (dueRows cfg now forceAll rows)).map (fun x => x.1.certName) := by
  have hrows := (@renewRows_attempts cfg now forceAll rows ⟨[],0,false,none⟩).1
  rw [nil_append] at hrows
  rw [← hrows]
  unfold checkAndRenew
  rcases renewRows cfg now forceAll rows ⟨[],0,false,none⟩ with ⟨p,_ | _⟩ <;> rfl

/-- The report of a call that no error ends. -/
lemma checkAndRenew_report (hout : ∀ x ∈ dueRows cfg now forceAll rows, x.2.completes = true) :
    ∃ r, (checkAndRenew cfg now forceAll nginx rows).2 = some r ∧
      ((¬∃ x ∈ dueRows cfg now forceAll rows, x.2.renewed = true) → r.degraded = false) ∧
      ((∃ x ∈ dueRows cfg now forceAll rows, x.2.renewed = true) →
        (isDegraded (runPostCheckAfterCert cfg nginx
          ((hostOf cfg (dueRows cfg now forceAll rows)).getD "")).1 = r.degraded ∧
        (runPostCheckAfterCert cfg nginx
          ((hostOf cfg (dueRows cfg now forceAll rows)).getD "")).2 = r.commands)) := by
  have hinit : Progress.Of cfg ⟨[],0,false,none⟩ [] := ⟨by simp,by simp,rfl⟩
  obtain ⟨q,hq,hof⟩ := hinit.renewRows hout
  rw [nil_append] at hof
  rw [← hof.success,← hof.host]
  unfold checkAndRenew
  rw [hq]
  refine ⟨_,rfl,?_,?_⟩
  · intro h
    rw [if_neg h]
  · intro h
    rw [if_pos h]
    exact ⟨rfl,rfl⟩

/-- The post-check of a host with sudo. -/
lemma runPostCheck_sudo {h : String} (hen : cfg.postCheckEnabled = true) (hh : Text.trim h ≠ "")
    (hs : cfg.useSudo = true) : runPostCheckAfterCert cfg nginx h =
      match reloadBy cfg .reload nginx.reload ⟨nginx.validate.getD false,true,true,""⟩ with
      | (out,false,reloaded) => (out,(nginx.validate.toList.map fun _ => .validate)++reloaded)
      | (out,true,reloaded) =>
        (applyHttpsProbe cfg nginx h out,(nginx.validate.toList.map fun _ =>
          .validate)++reloaded) := by
  have hen' : ¬cfg.postCheckEnabled = false := by simp [hen]
  have hs' : ¬cfg.useSudo = false := by simp [hs]
  unfold runPostCheckAfterCert nginxValidate reloadNginxResult
  rw [if_neg hen',if_neg hh,if_neg hs']
  simp only [if_pos hs]
  cases nginx.validate <;> rfl

/-- Without sudo nginx is not tested. -/
lemma not_validates {h : String} (hs : cfg.useSudo = false) :
    Command.validate ∉ (runPostCheckAfterCert cfg nginx h).2 := by
  have hs' : ¬cfg.useSudo = true := by simp [hs]
  unfold runPostCheckAfterCert nginxValidate reloadNginxResult
  simp only [if_pos hs,if_neg hs']
  split_ifs with hen hblank
  · exact not_mem_nil
  · exact not_mem_nil
  cases hcmd : cfg.reloadCmd with
  | none => simp
  | some cmd =>
    cases hsh : nginx.shell cmd with
    | none => simp [hsh,reloadBy]
    | some ok => cases ok <;> cases hst : cfg.strictNginxReload <;> simp [hsh,reloadBy,hst]

/-- The post-check runs both commands exactly if it is made. -/
lemma commands_iff :
    (Command.validate ∈ (runPostCheckAfterCert cfg nginx ((hostOf cfg l).getD "")).2 ∧
      (.reload ∈ (runPostCheckAfterCert cfg nginx ((hostOf cfg l).getD "")).2 ∨
        ∃ cmd, .reloadCmd cmd ∈ (runPostCheckAfterCert cfg nginx ((hostOf cfg l).getD "")).2)) ↔
    Checked cfg nginx l := by
  cases hen : cfg.postCheckEnabled with
  | false =>
    rw [runPostCheckAfterCert,if_pos hen]
    exact ⟨fun h => absurd h.1 not_mem_nil,fun h => by cases hen.symm.trans h.enabled⟩
  | true =>
  cases hh : hostOf cfg l with
  | none =>
    rw [runPostCheckAfterCert,if_neg (by simp [hen])]
    exact ⟨fun h => absurd h.1 not_mem_nil,fun h => by cases hh ▸ h.host⟩
  | some h =>
  cases hs : cfg.useSudo with
  | false => exact ⟨fun h => absurd h.1 (not_validates nginx hs),
      fun h => by cases hs.symm.trans h.useSudo⟩
  | true =>
    have hchecked : Checked cfg nginx l ↔ nginx.validate.isSome ∧ nginx.reload.isSome :=
      ⟨fun h => ⟨h.validates,h.reloads⟩,fun h => ⟨hen,by rw [hh]; rfl,hs,h.1,h.2⟩⟩
    rw [hchecked,Option.getD_some,runPostCheck_sudo nginx hen (trim_hostOf hh) hs]
    cases nginx.validate <;> cases nginx.reload with
    | none => simp [reloadBy]
    | some ok => cases ok <;> cases hst : cfg.strictNginxReload <;> simp [reloadBy,hst]

lemma applyHttpsProbe_degraded {h : String} (hen : cfg.postCheckEnabled = true)
    (test reload : Bool) :
    isDegraded (applyHttpsProbe cfg nginx h ⟨test,reload,true,""⟩) =
      (!test || !reload || (nginx.httpsProbe h).bad) := by
  unfold applyHttpsProbe Probe.bad isDegraded
  rw [if_neg (by simp [hen])]
  generalize nginx.httpsProbe h = pr
  obtain ⟨classified,ok⟩ := pr
  dsimp only
  split_ifs with hskip hcurl hblank
  · simp [hskip,Bool.or_comm]
  · simp [hcurl,Bool.or_comm]
  · subst hblank
    cases test <;> cases reload <;> cases ok <;> decide
  · have hskip' : (classified != "skipped_wildcard_or_empty") = true := bne_iff_ne.mpr hskip
    have hcurl' : (classified != "curl_unavailable") = true := bne_iff_ne.mpr hcurl
    rw [hskip',hcurl']
    cases test <;> cases reload <;> simp [Bool.or_assoc]

/-- A post-check that is made is bad exactly if nginx is unhealthy. -/
lemma isDegraded_iff (hc : Checked cfg nginx l) :
    isDegraded (runPostCheckAfterCert cfg nginx ((hostOf cfg l).getD "")).1 = true ↔
      Unhealthy cfg nginx l := by
  obtain ⟨h,hh⟩ := Option.isSome_iff_exists.mp hc.host
  obtain ⟨test,hv⟩ := Option.isSome_iff_exists.mp hc.validates
  obtain ⟨reload,hr⟩ := Option.isSome_iff_exists.mp hc.reloads
  have hprobe : (∃ h, hostOf cfg l = some h ∧ (nginx.httpsProbe h).bad = true) ↔
      (nginx.httpsProbe h).bad = true := by simp [hh]
  rw [Unhealthy,hprobe,hh,Option.getD_some,
    runPostCheck_sudo nginx hc.enabled (trim_hostOf hh) hc.useSudo,hv,hr,Option.some_inj,
    Option.some_inj]
  have hdegraded := fun b => @applyHttpsProbe_degraded nginx cfg h hc.enabled test b
  cases reload with
  | true => simp [reloadBy,hdegraded]
  | false =>
    refine iff_of_true ?_ (.inr (.inl rfl))
    cases hst : cfg.strictNginxReload with
    | false => simp [reloadBy,hst,hdegraded]
    | true => simp [reloadBy,hst,isDegraded]

/-- Renewals are isolated exactly if the rows that are due are orderly. -/
theorem renewals_isolated_iff (cfg : Config) (now : ℤ) (forceAll : Bool) (nginx : Nginx)
    (rows : List (Row × Outcome)) :
    Isolated cfg now forceAll nginx rows ↔ Orderly cfg nginx (dueRows cfg now forceAll rows) := by
  have hattempts : (checkAndRenew cfg now forceAll nginx rows).1 =
        (dueRows cfg now forceAll rows).map (fun x => x.1.certName) ↔
      ∀ x ∈ (dueRows cfg now forceAll rows).dropLast, x.2.completes = true := by
    rw [checkAndRenew_attempts,attempted_all_iff]
  by_cases hout : ∀ x ∈ dueRows cfg now forceAll rows, x.2.completes = true
  · obtain ⟨r,hr,hnone,hsome⟩ := checkAndRenew_report nginx hout
    have hcommands : (∃ x ∈ dueRows cfg now forceAll rows, x.2.renewed = true) →
        ((.validate ∈ r.commands ∧ (.reload ∈ r.commands ∨ ∃ cmd, .reloadCmd cmd ∈ r.commands)) ↔
          Checked cfg nginx (dueRows cfg now forceAll rows)) := by
      intro hany
      rw [← (hsome hany).2]
      exact commands_iff nginx
    constructor
    · intro h
      have hchecked : (∃ x ∈ dueRows cfg now forceAll rows, x.2.renewed = true) →
          Checked cfg nginx (dueRows cfg now forceAll rows) := by
        intro hany
        obtain ⟨r',hr',hcs⟩ := h.reloads hany
        cases hr.symm.trans hr'
        exact (hcommands hany).mp hcs
      refine ⟨hattempts.mp h.attempts,fun hany => ⟨hout,hchecked hany⟩,fun _ => ?_⟩
      by_cases hall : ∀ x ∈ dueRows cfg now forceAll rows, x.2.renewed = true
      · exact .inl hall
      · have hdegraded : r.degraded = true := by
          rw [← Bool.not_eq_false]
          exact fun hd => hall (h.status r hr hd)
        have hany : ∃ x ∈ dueRows cfg now forceAll rows, x.2.renewed = true := by
          by_contra hno
          cases (hnone hno).symm.trans hdegraded
        exact .inr ⟨hany,(isDegraded_iff nginx (hchecked hany)).mp ((hsome hany).1.trans hdegraded)⟩
    · intro h
      refine ⟨hattempts.mpr h.completes,fun hany =>
        ⟨r,hr,(hcommands hany).mpr (h.checked hany).2⟩,?_⟩
      intro r' hr' hd
      cases hr.symm.trans hr'
      rcases h.fails hout with hall | ⟨hany,hbad⟩
      · exact hall
      · have hdegraded := (isDegraded_iff nginx (h.checked hany).2).mpr hbad
        rw [(hsome hany).1,hd] at hdegraded
        cases hdegraded
  · have herror := checkAndRenew_error nginx hout
    constructor
    · intro h
      refine ⟨hattempts.mp h.attempts,fun hany => ?_,fun h => absurd h hout⟩
      obtain ⟨r,hr,_⟩ := h.reloads hany
      cases herror.symm.trans hr
    · intro h
      refine ⟨hattempts.mpr h.completes,fun hany => absurd (h.checked hany).1 hout,?_⟩
      intro r hr
      cases herror.symm.trans hr

/-- Rows that have just expired, with nothing wrong on the side of nginx. -/
def renewExpired (useSudo : Bool) (rows : List (String × Outcome)) : List String × Option Report :=
  checkAndRenew ⟨30,true,"",useSudo,none,false⟩ 0 false
    ⟨some true,some true,fun _ => some true,fun _ => ⟨"",true⟩⟩
    (rows.map (fun x => (⟨x.1,x.1,[],0⟩,x.2)))

/-- A renewal that fails leaves the status as it is; certbot that does not start keeps the rest from
being attempted; a write that fails after a success keeps nginx from being reloaded; and without
sudo and a command of its own nothing is tested or reloaded. -/
theorem renewals_not_isolated :
    (renewExpired true [("a",⟨some 1,true,true⟩)]).2.map (fun r => (r.degraded,r.failed)) =
      some (false,1) ∧
    (renewExpired true [("a",⟨none,true,true⟩),("b",⟨some 0,true,true⟩)]).1 = ["a"] ∧
    (renewExpired true [("a",⟨some 0,true,false⟩)]).2.isNone = true ∧
    (renewExpired false [("a",⟨some 0,true,true⟩)]).2.map (fun r => (r.degraded,r.commands)) =
      some (false,[]) := by
  decide

/-- Every certificate that is due is attempted, in order, up to the first one whose renewal does not
complete, and the call reports nothing exactly if there is one. -/
theorem renewals_end_at_error (cfg : Config) (now : ℤ) (forceAll : Bool) (nginx : Nginx)
    (rows : List (Row × Outcome)) :
    (checkAndRenew cfg now forceAll nginx rows).1 =
        (attempted (dueRows cfg now forceAll rows)).map (fun x => x.1.certName) ∧
      ((checkAndRenew cfg now forceAll nginx rows).2 = none ↔
        ∃ x ∈ dueRows cfg now forceAll rows, x.2.completes = false) := by
  refine ⟨checkAndRenew_attempts nginx,?_⟩
  by_cases hout : ∀ x ∈ dueRows cfg now forceAll rows, x.2.completes = true
  · obtain ⟨r,hr,_⟩ := checkAndRenew_report nginx hout
    rw [hr]
    refine iff_of_false nofun ?_
    rintro ⟨x,hx,hfalse⟩
    cases hfalse.symm.trans (hout x hx)
  · refine iff_of_true (checkAndRenew_error nginx hout) ?_
    push Not at hout
    exact hout.imp fun x h => ⟨h.1,Bool.not_eq_true _ ▸ h.2⟩

end PirateServer.Ssl
