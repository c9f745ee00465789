import PirateServer.Lib.Run
import PirateServer.ProxySession.Duration
import PirateServer.Wire.Secrets

/-! A managed session from its creation on: the row that `create_connection` stores, what the
database does with it while tunnels come and go, and for how long an open is let through. -/
namespace PirateServer.Wire
open Lib ProxySession Option

/-- The row of a new session; `none` when the time at which it expires cannot be computed. -/
def createdRow (p : ProxyConnectionPolicy) (now : ℤ) (clientPubkeyB64 policyJson : String)
    (wireMode : Option ℤ) (wireConfigJson : Option String) : Option SessionRow :=
  (expiresAtFromPolicy p now).map (fun expiresAt =>
    ⟨clientPubkeyB64,expiresAt,policyJson,0,0,0,none,false,wireMode,wireConfigJson⟩)

inductive RowUpdate
  | traffic (deltaIn deltaOut activeMsDelta : ℤ) (setFirstOpenIfNull : Option ℤ)
  | revoke
  deriving DecidableEq, Repr

def InColumn (n : ℤ) : Prop := -2^63 ≤ n ∧ n < 2^63

instance (n : ℤ) : Decidable (InColumn n) := inferInstanceAs (Decidable (_ ∧ _))

/-- `increment_grpc_proxy_session_traffic`, which does not find a revoked row and fails when a
sum does not fit, and `revoke_grpc_proxy_session`. -/
def updateRow (row : SessionRow) : RowUpdate → Option SessionRow
  | .traffic deltaIn deltaOut activeMsDelta setFirstOpenIfNull =>
    if row.revoked then some row
    else if InColumn (row.bytesIn+deltaIn) ∧ InColumn (row.bytesOut+deltaOut) ∧
        InColumn (row.activeMs+activeMsDelta) then
      some { row with
        bytesIn := row.bytesIn+deltaIn
        bytesOut := row.bytesOut+deltaOut
        activeMs := row.activeMs+activeMsDelta
        firstOpenAt := row.firstOpenAt.or setFirstOpenIfNull }
    else none
  | .revoke => some { row with revoked := true }

/-- What the updates of a row leave alone. -/
structure SameSession (row row' : SessionRow) : Prop where
  expiresAt : row'.expiresAt = row.expiresAt
  policyJson : row'.policyJson = row.policyJson
  activeMs : InColumn row'.activeMs

lemma updateRow_same {row row' row'' : SessionRow} {u : RowUpdate} (h : SameSession row row')
    (hstep : updateRow row' u = some row'') : SameSession row row'' := by
  cases u with
  | traffic din dout ms first =>
    simp only [updateRow] at hstep
    split_ifs at hstep with hrevoked hfits
    · cases hstep
      exact h
    · cases hstep
      exact ⟨h.expiresAt,h.policyJson,hfits.2.2⟩
  | revoke =>
    cases hstep
    exact ⟨h.expiresAt,h.policyJson,h.activeMs⟩

lemma run_same {row row' : SessionRow} (h : InColumn row.activeMs)
    (hrun : Run updateRow anyStep row row') : SameSession row row' :=
  hrun.invariant (fun _ _ _ hi _ hstep => updateRow_same hi hstep) ⟨rfl,rfl,h⟩

/-- The open names this session with the key that it belongs to, at a time that its schedule
permits and within its traffic limits. -/
structure Presented (s : Server) (o : ProxyOpen) (row : SessionRow)
    (policy : StoredPolicy) : Prop where
  token : Text.trim o.sessionToken ≠ ""
  fetched : ∃ fetch, s.fetchByTokenSha256 = some fetch ∧
    fetch (s.sha256Hex (Text.trim o.sessionToken)) = .ok (some row)
  key : s.pubkey = some row.clientPubkeyB64
  live : row.revoked = false
  read : s.policyJson row.policyJson = .ok policy
  schedule : isScheduleAllowedStored s.zones policy s.now = .ok true
  traffic : checkTrafficLimits policy row.bytesIn.toNat row.bytesOut.toNat = .ok ()

def durationErrors : List Status :=
  [⟨.permissionDenied,"session expired"⟩,
    ⟨.permissionDenied,"session active time budget exhausted"⟩,
    ⟨.permissionDenied,"session max duration exceeded"⟩]

def RefusedForDuration (s : Server) (o : ProxyOpen) : Prop :=
  ∃ e ∈ durationErrors, openSession s o = .error e

variable {s : Server} {o : ProxyOpen} {row : SessionRow} {policy : StoredPolicy}

lemma Presented.openSession_eq (h : Presented s o row policy) : openSession s o = (do
      require (s.now ≤ row.expiresAt) .permissionDenied "session expired"
      require (!activeTimeBudgetExceeded policy row.activeMs.toNat 0) .permissionDenied
        "session active time budget exhausted"
      require (!maxDurationExceeded policy row.firstOpenAt s.now) .permissionDenied
        "session max duration exceeded" return some (row,policy)) := by
  obtain ⟨fetch,hfetch,hrow⟩ := h.fetched
  simp only [openSession,h.token,if_false,hfetch,h.key,hrow,h.live,h.read,h.schedule,h.traffic,
    elim_some,Except.mapError,require,bind,Except.bind,Bool.not_false,if_true,decide_true]

lemma Presented.refused_iff (h : Presented s o row policy) :
    RefusedForDuration s o ↔ row.expiresAt < s.now ∨
      activeTimeBudgetExceeded policy row.activeMs.toNat 0 = true ∨
      maxDurationExceeded policy row.firstOpenAt s.now = true := by
  rw [RefusedForDuration,h.openSession_eq]
  by_cases hexp : s.now ≤ row.expiresAt
  · cases hbudget : activeTimeBudgetExceeded policy row.activeMs.toNat 0 with
    | true => simp [require,hexp,durationErrors,bind,Except.bind]
    | false =>
      cases hmax : maxDurationExceeded policy row.firstOpenAt s.now with
      | true => simp [require,hexp,durationErrors,bind,Except.bind]
      | false =>
        simp [require,hexp,durationErrors,bind,Except.bind,pure,Except.pure,not_lt.mpr hexp]
  · simp [require,hexp,durationErrors,bind,Except.bind,not_le.mp hexp]

variable {p : ProxyConnectionPolicy} {sec : ℕ} {created : ℤ}

lemma expiresAt_of_limit {t : ℤ} (hnever : p.neverExpires.getD false = false)
    (hsec : p.maxSessionDurationSec = some sec) (hpos : 0 < sec)
    (h : expiresAtFromPolicy p created = some t) : t = created+asI64 sec*10^9 := by
  have hp : p.withLimit (some sec) = p := by
    rw [ProxyConnectionPolicy.withLimit,← hsec]
  rw [← hp,expiresAt_of_pos hnever hpos,durationSeconds] at h
  split_ifs at h
  · rw [bind_some,addDuration] at h
    split_ifs at h
    cases h
    rfl
  · cases h

lemma budgetExceeded_iff {ms : ℤ} (hflag : p.limitDurationByActiveTime = some true)
    (hsec : p.maxSessionDurationSec = some sec) (hpos : 0 < sec) (hms : InColumn ms) :
    activeTimeBudgetExceeded (.fromProto p) ms.toNat 0 = true ↔ 1000*(sec : ℤ) ≤ ms := by
  have hfilter : (some sec).filter (fun s => decide (0 < s)) = some sec := by simp [hpos]
  obtain ⟨hlo,hhi⟩ := hms
  simp only [activeTimeBudgetExceeded,activeTimeBudgetMsMax,StoredPolicy.fromProto,hflag,hsec,
    getD_some,if_true,hfilter,map_some,any_some,decide_eq_true_eq]
  unfold saturatingAdd
  omega

/-- The session is limited by its active time, and by nothing else that has to do with duration,
exactly for the opens that come before the wall clock has run through the limit or after the
active time is used up. -/
theorem active_session_refusal_iff {p : ProxyConnectionPolicy} {sec : ℕ} {created : ℤ}
    {pubkey policyJson : String} {wireMode : Option ℤ} {wireConfigJson : Option String}
    {row₀ row : SessionRow} {s : Server} {o : ProxyOpen}
    (hflag : p.limitDurationByActiveTime = some true)
    (hnever : p.neverExpires.getD false = false) (hsec : p.maxSessionDurationSec = some sec)
    (hpos : 0 < sec)
    (hcreate : createdRow p created pubkey policyJson wireMode wireConfigJson = some row₀)
    (hrun : Run updateRow anyStep row₀ row) (hopen : Presented s o row (.fromProto p)) :
    ((RefusedForDuration s o → 1000*(sec : ℤ) ≤ row.activeMs) ∧
      (1000*(sec : ℤ) ≤ row.activeMs → RefusedForDuration s o)) ↔
      (s.now ≤ created+asI64 sec*10^9 ∨ 1000*(sec : ℤ) ≤ row.activeMs) := by
  obtain ⟨t,ht,rfl⟩ := Option.map_eq_some_iff.mp hcreate
  have hzero : InColumn 0 := by decide
  have hsame := run_same hzero hrun
  have hexp : row.expiresAt = created+asI64 sec*10^9 := by
    rw [hsame.expiresAt]
    exact expiresAt_of_limit hnever hsec hpos ht
  have hmax : maxDurationExceeded (.fromProto p) row.firstOpenAt s.now = false := by
    simp [maxDurationExceeded,StoredPolicy.fromProto,hflag]
  rw [hopen.refused_iff,budgetExceeded_iff hflag hsec hpos hsame.activeMs,hexp,hmax]
  constructor
  · rintro ⟨hrefused,-⟩
    by_contra hnot
    rw [not_or,not_le] at hnot
    exact hnot.2 (hrefused (.inl hnot.1))
  · rintro (hearly | hused)
    · refine ⟨?_,fun hused => .inr (.inl hused)⟩
      rintro (hlate | hused | hfalse)
      · omega
      · exact hused
      · cases hfalse
    · exact ⟨fun _ => hused,fun _ => .inr (.inl hused)⟩

def activeHour : ProxyConnectionPolicy :=
  { openPolicy with maxSessionDurationSec := some 3600, limitDurationByActiveTime := some true }

def activeRow (activeMs : ℤ) : SessionRow :=
  ⟨"k",3600*10^9,"\x7b\x7d",0,0,activeMs,none,false,none,none⟩

def activeServer (row : SessionRow) (now : ℤ) : Server :=
  { sessionServer row with policyJson := fun _ => .ok (.fromProto activeHour), now := now }

def rawOpen : ProxyOpen := ⟨"example.com",443,"t",none,none,none⟩

lemma presented_active (row : SessionRow) (now : ℤ) (hkey : row.clientPubkeyB64 = "k")
    (hlive : row.revoked = false) :
    Presented (activeServer row now) rawOpen row (.fromProto activeHour) where
  token := by decide +kernel
  fetched := ⟨_,rfl,by
    have htoken : Text.trim rawOpen.sessionToken = "t" := by decide +kernel
    simp [activeServer,sessionServer,htoken]⟩
  key := by rw [hkey]; rfl
  live := hlive
  read := rfl
  schedule := rfl
  traffic := rfl

theorem active_session_refusal_half_hour :
    ¬ RefusedForDuration (activeServer (activeRow 60000) (1800*10^9)) rawOpen := by
  have hrun : Run updateRow anyStep (activeRow 0) (activeRow 60000) :=
    (Run.refl _).tail (a := .traffic 0 0 60000 none) trivial rfl
  have h := (@active_session_refusal_iff activeHour 3600 0 _ _ _ _ _ _ _ _ rfl rfl rfl
    (by decide) (rfl : createdRow activeHour 0 "k" "\x7b\x7d" none none = some (activeRow 0)) hrun
    (presented_active (activeRow 60000) (1800*10^9) rfl rfl)).mpr (.inl (by decide +kernel))
  intro hrefused
  have hused := h.1 hrefused
  revert hused
  decide

theorem active_session_expires_unused :
    createdRow activeHour 0 "k" "\x7b\x7d" none none = some (activeRow 0) ∧
      Presented (activeServer (activeRow 0) (7200*10^9)) rawOpen (activeRow 0)
        (.fromProto activeHour) ∧ openSession (activeServer (activeRow 0) (7200*10^9)) rawOpen =
        .error ⟨.permissionDenied,"session expired"⟩ := by
  refine ⟨rfl,presented_active _ _ rfl rfl,?_⟩
  rw [(presented_active (activeRow 0) (7200*10^9) rfl rfl).openSession_eq]
  rfl

end PirateServer.Wire
