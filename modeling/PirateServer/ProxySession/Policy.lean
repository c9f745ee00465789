import PirateServer.Lib.Text

/-! The policy of a managed proxy session: what the server tests when a tunnel is opened and
while it carries data. Instants are nanoseconds of UTC; time zones come from another package. -/
namespace PirateServer.ProxySession
open Lib

inductive Code
  | invalidArgument
  | permissionDenied
  | resourceExhausted
  | failedPrecondition
  | unauthenticated
  | notFound
  | internal
  deriving DecidableEq, Repr

/-- `tonic::Status`. -/
structure Status where
  code : Code
  message : String
  deriving DecidableEq, Repr

structure StoredAccessWindow where
  days : List ℕ
  start : String
  finish : String
  deriving DecidableEq, Repr

structure StoredAccessSchedule where
  timezone : String
  windows : List StoredAccessWindow
  deriving DecidableEq, Repr

structure StoredPolicy where
  maxSessionDurationSec : Option ℕ
  trafficTotalBytes : Option ℕ
  trafficBytesInLimit : Option ℕ
  trafficBytesOutLimit : Option ℕ
  activeIdleTimeoutSec : Option ℕ
  accessSchedule : Option StoredAccessSchedule
  neverExpires : Bool
  limitDurationByActiveTime : Bool
  maxConcurrentDevicesPerSession : Option ℕ
  deriving DecidableEq, Repr

/-- The environment variables of the device limit, as `std::env::var` reads them. -/
structure DeviceEnv where
  defaultMaxDevicesPerSession : Option String
  maxDevicesPerSessionCap : Option String
  deriving DecidableEq, Repr

namespace StoredPolicy

def defaultMaxDevicesPerSessionFromEnv (env : DeviceEnv) : ℕ :=
  ((env.defaultMaxDevicesPerSession.bind (Text.parseUnsigned 32)).filter (fun n => 0 < n)).getD 10

/-- The limit for the registry; zero stands for no limit. -/
def effectiveMaxConcurrentDevicesPerSession (env : DeviceEnv) (p : StoredPolicy) : ℕ :=
  let v := match p.maxConcurrentDevicesPerSession with
    | none => defaultMaxDevicesPerSessionFromEnv env
    | some n => n
  match env.maxDevicesPerSessionCap.bind (Text.parseUnsigned 32) with
  | some cap => if 0 < cap then min v cap else v
  | none => v

def idleTimeoutSec (p : StoredPolicy) : ℕ := max (p.activeIdleTimeoutSec.getD 60) 1

end StoredPolicy

/-- `saturating_add` of `u64`. -/
def saturatingAdd (a b : ℕ) : ℕ := min (a+b) (2^64-1)

def exceeds (limit : Option ℕ) (amount : ℕ) : Bool := limit.any (fun l => 0 < l && l < amount)

variable (p : StoredPolicy)

def checkTrafficLimits (bytesIn bytesOut : ℕ) : Except Status Unit :=
  if exceeds p.trafficBytesInLimit bytesIn then
    .error ⟨.resourceExhausted,"proxy session inbound traffic limit"⟩
  else if exceeds p.trafficBytesOutLimit bytesOut then
    .error ⟨.resourceExhausted,"proxy session outbound traffic limit"⟩
  else if exceeds p.trafficTotalBytes (saturatingAdd bytesIn bytesOut) then
    .error ⟨.resourceExhausted,"proxy session total traffic limit"⟩
  else .ok ()

/-- `(now - t0).num_seconds()`. -/
def numSeconds (ns : ℤ) : ℤ := ns.tdiv (10^9)

/-- `sec as i64`. -/
def asI64 (n : ℕ) : ℤ := (n : ℤ).bmod (2^64)

lemma asI64_of_lt {n : ℕ} (h : n < 2^63) : asI64 n = n := by
  unfold asI64
  rw [Int.bmod_eq_of_le] <;> omega

def maxDurationExceeded (firstOpenAt : Option ℤ) (now : ℤ) : Bool :=
  if p.limitDurationByActiveTime then false
  else
    match p.maxSessionDurationSec.filter (fun s => 0 < s),firstOpenAt with
    | some sec,some t0 => asI64 sec < numSeconds (now-t0)
    | _,_ => false

def activeTimeBudgetMsMax : Option ℕ :=
  if p.limitDurationByActiveTime then
    (p.maxSessionDurationSec.filter (fun s => 0 < s)).map (fun sec => min (sec*1000) (2^64-1))
  else none

def activeTimeBudgetExceeded (activeMsTotal inflightMs : ℕ) : Bool :=
  (activeTimeBudgetMsMax p).any (fun budget => budget ≤ saturatingAdd activeMsTotal inflightMs)

/-- Local weekday, from one for Monday to seven, and time of day in nanoseconds. -/
structure LocalTime where
  weekday : ℕ
  time : ℕ
  deriving DecidableEq, Repr

/-- `chrono_tz`: UTC, and the zones that have a name. -/
structure Zones where
  utc : ℤ → LocalTime
  named : String → Option (ℤ → LocalTime)

def parseHhmm (s : String) : Except Status ℕ :=
  match Text.split ':' (Text.trim s) with
  | [hour,minute] =>
    match Text.parseUnsigned 32 hour,Text.parseUnsigned 32 minute with
    | none,_ => .error ⟨.invalidArgument,"bad hour"⟩
    | some _,none => .error ⟨.invalidArgument,"bad minute"⟩
    | some h,some m =>
      if h < 24 ∧ m < 60 then .ok ((h*60+m)*60*10^9) else .error ⟨.invalidArgument,"invalid time"⟩
  | _ => .error ⟨.invalidArgument,"time must be HH:MM"⟩

def windowContains (time : ℕ) (start finish : String) : Except Status Bool := do
  let st ← parseHhmm start
  let en ← parseHhmm finish
  return if st ≤ en then st ≤ time && time ≤ en else st ≤ time || time ≤ en

def anyWindow (here : LocalTime) : List StoredAccessWindow → Except Status Bool
  | [] => .ok false
  | w::ws =>
    if here.weekday ∈ w.days then do
      if ← windowContains here.time w.start w.finish then return true
      anyWindow here ws
    else anyWindow here ws

def isScheduleAllowedStored (zones : Zones) (p : StoredPolicy) (now : ℤ) : Except Status Bool :=
  match p.accessSchedule with
  | none => .ok true
  | some s =>
    if s.windows = [] then .ok true
    else
      match (if s.timezone = "" then some zones.utc else zones.named s.timezone) with
      | none => .error ⟨.invalidArgument,"invalid timezone"⟩
      | some zone => anyWindow (zone now) s.windows

variable {p : StoredPolicy} {bi bo bi' bo' : ℕ}

lemma exceeds_mono {limit : Option ℕ} {a b : ℕ} (hab : a ≤ b) (h : exceeds limit b = false) :
    exceeds limit a = false := by
  cases limit with
  | none => rfl
  | some l =>
    simp only [exceeds,Option.any_some,Bool.and_eq_false_iff,decide_eq_false_iff_not] at h ⊢
    omega

lemma checkTrafficLimits_eq_ok : checkTrafficLimits p bi bo = .ok () ↔
    exceeds p.trafficBytesInLimit bi = false ∧ exceeds p.trafficBytesOutLimit bo = false ∧
      exceeds p.trafficTotalBytes (saturatingAdd bi bo) = false := by
  unfold checkTrafficLimits
  cases exceeds p.trafficBytesInLimit bi <;> cases exceeds p.trafficBytesOutLimit bo <;>
    cases exceeds p.trafficTotalBytes (saturatingAdd bi bo) <;> simp

lemma checkTrafficLimits_mono (hi : bi ≤ bi') (ho : bo ≤ bo')
    (h : checkTrafficLimits p bi' bo' = .ok ()) : checkTrafficLimits p bi bo = .ok () := by
  rw [checkTrafficLimits_eq_ok] at h ⊢
  obtain ⟨h1,h2,h3⟩ := h
  refine ⟨exceeds_mono hi h1,exceeds_mono ho h2,exceeds_mono ?_ h3⟩
  unfold saturatingAdd
  omega

end PirateServer.ProxySession
