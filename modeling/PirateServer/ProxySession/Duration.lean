import PirateServer.ProxySession.Policy

/-! The limit on the duration of a session, from the policy of the request to the time at which
the stored session expires. `none` stands for a panic: `chrono` has bounds on durations and on
the times of its calendar. -/
namespace PirateServer.ProxySession

/-- The policy of a `CreateConnection` request. Its schedule has the fields of the stored one. -/
structure ProxyConnectionPolicy where
  maxSessionDurationSec : Option ℕ
  trafficTotalBytes : Option ℕ
  trafficBytesInLimit : Option ℕ
  trafficBytesOutLimit : Option ℕ
  accessSchedule : Option StoredAccessSchedule
  activeIdleTimeoutSec : Option ℕ
  neverExpires : Option Bool
  limitDurationByActiveTime : Option Bool
  maxConcurrentDevicesPerSession : Option ℕ
  deriving DecidableEq, Repr

def StoredPolicy.fromProto (p : ProxyConnectionPolicy) : StoredPolicy where
  maxSessionDurationSec := p.maxSessionDurationSec
  trafficTotalBytes := p.trafficTotalBytes
  trafficBytesInLimit := p.trafficBytesInLimit
  trafficBytesOutLimit := p.trafficBytesOutLimit
  activeIdleTimeoutSec := p.activeIdleTimeoutSec
  accessSchedule := p.accessSchedule
  neverExpires := p.neverExpires.getD false
  limitDurationByActiveTime := p.limitDurationByActiveTime.getD false
  maxConcurrentDevicesPerSession := p.maxConcurrentDevicesPerSession

/-- The first nanosecond of the calendar, in the year -262143. -/
def minUtc : ℤ := -8334601228800*10^9

/-- The last one, in the year 262142. -/
def maxUtc : ℤ := 8210266876799*10^9+999999999

def InCalendar (t : ℤ) : Prop := minUtc ≤ t ∧ t ≤ maxUtc

instance (t : ℤ) : Decidable (InCalendar t) := inferInstanceAs (Decidable (_ ∧ _))

/-- `i64::MAX / 1000`. -/
def maxDurationSecs : ℤ := 9223372036854775

/-- `Duration::seconds`. -/
def durationSeconds (s : ℤ) : Option ℤ :=
  if -maxDurationSecs ≤ s ∧ s ≤ maxDurationSecs then some (s*10^9) else none

/-- `DateTime + Duration`. -/
def addDuration (t d : ℤ) : Option ℤ := if InCalendar (t+d) then some (t+d) else none

/-- 36500 days, in seconds. -/
def centurySecs : ℕ := 36500*86400

def expiresAtFromPolicy (p : ProxyConnectionPolicy) (now : ℤ) : Option ℤ :=
  if p.neverExpires.getD false then addDuration now (centurySecs*10^9)
  else
    match p.maxSessionDurationSec with
    | none | some 0 => addDuration now (centurySecs*10^9)
    | some sec => (durationSeconds (asI64 sec)).bind (addDuration now)

/-- Both times exist, and the first is not after the second. -/
def NotAfter (a b : Option ℤ) : Prop := ∃ s t, a = some s ∧ b = some t ∧ s ≤ t

def Representable (limit : ℕ) (now : ℤ) : Prop :=
  (limit : ℤ) ≤ maxDurationSecs ∧ now+limit*10^9 ≤ maxUtc ∧
    (limit ≤ centurySecs → now+centurySecs*10^9 ≤ maxUtc)

instance (limit : ℕ) (now : ℤ) : Decidable (Representable limit now) :=
  inferInstanceAs (Decidable (_ ∧ _ ∧ (_ → _)))

def ProxyConnectionPolicy.withLimit (p : ProxyConnectionPolicy) (limit : Option ℕ) :
    ProxyConnectionPolicy := { p with maxSessionDurationSec := limit }

section
variable {p : ProxyConnectionPolicy} {limit : ℕ} {now t0 : ℤ}

lemma asI64_of_ge {n : ℕ} (h : 2^63 ≤ n) (h' : n < 2^64) : asI64 n = (n : ℤ)-2^64 := by
  unfold asI64
  rw [Int.bmod_def]
  omega

lemma addDuration_eq_some {d t : ℤ} (hnow : InCalendar now) (hd : 0 ≤ d) :
    addDuration now d = some t ↔ now+d ≤ maxUtc ∧ t = now+d := by
  have hmin : minUtc ≤ now+d := hnow.1.trans (by omega)
  unfold addDuration
  by_cases h : now+d ≤ maxUtc
  · have hin : InCalendar (now+d) := ⟨hmin,h⟩
    rw [if_pos hin,Option.some.injEq,eq_comm]
    simp [h]
  · have hout : ¬ InCalendar (now+d) := fun hin => h hin.2
    rw [if_neg hout]
    simp [h]

section
variable (hnever : p.neverExpires.getD false = false)
include hnever

lemma expiresAt_of_pos (hpos : 0 < limit) : expiresAtFromPolicy (p.withLimit (some limit)) now =
      (durationSeconds (asI64 limit)).bind (addDuration now) := by
  obtain ⟨n,rfl⟩ := Nat.exists_eq_add_of_lt hpos
  simp [expiresAtFromPolicy,ProxyConnectionPolicy.withLimit,hnever]

lemma expiresAt_eq_some {t : ℤ} (hpos : 0 < limit) (hlt : limit < 2^63) (hnow : InCalendar now) :
    expiresAtFromPolicy (p.withLimit (some limit)) now = some t ↔
      (limit : ℤ) ≤ maxDurationSecs ∧ now+limit*10^9 ≤ maxUtc ∧ t = now+limit*10^9 := by
  rw [expiresAt_of_pos hnever hpos,asI64_of_lt hlt,durationSeconds]
  split_ifs with h
  · rw [Option.bind_some,addDuration_eq_some hnow (by positivity)]
    simp [h.2]
  · rw [Option.bind_none]
    simp only [reduceCtorEq,false_iff]
    unfold maxDurationSecs at *
    omega

lemma expiresAt_of_huge {t : ℤ} (hge : 2^63 ≤ limit)
    (hlt : limit < 2^64) (h : expiresAtFromPolicy (p.withLimit (some limit)) now = some t) :
    t < now := by
  rw [expiresAt_of_pos hnever (by omega),asI64_of_ge hge hlt,durationSeconds] at h
  split_ifs at h
  · rw [Option.bind_some,addDuration] at h
    split_ifs at h
    cases h
    omega
  · cases h

lemma expiresAt_unlimited {l : Option ℕ} (hl : l = none ∨ l = some 0) :
    expiresAtFromPolicy (p.withLimit l) now = addDuration now (centurySecs*10^9) := by
  rcases hl with rfl | rfl
  all_goals simp [expiresAtFromPolicy,ProxyConnectionPolicy.withLimit,hnever]

lemma expiresAt_not_before_iff (hpos : 0 < limit) (hlt : limit < 2^64) (hnow : InCalendar now) :
    (∃ t, expiresAtFromPolicy (p.withLimit (some limit)) now = some t ∧ now ≤ t) ↔
      (limit : ℤ) ≤ maxDurationSecs ∧ now+limit*10^9 ≤ maxUtc := by
  by_cases hsmall : limit < 2^63
  · simp only [expiresAt_eq_some hnever hpos hsmall hnow]
    constructor
    · rintro ⟨t,⟨h,h',-⟩,-⟩
      exact ⟨h,h'⟩
    · rintro ⟨h,h'⟩
      exact ⟨_,⟨h,h',rfl⟩,by omega⟩
  · constructor
    · rintro ⟨t,ht,hle⟩
      have hbefore := expiresAt_of_huge hnever (by omega) hlt ht
      omega
    · rintro ⟨h,-⟩
      unfold maxDurationSecs at h
      omega

end

lemma maxDurationExceeded_iff (hflag : p.limitDurationByActiveTime.getD false = false)
    (hpos : 0 < limit) (hlt : limit < 2^63) (hle : t0 ≤ now) :
    maxDurationExceeded (.fromProto (p.withLimit (some limit))) (some t0) now = true ↔
      (limit : ℤ) < (now-t0)/10^9 := by
  have hsecs : numSeconds (now-t0) = (now-t0)/10^9 :=
    Int.tdiv_eq_ediv_of_nonneg (by omega)
  have hfilter : (some limit).filter (fun s => decide (0 < s)) = some limit := by simp [hpos]
  simp only [maxDurationExceeded,StoredPolicy.fromProto,ProxyConnectionPolicy.withLimit,hflag,
    hfilter,hsecs,asI64_of_lt hlt,Bool.false_eq_true,if_false,decide_eq_true_eq]

end

/-- The limit is kept as a natural number exactly when it and the times it leads to are
representable. -/
theorem duration_limit_exact_iff {p : ProxyConnectionPolicy} {limit : ℕ} {now t0 : ℤ}
    (hnever : p.neverExpires.getD false = false)
    (hflag : p.limitDurationByActiveTime.getD false = false) (hpos : 0 < limit)
    (hlt : limit < 2^64) (hnow : InCalendar now) (hle : t0 ≤ now) :
    ((∃ t, expiresAtFromPolicy (p.withLimit (some limit)) now = some t ∧ now ≤ t) ∧
      (∀ less, 0 < less → less ≤ limit →
        NotAfter (expiresAtFromPolicy (p.withLimit (some less)) now)
          (expiresAtFromPolicy (p.withLimit (some limit)) now)) ∧
      (limit ≤ centurySecs → ∀ l, l = none ∨ l = some 0 →
        NotAfter (expiresAtFromPolicy (p.withLimit (some limit)) now)
          (expiresAtFromPolicy (p.withLimit l) now)) ∧
      (maxDurationExceeded (.fromProto (p.withLimit (some limit))) (some t0) now = true ↔
        (limit : ℤ) < (now-t0)/10^9)) ↔ Representable limit now := by
  rw [expiresAt_not_before_iff hnever hpos hlt hnow]
  constructor
  · rintro ⟨⟨hsecs,hend⟩,-,hcentury,-⟩
    refine ⟨hsecs,hend,fun hl => ?_⟩
    obtain ⟨s,t,-,ht,-⟩ := hcentury hl none (.inl rfl)
    rw [expiresAt_unlimited hnever (.inl rfl),addDuration_eq_some hnow (by positivity)] at ht
    exact ht.1
  · rintro ⟨hsecs,hend,hcentury⟩
    have hsmall : limit < 2^63 := by
      unfold maxDurationSecs at hsecs
      omega
    have hexp := (expiresAt_eq_some hnever hpos hsmall hnow).mpr ⟨hsecs,hend,rfl⟩
    refine ⟨⟨hsecs,hend⟩,?_,?_,maxDurationExceeded_iff hflag hpos hsmall hle⟩
    · intro less hless hle'
      have hless' := (expiresAt_eq_some (p := p) (t := now+less*10^9) hnever hless
          (by omega) hnow).mpr
        ⟨by omega,by omega,rfl⟩
      exact ⟨_,_,hless',hexp,by omega⟩
    · intro hl l hnone
      have hun : expiresAtFromPolicy (p.withLimit l) now = some (now+centurySecs*10^9) := by
        rw [expiresAt_unlimited hnever hnone,addDuration_eq_some hnow (by positivity)]
        exact ⟨hcentury hl,rfl⟩
      exact ⟨_,_,hexp,hun,by omega⟩

def openPolicy : ProxyConnectionPolicy := ⟨none,none,none,none,none,none,none,none,none⟩

theorem duration_limit_exact_hour :
    (∃ t, expiresAtFromPolicy (openPolicy.withLimit (some 3600)) 0 = some t ∧ 0 ≤ t) ∧
      (maxDurationExceeded (.fromProto (openPolicy.withLimit (some 3600))) (some (-3601*10^9)) 0 =
        true ↔ ((3600 : ℕ) : ℤ) < (0-(-3601*10^9))/10^9) := by
  have h := (@duration_limit_exact_iff openPolicy 3600 0 (-3601*10^9) rfl rfl (by decide)
    (by decide) (by decide) (by decide)).mpr (by decide)
  exact ⟨h.1,h.2.2.2⟩

theorem duration_limit_wraps :
    maxDurationExceeded (.fromProto (openPolicy.withLimit (some (2^63)))) (some 0) 0 = true ∧
      expiresAtFromPolicy (openPolicy.withLimit (some (2^63))) 0 = none ∧
      expiresAtFromPolicy (openPolicy.withLimit (some (2^64-1))) 0 = some (-10^9) ∧
      expiresAtFromPolicy (openPolicy.withLimit (some 3600)) 0 = some (3600*10^9) := by
  decide +kernel

end PirateServer.ProxySession
