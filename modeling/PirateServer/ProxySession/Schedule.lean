import PirateServer.ProxySession.Duration

/-! The access schedule of a session. A window that is listed for a day and ends before it starts
is meant to reach into the next day; the two functions of the server test the day and the time
of day separately. -/
namespace PirateServer.ProxySession
open List

def isScheduleAllowed (zones : Zones) (p : ProxyConnectionPolicy) (now : ℤ) : Except Status Bool :=
  match p.accessSchedule with
  | none => .ok true
  | some s =>
    if s.windows = [] then .ok true
    else
      match (if s.timezone = "" then some zones.utc else zones.named s.timezone) with
      | none => .error ⟨.invalidArgument,"invalid timezone"⟩
      | some zone => anyWindow (zone now) s.windows

lemma isScheduleAllowedStored_fromProto (zones : Zones) (p : ProxyConnectionPolicy) (now : ℤ) :
    isScheduleAllowedStored zones (.fromProto p) now = isScheduleAllowed zones p now := rfl

def dayNs : ℕ := 86400*10^9

/-- The nanosecond of the day that a text names. -/
def timeOf (s : String) : ℕ :=
  match parseHhmm s with
  | .ok t => t
  | .error _ => 0

structure StoredAccessWindow.Valid (w : StoredAccessWindow) : Prop where
  start : parseHhmm w.start = .ok (timeOf w.start)
  finish : parseHhmm w.finish = .ok (timeOf w.finish)
  days : ∀ d ∈ w.days, 1 ≤ d ∧ d ≤ 7

structure LocalTime.Valid (here : LocalTime) : Prop where
  monday : 1 ≤ here.weekday
  sunday : here.weekday ≤ 7
  time : here.time < dayNs

def weekNs (day time : ℕ) : ℕ := (day-1)*dayNs+time

def StoredAccessWindow.Occurs (here : LocalTime) (w : StoredAccessWindow) : Prop :=
  ∃ d ∈ w.days, ∃ now ∈ [weekNs here.weekday here.time,weekNs here.weekday here.time+7*dayNs],
    weekNs d (timeOf w.start) ≤ now ∧
      now ≤ weekNs (if timeOf w.start ≤ timeOf w.finish then d else d+1) (timeOf w.finish)

def StoredAccessWindow.today (here : LocalTime) (w : StoredAccessWindow) : Bool :=
  here.weekday ∈ w.days && timeOf w.start ≤ here.time &&
    (timeOf w.finish < timeOf w.start || here.time ≤ timeOf w.finish)

def StoredAccessWindow.pastMidnight (day : ℕ) (here : LocalTime) (w : StoredAccessWindow) : Bool :=
  day ∈ w.days && timeOf w.finish < timeOf w.start && here.time ≤ timeOf w.finish

def dayBefore (d : ℕ) : ℕ := if d = 1 then 7 else d-1

def MidnightAgrees (here : LocalTime) (ws : List StoredAccessWindow) : Prop :=
  ws ≠ [] ∧ (ws.any (·.today here) = true ∨
    ws.any (·.pastMidnight here.weekday here) = ws.any
      (·.pastMidnight (dayBefore here.weekday) here))

instance (here : LocalTime) (ws : List StoredAccessWindow) : Decidable (MidnightAgrees here ws) :=
  inferInstanceAs (Decidable (_ ∧ (_ ∨ _)))

section
variable {here : LocalTime} {w : StoredAccessWindow} {ws : List StoredAccessWindow}

lemma timeOf_lt (s : String) : timeOf s < dayNs := by
  unfold timeOf parseHhmm
  split
  swap
  · decide
  rename_i t h
  split at h
  · split at h
    · cases h
    · cases h
    · split_ifs at h with hb
      cases h
      unfold dayNs
      omega
  · cases h

lemma windowContains_eq (hw : w.Valid) : windowContains here.time w.start w.finish =
      .ok (if timeOf w.start ≤ timeOf w.finish then
        timeOf w.start ≤ here.time && here.time ≤ timeOf w.finish
      else timeOf w.start ≤ here.time || here.time ≤ timeOf w.finish) := by
  rw [windowContains,hw.start,hw.finish]
  rfl

open StoredAccessWindow

lemma listed_eq (hday : here.weekday ∈ w.days) : (if timeOf w.start ≤ timeOf w.finish then
        decide (timeOf w.start ≤ here.time) && decide (here.time ≤ timeOf w.finish)
      else decide (timeOf w.start ≤ here.time) || decide (here.time ≤ timeOf w.finish)) =
      (w.today here || w.pastMidnight here.weekday here) := by
  by_cases h : timeOf w.start ≤ timeOf w.finish
  · simp [today,pastMidnight,hday,h,Nat.not_lt.mpr h]
  · simp [today,pastMidnight,hday,h,Nat.lt_of_not_le h]

lemma anyWindow_eq (hws : ∀ w ∈ ws, w.Valid) : anyWindow here ws =
      .ok (ws.any (·.today here) || ws.any (·.pastMidnight here.weekday here)) := by
  induction ws with
  | nil => rfl
  | cons w ws ih =>
    have hrest := ih (fun v hv => hws v (mem_cons_of_mem w hv))
    have hw := hws w mem_cons_self
    rw [anyWindow]
    by_cases hday : here.weekday ∈ w.days
    · rw [if_pos hday,windowContains_eq hw,listed_eq hday,hrest,any_cons,any_cons]
      cases ht : w.today here with
      | true => rfl
      | false =>
        cases hp : w.pastMidnight here.weekday here with
        | true => simp [bind,Except.bind,pure,Except.pure]
        | false => simp [bind,Except.bind]
    · have ht : w.today here = false := by simp [today,hday]
      have hp : w.pastMidnight here.weekday here = false := by
        simp [pastMidnight,hday]
      rw [if_neg hday,hrest,any_cons,any_cons,ht,hp,Bool.false_or,Bool.false_or]

lemma occurs_iff (hh : here.Valid) (hw : w.Valid) : w.Occurs here ↔
      w.today here = true ∨ w.pastMidnight (dayBefore here.weekday) here = true := by
  have hs := timeOf_lt w.start
  have hf := timeOf_lt w.finish
  obtain ⟨h1,h7,ht⟩ := hh
  simp only [StoredAccessWindow.Occurs,today,pastMidnight,
    mem_cons,not_mem_nil,or_false,exists_eq_or_imp,exists_eq_left,Bool.and_eq_true,
    Bool.or_eq_true,decide_eq_true_eq,weekNs]
  constructor
  · rintro ⟨d,hd,h⟩
    obtain ⟨hd1,hd7⟩ := hw.days d hd
    by_cases hday : d = here.weekday
    · subst hday
      refine .inl ⟨⟨hd,?_⟩,?_⟩
      all_goals
        unfold dayNs at *
        split_ifs at h <;> omega
    · have hbefore : dayBefore here.weekday = d := by
        unfold dayNs dayBefore at *
        split_ifs at h ⊢ <;> omega
      rw [hbefore]
      refine .inr ⟨⟨hd,?_⟩,?_⟩
      all_goals
        unfold dayNs at *
        split_ifs at h <;> omega
  · rintro (⟨⟨hd,hstart⟩,hend⟩ | ⟨⟨hd,hnight⟩,hend⟩)
    · refine ⟨_,hd,.inl ?_⟩
      unfold dayNs at *
      split_ifs <;> omega
    · refine ⟨_,hd,?_⟩
      unfold dayNs dayBefore at *
      split_ifs <;> omega

lemma exists_occurs_iff (hh : here.Valid) (hws : ∀ w ∈ ws, w.Valid) : (∃ w ∈ ws, w.Occurs here) ↔
      (ws.any (·.today here) || ws.any (·.pastMidnight (dayBefore here.weekday) here)) = true := by
  rw [Bool.or_eq_true,List.any_eq_true,List.any_eq_true,← exists_or]
  apply exists_congr
  intro w
  constructor
  · rintro ⟨hw,h⟩
    rcases (occurs_iff hh (hws w hw)).mp h with h | h
    · exact .inl ⟨hw,h⟩
    · exact .inr ⟨hw,h⟩
  · rintro (⟨hw,h⟩ | ⟨hw,h⟩)
    · exact ⟨hw,(occurs_iff hh (hws w hw)).mpr (.inl h)⟩
    · exact ⟨hw,(occurs_iff hh (hws w hw)).mpr (.inr h)⟩

lemma or_iff_or_iff (a b c : Bool) :
    (((a || b) = true ↔ (a || c) = true) ↔ (a = true ∨ b = c)) := by
  cases a <;> cases b <;> cases c <;> decide

end

def StoredAccessSchedule.zone (zones : Zones) (s : StoredAccessSchedule) : Option (ℤ → LocalTime) :=
  if s.timezone = "" then some zones.utc else zones.named s.timezone

lemma isScheduleAllowed_eq {zones : Zones} {p : ProxyConnectionPolicy} {s : StoredAccessSchedule}
    {zone : ℤ → LocalTime} {now : ℤ} (hs : p.accessSchedule = some s)
    (hz : s.zone zones = some zone) (hws : ∀ w ∈ s.windows, w.Valid) :
    isScheduleAllowed zones p now = .ok (s.windows = [] || (s.windows.any (·.today (zone now)) ||
        s.windows.any (·.pastMidnight (zone now).weekday (zone now)))) := by
  unfold StoredAccessSchedule.zone at hz
  unfold isScheduleAllowed
  simp only [hs,hz]
  split_ifs with hnil
  · simp [hnil]
  · rw [anyWindow_eq hws]
    simp [hnil]

/-- Both tests let a time through exactly when a window occurs then, if and only if the hours
after midnight make no difference. -/
theorem schedule_occurrence_iff {zones : Zones} {p : ProxyConnectionPolicy}
    {s : StoredAccessSchedule} {zone : ℤ → LocalTime} {now : ℤ} (hs : p.accessSchedule = some s)
    (hz : s.zone zones = some zone) (hh : (zone now).Valid) (hws : ∀ w ∈ s.windows, w.Valid) :
    ((isScheduleAllowedStored zones (.fromProto p) now = .ok true ↔
        ∃ w ∈ s.windows, w.Occurs (zone now)) ↔ MidnightAgrees (zone now) s.windows) ∧
      ((isScheduleAllowed zones p now = .ok true ↔ ∃ w ∈ s.windows, w.Occurs (zone now)) ↔
        MidnightAgrees (zone now) s.windows) := by
  rw [isScheduleAllowedStored_fromProto,and_self,isScheduleAllowed_eq hs hz hws,
    exists_occurs_iff hh hws,MidnightAgrees,Except.ok.injEq]
  by_cases hnil : s.windows = []
  · simp [hnil]
  · simp only [hnil,decide_false,Bool.false_or,ne_eq,not_false_eq_true,true_and]
    exact or_iff_or_iff _ _ _

def zonesAt (here : LocalTime) : Zones := ⟨fun _ => here,fun _ => none⟩

def windowPolicy (w : StoredAccessWindow) : ProxyConnectionPolicy :=
  { openPolicy with accessSchedule := some ⟨"",[w]⟩ }

def mondayNight : StoredAccessWindow := ⟨[1],"22:00","06:00"⟩

lemma mondayNight_valid : mondayNight.Valid :=
  ⟨by decide +kernel,by decide +kernel,by decide⟩

lemma mondayNight_windows : ∀ w ∈ [mondayNight], w.Valid := by
  intro w hw
  rw [List.mem_singleton.mp hw]
  exact mondayNight_valid

theorem schedule_occurrence_evening :
    isScheduleAllowed (zonesAt ⟨1,23*3600*10^9⟩) (windowPolicy mondayNight) 0 = .ok true ↔
      ∃ w ∈ [mondayNight], w.Occurs ⟨1,23*3600*10^9⟩ :=
  (@schedule_occurrence_iff (zonesAt ⟨1,23*3600*10^9⟩) (windowPolicy mondayNight) _ _ 0 rfl rfl
    ⟨by decide,by decide,by decide⟩ mondayNight_windows).2.mpr
    (by decide +kernel)

theorem schedule_night_of_wrong_day : mondayNight.Valid ∧ mondayNight.Occurs ⟨2,3*3600*10^9⟩ ∧
      isScheduleAllowed (zonesAt ⟨2,3*3600*10^9⟩) (windowPolicy mondayNight) 0 = .ok false ∧
      isScheduleAllowedStored (zonesAt ⟨2,3*3600*10^9⟩) (.fromProto (windowPolicy mondayNight)) 0 =
        .ok false ∧ ¬ mondayNight.Occurs ⟨1,3*3600*10^9⟩ ∧
      isScheduleAllowed (zonesAt ⟨1,3*3600*10^9⟩) (windowPolicy mondayNight) 0 = .ok true := by
  refine ⟨mondayNight_valid,?_,by decide +kernel,by decide +kernel,?_,by decide +kernel⟩
  all_goals
    rw [occurs_iff ⟨by decide,by decide,by decide⟩ mondayNight_valid]
    decide +kernel

end PirateServer.ProxySession
