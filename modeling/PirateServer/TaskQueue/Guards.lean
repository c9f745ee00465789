import PirateServer.TaskQueue.Threads

/-! Who holds the two guards. A thread inside a section owns its mutex, and a thread at the
second `tasks.lock()` of `discard_ttl_expired` owns `tasks` without having entered. -/
namespace PirateServer.TaskQueue
open Lib Function

structure GuardInv (s : Sys) : Prop where
  entered_owner : ∀ t m, s.entered t = true → (s.pc t).mutex = some m → s.owner m = some t
  entered_mutex : ∀ t, s.entered t = true → (s.pc t).mutex ≠ none
  ifLet_owner : ∀ t, (s.pc t).inIfLet = true → s.owner .tasks = some t ∧ s.entered t = false
  owner_holds : ∀ t m, s.owner m = some t →
    (s.entered t = true ∧ (s.pc t).mutex = some m) ∨ ((s.pc t).inIfLet = true ∧ m = .tasks)

lemma Pc.mutex_of_isIdle {p : Pc} (h : p.isIdle = true) : p.mutex = none := by
  cases p <;> simp_all [Pc.isIdle,Pc.mutex]

lemma Pc.mutex_of_inIfLet {p : Pc} (h : p.inIfLet = true) : p.mutex = some .tasks := by
  cases p <;> simp_all [Pc.inIfLet,Pc.mutex]

lemma Rest.resume_inIfLet (c : Rest) : c.resume.inIfLet = false := by cases c <;> rfl

lemma Op.start_inIfLet (clock : ℕ) (op : Op) : (op.start clock).inIfLet = false := by
  rcases op.start_cases clock with ⟨c,h⟩ | ⟨o,h⟩ <;> rw [h] <;> rfl

lemma advance_inIfLet {cfg : Config} {clock : ℕ} {order : List String} {q : Queue} {st : Stats}
    {p : Pc} (h : (advance cfg clock order q st p).pc.inIfLet = true) : p.mutex = some .tasks := by
  have hp := advance_pc cfg clock order q st p
  generalize (advance cfg clock order q st p).pc = p' at h hp
  cases hp with
  | remove => rfl
  | frontNone _ resume | fresh _ resume => simp [← resume,Rest.resume_inIfLet] at h
  | _ => cases h

namespace GuardInv
variable {cfg : Config} {s s' : Sys}

lemma init (clock : ℕ) : GuardInv (Sys.init clock) := by
  constructor <;> simp [Sys.init,Pc.inIfLet]

lemma call {t : Tid} {op : Op} (h : GuardInv s) (hs : step cfg s (.call t op) = some s') :
    GuardInv s' := by
  obtain ⟨hidle,rfl⟩ := step_call hs
  have hne : ∀ u, s.entered u = true → u ≠ t := by
    rintro u hu rfl
    exact h.entered_mutex u hu (Pc.mutex_of_isIdle hidle)
  refine ⟨?_,?_,?_,?_⟩
  · intro u m hu hm
    simp only [update_of_ne (hne u hu)] at hm
    exact h.entered_owner u m hu hm
  · intro u hu
    simp only [update_of_ne (hne u hu)]
    exact h.entered_mutex u hu
  · intro u hu
    by_cases hut : u = t
    · subst hut
      simp [Op.start_inIfLet] at hu
    · simp only [update_of_ne hut] at hu
      exact h.ifLet_owner u hu
  · intro u m hu
    have hown := h.owner_holds u m hu
    have hut : u ≠ t := by
      rintro rfl
      rcases hown with ⟨he,_⟩ | ⟨hi,_⟩
      · exact hne u he rfl
      · have hm := Pc.mutex_of_inIfLet hi
        simp [Pc.mutex_of_isIdle hidle] at hm
    simpa only [update_of_ne hut] using hown

lemma acquire {t : Tid} (h : GuardInv s) (hs : step cfg s (.acquire t) = some s') :
    GuardInv s' := by
  obtain ⟨m,hm,he,ho,rfl⟩ := step_acquire hs
  refine ⟨?_,?_,?_,?_⟩
  · intro u k hu hk
    by_cases hut : u = t
    · subst hut
      have hkm : k = m := Option.some.inj (hk.symm.trans hm)
      simp [hkm]
    · simp only [update_of_ne hut] at hu
      have hown := h.entered_owner u k hu hk
      have hkm : k ≠ m := by
        rintro rfl
        simp [ho] at hown
      simpa only [update_of_ne hkm] using hown
  · intro u hu
    by_cases hut : u = t
    · subst hut
      simp [hm]
    · simp only [update_of_ne hut] at hu
      exact h.entered_mutex u hu
  · intro u hu
    obtain ⟨hown,hent⟩ := h.ifLet_owner u hu
    have hkm : Mutex.tasks ≠ m := by
      rintro rfl
      simp [ho] at hown
    have hut : u ≠ t := by
      rintro rfl
      exact hkm (Option.some.inj ((Pc.mutex_of_inIfLet hu).symm.trans hm))
    exact ⟨by simpa only [update_of_ne hkm] using hown,
      by simpa only [update_of_ne hut] using hent⟩
  · intro u k hu
    by_cases hkm : k = m
    · subst hkm
      have hut : t = u := by simpa using hu
      subst hut
      exact Or.inl ⟨by simp,hm⟩
    · simp only [update_of_ne hkm] at hu
      rcases h.owner_holds u k hu with ⟨hent,hk⟩ | hi
      · refine Or.inl ⟨?_,hk⟩
        by_cases hut : u = t
        · simp [hut]
        · simpa only [update_of_ne hut] using hent
      · exact Or.inr hi

variable {order : List String}

lemma exec_inIfLet {t : Tid} (h : GuardInv s)
    (hs : step cfg s (.exec t order) = some s') : (s.pc t).inIfLet = false := by
  obtain ⟨_,hent,_,_⟩ := step_exec hs
  by_contra hc
  have hi : (s.pc t).inIfLet = true := by simpa using hc
  have he := hent .tasks (Pc.mutex_of_inIfLet hi)
  simp [(h.ifLet_owner t hi).2] at he

lemma tasks_exec_free {t : Tid} (h : GuardInv s)
    (hs : step cfg s (.exec t order) = some s') (hm : (s.pc t).mutex = some .tasks) (u : Tid) :
    (s.pc u).inIfLet = false := by
  obtain ⟨_,hent,_,_⟩ := step_exec hs
  by_contra hc
  have hi : (s.pc u).inIfLet = true := by simpa using hc
  have hown := h.entered_owner t .tasks (hent _ hm) hm
  have hut : u = t := Option.some.inj ((h.ifLet_owner u hi).1.symm.trans hown)
  subst hut
  simp [exec_inIfLet h hs] at hi

variable {t u : Tid} {k : Mutex} {next : Pc}

lemma release_eq (h : GuardInv s)
    (hs : step cfg s (.exec t order) = some s') (hut : u ≠ t) (hk : s.owner k = some u) :
    s.release t next k = some u := by
  obtain ⟨_,hent,_,_⟩ := step_exec hs
  cases hm : (s.pc t).mutex with
  | none => simpa only [Sys.release,hm] using hk
  | some m =>
    have hkm : k ≠ m := by
      rintro rfl
      have hown := h.entered_owner t k (hent k hm) hm
      exact hut (Option.some.inj (hk.symm.trans hown))
    simp only [Sys.release,hm]
    split
    · exact hk
    · rw [update_of_ne hkm]
      exact hk

lemma owner_of_release (h : s.release t next k = some u) : s.owner k = some u := by
  cases hm : (s.pc t).mutex with
  | none => simpa only [Sys.release,hm] using h
  | some m =>
    simp only [Sys.release,hm] at h
    split at h
    · exact h
    · by_cases hk : k = m
      · simp [hk] at h
      · rwa [update_of_ne hk] at h

lemma inIfLet_of_release (hk : (s.pc t).mutex = some k)
    (h : s.release t next k = some u) : next.inIfLet = true := by
  simp only [Sys.release,hk] at h
  split at h
  · assumption
  · simp at h

lemma exec (h : GuardInv s) (hs : step cfg s (.exec t order) = some s') : GuardInv s' := by
  obtain ⟨_,hent,_,rfl⟩ := step_exec hs
  have hne : ∀ u, update s.entered t false u = true → u ≠ t := by
    rintro u hu rfl
    simp at hu
  refine ⟨?_,?_,?_,?_⟩
  · intro u m hu hm
    have hut := hne u hu
    simp only [Sys.apply,update_of_ne hut] at hu hm ⊢
    exact release_eq h hs hut (h.entered_owner u m hu hm)
  · intro u hu
    have hut := hne u hu
    simp only [Sys.apply,update_of_ne hut] at hu ⊢
    exact h.entered_mutex u hu
  · intro u hu
    by_cases hut : u = t
    · subst hut
      simp only [Sys.apply,update_self] at hu ⊢
      have hm := advance_inIfLet hu
      refine ⟨?_,trivial⟩
      simp only [Sys.release,hm,hu,if_true]
      exact h.entered_owner u .tasks (hent _ hm) hm
    · simp only [Sys.apply,update_of_ne hut] at hu ⊢
      obtain ⟨hown,he⟩ := h.ifLet_owner u hu
      exact ⟨release_eq h hs hut hown,he⟩
  · intro u k hu
    simp only [Sys.apply] at hu ⊢
    have hown := owner_of_release hu
    by_cases hut : u = t
    · subst hut
      simp only [update_self]
      rcases h.owner_holds u k hown with ⟨_,hk⟩ | ⟨hi,_⟩
      · -- the guard of the section that ends survives only into the `if let`
        have hin := inIfLet_of_release hk hu
        exact Or.inr ⟨hin,Option.some.inj (hk.symm.trans (advance_inIfLet hin))⟩
      · simp [exec_inIfLet h hs] at hi
    · simp only [update_of_ne hut]
      exact h.owner_holds u k hown

lemma step {a : Label} (h : GuardInv s) (hs : TaskQueue.step cfg s a = some s') : GuardInv s' := by
  cases a with
  | tick d => cases hs; exact ⟨h.entered_owner,h.entered_mutex,h.ifLet_owner,h.owner_holds⟩
  | call t op => exact h.call hs
  | acquire t => exact h.acquire hs
  | exec t order => exact h.exec hs

lemma step_inIfLet {a : Label} (h : GuardInv s) (hs : TaskQueue.step cfg s a = some s')
    (hu : (s.pc u).inIfLet = true) : (s'.pc u).inIfLet = true := by
  rcases step_pc hs u with heq | ⟨_,_,hidle,_⟩ | ⟨order,rfl,_⟩
  · rw [heq]
    exact hu
  · have hm := Pc.mutex_of_inIfLet hu
    simp [Pc.mutex_of_isIdle hidle] at hm
  · simp [h.exec_inIfLet hs] at hu

end GuardInv

theorem Reachable.guardInv {cfg : Config} {s : Sys} (h : Reachable cfg s) : GuardInv s := by
  obtain ⟨c,hr⟩ := h
  exact hr.invariant (fun _ _ _ hi _ hs => hi.step hs) (GuardInv.init c)

end PirateServer.TaskQueue
