import Mathlib

/-! Runs of a labelled transition system whose steps all meet a side condition, and the
induction rule for what such runs preserve. -/
namespace PirateServer.Lib
variable {σ α : Type}

/-- `s` leads to `t` by steps of `step`, each of which meets `ok` in the state it starts from. -/
inductive Run (step : σ → α → Option σ) (ok : σ → α → Prop) : σ → σ → Prop
  | refl (s) : Run step ok s s
  | tail {s t u a} (run : Run step ok s t) (allowed : ok t a) (next : step t a = some u) :
      Run step ok s u

/-- The side condition that forbids nothing. -/
def anyStep : σ → α → Prop := fun _ _ => True

namespace Run
variable {step : σ → α → Option σ} {ok ok' : σ → α → Prop} {s t u : σ}

theorem trans (h : Run step ok s t) (h' : Run step ok t u) : Run step ok s u := by
  induction h' with
  | refl => exact h
  | tail _ ha hn ih => exact tail ih ha hn

/-- A run meets another side condition if it does so in every state that it passes. -/
theorem mono (hok : ∀ t a, Run step ok s t → ok t a → ok' t a) (h : Run step ok s t) :
    Run step ok' s t := by
  induction h with
  | refl => exact refl _
  | tail hr ha hn ih => exact tail ih (hok _ _ hr ha) hn

theorem weaken (h : Run step ok s t) : Run step anyStep s t := h.mono (fun _ _ _ _ => trivial)

/-- What every allowed step preserves holds at the end of every allowed run. -/
theorem invariant {I : σ → Prop} (hstep : ∀ s a t, I s → ok s a → step s a = some t → I t)
    (hs : I s) (h : Run step ok s t) : I t := by
  induction h with
  | refl => exact hs
  | tail _ ha hn ih => exact hstep _ _ _ ih ha hn

/-- The induction rule for an invariant that relies on one already known. -/
theorem invariant_of {J I : σ → Prop} (hJ : ∀ t, Run step ok s t → J t)
    (hstep : ∀ s a t, J s → I s → ok s a → step s a = some t → I t)
    (hs : I s) (h : Run step ok s t) : I t := by
  induction h with
  | refl => exact hs
  | tail hr ha hn ih => exact hstep _ _ _ (hJ _ hr) ih ha hn

end Run

/-- However the allowed steps follow each other, a state with `P` is reached. -/
inductive Inevitable (step : σ → α → Option σ) (ok : σ → α → Prop) (P : σ → Prop) : σ → Prop
  | now {s} (here : P s) : Inevitable step ok P s
  | later {s} (can : ∃ a t, ok s a ∧ step s a = some t)
      (all : ∀ a t, ok s a → step s a = some t → Inevitable step ok P t) : Inevitable step ok P s

variable {step : σ → α → Option σ} {ok : σ → α → Prop} {P : σ → Prop} {s : σ}

theorem Inevitable.of_measure {I : σ → Prop} (measure : σ → ℕ)
    (can : ∀ s, I s → ¬P s → ∃ a t, ok s a ∧ step s a = some t)
    (lower : ∀ s a t, I s → ¬P s → ok s a → step s a = some t → I t ∧ measure t < measure s)
    (hs : I s) : Inevitable step ok P s := by
  induction hn : measure s using Nat.strong_induction_on generalizing s with
  | _ n ih =>
    by_cases hP : P s
    · exact .now hP
    · refine .later (can s hs hP) (fun a t ha ht => ?_)
      obtain ⟨hI,hlt⟩ := lower s a t hs hP ha ht
      exact ih (measure t) (hn ▸ hlt) hI rfl

instance {s : σ} {a : α} : Decidable (anyStep s a) := .isTrue trivial

variable (step : σ → α → Option σ) (ok : σ → α → Prop) [∀ s a, Decidable (ok s a)]

def execute : List α → σ → Option σ
  | [],s => some s
  | a::as,s => if ok s a then (step s a).bind (execute as) else none

variable {step ok}

theorem execute_run {as : List α} {t : σ} (h : execute step ok as s = some t) :
    Run step ok s t := by
  induction as generalizing s with
  | nil => cases h; exact Run.refl _
  | cons a as ih =>
    simp only [execute] at h
    split at h
    · rename_i ha
      obtain ⟨u,hu,ht⟩ := Option.bind_eq_some_iff.mp h
      exact (Run.tail (Run.refl s) ha hu).trans (ih ht)
    · cases h

theorem exists_run [DecidablePred P] (as : List α)
    (h : (execute step ok as s).any (fun t => decide (P t)) = true) : ∃ t,
      Run step ok s t ∧ P t := by
  obtain ⟨t,ht,hP⟩ := (Option.any_eq_true _ _).mp h
  exact ⟨t,execute_run ht,of_decide_eq_true hP⟩

end PirateServer.Lib
