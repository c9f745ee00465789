import Mathlib

/-! A request that is made again, a bounded number of times, as long as it fails in a way that
another attempt may mend, and steps that follow each other until one fails. No result means that a
step never ends. -/
namespace PirateServer.Lib
variable {σ ε α β : Type}

/-- How an attempt ends. -/
inductive Trial (ε α : Type)
  | done (a : α)
  | again (e : ε)
  | stop (e : ε)
  deriving DecidableEq, Repr

/-- At most `n` attempts, the first of which has number `k`. The last one is not followed by
another, however it fails. -/
def attempts (once : ℕ → σ → Option (σ × Trial ε α)) (exhausted : ε) :
    ℕ → ℕ → σ → Option (σ × Except ε α)
  | _,0,s => some (s,.error exhausted)
  | k,n+1,s => (once k s).bind (fun
    | (s',.done a) => some (s',.ok a)
    | (s',.stop e) => some (s',.error e)
    | (s',.again e) => if n = 0 then some (s',.error e) else attempts once exhausted (k+1) n s')

def proceed (x : Option (σ × Except ε α)) (f : α → σ → Option (σ × Except ε β)) :
    Option (σ × Except ε β) :=
  x.bind (fun
    | (s,.error e) => some (s,.error e)
    | (s,.ok a) => f a s)

@[simp] lemma proceed_ok (s : σ) (a : α) (f : α → σ → Option (σ × Except ε β)) :
    proceed (some (s,.ok a)) f = f a s := rfl

@[simp] lemma proceed_error (s : σ) (e : ε) (f : α → σ → Option (σ × Except ε β)) :
    proceed (some (s,.error e)) f = some (s,.error e) := rfl

variable {once : ℕ → σ → Option (σ × Trial ε α)} {exhausted : ε} {k n : ℕ} {s s' : σ}

lemma attempts_done {a : α} (h : once k s = some (s',.done a)) :
    attempts once exhausted k (n+1) s = some (s',.ok a) := by
  simp [attempts,h]

lemma attempts_stop {e : ε} (h : once k s = some (s',.stop e)) :
    attempts once exhausted k (n+1) s = some (s',.error e) := by
  simp [attempts,h]

lemma attempts_again {e : ε} (h : once k s = some (s',.again e)) :
    attempts once exhausted k (n+1) s =
      if n = 0 then some (s',.error e) else attempts once exhausted (k+1) n s' := by
  simp [attempts,h]

/-- An attempt that does not succeed. -/
def Fails (once : ℕ → σ → Option (σ × Trial ε α)) (k : ℕ) (s s' : σ) : Prop :=
  ∃ e, once k s = some (s',.again e) ∨ once k s = some (s',.stop e)

theorem attempts_ok {P : σ → Prop} {Q : σ → α → Prop} (unlucky : ℕ → Prop)
    (hagain : ∀ k s, P s → unlucky k → ∃ s' e, once k s = some (s',.again e) ∧ P s')
    (hdone : ∀ k s, P s → ¬unlucky k → ∃ s' a, once k s = some (s',.done a) ∧ Q s' a)
    (hs : P s) (hsome : ∃ j, k ≤ j ∧ j < k+n ∧ ¬unlucky j) :
    ∃ s' a, attempts once exhausted k n s = some (s',.ok a) ∧ Q s' a := by
  induction n generalizing k s with
  | zero =>
    obtain ⟨j,hk,hj,_⟩ := hsome
    omega
  | succ n ih =>
    by_cases hlost : unlucky k
    · obtain ⟨s₁,e,honce,hs₁⟩ := hagain k s hs hlost
      obtain ⟨j,hk,hj,hlucky⟩ := hsome
      have hne : k ≠ j := fun heq => hlucky (heq ▸ hlost)
      have hn : n ≠ 0 := by omega
      rw [attempts_again honce,if_neg hn]
      exact ih hs₁ ⟨j,by omega,by omega,hlucky⟩
    · obtain ⟨s₁,a,honce,hQ⟩ := hdone k s hs hlost
      exact ⟨s₁,a,attempts_done honce,hQ⟩

lemma attempts_fails (h : Fails once k s s') :
    (∃ e, attempts once exhausted k (n+1) s = some (s',.error e)) ∨
      attempts once exhausted k (n+1) s = attempts once exhausted (k+1) n s' := by
  obtain ⟨e,honce | honce⟩ := h
  · rw [attempts_again honce]
    by_cases hn : n = 0
    · exact .inl ⟨e,if_pos hn⟩
    · exact .inr (if_neg hn)
  · exact .inl ⟨e,attempts_stop honce⟩

theorem attempts_error {P : σ → Prop} (hfails : ∀ k s, P s → ∃ s', Fails once k s s' ∧ P s')
    (hs : P s) : ∃ s' e, attempts once exhausted k n s = some (s',.error e) := by
  induction n generalizing k s with
  | zero => exact ⟨s,exhausted,rfl⟩
  | succ n ih =>
    obtain ⟨s₁,hfail,hs₁⟩ := hfails k s hs
    obtain ⟨e,herror⟩ | hnext := @attempts_fails _ _ _ once exhausted k n s s₁ hfail
    · exact ⟨s₁,e,herror⟩
    · rw [hnext]
      exact ih hs₁

theorem attempts_error_of_first {P : σ → Prop} (hfirst : Fails once k s s') (hs' : P s')
    (hfails : ∀ k s, P s → ∃ s', Fails once k s s' ∧ P s') :
    ∃ s' e, attempts once exhausted k (n+1) s = some (s',.error e) := by
  obtain ⟨e,herror⟩ | hnext := @attempts_fails _ _ _ once exhausted k n s s' hfirst
  · exact ⟨s',e,herror⟩
  · rw [hnext]
    exact attempts_error hfails hs'

end PirateServer.Lib
