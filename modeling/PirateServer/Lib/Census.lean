import Mathlib

/-! Any number of parties, given by the list of their local states. A census adds up a
weight over the parties; a step of one party changes it by the change of its own weight. -/
namespace PirateServer.Lib.Census
open List
variable {α : Type}

def total (w : α → ℕ) (l : List α) : ℕ := (l.map w).sum

/-- The number of parties with a property. -/
def count (p : α → Bool) (l : List α) : ℕ := total (fun a => (p a).toNat) l

@[simp] lemma total_nil (w : α → ℕ) : total w [] = 0 := rfl

@[simp] lemma total_cons (w : α → ℕ) (a : α) (l : List α) : total w (a::l) = w a + total w l := by
  simp [total]

lemma total_concat (w : α → ℕ) (l : List α) (a : α) : total w (l ++ [a]) = total w l + w a := by
  simp [total]

lemma total_map (w : α → ℕ) (f : α → α) (l : List α) :
    total w (l.map f) = total (fun a => w (f a)) l := by
  simp only [total,List.map_map]
  rfl

variable {l : List α} {i : ℕ}

/-- One party moves from `a` to `b`. -/
theorem total_set (w : α → ℕ) {a : α} (h : l[i]? = some a) (b : α) :
    total w (l.set i b) + w a = total w l + w b := by
  induction l generalizing i with
  | nil => simp at h
  | cons c l ih =>
    cases i with
    | zero =>
      have hc : c = a := by simpa using h
      subst hc
      simp only [set_cons_zero,total_cons]
      omega
    | succ i =>
      have hl := ih (by simpa using h)
      simp only [set_cons_succ,total_cons]
      omega

lemma le_total (w : α → ℕ) {a : α} (h : l[i]? = some a) : w a ≤ total w l := by
  have hs := total_set w h a
  have hle : w a ≤ total w (l.set i a) := by
    apply single_le_sum (fun _ _ => Nat.zero_le _)
    apply List.mem_map_of_mem
    exact mem_set (List.getElem?_eq_some_iff.mp h).1 a
  omega

variable {w : α → ℕ}

lemma total_eq_zero (h : ∀ a ∈ l, w a = 0) : total w l = 0 := by
  induction l with
  | nil => rfl
  | cons a l ih =>
    rw [total_cons,h a mem_cons_self,ih (fun b hb => h b (mem_cons_of_mem _ hb))]

lemma count_le_count {p q : α → Bool} (h : ∀ a ∈ l, p a = true → q a = true) :
    count p l ≤ count q l := by
  induction l with
  | nil => exact le_rfl
  | cons a l ih =>
    have hl := ih (fun b hb => h b (mem_cons_of_mem _ hb))
    have ha : (p a).toNat ≤ (q a).toNat := Bool.toNat_le_toNat (h a mem_cons_self)
    simp only [count,total_cons] at hl ⊢
    omega

variable {f : α → α}

/-- Every party moves by `f`, which never loses weight. -/
lemma total_le_total_map (hf : ∀ a, w a ≤ w (f a)) (l : List α) :
    total w l ≤ total w (l.map f) := by
  induction l with
  | nil => exact le_rfl
  | cons a l ih =>
    have ha := hf a
    simp only [map_cons,total_cons]
    omega

lemma total_lt_total_map (hf : ∀ a, w a ≤ w (f a)) {a : α}
    (ha : a ∈ l) (hlt : w a < w (f a)) : total w l < total w (l.map f) := by
  induction l with
  | nil => cases ha
  | cons b l ih =>
    have hb := hf b
    have hl := total_le_total_map hf l
    simp only [map_cons,total_cons]
    rcases List.mem_cons.mp ha with rfl | ha
    · omega
    · have hi := ih ha
      omega

/-! Which party is where after one of them moved, joined or left. -/

variable {a b : α} {t u : ℕ}

lemma getElem?_set_cases (h : (l.set t a)[u]? = some b) :
    (u = t ∧ b = a) ∨ (u ≠ t ∧ l[u]? = some b) := by
  by_cases hut : u = t
  · subst hut
    have hlen : u < l.length := by
      have hu := (List.getElem?_eq_some_iff.mp h).1
      simpa using hu
    rw [getElem?_set_self hlen] at h
    exact Or.inl ⟨rfl,(Option.some.inj h).symm⟩
  · rw [getElem?_set_ne (Ne.symm hut)] at h
    exact Or.inr ⟨hut,h⟩

lemma mem_set_of_ne {c : α} (ht : l[t]? = some a) (hb : b ∈ l) (hne : b ≠ a) : b ∈ l.set t c := by
  obtain ⟨u,hu⟩ := List.mem_iff_getElem?.mp hb
  have hut : t ≠ u := by
    rintro rfl
    exact hne (Option.some.inj (hu.symm.trans ht))
  exact List.mem_iff_getElem?.mpr ⟨u,by rwa [getElem?_set_ne hut]⟩

lemma filterMap_set {β : Type} {g : α → Option β}
    (h : l[i]? = some a) (hab : g b = g a) : (l.set i b).filterMap g = l.filterMap g := by
  induction l generalizing i with
  | nil => rfl
  | cons c l ih =>
    cases i with
    | zero =>
      have hc : c = a := by simpa using h
      subst hc
      simp only [set_cons_zero,filterMap_cons,hab]
    | succ i =>
      have hl := ih (by simpa using h)
      simp only [set_cons_succ,filterMap_cons,hl]

lemma filterMap_set_perm {β : Type} {g : α → Option β} {x : β}
    (h : l[i]? = some a) (ha : g a = none) (hb : g b = some x) :
    ((l.set i b).filterMap g).Perm (x::l.filterMap g) := by
  induction l generalizing i with
  | nil => simp at h
  | cons c l ih =>
    cases i with
    | zero =>
      have hc : c = a := by simpa using h
      subst hc
      simp only [set_cons_zero,filterMap_cons,ha,hb]
      exact .refl _
    | succ i =>
      have hl := ih (by simpa using h)
      simp only [set_cons_succ,filterMap_cons]
      cases g c with
      | none => exact hl
      | some y => exact (hl.cons y).trans (.swap x y _)

lemma getElem?_concat_cases (h : (l ++ [a])[u]? = some b) :
    l[u]? = some b ∨ (u = l.length ∧ b = a) := by
  rcases Nat.lt_or_ge u l.length with hu | hu
  · rw [getElem?_append_left hu] at h
    exact Or.inl h
  · have hlen : u < (l ++ [a]).length := (List.getElem?_eq_some_iff.mp h).1
    rw [getElem?_append_right hu] at h
    rw [length_append,length_singleton] at hlen
    exact Or.inr ⟨by omega,List.mem_singleton.mp (mem_of_getElem? h)⟩

lemma getElem?_map_cases (h : (l.map f)[u]? = some b) : ∃ a, l[u]? = some a ∧ f a = b := by
  rw [getElem?_map] at h
  exact Option.map_eq_some_iff.mp h

lemma mem_eraseIdx_or_eq (h : l[i]? = some a) (hb : b ∈ l) : b ∈ l.eraseIdx i ∨ b = a := by
  obtain ⟨u,hu⟩ := List.mem_iff_getElem?.mp hb
  by_cases hui : u = i
  · subst hui
    exact Or.inr (Option.some.inj (hu.symm.trans h))
  · exact Or.inl (List.mem_eraseIdx_iff_getElem?.mpr ⟨u,hui,hu⟩)

end PirateServer.Lib.Census
