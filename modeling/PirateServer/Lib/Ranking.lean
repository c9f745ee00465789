import Mathlib

/-! Rules that are tried best first: a list is sorted by a ranking, with ties left in the order
of the list, and the first member that applies is taken. -/
namespace PirateServer.Lib.Ranking
open List
variable {α : Type} (r : α → α → Prop) [DecidableRel r] (p : α → Bool)

def firstMatch (l : List α) : Option α := (l.insertionSort r).find? p

variable {r p}

lemma firstMatch_eq_none {l : List α} : firstMatch r p l = none ↔ ∀ a ∈ l, p a = false := by
  simp [firstMatch]

/-- The member that is taken applies, and ranks before all others that apply. -/
theorem firstMatch_spec [Std.Total r] [IsTrans α r] {l : List α} {a : α}
    (h : firstMatch r p l = some a) : a ∈ l ∧ p a = true ∧ ∀ b ∈ l, p b = true → b = a ∨ r a b := by
  obtain ⟨hp,before,after,hl,hnone⟩ := List.find?_eq_some_iff_append.mp h
  have hmem : ∀ b, b ∈ l ↔ b ∈ before ++ a::after := fun b => by
    rw [← hl,mem_insertionSort]
  refine ⟨(hmem a).mpr (by simp),hp,?_⟩
  intro b hb hpb
  rcases List.mem_append.mp ((hmem b).mp hb) with hb | hb
  · have hn := hnone b hb
    rw [hpb] at hn
    cases hn
  · rcases List.mem_cons.mp hb with rfl | hb
    · exact Or.inl rfl
    · have hsorted := pairwise_insertionSort r l
      rw [hl] at hsorted
      exact Or.inr ((List.pairwise_cons.mp (List.pairwise_append.mp hsorted).2.1).1 b hb)

/-- Without ties the order of the list does not matter. -/
theorem firstMatch_perm [Std.Total r] [IsTrans α r] {l l' : List α} (h : l.Perm l')
    (hties : ∀ a ∈ l, ∀ b ∈ l, r a b → r b a → a = b) : firstMatch r p l = firstMatch r p l' := by
  have hsort : l.insertionSort r = l'.insertionSort r := by
    refine List.Perm.eq_of_pairwise ?_ (pairwise_insertionSort r l)
      (pairwise_insertionSort r l') ?_
    · intro a b ha hb
      exact hties a (by simpa using ha) b (h.mem_iff.mpr (by simpa using hb))
    · exact ((perm_insertionSort r l).trans h).trans (perm_insertionSort r l').symm
  rw [firstMatch,firstMatch,hsort]

end PirateServer.Lib.Ranking
