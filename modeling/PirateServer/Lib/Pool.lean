import Mathlib

/-! Identifiers that wait in one shared queue or are held by exactly one worker. A pool
records which identifiers are live, which of them wait, and which each worker has taken
out. Workers mint, take, park and burn; the one lossy move takes an identifier out of the
queue without giving it to anybody. -/
namespace PirateServer.Lib
open List

structure Pool (ι τ : Type) where
  live : Set ι
  waiting : List ι
  held : τ → List ι

namespace Pool
variable {ι τ : Type}

/-- The lossy move: the front of the queue is taken out and forgotten. -/
inductive Loss : Pool ι τ → Pool ι τ → Prop
  | drop (p i rest) (front : p.waiting = i::rest) : Loss p ⟨p.live,rest,p.held⟩

/-- No identifier is in two places, and only live identifiers are in any. -/
structure Sound (p : Pool ι τ) : Prop where
  waiting_nodup : p.waiting.Nodup
  held_nodup : ∀ t, (p.held t).Nodup
  apart : ∀ t, ∀ i ∈ p.held t, i ∉ p.waiting
  alone : ∀ t u, t ≠ u → ∀ i ∈ p.held t, i ∉ p.held u
  waiting_live : ∀ i ∈ p.waiting, i ∈ p.live
  held_live : ∀ t, ∀ i ∈ p.held t, i ∈ p.live

def Full (p : Pool ι τ) : Prop := ∀ i ∈ p.live, i ∈ p.waiting ∨ ∃ t, i ∈ p.held t

theorem Loss.sound {p q : Pool ι τ} (h : Loss p q) (hp : p.Sound) : q.Sound := by
  cases h with
  | drop i rest front =>
    have hnd : (i::rest).Nodup := front ▸ hp.waiting_nodup
    have hsub : ∀ j ∈ rest, j ∈ p.waiting := fun j hj => front ▸ mem_cons_of_mem i hj
    exact ⟨hnd.of_cons,hp.held_nodup,fun t j hj hw => hp.apart t j hj (hsub j hw),hp.alone,
      fun j hj => hp.waiting_live j (hsub j hj),hp.held_live⟩

theorem count_eq_one [DecidableEq ι] {p : Pool ι τ} (hs : p.Sound) (hf : p.Full)
    (free : ∀ t, p.held t = []) {i : ι} (hi : i ∈ p.live) : p.waiting.count i = 1 := by
  apply count_eq_one_of_mem hs.waiting_nodup
  rcases hf i hi with hw | ⟨t,ht⟩
  · exact hw
  · simp [free t] at ht

variable [DecidableEq τ]

/-- The moves that keep track of every live identifier. -/
inductive Move : Pool ι τ → Pool ι τ → Prop
  | stay (p) : Move p p
  | mint (p t ids) (fresh : ∀ i ∈ ids, i ∉ p.live) (distinct : ids.Nodup) (free : p.held t = []) :
      Move p ⟨p.live ∪ {i | i ∈ ids},p.waiting,Function.update p.held t ids⟩
  | park (p t w) (all : w.Perm (p.held t ++ p.waiting)) :
      Move p ⟨p.live,w,Function.update p.held t []⟩
  | take (p t i rest) (front : p.waiting = i::rest) (free : p.held t = []) :
      Move p ⟨p.live,rest,Function.update p.held t [i]⟩
  | burn (p t i) (own : p.held t = [i]) :
      Move p ⟨p.live \ {i},p.waiting,Function.update p.held t []⟩

lemma mem_update_held {held : τ → List ι} {t u : τ} {ids : List ι} {i : ι}
    (h : i ∈ Function.update held t ids u) : (u = t ∧ i ∈ ids) ∨ (u ≠ t ∧ i ∈ held u) := by
  by_cases hu : u = t
  · subst hu
    exact Or.inl ⟨rfl,by simpa using h⟩
  · exact Or.inr ⟨hu,by simpa [Function.update_of_ne hu] using h⟩

lemma mem_update_nil {held : τ → List ι} {t u : τ} {i : ι}
    (h : i ∈ Function.update held t [] u) : u ≠ t ∧ i ∈ held u := by
  rcases mem_update_held h with ⟨_,hi⟩ | hi
  · simp at hi
  · exact hi

lemma nodup_update {held : τ → List ι} {t : τ} {ids : List ι} (hids : ids.Nodup)
    (hheld : ∀ u, (held u).Nodup) (u : τ) : (Function.update held t ids u).Nodup := by
  by_cases hu : u = t
  · subst hu; simpa using hids
  · simpa [Function.update_of_ne hu] using hheld u

lemma alone_update {held : τ → List ι} {t : τ} {ids : List ι}
    (hold : ∀ u v, u ≠ v → ∀ i ∈ held u, i ∉ held v) (hids : ∀ i ∈ ids, ∀ u, u ≠ t → i ∉ held u) :
    ∀ u v, u ≠ v → ∀ i ∈ Function.update held t ids u, i ∉ Function.update held t ids v := by
  intro u v huv i hi hj
  rcases mem_update_held hi with ⟨rfl,hu⟩ | ⟨hut,hu⟩
  · rcases mem_update_held hj with ⟨rfl,_⟩ | ⟨hvt,hv⟩
    · exact huv rfl
    · exact hids i hu v hvt hv
  · rcases mem_update_held hj with ⟨rfl,hv⟩ | ⟨_,hv⟩
    · exact hids i hv u hut hu
    · exact hold u v huv i hu hv

theorem Move.sound {p q : Pool ι τ} (h : Move p q) (hp : p.Sound) : q.Sound := by
  cases h with
  | stay => exact hp
  | mint t ids fresh distinct free =>
    refine ⟨hp.waiting_nodup,nodup_update distinct hp.held_nodup,?_,?_,?_,?_⟩
    · intro u i hi hw
      rcases mem_update_held hi with ⟨_,hi⟩ | ⟨_,hi⟩
      · exact fresh i hi (hp.waiting_live i hw)
      · exact hp.apart u i hi hw
    · exact alone_update hp.alone (fun i hi u _ hu => fresh i hi (hp.held_live u i hu))
    · exact fun i hi => Or.inl (hp.waiting_live i hi)
    · intro u i hi
      rcases mem_update_held hi with ⟨_,hi⟩ | ⟨_,hi⟩
      · exact Or.inr hi
      · exact Or.inl (hp.held_live u i hi)
  | park t w all =>
    have hmem : ∀ i, i ∈ w ↔ i ∈ p.held t ∨ i ∈ p.waiting := by
      intro i
      rw [all.mem_iff,mem_append]
    refine ⟨?_,nodup_update nodup_nil hp.held_nodup,?_,?_,?_,?_⟩
    · rw [all.nodup_iff]
      exact (hp.held_nodup t).append hp.waiting_nodup (fun i hi hw => hp.apart t i hi hw)
    · intro u i hi hw
      obtain ⟨hu,hi⟩ := mem_update_nil hi
      rcases (hmem i).mp hw with hw | hw
      · exact hp.alone u t hu i hi hw
      · exact hp.apart u i hi hw
    · exact alone_update hp.alone (by simp)
    · intro i hi
      rcases (hmem i).mp hi with hi | hi
      · exact hp.held_live t i hi
      · exact hp.waiting_live i hi
    · exact fun u i hi => hp.held_live u i (mem_update_nil hi).2
  | take t i rest front free =>
    have hnd : (i::rest).Nodup := front ▸ hp.waiting_nodup
    have hsub : ∀ j ∈ rest, j ∈ p.waiting := fun j hj => front ▸ mem_cons_of_mem i hj
    have hi : i ∈ p.waiting := front ▸ mem_cons_self
    refine ⟨hnd.of_cons,nodup_update (nodup_singleton i) hp.held_nodup,?_,?_,?_,?_⟩
    · intro u j hj hw
      rcases mem_update_held hj with ⟨_,hj⟩ | ⟨_,hj⟩
      · rw [List.mem_singleton.mp hj] at hw
        exact hnd.notMem hw
      · exact hp.apart u j hj (hsub j hw)
    · refine alone_update hp.alone (fun j hj u _ hu => ?_)
      rw [List.mem_singleton.mp hj] at hu
      exact hp.apart u i hu hi
    · exact fun j hj => hp.waiting_live j (hsub j hj)
    · intro u j hj
      rcases mem_update_held hj with ⟨_,hj⟩ | ⟨_,hj⟩
      · rw [List.mem_singleton.mp hj]
        exact hp.waiting_live i hi
      · exact hp.held_live u j hj
  | burn t i own =>
    have hi : i ∈ p.held t := own ▸ mem_singleton_self i
    refine ⟨hp.waiting_nodup,nodup_update nodup_nil hp.held_nodup,?_,?_,?_,?_⟩
    · exact fun u j hj => hp.apart u j (mem_update_nil hj).2
    · exact alone_update hp.alone (by simp)
    · intro j hj
      refine ⟨hp.waiting_live j hj,fun hji => ?_⟩
      rw [Set.mem_singleton_iff.mp hji] at hj
      exact hp.apart t i hi hj
    · intro u j hj
      obtain ⟨hu,hj⟩ := mem_update_nil hj
      refine ⟨hp.held_live u j hj,fun hji => ?_⟩
      rw [Set.mem_singleton_iff.mp hji] at hj
      exact hp.alone u t hu i hj hi

/-- Unless something is dropped, a live identifier never leaves all places. -/
theorem Move.full {p q : Pool ι τ} (h : Move p q) (hp : p.Full) : q.Full := by
  cases h with
  | stay => exact hp
  | mint t ids fresh distinct free =>
    rintro i (hi | hi)
    · rcases hp i hi with hw | ⟨u,hu⟩
      · exact Or.inl hw
      · have hut : u ≠ t := by
          rintro rfl
          simp [free] at hu
        exact Or.inr ⟨u,by simpa [Function.update_of_ne hut] using hu⟩
    · exact Or.inr ⟨t,by simpa using hi⟩
  | park t w all =>
    intro i hi
    rcases hp i hi with hw | ⟨u,hu⟩
    · exact Or.inl (all.mem_iff.mpr (mem_append_right _ hw))
    · by_cases hut : u = t
      · subst hut
        exact Or.inl (all.mem_iff.mpr (mem_append_left _ hu))
      · exact Or.inr ⟨u,by simpa [Function.update_of_ne hut] using hu⟩
  | take t i rest front free =>
    intro j hj
    rcases hp j hj with hw | ⟨u,hu⟩
    · rw [front] at hw
      rcases List.mem_cons.mp hw with rfl | hw
      · exact Or.inr ⟨t,by simp⟩
      · exact Or.inl hw
    · have hut : u ≠ t := by
        rintro rfl
        simp [free] at hu
      exact Or.inr ⟨u,by simpa [Function.update_of_ne hut] using hu⟩
  | burn t i own =>
    rintro j ⟨hj,hji⟩
    rcases hp j hj with hw | ⟨u,hu⟩
    · exact Or.inl hw
    · have hut : u ≠ t := by
        rintro rfl
        rw [own] at hu
        exact hji (List.mem_singleton.mp hu)
      exact Or.inr ⟨u,by simpa [Function.update_of_ne hut] using hu⟩

end Pool
end PirateServer.Lib
