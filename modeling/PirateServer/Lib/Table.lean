import Mathlib

/-! Hash maps as association lists without repeated keys. Lookups, insertions and
removals are those of `AList`; this file adds the whole-map operations. The order of
the entries carries no meaning: a loop over a map is given its order from outside. -/
namespace PirateServer.Lib
open List Option

/-- A finite map from `κ` to `ν`. -/
abbrev Table (κ ν : Type) := AList (fun _ : κ => ν)

namespace Table
variable {κ ν : Type}

def len (t : Table κ ν) : ℕ := t.entries.length

/-- Keep the entries that satisfy `p`. -/
def retain (p : κ → ν → Bool) (t : Table κ ν) : Table κ ν :=
  ⟨t.entries.filter (fun e => p e.1 e.2),t.nodupKeys.sublist filter_sublist⟩

lemma len_retain_le (p : κ → ν → Bool) (t : Table κ ν) : len (retain p t) ≤ len t :=
  length_filter_le _ _

variable [DecidableEq κ]

@[simp] lemma lookup_retain (p : κ → ν → Bool) (t : Table κ ν) (k : κ) :
    (retain p t).lookup k = (t.lookup k).filter (p k) := by
  apply Option.ext
  intro v
  rw [← mem_def,AList.mem_lookup_iff,← mem_def,mem_filter_iff,AList.mem_lookup_iff]
  exact mem_filter

variable {t : Table κ ν} {p : κ → ν → Bool} {k : κ}

lemma lookup_retain_eq_some {v : ν} :
    (retain p t).lookup k = some v ↔ t.lookup k = some v ∧ p k v = true := by
  rw [lookup_retain,filter_eq_some_iff]

lemma retain_eq_self (h : ∀ k v, t.lookup k = some v → p k v = true) : retain p t = t := by
  apply AList.ext
  apply List.filter_eq_self.mpr
  intro e he
  exact h e.1 e.2 (AList.mem_lookup_iff.mpr he)

lemma len_retain_lt {v : ν}
    (h : t.lookup k = some v) (hp : p k v = false) : len (retain p t) < len t := by
  apply List.length_filter_lt_length_iff_exists.mpr
  exact ⟨⟨k,v⟩,AList.mem_lookup_iff.mp h,by simp [hp]⟩

lemma len_insert_of_lookup_none (v : ν) (h : t.lookup k = none) :
    len (t.insert k v) = len t + 1 := by
  unfold len
  rw [AList.entries_insert_of_notMem (AList.lookup_eq_none.mp h),length_cons]

lemma lookup_insert_eq (t : Table κ ν) (k j : κ) (v : ν) :
    (t.insert k v).lookup j = if j = k then some v else t.lookup j := by
  by_cases h : j = k
  · subst h; simp
  · simp [AList.lookup_insert_ne h,h]

lemma lookup_erase_eq (t : Table κ ν) (k j : κ) :
    (t.erase k).lookup j = if j = k then none else t.lookup j := by
  by_cases h : j = k
  · subst h; simp
  · simp [AList.lookup_erase_ne h,h]

lemma mem_keys_iff_lookup : k ∈ t.keys ↔ ∃ v, t.lookup k = some v := by
  rw [← AList.mem_keys,← AList.lookup_isSome,isSome_iff_exists]

def mapValues (f : κ → ν → ν) (t : Table κ ν) : Table κ ν :=
  ⟨t.entries.map (fun e => ⟨e.1,f e.1 e.2⟩),by
    have hkeys : (t.entries.map (fun e => (⟨e.1,f e.1 e.2⟩ : Σ _ : κ, ν))).keys =
        t.entries.keys := by
      simp [List.keys,Function.comp_def]
    rw [List.NodupKeys,hkeys]
    exact t.nodupKeys⟩

lemma lookup_mapValues (f : κ → ν → ν) (t : Table κ ν) (k : κ) :
    (t.mapValues f).lookup k = (t.lookup k).map (f k) := by
  apply Option.ext
  intro v
  rw [← mem_def,AList.mem_lookup_iff,map_eq_some_iff]
  simp only [mapValues,List.mem_map]
  constructor
  · rintro ⟨⟨j,w⟩,hmem,heq⟩
    cases heq
    exact ⟨w,AList.mem_lookup_iff.mpr hmem,rfl⟩
  · rintro ⟨w,hw,rfl⟩
    exact ⟨⟨k,w⟩,AList.mem_lookup_iff.mp hw,rfl⟩

def insertNew (t : Table κ ν) (k : κ) (v : ν) : Table κ ν := if k ∈ t then t else t.insert k v

lemma lookup_insertNew (t : Table κ ν) (k j : κ) (v : ν) :
    (t.insertNew k v).lookup j = (t.lookup j).or (if k = j then some v else none) := by
  unfold insertNew
  split
  · rename_i hk
    by_cases hj : k = j
    · subst hj
      obtain ⟨w,hw⟩ := Option.isSome_iff_exists.mp (AList.lookup_isSome.mpr hk)
      rw [hw]
      rfl
    · simp [hj]
  · rename_i hk
    rw [lookup_insert_eq]
    by_cases hj : k = j
    · subst hj
      simp [AList.lookup_eq_none.mpr hk]
    · have hj' : j ≠ k := fun h => hj h.symm
      simp [hj,hj']

/-- A loop that inserts an entry for each member that calls for one and whose key is free leaves
what was there, and else the entry of the first such member. -/
theorem lookup_foldl_insertNew {π : Type} (key : π → κ) (val : π → Option ν) (l : List π)
    (t : Table κ ν) (k : κ) :
    (l.foldl (fun t p => (val p).elim t (t.insertNew (key p))) t).lookup k =
      (t.lookup k).or (l.findSome? (fun p => if key p = k then val p else none)) := by
  induction l generalizing t with
  | nil => simp
  | cons p l ih =>
    rw [foldl_cons,ih,findSome?_cons]
    cases hv : val p with
    | none => simp
    | some v =>
      simp only [elim_some,lookup_insertNew,Option.or_assoc]
      by_cases hk : key p = k
      all_goals simp [hk]

end Table

/-- In a list of pairs without repeated keys, a lookup finds exactly the pairs of the list. -/
lemma lookup_iff_mem_of_nodup {κ ν : Type} [BEq κ] [LawfulBEq κ] {entries : List (κ × ν)}
    {k : κ} {v : ν} (hnodup : (entries.map Prod.fst).Nodup) :
    entries.lookup k = some v ↔ (k,v) ∈ entries := by
  induction entries with
  | nil => simp
  | cons e rest ih =>
    obtain ⟨a,w⟩ := e
    rw [map_cons,nodup_cons] at hnodup
    have hrest : rest.lookup k = some v ↔ (k,v) ∈ rest := ih hnodup.2
    rw [lookup_cons,mem_cons,Prod.mk.injEq]
    by_cases hka : k = a
    · subst hka
      have hnone : (k,v) ∉ rest := fun h => hnodup.1 (List.mem_map.mpr ⟨(k,v),h,rfl⟩)
      simp [hnone,eq_comm]
    · have hbeq : (k == a) = false := by simpa using hka
      simp [hka,hbeq,hrest]

end PirateServer.Lib
