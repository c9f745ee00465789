import Mathlib

/-! Distances between 64-bit instants, as wrapping arithmetic computes them. -/
namespace PirateServer.Lib.Wrapping
open Int64

/-- `(a - b).abs() <= k`. Both operations wrap, so the distance of two instants that are
`2^63` apart comes out negative and passes. -/
def within (k a b : Int64) : Bool := (a-b).abs ≤ k

/-- The nearest 64-bit number, as the `saturating_` operations take it. -/
def saturate (n : ℤ) : ℤ := max (-2^63) (min n (2^63-1))

/-- Far enough from both ends of the range that no difference wraps. -/
def Central (a : Int64) : Prop := -2^62 < a.toInt ∧ a.toInt < 2^62

instance (a : Int64) : Decidable (Central a) := inferInstanceAs (Decidable (_ ∧ _))

lemma toInt_abs (d : Int64) : d.abs.toInt = if d = minValue then -2^63 else |d.toInt| := by
  have h := BitVec.toInt_abs_eq_natAbs (x := d.toBitVec)
  have hmin : d.toBitVec = BitVec.intMin 64 ↔ d = minValue := by
    rw [← toBitVec_inj]
    rfl
  simp only [hmin,Int.natCast_natAbs] at h
  exact h

variable {d k a b : Int64}

lemma abs_le_iff : d.abs ≤ k ↔ d = minValue ∨ |d.toInt| ≤ k.toInt := by
  rw [le_iff_toInt_le,toInt_abs]
  have hk := le_toInt k
  split_ifs with h
  · simp only [h,true_or,iff_true]
    omega
  · simp [h]

lemma within_self (hk : 0 ≤ k.toInt) (a : Int64) : within k a a = true := by
  have h0 : a-a = 0 := by grind
  simp [within,abs_le_iff,h0,hk]

lemma toInt_sub_of_lt (h : -2^63 ≤ a.toInt - b.toInt)
    (h' : a.toInt - b.toInt < 2^63) : (a-b).toInt = a.toInt - b.toInt := by
  rw [toInt_sub]
  apply Int.bmod_eq_of_le <;> omega

lemma abs_sub_le_iff (h : -2^63 < a.toInt - b.toInt)
    (h' : a.toInt - b.toInt < 2^63) : (a-b).abs ≤ k ↔ |a.toInt - b.toInt| ≤ k.toInt := by
  have hsub := toInt_sub_of_lt h.le h'
  have hne : a-b ≠ minValue := by
    intro hmin
    rw [hmin,toInt_minValue] at hsub
    omega
  simp [abs_le_iff,hne,hsub]

lemma within_iff (ha : Central a) (hb : Central b) :
    within k a b = true ↔ |a.toInt - b.toInt| ≤ k.toInt := by
  obtain ⟨ha,ha'⟩ := ha
  obtain ⟨hb,hb'⟩ := hb
  simp [within,abs_sub_le_iff (a := a) (b := b) (k := k) (by omega) (by omega)]

/-- The distance of two instants is less than `2^63`, or it is more and what it wraps to is beyond
the bound as well. -/
def Measured (k a b : Int64) : Prop :=
  |a.toInt - b.toInt| < 2^63 ∨ (2^63 < |a.toInt - b.toInt| ∧ k.toInt < 2^64 - |a.toInt - b.toInt|)

instance (k a b : Int64) : Decidable (Measured k a b) := inferInstanceAs (Decidable (_ ∨ _))

lemma toInt_sub_cases (a b : Int64) : (a-b).toInt = a.toInt - b.toInt ∨ (2^63 ≤ a.toInt - b.toInt ∧
      (a-b).toInt = a.toInt - b.toInt - 2^64) ∨ (a.toInt - b.toInt < -2^63 ∧
      (a-b).toInt = a.toInt - b.toInt + 2^64) := by
  have ha := le_toInt a
  have ha' := toInt_lt a
  have hb := le_toInt b
  have hb' := toInt_lt b
  rw [toInt_sub]
  rcases lt_or_ge (a.toInt - b.toInt) (-2^63) with hlow | hlow
  · refine .inr (.inr ⟨hlow,?_⟩)
    rw [← Int.add_bmod_right]
    apply Int.bmod_eq_of_le <;> omega
  rcases lt_or_ge (a.toInt - b.toInt) (2^63) with hhigh | hhigh
  · left
    apply Int.bmod_eq_of_le <;> omega
  · refine .inr (.inl ⟨hhigh,?_⟩)
    rw [← Int.sub_bmod_right]
    apply Int.bmod_eq_of_le <;> omega

/-- The wrapping test is right exactly for the distances that are measured. -/
theorem within_exact_iff (k a b : Int64) :
    (within k a b = true ↔ |a.toInt - b.toInt| ≤ k.toInt) ↔ Measured k a b := by
  have hk := toInt_lt k
  have hk' := le_toInt k
  have hmin : a-b = minValue ↔ (a-b).toInt = -2^63 := by
    rw [← toInt_inj,toInt_minValue]
  have hwithin : within k a b = true ↔ (a-b).toInt = -2^63 ∨ |(a-b).toInt| ≤ k.toInt := by
    rw [within,decide_eq_true_iff,abs_le_iff,hmin]
  rw [hwithin]
  unfold Measured
  have ha := le_toInt a
  have ha' := toInt_lt a
  have hb := le_toInt b
  have hb' := toInt_lt b
  rcases toInt_sub_cases a b with hd | ⟨hfar,hd⟩ | ⟨hfar,hd⟩
  · have hlow := le_toInt (a-b)
    have hhigh := toInt_lt (a-b)
    rw [hd] at hlow hhigh ⊢
    clear hwithin hmin
    rcases abs_cases (a.toInt - b.toInt) with ⟨habs,_⟩ | ⟨habs,_⟩
    all_goals
      rw [habs]
      omega
  · rw [hd,abs_of_nonneg (by omega : 0 ≤ a.toInt - b.toInt),
      abs_of_nonpos (by omega : a.toInt - b.toInt - 2^64 ≤ 0)]
    omega
  · rw [hd,abs_of_nonpos (by omega : a.toInt - b.toInt ≤ 0),
      abs_of_nonneg (by omega : 0 ≤ a.toInt - b.toInt + 2^64)]
    omega

lemma exists_offset (hk : 0 < k.toInt) (hk' : k.toInt < 2^62) (hd : d ≠ 0) :
    ∃ y : Int64, y.abs ≤ k ∧ ¬(y-d).abs ≤ k := by
  have hlo := le_toInt d
  have hhi := toInt_lt d
  have hne : d.toInt ≠ 0 := fun he => hd (toInt_inj.mp he)
  have hneg : (-k).toInt = -k.toInt := by
    rw [toInt_neg]
    apply Int.bmod_eq_of_le <;> omega
  rcases eq_or_ne d minValue with rfl | hmin
  · -- the wrapped size of `d` itself passes, the one of its neighbour does not
    refine ⟨1,abs_le_iff.mpr (Or.inr (by rw [toInt_one,abs_one]; omega)),?_⟩
    have hnb : (1 : Int64)-minValue = minValue+1 := by decide
    rw [hnb,abs_le_iff]
    have hval : (minValue+1).toInt = -2^63+1 := by decide
    rintro (h | h)
    · exact absurd h (by decide)
    · rw [hval] at h
      norm_num at h
      omega
  · have hlt : -2^63 < d.toInt := by
      refine lt_of_le_of_ne hlo (fun he => hmin (toInt_inj.mp ?_))
      rw [toInt_minValue,he]
    rcases lt_or_ge k.toInt |d.toInt| with hfar | hnear
    · refine ⟨0,abs_le_iff.mpr (Or.inr (by simpa using hk.le)),?_⟩
      rw [abs_sub_le_iff (by simp; omega) (by simp; omega)]
      simpa using hfar
    · rcases lt_or_gt_of_ne hne with hsign | hsign
      · refine ⟨k,abs_le_iff.mpr (Or.inr (abs_of_pos hk).le),?_⟩
        rw [abs_of_neg hsign] at hnear
        rw [abs_sub_le_iff (by omega) (by omega),abs_of_pos (by omega)]
        omega
      · refine ⟨-k,abs_le_iff.mpr (Or.inr (by rw [hneg,abs_neg,abs_of_pos hk])),?_⟩
        rw [abs_of_pos hsign] at hnear
        rw [abs_sub_le_iff (by omega) (by omega),hneg,abs_of_neg (by omega)]
        omega

lemma exists_within_not_within (hk : 0 < k.toInt) (hk' : k.toInt < 2^62)
    (h : a ≠ b) : ∃ x, within k x a = true ∧ within k x b = false := by
  have hd : b-a ≠ 0 := by grind
  obtain ⟨y,hy,hn⟩ := exists_offset hk hk' hd
  have ha : a+y-a = y := by grind
  have hb : a+y-b = y-(b-a) := by grind
  exact ⟨a+y,by simpa [within,ha] using hy,by simpa [within,hb] using hn⟩

end PirateServer.Lib.Wrapping
