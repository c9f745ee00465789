import PirateServer.Auth.Signing

/-! What a rejected request leaves behind in the tracker. The nonce is taken before the key and
the signature are looked at, so most rejections can be noticed by later requests. -/
namespace PirateServer.Auth
open Lib Lib.Wrapping

namespace NonceTracker

def verdicts : List (Int64 × String) → NonceTracker → List Bool
  | [],_ => []
  | (tsMs,nonce)::probes,t =>
    (t.checkAndInsert tsMs nonce).1.isOk::verdicts probes (t.checkAndInsert tsMs nonce).2

/-- No later sequence of checks is answered differently. -/
def Indistinguishable (t t' : NonceTracker) : Prop :=
  ∀ probes, verdicts probes t = verdicts probes t'

/-- A timestamp near every one that is remembered. -/
def AllRecent (tsMs : Int64) (t : NonceTracker) : Prop :=
  ∀ nonce ts, t.inner.lookup nonce = some ts → within windowMs tsMs ts = true

variable {t t' : NonceTracker} {tsMs : Int64} {nonce : String}

lemma recent_eq_self (h : AllRecent tsMs t) : recent tsMs t.inner = t.inner :=
  Table.retain_eq_self h

lemma prune_of_allRecent (h : AllRecent tsMs t) :
    t.prune tsMs = if maxEntries ≤ t.inner.len then default else t := by
  unfold prune
  simp only [recent_eq_self h]

lemma allRecent_prune (tsMs : Int64) (t : NonceTracker) : AllRecent tsMs (t.prune tsMs) :=
  fun _ _ h => (lookup_of_prune h).2.2

lemma allRecent_inserted (h : t'.inner = t.inserted tsMs nonce) : AllRecent tsMs t' := by
  intro n ts hn
  rw [h,inserted,Table.lookup_insert_eq] at hn
  split_ifs at hn with hnn
  · cases hn
    exact within_self (by decide) tsMs
  · exact allRecent_prune tsMs t n ts hn

lemma lookup_inserted (h : t'.inner = t.inserted tsMs nonce) :
    t'.inner.lookup nonce = some tsMs := by
  rw [h,inserted]
  simp

/-- The same nonce again: it is refused, unless the tracker has just filled up. -/
lemma check_again (hvalid : validNonce nonce = true) (h : t'.inner = t.inserted tsMs nonce) :
    (t'.checkAndInsert tsMs nonce).1.isOk = decide (maxEntries ≤ t'.inner.len) := by
  have hprune := prune_of_allRecent (allRecent_inserted h)
  by_cases hfull : maxEntries ≤ t'.inner.len
  · rw [if_pos hfull] at hprune
    have hnew : (t'.prune tsMs).inner.lookup nonce = none := by simp [hprune,default]
    rw [(check_new hvalid hnew).1,decide_eq_true hfull]
    rfl
  · rw [if_neg hfull] at hprune
    have hheld := lookup_inserted h
    rw [← hprune] at hheld
    rw [check_held hvalid hheld,decide_eq_false hfull]
    rfl

lemma distinguishable_of_taken (hvalid : validNonce nonce = true)
    (hnew : (t.prune tsMs).inner.lookup nonce = none) (h : t'.inner = t.inserted tsMs nonce) :
    ¬Indistinguishable t' t := by
  intro hind
  have hpair := hind [(tsMs,nonce),(tsMs,nonce)]
  simp only [verdicts,List.cons.injEq,and_true] at hpair
  obtain ⟨hfirst,hsecond⟩ := hpair
  obtain ⟨hok,hafter⟩ := check_new hvalid hnew
  have hfull : maxEntries ≤ t'.inner.len := by
    rw [check_again hvalid h,hok] at hfirst
    exact of_decide_eq_true hfirst
  -- the full tracker is cleared by the next check, and then holds this nonce alone
  have hcleared : t'.prune tsMs = default := by
    rw [prune_of_allRecent (allRecent_inserted h),if_pos hfull]
  have hafter' : (t'.checkAndInsert tsMs nonce).2.inner = t'.inserted tsMs nonce :=
    (check_new hvalid (by simp [hcleared,default])).2
  have hone : (t'.checkAndInsert tsMs nonce).2.inner.len = 1 := by
    rw [hafter',inserted,hcleared,Table.len_insert_of_lookup_none _ (by simp [default])]
    rfl
  rw [check_again hvalid hafter',check_again hvalid hafter,hone,hafter,← h] at hsecond
  simp only [hfull,decide_true,decide_eq_true_eq] at hsecond
  exact absurd hsecond (by decide)

lemma distinguishable_of_forgotten {kept lost : String} {ts ts' : Int64}
    (hkept : (t.prune tsMs).inner.lookup kept = some ts) (hlost : t.inner.lookup lost = some ts')
    (hfar : within windowMs tsMs ts' = false) : ¬Indistinguishable (t.prune tsMs) t := by
  obtain ⟨_,hkept,hnear⟩ := lookup_of_prune hkept
  have hne : ts' ≠ ts := by
    rintro rfl
    simp [hnear] at hfar
  obtain ⟨x,hx,hx'⟩ := exists_within_not_within (k := windowMs) (by decide) (by decide) hne
  have hroom : (recent x t.inner).len < maxEntries :=
    (Table.len_retain_lt hkept hx').trans_le t.len_le
  have hheld : (t.prune x).inner.lookup lost = some ts' := by
    have hprune : (t.prune x).inner = recent x t.inner := by
      unfold prune
      rw [if_neg (not_le.mpr hroom)]
    rw [hprune]
    exact lookup_recent.mpr ⟨hlost,hx⟩
  have hnew : ((t.prune tsMs).prune x).inner.lookup lost = none := by
    cases hl : ((t.prune tsMs).prune x).inner.lookup lost with
    | none => rfl
    | some ts'' =>
      obtain ⟨_,hl,_⟩ := lookup_of_prune hl
      obtain ⟨_,hl,hw⟩ := lookup_of_prune hl
      cases hlost.symm.trans hl
      simp [hfar] at hw
  intro hind
  have hone := hind [(x,lost)]
  simp only [verdicts,List.cons.injEq,and_true] at hone
  have hvalid := t.valid _ _ hlost
  rw [(check_new hvalid hnew).1,check_held hvalid hheld] at hone
  cases hone

/-- A check that refuses a known nonce goes unnoticed exactly when it forgets nothing. -/
lemma prune_indistinguishable_iff {ts : Int64}
    (hheld : (t.prune tsMs).inner.lookup nonce = some ts) : Indistinguishable (t.prune tsMs) t ↔
      (∃ ts, t.inner.lookup nonce = some ts) ∧ t.inner.len < maxEntries ∧ AllRecent tsMs t := by
  constructor
  · intro hind
    have hall : AllRecent tsMs t := by
      intro lost ts' hlost
      by_contra hfar
      exact distinguishable_of_forgotten hheld hlost (by simpa using hfar) hind
    refine ⟨⟨ts,(lookup_of_prune hheld).2.1⟩,?_,hall⟩
    rw [prune_of_allRecent hall] at hheld
    split_ifs at hheld with hfull
    · simp [default] at hheld
    · exact not_le.mp hfull
  · rintro ⟨_,hlen,hall⟩
    rw [prune_of_allRecent hall,if_neg (not_le.mpr hlen)]
    exact fun _ => rfl

end NonceTracker

open NonceTracker

/-- The rejections that leave no trace: those before the tracker is asked, those of a nonce that
has no admissible length, and those of a nonce that is known to a tracker in which the check
finds nothing to forget. -/
def Traceless (now : Int64) (md : Metadata) (config : AuthConfig) (t : NonceTracker) : Prop :=
  ∀ f, screen now md config = .ok f → validNonce f.nonce = true →
    (∃ ts, t.inner.lookup f.nonce = some ts) ∧ t.inner.len < maxEntries ∧ AllRecent f.tsMs t

/-- A rejected request goes unnoticed by the tracker's later answers exactly in these cases. -/
theorem rejected_indistinguishable_iff {c : Crypto} {now : Int64} {md : Metadata}
    {peers : Finset PubKey} {method payload : String} {config : AuthConfig} {t : NonceTracker}
    {e : AuthError} (h : (verifyRpcMetadata c now md peers method payload config t).1 = .error e) :
    Indistinguishable (verifyRpcMetadata c now md peers method payload config t).2 t ↔
      Traceless now md config t := by
  have hv := verifyRpcMetadata_verified c now md peers method payload config t
  generalize verifyRpcMetadata c now md peers method payload config t = x at h hv ⊢
  cases hv with
  | unauthenticated => cases h
  | refused _ hs =>
    refine ⟨?_,fun _ _ => rfl⟩
    intro _ f hf
    simp [hs] at hf
  | @nonceRefused f _ t' _ hs hc =>
    have hchk := t.checkAndInsert_checked f.tsMs f.nonce
    rw [hc] at hchk
    cases hchk with
    | invalid hinv =>
      refine ⟨?_,fun _ _ => rfl⟩
      intro _ g hg hvalid
      cases hs.symm.trans hg
      simp [hinv] at hvalid
    | replay hvalid hheld =>
      rw [prune_indistinguishable_iff hheld]
      constructor
      · intro htl g hg _
        cases hs.symm.trans hg
        exact htl
      · intro htl
        exact htl f hs hvalid
  | @nonceSpent f t' _ hs hc =>
    have hchk := t.checkAndInsert_checked f.tsMs f.nonce
    rw [hc] at hchk
    cases hchk with
    | admitted hvalid hnew hafter =>
      refine iff_of_false (distinguishable_of_taken hvalid hnew hafter) ?_
      intro htl
      obtain ⟨⟨ts,hts⟩,hlen,hall⟩ := htl f hs hvalid
      rw [prune_of_allRecent hall,if_neg (not_le.mpr hlen),hts] at hnew
      cases hnew

/-- The tracker that has seen the nonce of `statusRequest`. -/
def usedTracker : NonceTracker :=
  (NonceTracker.default.checkAndInsert 1700000000000 "0000000000000100").2

theorem rejected_indistinguishable_replayed :
    (verifyRpcMetadata sampleCrypto 1700000000001 statusRequest {sampleKey} "GetStatus" "" {}
      usedTracker).1 = .error .replayNonce ∧
    Indistinguishable (verifyRpcMetadata sampleCrypto 1700000000001 statusRequest {sampleKey}
      "GetStatus" "" {} usedTracker).2 usedTracker := by
  have he : (verifyRpcMetadata sampleCrypto 1700000000001 statusRequest {sampleKey} "GetStatus"
      "" {} usedTracker).1 = .error .replayNonce := by decide +kernel
  have hs : screen 1700000000001 statusRequest {} = .ok ⟨sampleSk.pubkeyB64Url,1700000000000,
      "0000000000000100",sampleSk.signBytes statusMessage⟩ := by decide +kernel
  refine ⟨he,(rejected_indistinguishable_iff he).mpr ?_⟩
  intro f hf _
  cases hs.symm.trans hf
  exact ⟨⟨_,lookup_inserted rfl⟩,by decide +kernel,allRecent_inserted rfl⟩

def forgedStatus : Metadata :=
  Function.update statusRequest metaSig (some (sampleSk.signBytes uploadMessage))

theorem forged_request_burns_nonce :
    (verifyRpcMetadata sampleCrypto 1700000000001 statusRequest {sampleKey} "GetStatus" "" {}
      .default).1 = .ok () ∧
    (verifyRpcMetadata sampleCrypto 1700000000001 forgedStatus {sampleKey} "GetStatus" "" {}
      .default).1 = .error .badSignature ∧
    (verifyRpcMetadata sampleCrypto 1700000000001 statusRequest {sampleKey} "GetStatus" "" {}
      (verifyRpcMetadata sampleCrypto 1700000000001 forgedStatus {sampleKey} "GetStatus" "" {}
        .default).2).1 = .error .replayNonce := by
  decide +kernel

end PirateServer.Auth
