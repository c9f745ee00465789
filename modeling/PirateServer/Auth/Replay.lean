import PirateServer.Auth.Signing

/-! A nonce that was admitted stays known until its timestamp fails the skew check, although it
is forgotten by the timestamps of later requests and not by the clock. -/
namespace PirateServer.Auth
open Lib Lib.Wrapping List

/-- One call of `verify_rpc_metadata` and what its clock shows. -/
structure RpcCall where
  now : Int64
  md : Metadata
  peers : Finset PubKey
  method : String
  payload : String

def RpcCall.verify (c : Crypto) (config : AuthConfig) (r : RpcCall) (t : NonceTracker) :
    Except AuthError Unit × NonceTracker :=
  verifyRpcMetadata c r.now r.md r.peers r.method r.payload config t

/-- The fields of the request if `check_and_insert` takes its nonce. -/
def RpcCall.admitted (config : AuthConfig) (r : RpcCall) (t : NonceTracker) : Option Fields :=
  if config.allowUnauthenticated = true then none
  else match screen r.now r.md config with
    | .error _ => none
    | .ok f => if (t.checkAndInsert f.tsMs f.nonce).1 = .ok () then some f else none

def history (c : Crypto) (config : AuthConfig) :
    List RpcCall → NonceTracker → List (RpcCall × NonceTracker)
  | [],_ => []
  | r::rs,t => (r,t)::history c config rs (r.verify c config t).2

/-- No difference of the instants that a call compares can wrap. -/
def RpcCall.InRange (r : RpcCall) : Prop :=
  Central r.now ∧ ∀ f, readFields r.md = .ok f → Central f.tsMs

/-- The tracker still knows the nonce, or the clock has left its timestamp behind. -/
structure Remembered (f : Fields) (clock : Int64) (t : NonceTracker) : Prop where
  central : Central f.tsMs
  near : f.tsMs.toInt - 300000 ≤ clock.toInt
  held : t.inner.lookup f.nonce = some f.tsMs ∨ f.tsMs.toInt + 300000 < clock.toInt

section
variable {c : Crypto} {config : AuthConfig} {r : RpcCall} {t : NonceTracker} {f g : Fields}
  {clock : Int64}

lemma RpcCall.admitted_some (h : r.admitted config t = some f) :
    screen r.now r.md config = .ok f ∧ (t.prune f.tsMs).inner.lookup f.nonce = none ∧
      ∀ c, (r.verify c config t).2.inner = t.inserted f.tsMs f.nonce := by
  unfold RpcCall.admitted at h
  split_ifs at h with hallow
  split at h
  · cases h
  rename_i hs
  split_ifs at h with hok
  cases h
  have hchk := t.checkAndInsert_checked f.tsMs f.nonce
  simp only [RpcCall.verify,verifyRpcMetadata,hs,if_neg hallow]
  generalize t.checkAndInsert f.tsMs f.nonce = x at hok hchk ⊢
  cases hchk with
  | invalid | replay => cases hok
  | admitted _ hnew hafter => exact ⟨trivial,hnew,fun _ => hafter⟩

lemma RpcCall.admitted_of_accepted (hauth : config.allowUnauthenticated = false)
    (h : (r.verify c config t).1 = .ok ()) : ∃ f, r.admitted config t = some f := by
  have hv := verifyRpcMetadata_verified c r.now r.md r.peers r.method r.payload config t
  unfold RpcCall.verify at h
  generalize verifyRpcMetadata c r.now r.md r.peers r.method r.payload config t = x at h hv
  cases hv with
  | unauthenticated hallow => simp [hauth] at hallow
  | refused | nonceRefused => cases h
  | @nonceSpent f _ _ hs hc =>
    refine ⟨f,?_⟩
    simp [RpcCall.admitted,hauth,hs,hc]

lemma skew_of_screen (hskew : config.maxClockSkewMs = 300000) (hr : r.InRange)
    (hs : screen r.now r.md config = .ok f) :
    Central f.tsMs ∧ |r.now.toInt - f.tsMs.toInt| ≤ 300000 := by
  obtain ⟨hf,hw⟩ := screen_ok hs
  have hc := hr.2 f hf
  rw [hskew,within_iff hr.1 hc] at hw
  exact ⟨hc,hw⟩

lemma late_of_forgotten (hskew : config.maxClockSkewMs = 300000) (hr : r.InRange)
    (hs : screen r.now r.md config = .ok g) (hf : Central f.tsMs)
    (hnear : f.tsMs.toInt - 300000 ≤ r.now.toInt) (hfar : within windowMs g.tsMs f.tsMs = false) :
    f.tsMs.toInt + 300000 < r.now.toInt := by
  obtain ⟨hg,hd⟩ := skew_of_screen hskew hr hs
  have hw : ¬|g.tsMs.toInt - f.tsMs.toInt| ≤ 600000 := by
    have hval : windowMs.toInt = 600000 := by decide
    rw [← hval,← within_iff hg hf,hfar]
    simp
  rw [abs_le] at hd hw
  omega

lemma RpcCall.verify_tracker (c : Crypto) (config : AuthConfig) (r : RpcCall) (t : NonceTracker) :
    (r.verify c config t).2 = t ∨ ∃ g, screen r.now r.md config = .ok g ∧
      ((r.verify c config t).2 = t.prune g.tsMs ∨ ((t.prune g.tsMs).inner.lookup g.nonce = none ∧
          (r.verify c config t).2.inner = t.inserted g.tsMs g.nonce)) := by
  have hv := verifyRpcMetadata_verified c r.now r.md r.peers r.method r.payload config t
  unfold RpcCall.verify
  generalize verifyRpcMetadata c r.now r.md r.peers r.method r.payload config t = x at hv ⊢
  cases hv with
  | unauthenticated | refused => exact Or.inl rfl
  | @nonceRefused g e t' _ hs hc =>
    have hchk := t.checkAndInsert_checked g.tsMs g.nonce
    rw [hc] at hchk
    cases hchk with
    | invalid => exact Or.inl rfl
    | replay => exact Or.inr ⟨g,hs,Or.inl rfl⟩
  | @nonceSpent g t' _ hs hc =>
    have hchk := t.checkAndInsert_checked g.tsMs g.nonce
    rw [hc] at hchk
    cases hchk with
    | admitted _ hnew hafter => exact Or.inr ⟨g,hs,Or.inr ⟨hnew,hafter⟩⟩

section
variable (h : Remembered f clock t) (hle : clock ≤ r.now) (hskew : config.maxClockSkewMs = 300000)
    (hr : r.InRange) (hlen : t.inner.len < maxEntries)
include h hle hskew hr hlen

lemma Remembered.prune (hs : screen r.now r.md config = .ok g) :
    (t.prune g.tsMs).inner.lookup f.nonce = some f.tsMs ∨ f.tsMs.toInt + 300000 < r.now.toInt := by
  have hclock := Int64.le_iff_toInt_le.mp hle
  rcases h.held with hheld | hlate
  · cases hw : within windowMs g.tsMs f.tsMs with
    | true =>
      left
      rw [NonceTracker.prune_of_len_lt hlen]
      exact NonceTracker.lookup_recent.mpr ⟨hheld,hw⟩
    | false =>
      right
      exact late_of_forgotten hskew hr hs h.central (h.near.trans hclock) hw
  · right
    omega

lemma Remembered.step : Remembered f r.now (r.verify c config t).2 := by
  have hclock := Int64.le_iff_toInt_le.mp hle
  refine ⟨h.central,h.near.trans hclock,?_⟩
  rcases r.verify_tracker c config t with heq | ⟨g,hs,heq | ⟨hnew,heq⟩⟩
  · rw [heq]
    exact h.held.imp_right (fun hlate => hlate.trans_le hclock)
  · rw [heq]
    exact h.prune hle hskew hr hlen hs
  rcases h.prune hle hskew hr hlen hs with hheld | hlate
  · left
    have hne : f.nonce ≠ g.nonce := by
      intro he
      rw [he,hnew] at hheld
      cases hheld
    rw [heq,NonceTracker.inserted,Table.lookup_insert_eq,if_neg hne]
    exact hheld
  · exact Or.inr hlate

lemma Remembered.late (hadm : r.admitted config t = some g) (hn : f.nonce = g.nonce) :
    f.tsMs.toInt + 300000 < r.now.toInt := by
  obtain ⟨hs,hnew,_⟩ := RpcCall.admitted_some hadm
  rcases h.prune hle hskew hr hlen hs with hheld | hlate
  · rw [hn,hnew] at hheld
    cases hheld
  · exact hlate

end

lemma Remembered.of_admitted (hskew : config.maxClockSkewMs = 300000) (hr : r.InRange)
    (hadm : r.admitted config t = some f) : Remembered f r.now (r.verify c config t).2 := by
  obtain ⟨hs,_,hafter⟩ := RpcCall.admitted_some hadm
  obtain ⟨hc,hd⟩ := skew_of_screen hskew hr hs
  rw [abs_le] at hd
  refine ⟨hc,by omega,Or.inl ?_⟩
  simp [hafter c,NonceTracker.inserted]

end

variable {c : Crypto} {config : AuthConfig} {calls : List RpcCall} {t : NonceTracker}

lemma mem_of_mem_history {x : RpcCall × NonceTracker} (h : x ∈ history c config calls t) :
    x.1 ∈ calls := by
  induction calls generalizing t with
  | nil => cases h
  | cons r rs ih =>
    rcases List.mem_cons.mp h with rfl | h
    · exact mem_cons_self
    · exact mem_cons_of_mem _ (ih h)

lemma Remembered.run {f : Fields} {clock : Int64} (h : Remembered f clock t)
    (hskew : config.maxClockSkewMs = 300000)
    (hclock : (clock::calls.map RpcCall.now).Pairwise (· ≤ ·)) (hr : ∀ r ∈ calls, r.InRange)
    (hlen : ∀ x ∈ history c config calls t, x.2.inner.len < maxEntries) :
    ∀ x ∈ history c config calls t, ∀ g, x.1.admitted config x.2 = some g →
      f.nonce = g.nonce → f.tsMs.toInt + 300000 < x.1.now.toInt := by
  induction calls generalizing clock t with
  | nil =>
    intro x hx
    cases hx
  | cons r rs ih =>
    obtain ⟨hfirst,hrest⟩ := List.pairwise_cons.mp hclock
    have hle : clock ≤ r.now := hfirst r.now (by simp)
    have hrange := hr r mem_cons_self
    have hroom := hlen (r,t) mem_cons_self
    intro x hx g hg hn
    rcases List.mem_cons.mp hx with rfl | hx
    · exact h.late hle hskew hrange hroom hg hn
    · exact ih (h.step hle hskew hrange hroom) hrest
        (fun q hq => hr q (mem_cons_of_mem _ hq))
        (fun y hy => hlen y (mem_cons_of_mem _ hy)) x hx g hg hn

lemma late_of_taken_twice {r : RpcCall} {y : RpcCall × NonceTracker} {f g : Fields}
    (hskew : config.maxClockSkewMs = 300000)
    (hclock : ((r::calls).map RpcCall.now).Pairwise (· ≤ ·)) (hr : ∀ q ∈ r::calls, q.InRange)
    (hlen : ∀ x ∈ history c config (r::calls) t, x.2.inner.len < maxEntries)
    (hy : y ∈ history c config calls (r.verify c config t).2)
    (hf : r.admitted config t = some f) (hg : y.1.admitted config y.2 = some g)
    (hn : f.nonce = g.nonce) : Central f.tsMs ∧ f.tsMs.toInt + 300000 < y.1.now.toInt := by
  have hrem := Remembered.of_admitted (c := c) hskew (hr r mem_cons_self) hf
  refine ⟨hrem.central,?_⟩
  exact hrem.run hskew hclock (fun q hq => hr q (mem_cons_of_mem _ hq))
    (fun z hz => hlen z (mem_cons_of_mem _ hz)) y hy g hg hn

lemma skewed_of_late {f : Fields} {now : Int64} (hskew : config.maxClockSkewMs = 300000)
    (hf : Central f.tsMs) (hnow : Central now) (hlate : f.tsMs.toInt + 300000 < now.toInt) :
    within config.maxClockSkewMs now f.tsMs = false := by
  have hval : (300000 : Int64).toInt = 300000 := by decide
  by_contra hw
  have hd := (within_iff hnow hf).mp (by simpa using hw)
  rw [hskew,hval,abs_le] at hd
  omega

/-- With a skew of five minutes, clocks that do not run back, and a tracker that is never full,
no nonce is taken twice as long as a request with the first timestamp could pass the skew check;
and no request is accepted twice. -/
theorem nonce_taken_once (hskew : config.maxClockSkewMs = 300000)
    (hclock : (calls.map RpcCall.now).Pairwise (· ≤ ·)) (hr : ∀ r ∈ calls, r.InRange)
    (hlen : ∀ x ∈ history c config calls t, x.2.inner.len < maxEntries) :
    (history c config calls t).Pairwise (fun x y =>
      (∀ f g, x.1.admitted config x.2 = some f → y.1.admitted config y.2 = some g →
        f.nonce = g.nonce → ∀ now, y.1.now ≤ now → Central now →
          within config.maxClockSkewMs now f.tsMs = false) ∧
      (config.allowUnauthenticated = false → (x.1.verify c config x.2).1 = .ok () →
        (y.1.verify c config y.2).1 = .ok () →
        ∀ f g, readFields x.1.md = .ok f → readFields y.1.md = .ok g →
          (x.1.method,f.tsMs,f.nonce,x.1.payload) ≠ (y.1.method,g.tsMs,g.nonce,y.1.payload))) := by
  induction calls generalizing t with
  | nil => exact List.Pairwise.nil
  | cons r rs ih =>
    have htail := ih (List.pairwise_cons.mp hclock).2
      (fun q hq => hr q (mem_cons_of_mem _ hq))
      (fun y hy => hlen y (mem_cons_of_mem _ hy))
    refine List.pairwise_cons.mpr ⟨?_,htail⟩
    intro y hy
    constructor
    · intro f g hf hg hn now hnow hcentral
      obtain ⟨hc,hlate⟩ := late_of_taken_twice hskew hclock hr hlen hy hf hg hn
      exact skewed_of_late hskew hc hcentral (hlate.trans_le (Int64.le_iff_toInt_le.mp hnow))
    · intro hauth hx hy' f g hf hg heq
      obtain ⟨f',hf'⟩ := RpcCall.admitted_of_accepted hauth hx
      obtain ⟨g',hg'⟩ := RpcCall.admitted_of_accepted hauth hy'
      have hsg := (RpcCall.admitted_some hg').1
      cases hf.symm.trans (screen_ok (RpcCall.admitted_some hf').1).1
      cases hg.symm.trans (screen_ok hsg).1
      simp only [Prod.mk.injEq] at heq
      obtain ⟨-,hts,hn,-⟩ := heq
      -- the second request has just passed the skew check with the same timestamp
      have hlate := (late_of_taken_twice hskew hclock hr hlen hy hf' hg' hn).2
      have hyr := hr y.1 (mem_cons_of_mem _ (mem_of_mem_history hy))
      have hd := (skew_of_screen hskew hyr hsg).2
      rw [abs_le,← hts] at hd
      omega

def statusCalls : List RpcCall :=
  [⟨1700000000001,statusRequest,{sampleKey},"GetStatus",""⟩,
    ⟨1700000000002,statusRequest,{sampleKey},"GetStatus",""⟩]

lemma statusCalls_inRange : ∀ r ∈ statusCalls, r.InRange := by
  have hfields : ∀ f, readFields statusRequest = .ok f → Central f.tsMs := by
    intro f hf
    cases readFields_statusRequest.symm.trans hf
    decide
  intro r hr
  simp only [statusCalls,mem_cons,not_mem_nil,or_false] at hr
  rcases hr with rfl | rfl <;> exact ⟨by decide,hfields⟩

theorem nonce_taken_once_status : ∃ x y, history sampleCrypto {} statusCalls .default = [x,y] ∧
    (x.1.verify sampleCrypto {} x.2).1 = .ok () ∧ (y.1.verify sampleCrypto {} y.2).1 ≠ .ok () := by
  have hacc : ((⟨1700000000001,statusRequest,{sampleKey},"GetStatus",""⟩ : RpcCall).verify
      sampleCrypto {} .default).1 = .ok () := by decide +kernel
  refine ⟨_,_,rfl,hacc,?_⟩
  have hpair := @nonce_taken_once sampleCrypto {} statusCalls .default rfl (by decide)
    statusCalls_inRange (by decide +kernel)
  intro hy
  have hrel := (List.pairwise_cons.mp hpair).1 _ (List.mem_singleton.mpr rfl)
  exact hrel.2 rfl hacc hy _ _ readFields_statusRequest readFields_statusRequest rfl

end PirateServer.Auth
