import PirateServer.Wire.Replay

/-! The replay cache against the whole history of the nonces that it has accepted. -/
namespace PirateServer.Wire
open Lib Lib.Bytes List

/-- The cache, what it has accepted, in order and with the instants, and the last instant. -/
structure Checks where
  cache : ReplayCache
  accepted : List (Bytes × ℕ)
  clock : ℕ

def Checks.init (ttlSecs maxEntries : ℕ) : Checks := ⟨.new ttlSecs maxEntries,[],0⟩

def Checks.step (s : Checks) (call : ℕ × Bytes) : Option Checks :=
  if s.clock ≤ call.1 then
    let (fresh,cache) := s.cache.checkAndInsert call.1 call.2
    some ⟨cache,if fresh then s.accepted++[(call.2,call.1)] else s.accepted,call.1⟩
  else none

def others (n : Bytes) (l : List (Bytes × ℕ)) : ℕ := ((l.map Prod.fst).toFinset.erase n).card

variable {r : ReplayCache} {now clock ttl maxEntries t : ℕ} {n : Bytes} {e : Bytes × ℕ}
  {a l l' : List (Bytes × ℕ)}

/-- The nonce was accepted at most the time to live ago, and then fewer others than fit in. -/
def Remembered (ttl maxEntries : ℕ) (a : List (Bytes × ℕ)) (now : ℕ) (n : Bytes) : Prop :=
  ∃ before t after, a = before++(n,t)::after ∧ now-t ≤ ttl ∧ others n after < maxEntries

/-- The queue is the end of the history; what stands before has expired or has made room. -/
structure ReplayCache.Tracks (r : ReplayCache) (a : List (Bytes × ℕ)) (clock : ℕ) : Prop where
  coherent : r.Coherent
  ordered : r.q.Pairwise (fun a b => a.2 ≤ b.2)
  past : ∀ e ∈ r.q, e.2 ≤ clock
  room : r.q.length ≤ r.maxEntries
  suffix : r.q <:+ a
  gone : ∀ before n t after, a = before++(n,t)::after →
    (n,t) ∈ r.q ∨ r.ttl < clock-t ∨ r.maxEntries ≤ others n after

lemma others_mono (h : l ⊆ l') : others n l ≤ others n l' := by
  refine Finset.card_le_card (Finset.erase_subset_erase _ (fun m hm => ?_))
  rw [mem_toFinset] at hm ⊢
  exact List.map_subset Prod.fst h hm

lemma others_of_nodup (h : (n::l.map Prod.fst).Nodup) : others n l = l.length := by
  obtain ⟨hn,hl⟩ := nodup_cons.mp h
  rw [others,Finset.erase_eq_of_notMem (by rwa [mem_toFinset]),toFinset_card_of_nodup hl,length_map]

namespace ReplayCache

lemma Coherent.len (h : r.Coherent) : r.set.len = r.q.length := by
  have hperm : r.set.keys.Perm (r.q.map Prod.fst) :=
    (perm_ext_iff_of_nodup r.set.nodupKeys h.nodup).mpr h.keys
  simpa [AList.keys,List.keys,Table.len] using hperm.length_eq

lemma expire_suffix (r : ReplayCache) (now : ℕ) : (r.expire now).q <:+ r.q := dropWhile_suffix _

lemma age_le_of_mem_expire (hr : r.q.Pairwise (fun a b => a.2 ≤ b.2)) (h : e ∈ (r.expire now).q) :
    now-e.2 ≤ r.ttl := by
  have hsub := hr.sublist (r.expire_suffix now).sublist
  unfold expire at h hsub
  cases hq : r.q.dropWhile (fun e => decide (r.ttl < now-e.2)) with
  | nil => simp [hq] at h
  | cons x q =>
    have hx : ¬r.ttl < now-x.2 := by
      have := dropWhile_get_zero_not _ r.q (by rw [hq]; simp)
      simpa [hq] using this
    simp only [hq] at h hsub
    rcases mem_cons.mp h with rfl | h
    · omega
    · have := (pairwise_cons.mp hsub).1 e h
      omega

/-- What the set says once the old entries have left. -/
lemma Tracks.mem_expire_iff (h : r.Tracks a clock) (hnow : clock ≤ now) :
    n ∈ (r.expire now).set ↔ Remembered r.ttl r.maxEntries a now n := by
  rw [(h.coherent.expire now).keys]
  constructor
  · intro hn
    obtain ⟨⟨_,t⟩,he,rfl⟩ := List.mem_map.mp hn
    obtain ⟨x,y,hq⟩ := append_of_mem he
    obtain ⟨z,hz⟩ := (r.expire_suffix now).trans h.suffix
    refine ⟨z++x,t,y,by rw [← hz,hq,append_assoc],age_le_of_mem_expire h.ordered he,?_⟩
    have hnodup := (h.coherent.expire now).nodup
    have hlen := (r.expire_suffix now).length_le.trans h.room
    rw [hq,map_append,map_cons] at hnodup
    rw [others_of_nodup (nodup_append.mp hnodup).2.1]
    rw [hq,length_append,length_cons] at hlen
    omega
  · rintro ⟨before,t,after,hsplit,hage,hfew⟩
    rcases h.gone _ _ _ _ hsplit with hq | hold | hmany
    · rcases r.mem_expire now hq with hq | hold
      · exact mem_map_of_mem (f := Prod.fst) hq
      · omega
    · omega
    · omega

lemma Tracks.expire (h : r.Tracks a clock) (hnow : clock ≤ now) : (r.expire now).Tracks a now where
  coherent := h.coherent.expire now
  ordered := h.ordered.sublist (r.expire_suffix now).sublist
  past e he := (h.past e ((r.expire_suffix now).subset he)).trans hnow
  room := (r.expire_suffix now).length_le.trans h.room
  suffix := (r.expire_suffix now).trans h.suffix
  gone before n t after hsplit := by
    rcases h.gone before n t after hsplit with hq | hold | hmany
    · exact (r.mem_expire now hq).imp_right .inl
    · exact .inr (.inl (hold.trans_le (Nat.sub_le_sub_right hnow t)))
    · exact .inr (.inr hmany)

lemma evict_cases (h : r.Coherent) (hmax : 0 < r.maxEntries) :
    r.evict.Coherent ∧ r.evict.maxEntries = r.maxEntries ∧ r.evict.ttl = r.ttl ∧
      (r.evict.q = r.q ∧ r.q.length < r.maxEntries ∨
        ∃ e, r.q = e::r.evict.q ∧ r.maxEntries ≤ r.q.length) := by
  unfold evict
  rw [h.len]
  split_ifs with hfull
  swap
  · exact ⟨h,rfl,rfl,.inl ⟨rfl,not_le.mp hfull⟩⟩
  cases hq : r.q with
  | nil =>
    rw [hq] at hfull
    exact absurd hfull (not_le.mpr hmax)
  | cons e q =>
    have hnodup := h.nodup
    rw [hq,map_cons,nodup_cons] at hnodup
    refine ⟨⟨fun n => ?_,hnodup.2⟩,rfl,rfl,.inr ⟨e,rfl,hq ▸ hfull⟩⟩
    simp only [AList.mem_erase,h.keys n,hq,map_cons,mem_cons]
    constructor
    · rintro ⟨hne,rfl | hn⟩
      · exact absurd rfl hne
      · exact hn
    · intro hn
      exact ⟨fun heq => hnodup.1 (heq ▸ hn),.inr hn⟩

/-- An entry that makes room for another one has as many others after it as fit in. -/
lemma Tracks.evicted {before after : List (Bytes × ℕ)} {q : List (Bytes × ℕ)} {m : Bytes}
    (h : r.Tracks a clock) (hq : r.q = (m,t)::q) (hsplit : a = before++(m,t)::after)
    (hn : n ∉ r.q.map Prod.fst) : r.q.length ≤ others m (after++[(n,now)]) := by
  have hnodup := h.coherent.nodup
  rw [hq,map_cons] at hn hnodup
  have hsub : q ⊆ after := by
    have hleft : q <:+ a := (suffix_cons (m,t) q).trans (hq ▸ h.suffix)
    have hm : (m,t) ∉ q := fun hin => (nodup_cons.mp hnodup).1 (mem_map_of_mem (f := Prod.fst) hin)
    rcases suffix_or_suffix_of_suffix hleft ⟨before,hsplit.symm⟩ with hin | hin
    · rcases suffix_cons_iff.mp hin with rfl | hin
      · exact absurd mem_cons_self hm
      · exact hin.subset
    · exact absurd (hin.subset mem_cons_self) hm
  have hall : (m::(q++[(n,now)]).map Prod.fst).Nodup := by
    rw [map_append,← cons_append]
    refine nodup_append.mpr ⟨hnodup,nodup_singleton _,fun x hx y hy hxy => hn ?_⟩
    rwa [hxy,List.mem_singleton.mp hy] at hx
  calc r.q.length = others m (q++[(n,now)]) := by rw [others_of_nodup hall,hq]; simp
    _ ≤ others m (after++[(n,now)]) := others_mono (append_subset.mpr
      ⟨fun x hx => subset_append_left _ _ (hsub hx),subset_append_right _ _⟩)

lemma Tracks.record (h : r.Tracks a now) (hn : n ∉ r.set) (hmax : 0 < r.maxEntries) :
    (r.evict.record now n).Tracks (a++[(n,now)]) now := by
  obtain ⟨hcoh,hm,httl,hq⟩ := evict_cases h.coherent hmax
  have hnq : n ∉ r.q.map Prod.fst := fun hin => hn ((h.coherent.keys n).mpr hin)
  have hsuf : r.evict.q <:+ r.q := by
    rcases hq with ⟨hq,_⟩ | ⟨e,hq,_⟩
    · rw [hq]
    · rw [hq]
      exact suffix_cons e _
  have hlen : r.evict.q.length < r.maxEntries := by
    rcases hq with ⟨hq,hlt⟩ | ⟨e,hq,_⟩
    · rwa [hq]
    · have hroom := h.room
      rw [hq,length_cons] at hroom
      omega
  refine ⟨hcoh.record now (fun hin => hnq ?_),?_,?_,?_,?_,?_⟩
  · exact List.map_subset Prod.fst hsuf.subset ((hcoh.keys n).mp hin)
  · refine pairwise_append.mpr ⟨h.ordered.sublist hsuf.sublist,pairwise_singleton _ _,?_⟩
    intro e he b hb
    rw [mem_singleton.mp hb]
    exact h.past e (hsuf.subset he)
  · intro e he
    rcases mem_append.mp he with he | he
    · exact h.past e (hsuf.subset he)
    · rw [mem_singleton.mp he]
  · simp only [ReplayCache.record,length_append,length_singleton,hm]
    omega
  · obtain ⟨z,hz⟩ := hsuf.trans h.suffix
    exact ⟨z,by rw [← hz,append_assoc]; rfl⟩
  · intro before m t after hsplit
    simp only [ReplayCache.record,hm,httl,mem_append,mem_singleton]
    rcases eq_nil_or_concat after with rfl | ⟨after,x,rfl⟩
    · obtain ⟨_,hlast⟩ := append_inj' hsplit rfl
      exact .inl (.inr (by simpa using hlast.symm))
    rw [concat_eq_append,← cons_append,← append_assoc] at hsplit
    obtain ⟨rfl,hlast⟩ := append_inj' hsplit rfl
    cases hlast
    rw [concat_eq_append]
    rcases h.gone before m t after rfl with hin | hold | hmany
    · rcases hq with ⟨hq,_⟩ | ⟨e,hq,hfull⟩
      · exact .inl (.inl (hq ▸ hin))
      · rw [hq] at hin
        rcases mem_cons.mp hin with rfl | hin
        · exact .inr (.inr (hfull.trans (h.evicted hq rfl hnq)))
        · exact .inl (.inl hin)
    · exact .inr (.inl hold)
    · exact .inr (.inr (hmany.trans (others_mono (subset_append_left _ _))))

lemma checkAndInsert_eq (r : ReplayCache) : r.checkAndInsert now n =
    if n ∈ (r.expire now).set then (false,r.expire now)
    else (true,(r.expire now).evict.record now n) := rfl

lemma tracks_new {secs : ℕ} : (new secs maxEntries).Tracks [] 0 where
  coherent := ⟨fun n => by simp [new],nodup_nil⟩
  ordered := .nil
  past e he := absurd he not_mem_nil
  room := Nat.zero_le _
  suffix := suffix_rfl
  gone before n t after hsplit := by simp at hsplit

end ReplayCache

/-- In every run with one entry at least: the queue lists the keys of the set, each once, by the
time at which they came and no more than fit in; and a nonce is refused exactly if it was accepted
at most the time to live ago and fewer others than fit in have been accepted since. -/
theorem replay_cache_tracks (ttlSecs maxEntries : ℕ) (hmax : 1 ≤ maxEntries) (s : Checks)
    (hrun : Run Checks.step anyStep (.init ttlSecs maxEntries) s) :
    (∀ n, n ∈ s.cache.set ↔ n ∈ s.cache.q.map Prod.fst) ∧ (s.cache.q.map Prod.fst).Nodup ∧
      s.cache.q.Pairwise (fun a b => a.2 ≤ b.2) ∧ s.cache.q.length ≤ maxEntries ∧
      ∀ now n, s.clock ≤ now → ((s.cache.checkAndInsert now n).1 = false ↔
        Remembered (max ttlSecs 30*10^9) maxEntries s.accepted now n) := by
  have hinv : s.cache.Tracks s.accepted s.clock ∧ s.cache.maxEntries = maxEntries ∧
      s.cache.ttl = max ttlSecs 30*10^9 := by
    refine hrun.invariant (I := fun s => s.cache.Tracks s.accepted s.clock ∧
      s.cache.maxEntries = maxEntries ∧ s.cache.ttl = max ttlSecs 30*10^9) ?_
      ⟨ReplayCache.tracks_new,rfl,rfl⟩
    rintro s ⟨now,n⟩ u ⟨h,hm,httl⟩ - hstep
    simp only [Checks.step,ReplayCache.checkAndInsert_eq] at hstep
    by_cases hnow : s.clock ≤ now
    · rw [if_pos hnow,Option.some.injEq] at hstep
      have hexp := h.expire hnow
      have hpos : 0 < (s.cache.expire now).maxEntries := hmax.trans_eq hm.symm
      obtain ⟨_,hm',httl',_⟩ := ReplayCache.evict_cases hexp.coherent hpos
      by_cases hin : n ∈ (s.cache.expire now).set
      · simp only [if_pos hin,Bool.false_eq_true,if_false] at hstep
        subst hstep
        exact ⟨hexp,hm,httl⟩
      · simp only [if_neg hin,if_true] at hstep
        subst hstep
        exact ⟨hexp.record hin hpos,hm'.trans hm,httl'.trans httl⟩
    · rw [if_neg hnow] at hstep
      cases hstep
  obtain ⟨h,hm,httl⟩ := hinv
  refine ⟨h.coherent.keys,h.coherent.nodup,h.ordered,hm ▸ h.room,fun now n hnow => ?_⟩
  rw [← hm,← httl,← h.mem_expire_iff hnow,ReplayCache.checkAndInsert_eq]
  split_ifs with hin
  · simp [hin]
  · simp [hin]

/-- A repeat, a nonce that makes room for a third one, and one that has grown too old. -/
def busyCalls : List (ℕ × Bytes) :=
  [(0,[1]),(1,[1]),(2,[2]),(3,[3]),(30*10^9+3,[4])]

theorem replay_cache_tracks_busy : ∃ s, execute Checks.step anyStep busyCalls
    (.init 30 2) = some s ∧
    s.accepted = [([1],0),([2],2),([3],3),([4],30*10^9+3)] ∧
    s.cache.q = [([3],3),([4],30*10^9+3)] ∧
    ∀ n, (s.cache.checkAndInsert (30*10^9+3) n).1 = false ↔
      Remembered (30*10^9) 2 s.accepted (30*10^9+3) n := by
  obtain ⟨s,hs,hrest⟩ : ∃ s, execute Checks.step anyStep busyCalls (.init 30 2) = some s ∧
      s.accepted = [([1],0),([2],2),([3],3),([4],30*10^9+3)] ∧
      s.cache.q = [([3],3),([4],30*10^9+3)] ∧ s.clock = 30*10^9+3 := ⟨_,rfl,by decide +kernel⟩
  obtain ⟨ha,hq,hclock⟩ := hrest
  exact ⟨s,hs,ha,hq,fun n => (replay_cache_tracks 30 2 (by decide) s
    (execute_run hs)).2.2.2.2 _ n hclock.le⟩

end PirateServer.Wire
