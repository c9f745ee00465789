import PirateServer.Lib.Run
import PirateServer.ProxySession.Duration
import PirateServer.Wire.Parsers

/-! Opens of VMess tunnels over time. The replay cache forgets a nonce by the time since it was
recorded, and a header is fresh by the distance of its timestamp from the wall clock; a header from
the current second, or from a clock that is ahead, can outlive its nonce. -/
namespace PirateServer.Wire
open Lib Lib.Bytes Lib.Wrapping ProxySession List

/-! The cache. -/

variable {r : ReplayCache} {now : ℕ} {n : Bytes}

lemma mem_foldl_erase (l : List (Bytes × ℕ)) (t : Table Bytes ℕ) :
    n ∈ l.foldl (fun s e => s.erase e.1) t ↔ n ∉ l.map Prod.fst ∧ n ∈ t := by
  induction l generalizing t with
  | nil => simp
  | cons e l ih =>
    rw [foldl_cons,ih,AList.mem_erase,map_cons,mem_cons]
    tauto

lemma len_foldl_erase_le (l : List (Bytes × ℕ)) (t : Table Bytes ℕ) :
    (l.foldl (fun s e => s.erase e.1) t).len ≤ t.len := by
  induction l generalizing t with
  | nil => exact le_rfl
  | cons e l ih =>
    refine (ih (t.erase e.1)).trans ?_
    exact (kerase_sublist e.1 t.entries).length_le

/-- The set and the queue hold the same nonces, each of them once. -/
structure ReplayCache.Coherent (r : ReplayCache) : Prop where
  keys : ∀ n, n ∈ r.set ↔ n ∈ r.q.map Prod.fst
  nodup : (r.q.map Prod.fst).Nodup

lemma ReplayCache.Coherent.expire (h : r.Coherent) (now : ℕ) : (r.expire now).Coherent := by
  have hsplit := congrArg (List.map Prod.fst)
    (takeWhile_append_dropWhile (p := fun e : Bytes × ℕ => decide (r.ttl < now-e.2)) (l := r.q))
  rw [map_append] at hsplit
  have hnodup := h.nodup
  rw [← hsplit,nodup_append] at hnodup
  obtain ⟨-,hrest,hdisj⟩ := hnodup
  refine ⟨fun n => ?_,hrest⟩
  have hkeys := h.keys n
  rw [← hsplit,mem_append] at hkeys
  refine (mem_foldl_erase _ _).trans ?_
  rw [hkeys]
  constructor
  · rintro ⟨hnot,hin | hin⟩
    · exact absurd hin hnot
    · exact hin
  · intro hin
    exact ⟨fun hold => hdisj n hold n hin rfl,.inr hin⟩

lemma ReplayCache.len_expire_le (r : ReplayCache) (now : ℕ) : (r.expire now).set.len ≤ r.set.len :=
  len_foldl_erase_le _ _

lemma ReplayCache.mem_expire (now : ℕ) {e : Bytes × ℕ} (h : e ∈ r.q) :
    e ∈ (r.expire now).q ∨ r.ttl < now-e.2 := by
  rw [← takeWhile_append_dropWhile (p := fun e : Bytes × ℕ => decide (r.ttl < now-e.2))
    (l := r.q),mem_append] at h
  rcases h with hold | hkept
  · have hp := mem_takeWhile_imp hold
    exact .inr (by simpa using hp)
  · exact .inl hkept

def ReplayCache.record (r : ReplayCache) (now : ℕ) (nonce : Bytes) : ReplayCache :=
  { r with set := r.set.insert nonce now, q := r.q++[(nonce,now)] }

lemma ReplayCache.checkAndInsert_of_lt (now : ℕ) (nonce : Bytes) (h : r.set.len < r.maxEntries) :
    r.checkAndInsert now nonce = if nonce ∈ (r.expire now).set then (false,r.expire now)
      else (true,(r.expire now).record now nonce) := by
  have hroom : ¬(r.expire now).maxEntries ≤ (r.expire now).set.len :=
    not_le.mpr (lt_of_le_of_lt (r.len_expire_le now) h)
  simp only [checkAndInsert,evict,if_neg hroom]
  rfl

lemma ReplayCache.Coherent.record (h : r.Coherent) (now : ℕ) (hn : n ∉ r.set) :
    (r.record now n).Coherent := by
  have hq : n ∉ r.q.map Prod.fst := fun hin => hn ((h.keys n).mpr hin)
  constructor
  · intro m
    simp only [ReplayCache.record,AList.mem_insert,map_append,map_cons,map_nil,
      mem_append,mem_singleton,h.keys m]
    tauto
  · simp only [ReplayCache.record,map_append,map_cons,map_nil]
    exact List.nodup_append.mpr ⟨h.nodup,nodup_singleton n,
      fun a ha b hb hab => hq (List.mem_singleton.mp hb ▸ hab ▸ ha)⟩

lemma ReplayCache.len_record (now : ℕ) (hn : n ∉ r.set) : (r.record now n).set.len = r.set.len+1 :=
  Table.len_insert_of_lookup_none now (AList.lookup_eq_none.mpr hn)

/-! The opens of one server. -/

/-- One open with all bytes that the client has sent: the instant at which the nonce is checked,
and the one at which the header is opened after that. -/
structure VmessOpen where
  clock : ℕ
  read : ℕ
  uuid : Uuid
  buf : Bytes

structure Accepted where
  clock : ℕ
  uuid : Uuid
  header : Bytes
  timestamp : Int64
  deriving DecidableEq

/-- The cache, the instant of its last check, the number of nonces it was given, and the headers
that were accepted, the last one first. -/
structure Opens where
  cache : ReplayCache
  clock : ℕ
  insertions : ℕ
  accepted : List Accepted

def Opens.init : Opens := ⟨.new 120 50000,0,0,[]⟩

section
variable (c : Crypto) (wall : ℕ → ℤ)

/-- `Utc::now().timestamp()` at an instant; `wall` shows nanoseconds since 1970. -/
def unixSecs (t : ℕ) : Int64 := Int64.ofInt (wall t/10^9)

/-- An open as `run_vmess_relay` handles it, for bytes that are a complete header or not. The
instants are monotonic, and the wall clock stays in the calendar of `chrono`. -/
def Opens.step (s : Opens) (o : VmessOpen) : Option Opens :=
  if s.clock ≤ o.clock ∧ o.clock ≤ o.read ∧ InCalendar (wall o.read) then
    some (match vmessOpenHeaderByteLen o.buf with
    | none => s
    | some hlen =>
      if o.buf.length < hlen then s
      else
        let (replayOk,cache) := s.cache.checkAndInsert o.clock (o.buf.take 12)
        if replayOk = false then { s with cache := cache, clock := o.clock }
        else
          match vmessServerOpenHeader c (unixSecs wall o.read) o.uuid (o.buf.take hlen) with
          | .ok (some h) =>
            ⟨cache,o.clock,s.insertions+1,⟨o.clock,o.uuid,o.buf.take hlen,h.timestamp⟩::s.accepted⟩
          | _ => ⟨cache,o.clock,s.insertions+1,s.accepted⟩)
  else none

def embeddedTimestamp (uuid : Uuid) (header : Bytes) : Option Int64 :=
  (c.aes128GcmDecrypt (vmessKey c uuid) (header.take 12)
    (slice header 14 (wordAt header 12))).toOption.map (fun plain => be64 (slice plain 0 8))

/-- The second of a timestamp is over one nanosecond after an instant, and its distance to the
present does not wrap. -/
def Elapsed (clock : ℕ) (ts : Int64) : Prop :=
  -2^62 < ts.toInt ∧ (ts.toInt+1)*10^9 ≤ wall clock+1

instance (clock : ℕ) (ts : Int64) : Decidable (Elapsed wall clock ts) :=
  inferInstanceAs (Decidable (_ ∧ _))

/-- The header was sealed in a second that is over when its nonce is checked. -/
def Punctual (o : VmessOpen) : Prop :=
  ∀ hlen ∈ vmessOpenHeaderByteLen o.buf,
    ∀ ts ∈ embeddedTimestamp c o.uuid (o.buf.take hlen), Elapsed wall o.clock ts

instance (o : VmessOpen) : Decidable (Punctual c wall o) :=
  decidable_of_iff ((vmessOpenHeaderByteLen o.buf).all (fun hlen =>
    (embeddedTimestamp c o.uuid (o.buf.take hlen)).all (fun ts => Elapsed wall o.clock ts)))
    (by simp [Punctual,Option.all_eq_true])

/-- The wall clock is not set back: it shows at least as much time as has passed. -/
def KeepsUp : Prop := ∀ i j : ℕ, i ≤ j → (j : ℤ)-i ≤ wall j-wall i

end

variable {c : Crypto} {wall : ℕ → ℤ}

lemma timestamp_of_open {now : Int64} {uuid : Uuid} {header : Bytes} {h : VMessHeaderOpen}
    (hh : vmessServerOpenHeader c now uuid header = .ok (some h)) :
    embeddedTimestamp c uuid header = some h.timestamp ∧ within 120 now h.timestamp = true := by
  simp only [vmessServerOpenHeader] at hh
  split_ifs at hh
  · cases hh
  · cases hh
  split at hh
  · cases hh
  rename_i plain hd
  have hmem : embeddedTimestamp c uuid header = some (be64 (slice plain 0 8)) := by
    rw [embeddedTimestamp,hd]
    rfl
  simp only [vmessOpenPlain] at hh
  split_ifs at hh with hlen hwin hcmd
  · cases hh
  · cases hh
  · cases hh
  split at hh
  · cases hh
  · cases hh
    exact ⟨hmem,by simpa using hwin⟩

lemma toInt_unixSecs {t : ℕ} (h : InCalendar (wall t)) :
    (unixSecs wall t).toInt = wall t/1000000000 := by
  obtain ⟨hmin,hmax⟩ := h
  unfold minUtc at hmin
  unfold maxUtc at hmax
  norm_num at hmin hmax
  have hlow : -2^63 ≤ wall t/1000000000 := by omega
  have hhigh : wall t/1000000000 < 2^63 := by omega
  exact Int64.toInt_ofInt_of_le hlow hhigh

lemma stale_of_forgotten (hwall : KeepsUp wall) {i clock read : ℕ} {ts : Int64}
    (hover : Elapsed wall i ts) (hclock : i+120*10^9 < clock) (hread : clock ≤ read)
    (hin : InCalendar (wall read)) : within 120 (unixSecs wall read) ts = false := by
  have hsecs := toInt_unixSecs hin
  have hgone := hwall i read (by omega)
  obtain ⟨hlow,hpast⟩ := hover
  obtain ⟨hmin,hmax⟩ := hin
  unfold minUtc at hmin
  unfold maxUtc at hmax
  norm_num at hmin hmax hpast hclock
  have hnow : Central (unixSecs wall read) := by
    constructor
    · omega
    · omega
  have hts : Central ts := ⟨hlow,by omega⟩
  have hfar : ¬|(unixSecs wall read).toInt-ts.toInt| ≤ (120 : Int64).toInt := by
    have h120 : (120 : Int64).toInt = 120 := by decide
    rw [h120,abs_le]
    omega
  exact Bool.eq_false_iff.mpr (fun hw => hfar ((within_iff hnow hts).mp hw))

/-! Steps and runs. -/

variable {s s' : Opens} {o : VmessOpen} {a : Accepted}

/-- What an open can do while the cache is not full. -/
inductive Opens.Move (c : Crypto) (wall : ℕ → ℤ) (s : Opens) (o : VmessOpen) : Opens → Prop
  | incomplete : Move c wall s o s
  | replay : Move c wall s o { s with cache := s.cache.expire o.clock, clock := o.clock }
  | refused (new : o.buf.take 12 ∉ (s.cache.expire o.clock).set) :
      Move c wall s o ⟨(s.cache.expire o.clock).record o.clock (o.buf.take 12),o.clock,
        s.insertions+1,s.accepted⟩
  | accepted {hlen h} (bytes : vmessOpenHeaderByteLen o.buf = some hlen)
      (new : o.buf.take 12 ∉ (s.cache.expire o.clock).set)
      (opened : vmessServerOpenHeader c (unixSecs wall o.read) o.uuid (o.buf.take hlen) =
        .ok (some h)) :
      Move c wall s o ⟨(s.cache.expire o.clock).record o.clock (o.buf.take 12),o.clock,
        s.insertions+1,⟨o.clock,o.uuid,o.buf.take hlen,h.timestamp⟩::s.accepted⟩

lemma Opens.step_time (h : s.step c wall o = some s') :
    s.clock ≤ o.clock ∧ o.clock ≤ o.read ∧ InCalendar (wall o.read) := by
  unfold Opens.step at h
  split_ifs at h with htime
  exact htime

lemma Opens.step_move (h : s.step c wall o = some s')
    (hroom : s.cache.set.len < s.cache.maxEntries) :
    s.Move c wall o s' := by
  simp only [Opens.step,if_pos (Opens.step_time h),Option.some.injEq] at h
  subst h
  cases hbytes : vmessOpenHeaderByteLen o.buf with
  | none => exact .incomplete
  | some hlen =>
    by_cases hshort : o.buf.length < hlen
    · simp only [if_pos hshort]
      exact .incomplete
    simp only [if_neg hshort,ReplayCache.checkAndInsert_of_lt o.clock (o.buf.take 12) hroom]
    by_cases hknown : o.buf.take 12 ∈ (s.cache.expire o.clock).set
    · simp only [if_pos hknown,if_true]
      exact .replay
    · simp only [if_neg hknown,Bool.true_eq_false,if_false]
      split
      · rename_i h heq
        exact .accepted hbytes hknown heq
      · exact .refused hknown

lemma Opens.insertions_le (h : s.step c wall o = some s') : s.insertions ≤ s'.insertions := by
  simp only [Opens.step,if_pos (Opens.step_time h),Option.some.injEq] at h
  subst h
  split
  · exact le_rfl
  split_ifs
  · exact le_rfl
  · exact le_rfl
  · split
    all_goals exact Nat.le_succ _

/-- An accepted header whose nonce is in the cache, or was recorded more than two minutes ago. -/
structure Held (c : Crypto) (wall : ℕ → ℤ) (cache : ReplayCache) (clock : ℕ) (a : Accepted) :
    Prop where
  stamped : embeddedTimestamp c a.uuid a.header = some a.timestamp
  elapsed : Elapsed wall a.clock a.timestamp
  held : (a.header.take 12,a.clock) ∈ cache.q ∨ a.clock+120*10^9 < clock

variable {cache : ReplayCache} {clock : ℕ}

lemma Held.expire (h : Held c wall cache clock a) (httl : cache.ttl = 120*10^9)
    (hle : clock ≤ now) : Held c wall (cache.expire now) now a := by
  refine ⟨h.stamped,h.elapsed,?_⟩
  rcases h.held with hin | hold
  · rcases ReplayCache.mem_expire now hin with hkept | hgone
    · exact .inl hkept
    · rw [httl] at hgone
      exact .inr (Nat.add_lt_of_lt_sub' hgone)
  · exact .inr (hold.trans_le hle)

lemma Held.record (h : Held c wall cache clock a) (now : ℕ) (nonce : Bytes) :
    Held c wall (cache.record now nonce) clock a :=
  ⟨h.stamped,h.elapsed,h.held.imp_left (fun hin => mem_append_left _ hin)⟩

lemma Held.known (hwall : KeepsUp wall) (h : Held c wall cache clock a)
    (httl : cache.ttl = 120*10^9) (hcoh : cache.Coherent) (hle : clock ≤ now) {read : ℕ}
    (hread : now ≤ read) (hin : InCalendar (wall read))
    (hwin : within 120 (unixSecs wall read) a.timestamp = true) :
    a.header.take 12 ∈ (cache.expire now).set := by
  rcases (h.expire httl hle).held with hq | hold
  · exact ((hcoh.expire now).keys _).mpr (List.mem_map_of_mem hq)
  · rw [stale_of_forgotten hwall h.elapsed hold hread hin] at hwin
    cases hwin

/-- No accepted header came back under its key or with its timestamp, and the cache holds what it
has to hold. -/
structure Opens.Sound (c : Crypto) (wall : ℕ → ℤ) (s : Opens) : Prop where
  ttl : s.cache.ttl = 120*10^9
  cap : s.cache.maxEntries = 50000
  coherent : s.cache.Coherent
  size : s.cache.set.len ≤ s.insertions
  held : ∀ a ∈ s.accepted, Held c wall s.cache s.clock a
  once : s.accepted.Pairwise
    (fun a b => a.header = b.header → a.uuid ≠ b.uuid ∧ a.timestamp ≠ b.timestamp)

lemma Opens.init_sound : Opens.init.Sound c wall where
  ttl := rfl
  cap := rfl
  coherent := ⟨fun n => iff_of_false (AList.notMem_empty n) not_mem_nil,nodup_nil⟩
  size := le_rfl
  held := fun a ha => by cases ha
  once := List.Pairwise.nil

lemma take_header {buf : Bytes} {hlen : ℕ} (h : vmessOpenHeaderByteLen buf = some hlen) :
    (buf.take hlen).take 12 = buf.take 12 := by
  unfold vmessOpenHeaderByteLen at h
  split_ifs at h
  rw [Option.some.injEq] at h
  rw [take_take,min_eq_left (by omega)]

lemma Opens.Sound.step (hwall : KeepsUp wall) (hs : s.Sound c wall) (hok : Punctual c wall o)
    (h : s.step c wall o = some s') (hfew : s.insertions < 50000) : s'.Sound c wall := by
  obtain ⟨hclock,hread,hin⟩ := Opens.step_time h
  have hroom : s.cache.set.len < s.cache.maxEntries := by
    rw [hs.cap]
    exact lt_of_le_of_lt hs.size hfew
  have hexp := hs.coherent.expire o.clock
  have hsize := (s.cache.len_expire_le o.clock).trans hs.size
  have hheld : ∀ a ∈ s.accepted, Held c wall (s.cache.expire o.clock) o.clock a :=
    fun a ha => (hs.held a ha).expire hs.ttl hclock
  cases Opens.step_move h hroom with
  | incomplete => exact hs
  | replay => exact ⟨hs.ttl,hs.cap,hexp,hsize,hheld,hs.once⟩
  | refused hnew =>
    refine ⟨hs.ttl,hs.cap,hexp.record o.clock hnew,?_,fun a ha => (hheld a ha).record _ _,hs.once⟩
    rw [ReplayCache.len_record o.clock hnew]
    exact Nat.succ_le_succ hsize
  | @accepted hlen hd hbytes hnew hopen =>
    obtain ⟨hstamp,hwin⟩ := timestamp_of_open hopen
    refine ⟨hs.ttl,hs.cap,hexp.record o.clock hnew,?_,?_,?_⟩
    · rw [ReplayCache.len_record o.clock hnew]
      exact Nat.succ_le_succ hsize
    · intro a ha
      rcases List.mem_cons.mp ha with rfl | ha
      · refine ⟨hstamp,hok hlen hbytes _ hstamp,.inl ?_⟩
        rw [take_header hbytes]
        exact mem_append_right _ (mem_singleton_self _)
      · exact (hheld a ha).record _ _
    · refine List.pairwise_cons.mpr ⟨fun a ha heq => ?_,hs.once⟩
      -- a header that came back with its timestamp would still be known
      have hts : hd.timestamp ≠ a.timestamp := by
        intro hts
        rw [hts] at hwin
        have hknown := (hs.held a ha).known hwall hs.ttl hs.coherent hclock hread hin hwin
        rw [← heq,take_header hbytes] at hknown
        exact hnew hknown
      refine ⟨fun huuid => hts ?_,hts⟩
      have hsame := (hs.held a ha).stamped
      rw [← huuid,← heq,hstamp,Option.some.injEq] at hsame
      exact hsame

/-- In every run whose headers are sealed in a second that is over, no header is accepted twice:
its nonce is known as long as it is in the window. -/
theorem vmess_opens_not_replayable (hwall : KeepsUp wall)
    (run : Run (Opens.step c wall) (fun _ o => Punctual c wall o) .init s)
    (hfew : s.insertions < 50000) : s.accepted.Pairwise
        (fun a b => a.header = b.header → a.uuid ≠ b.uuid ∧ a.timestamp ≠ b.timestamp) ∧
      ∀ a ∈ s.accepted, ∀ clock read, s.clock ≤ clock → clock ≤ read → InCalendar (wall read) →
        within 120 (unixSecs wall read) a.timestamp = true →
          a.header.take 12 ∈ (s.cache.expire clock).set := by
  have hsound : s.insertions < 50000 → s.Sound c wall := by
    refine Run.invariant (I := fun s => s.insertions < 50000 → s.Sound c wall) ?_
      (fun _ => Opens.init_sound) run
    intro s o s' hs hok hstep hfew
    have hbefore := lt_of_le_of_lt (Opens.insertions_le hstep) hfew
    exact (hs hbefore).step hwall hok hstep hbefore
  have hs := hsound hfew
  exact ⟨hs.once,fun a ha clock read hclock hread hin hwin =>
    (hs.held a ha).known hwall hs.ttl hs.coherent hclock hread hin hwin⟩

def plainCrypto : Crypto where
  parseUuid _ := .error ""
  sha224 _ := []
  md5 _ := []
  aes128GcmDecrypt _ _ text := .ok text
  cipherKind _ := none
  opensslBytesToKey _ _ := []
  decryptPacket _ _ _ _ _ := none

def headerAt100 : Bytes := List.replicate 12 0++[0,13]++[0,0,0,0,0,0,0,100]++[1,0,80,2,0]

def receivedAt (secs : ℕ) : VmessOpen :=
  ⟨secs*10^9,secs*10^9,List.Vector.replicate 16 0,headerAt100⟩

def sameClock (t : ℕ) : ℤ := t

lemma sameClock_keepsUp : KeepsUp sameClock := fun _ _ _ => le_rfl

theorem vmess_open_once_punctual : ∃ s : Opens, s.accepted.length = 1 ∧
      ∀ a ∈ s.accepted, ∀ clock read, s.clock ≤ clock → clock ≤ read →
        InCalendar (sameClock read) → within 120 (unixSecs sameClock read) a.timestamp = true →
          a.header.take 12 ∈ (s.cache.expire clock).set := by
  obtain ⟨s,run,hfew,hone⟩ : ∃ s, Run (Opens.step plainCrypto sameClock)
      (fun _ o => Punctual plainCrypto sameClock o) .init s ∧
        s.insertions < 50000 ∧ s.accepted.length = 1 :=
    exists_run [receivedAt 110,receivedAt 111] (by decide +kernel)
  exact ⟨s,hone,(vmess_opens_not_replayable sameClock_keepsUp run hfew).2⟩

theorem vmess_open_replayed :
    ∃ s, Run (Opens.step plainCrypto sameClock) anyStep .init s ∧ s.insertions < 50000 ∧
      s.accepted.map (fun a => (a.header,a.timestamp)) = [(headerAt100,100),(headerAt100,100)] :=
  exists_run [receivedAt 0,receivedAt 121] (by decide +kernel)

end PirateServer.Wire
