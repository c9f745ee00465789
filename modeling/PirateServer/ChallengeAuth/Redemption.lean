import PirateServer.ChallengeAuth.Message
import PirateServer.Lib.Census
import PirateServer.Lib.Run
import PirateServer.Lib.Table

/-! The challenge-response server: any number of requests that issue challenges and redeem them.
A step is one operation on the store; what a request computes from what it has read belongs to the
step that reads. The store is swept before it is used, in a step of its own. -/
namespace PirateServer.ChallengeAuth
open Lib List Option

inductive ApiError
  | badRequest (text : String)
  | unauthorized (text : String)
  | config (text : String)
  deriving DecidableEq, Repr

/-- `AppState` without the store. -/
structure Config (Uuid : Type) where
  crypto : Crypto Uuid
  secret : Bytes
  ttlMs : Int64
  skewMs : Int64

structure PendingChallenge where
  nonce : Nonce
  challengeTimestampMs : Int64
  createdAtWallMs : Int64
  deriving DecidableEq, Repr

/-- A challenge in the store, with its number among all challenges, which the program has no use
for. -/
structure Entry where
  number : ℕ
  pending : PendingChallenge
  deriving DecidableEq, Repr

structure AuthAttemptJson where
  sessionId : String
  nonce : String
  timestamp : Int64
  signature : String
  deriving DecidableEq, Repr

/-- `now.saturating_sub(then)`. -/
def elapsed (now earlier : Int64) : ℤ := Wrapping.saturate (now.toInt-earlier.toInt)

inductive Verdict
  | refused (error : ApiError)
  | expired
  | accepted
  deriving DecidableEq, Repr

/-- A request on its way: `/v1/challenge` before and after the store is swept, and when it is
answered; `/v1/authenticate` before and after the store is swept, with an expired or with a
verified challenge still to be removed, and when it is answered. -/
inductive Task (Uuid : Type)
  | recording (sid : Uuid) (pending : PendingChallenge) (pruned : Bool)
  | recorded (sid : Uuid) (pending : PendingChallenge)
  | looking (sid : Uuid) (body : AuthAttemptJson) (now : Int64) (pruned : Bool)
  | expired (sid : Uuid)
  | redeeming (sid : Uuid) (now : Int64) (challenge : Entry)
  | redeemed (sid : Uuid) (now : Int64) (challenge : Entry)
  | refused (error : ApiError)
  deriving DecidableEq, Repr

/-- A call of `hmac_sha256_sign` with the secret of the server. -/
structure SigningCall where
  nonce : Bytes
  timestampMs : Int64
  sessionId : String
  deriving DecidableEq, Repr

def SigningCall.message (call : SigningCall) : Except CanonicalError Bytes :=
  canonicalHmacMessage call.nonce call.timestampMs call.sessionId

inductive Label (Uuid : Type)
  | challenge (sid : Uuid) (nonce : Nonce) (clock : Option Int64)
  | authenticate (body : AuthAttemptJson) (clock : Option Int64)
  | advance (task : ℕ) (clock : Option Int64)
  | sign (call : SigningCall)
  deriving DecidableEq, Repr

section
variable {Uuid : Type} [DecidableEq Uuid]

/-- The store, the challenges it has ever been given, the requests and the calls of holders of the
secret. -/
structure Sys (Uuid : Type) where
  store : Table Uuid Entry
  issued : List (Uuid × PendingChallenge)
  tasks : List (Task Uuid)
  signed : List SigningCall

def Sys.init : Sys Uuid := ⟨∅,[],[],[]⟩

/-- `post_authenticate` after it has read the challenge. -/
def judge (cfg : Config Uuid) (now : Int64) (sid : Uuid) (body : AuthAttemptJson)
    (pending : PendingChallenge) : Verdict :=
  if cfg.ttlMs.toInt < elapsed now pending.createdAtWallMs then .expired
  else if !Wrapping.within cfg.skewMs now body.timestamp then
    .refused (.unauthorized "timestamp skew too large")
  else
    match nonceFromBase64Fixed cfg.crypto body.nonce with
    | .error _ => .refused (.badRequest "nonce is invalid base64 or length")
    | .ok nonce =>
      if nonce ≠ pending.nonce ∨ pending.challengeTimestampMs ≠ body.timestamp then
        .refused (.unauthorized "nonce does not match session state")
      else
        match hmacSha256VerifyHex cfg.crypto cfg.secret nonce.1 body.timestamp
          (cfg.crypto.uuidText sid) (Text.trim body.signature) with
        | .error e => .refused (.badRequest ("signature encoding invalid: "++e.text))
        | .ok false => .refused (.unauthorized "signature mismatch")
        | .ok true => .accepted

/-- `prune`, which does nothing if the clock cannot be read. -/
def prune (cfg : Config Uuid) (clock : Option Int64) (store : Table Uuid Entry) :
    Table Uuid Entry :=
  match clock with
  | none => store
  | some now =>
    store.retain (fun _ e => elapsed now e.pending.createdAtWallMs ≤
      max (Wrapping.saturate (cfg.ttlMs.toInt*3)) cfg.ttlMs.toInt)

namespace Sys

def join (s : Sys Uuid) (t : Task Uuid) : Sys Uuid := { s with tasks := s.tasks++[t] }

variable (cfg : Config Uuid) (s : Sys Uuid)

def look (sid : Uuid) (body : AuthAttemptJson) (now : Int64) :
    Task Uuid :=
  match s.store.lookup sid with
  | none => .refused (.unauthorized "unknown or redeemed session")
  | some e =>
    match judge cfg now sid body e.pending with
    | .refused error => .refused error
    | .expired => .expired sid
    | .accepted => .redeeming sid now e

def advance (i : ℕ) (clock : Option Int64) :
    Task Uuid → Option (Sys Uuid)
  | .recording sid pending false => some { s with
      store := prune cfg clock s.store
      tasks := s.tasks.set i (.recording sid pending true) }
  | .recording sid pending true => some { s with
      store := s.store.insert sid ⟨s.issued.length,pending⟩
      issued := s.issued++[(sid,pending)]
      tasks := s.tasks.set i (.recorded sid pending) }
  | .looking sid body now false => some { s with
      store := prune cfg clock s.store
      tasks := s.tasks.set i (.looking sid body now true) }
  | .looking sid body now true => some { s with tasks := s.tasks.set i (s.look cfg sid body now) }
  | .expired sid => some { s with
      store := s.store.erase sid
      tasks := s.tasks.set i
        (.refused (.unauthorized "challenge expired; request `/v1/challenge` again")) }
  | .redeeming sid now e => some { s with
      store := s.store.erase sid
      tasks := s.tasks.set i (.redeemed sid now e) }
  | _ => none

def step : Label Uuid → Option (Sys Uuid)
  | .challenge _ _ none => some (s.join (.refused (.config "cannot read clock")))
  | .challenge sid nonce (some now) => some (s.join (.recording sid ⟨nonce,now,now⟩ false))
  | .authenticate body clock =>
    match cfg.crypto.parseUuid (Text.trim body.sessionId),clock with
    | none,_ => some (s.join (.refused (.badRequest "session_id must be UUID")))
    | some _,none => some (s.join (.refused (.config "cannot read clock")))
    | some sid,some now => some (s.join (.looking sid body now false))
  | .advance i clock => s.tasks[i]?.bind (s.advance cfg i clock)
  | .sign call => some { s with signed := s.signed++[call] }

def reads (s : Sys Uuid) : Label Uuid → Option (Uuid × AuthAttemptJson × Entry)
  | .advance i _ =>
    match s.tasks[i]? with
    | some (.looking sid body _ true) => (s.store.lookup sid).map (fun e => (sid,body,e))
    | _ => none
  | _ => none

/-- No tag is forged: a tag that verifies for the challenge that is read was computed over the
message of that challenge. -/
def unforged (a : Label Uuid) : Bool :=
  (s.reads a).all (fun (sid,body,e) =>
    match canonicalHmacMessage e.pending.nonce.1 e.pending.challengeTimestampMs
      (cfg.crypto.uuidText sid) with
    | .error _ => true
    | .ok msg =>
      decide (cfg.crypto.hexDecode (Text.trim body.signature) = .ok
        (cfg.crypto.hmac cfg.secret msg).1
        → ∃ call ∈ s.signed, call.message = .ok msg))

end Sys

/-- The challenge that a request has verified, with the session and the time that it did so for. -/
def Task.claim : Task Uuid → Option (Uuid × Int64 × Entry)
  | .redeeming sid now e => some (sid,now,e)
  | .redeemed sid now e => some (sid,now,e)
  | _ => none

/-- The challenge that a request has verified and not removed yet. -/
def Task.holds : Task Uuid → Option ℕ
  | .redeeming _ _ e => some e.number
  | _ => none

/-- The challenge that a request was let in with. -/
def Task.spent : Task Uuid → Option ℕ
  | .redeemed _ _ e => some e.number
  | _ => none

/-- No request reads a challenge between another one's verification and removal of it. -/
def Sys.exclusive (s : Sys Uuid) (a : Label Uuid) : Bool :=
  (s.reads a).all (fun (_,_,e) => s.tasks.all (fun t => t.holds ≠ some e.number))

/-! What a step does. -/

inductive Move (cfg : Config Uuid) (s : Sys Uuid) : Label Uuid → Sys Uuid → Prop
  | join {a t} (idle : t.claim = none) : Move cfg s a (s.join t)
  | quiet {a i t t' store} (here : s.tasks[i]? = some t) (idle : t.claim = none)
      (idle' : t'.claim = none)
      (sub : ∀ sid e, store.lookup sid = some e → s.store.lookup sid = some e) :
      Move cfg s a { s with store := store, tasks := s.tasks.set i t' }
  | record {i clock sid pending} (here : s.tasks[i]? = some (.recording sid pending true)) :
      Move cfg s (.advance i clock) { s with
        store := s.store.insert sid ⟨s.issued.length,pending⟩
        issued := s.issued++[(sid,pending)]
        tasks := s.tasks.set i (.recorded sid pending) }
  | accept {i clock sid body now e} (here : s.tasks[i]? = some (.looking sid body now true))
      (found : s.store.lookup sid = some e) (accepted : judge cfg now sid body e.pending =
        .accepted) :
      Move cfg s (.advance i clock) { s with tasks := s.tasks.set i (.redeeming sid now e) }
  | redeem {i clock sid now e} (here : s.tasks[i]? = some (.redeeming sid now e)) :
      Move cfg s (.advance i clock) { s with
        store := s.store.erase sid
        tasks := s.tasks.set i (.redeemed sid now e) }
  | sign {call} : Move cfg s (.sign call) { s with signed := s.signed++[call] }

variable {cfg : Config Uuid} {s s' : Sys Uuid} {a : Label Uuid}
  {clock : Option Int64} {e : Entry} {store : Table Uuid Entry} {sid : Uuid}

lemma lookup_prune
    (h : (prune cfg clock store).lookup sid = some e) : store.lookup sid = some e := by
  cases clock with
  | none => exact h
  | some now => exact (Table.lookup_retain_eq_some.mp h).1

lemma lookup_erase_of {k : Uuid}
    (h : (store.erase k).lookup sid = some e) : sid ≠ k ∧ store.lookup sid = some e := by
  by_cases hk : sid = k
  · rw [hk,AList.lookup_erase] at h
    cases h
  · rw [AList.lookup_erase_ne hk] at h
    exact ⟨hk,h⟩

variable {i : ℕ} {t : Task Uuid}

lemma advance_move (ht : s.tasks[i]? = some t)
    (h : s.advance cfg i clock t = some s') : Move cfg s (.advance i clock) s' := by
  cases t with
  | recording sid pending pruned =>
    cases pruned with
    | false =>
      cases h
      exact .quiet ht rfl rfl (fun _ _ => lookup_prune)
    | true =>
      cases h
      exact .record ht
  | recorded sid pending | redeemed sid now e | refused error => cases h
  | looking sid body now pruned =>
    cases pruned with
    | false =>
      cases h
      exact .quiet ht rfl rfl (fun _ _ => lookup_prune)
    | true =>
      cases h
      unfold Sys.look
      split
      · exact .quiet ht rfl rfl (fun _ _ hl => hl)
      rename_i e he
      split
      · exact .quiet ht rfl rfl (fun _ _ hl => hl)
      · exact .quiet ht rfl rfl (fun _ _ hl => hl)
      · rename_i hj
        exact .accept ht he hj
  | expired sid =>
    cases h
    exact .quiet ht rfl rfl (fun _ _ hl => (lookup_erase_of hl).2)
  | redeeming sid now e =>
    cases h
    exact .redeem ht

lemma step_move (h : s.step cfg a = some s') : Move cfg s a s' := by
  cases a with
  | challenge sid nonce clock =>
    cases clock with
    | none | some now =>
      cases h
      exact .join rfl
  | authenticate body clock =>
    simp only [Sys.step] at h
    split at h
    all_goals
      cases h
      exact .join rfl
  | advance i clock =>
    obtain ⟨t,ht,hadv⟩ := Option.bind_eq_some_iff.mp h
    exact advance_move ht hadv
  | sign call =>
    cases h
    exact .sign

/-! Every request that is let in has a proof for the challenge it names. -/

def Task.Vouched (cfg : Config Uuid) (issued : List (Uuid × PendingChallenge))
    (signed : List SigningCall) (sid : Uuid) (now : Int64) (e : Entry) : Prop :=
  issued[e.number]? = some (sid,e.pending) ∧
    elapsed now e.pending.createdAtWallMs ≤ cfg.ttlMs.toInt ∧
    (⟨e.pending.nonce.1,e.pending.challengeTimestampMs,
      cfg.crypto.uuidText sid⟩ : SigningCall) ∈ signed

structure Sound (cfg : Config Uuid) (s : Sys Uuid) : Prop where
  store : ∀ sid e, s.store.lookup sid = some e → s.issued[e.number]? = some (sid,e.pending)
  claims : ∀ t ∈ s.tasks, ∀ sid now e, t.claim = some (sid,now,e) →
    Task.Vouched cfg s.issued s.signed sid now e

variable {now : Int64}

omit [DecidableEq Uuid] in
lemma judge_accepted {body : AuthAttemptJson} {p : PendingChallenge}
    (h : judge cfg now sid body p = .accepted) : elapsed now p.createdAtWallMs ≤ cfg.ttlMs.toInt ∧
      ∃ msg, canonicalHmacMessage p.nonce.1 p.challengeTimestampMs
        (cfg.crypto.uuidText sid) = .ok msg ∧
        cfg.crypto.hexDecode (Text.trim body.signature) = .ok
          (cfg.crypto.hmac cfg.secret msg).1 := by
  unfold judge at h
  split_ifs at h with httl hskew
  split at h
  · cases h
  split_ifs at h with hsame
  push Not at hsame
  split at h
  · cases h
  · cases h
  · rename_i hverify
    rw [hsame.1,← hsame.2] at hverify
    exact ⟨not_lt.mp httl,message_of_verify hverify⟩

variable {body : AuthAttemptJson}

lemma signed_of_unforged {msg : Bytes} (here : s.tasks[i]? = some (.looking sid body now true))
    (found : s.store.lookup sid = some e) (h : s.unforged cfg (.advance i clock) = true)
    (hmsg : canonicalHmacMessage e.pending.nonce.1 e.pending.challengeTimestampMs
      (cfg.crypto.uuidText sid) = .ok msg)
    (htag : cfg.crypto.hexDecode (Text.trim body.signature) = .ok
      (cfg.crypto.hmac cfg.secret msg).1) :
    (⟨e.pending.nonce.1,e.pending.challengeTimestampMs,cfg.crypto.uuidText sid⟩ : SigningCall)
      ∈ s.signed := by
  simp only [Sys.unforged,Sys.reads,here,found,map_some,all_some,hmsg,decide_eq_true_eq] at h
  obtain ⟨⟨nonce,ts,text⟩,hcall,heq⟩ := h htag
  obtain ⟨rfl,rfl,rfl⟩ := canonicalHmacMessage_inj hmsg heq
  exact hcall

omit [DecidableEq Uuid] in
lemma Task.Vouched.grow {issued m : List (Uuid × PendingChallenge)} {signed f : List SigningCall}
    (h : Task.Vouched cfg issued signed sid now e) :
    Task.Vouched cfg (issued++m) (signed++f) sid now e := by
  obtain ⟨hissued,httl,hcall⟩ := h
  refine ⟨?_,httl,mem_append_left _ hcall⟩
  rw [getElem?_append_left (List.getElem?_eq_some_iff.mp hissued).1]
  exact hissued

lemma sound_init : Sound cfg (Sys.init : Sys Uuid) := by
  refine ⟨fun sid e h => ?_,fun t ht => ?_⟩
  · simp [Sys.init] at h
  · cases ht

lemma sound_step (hs : Sound cfg s) (hok : s.unforged cfg a = true) (h : s.step cfg a = some s') :
    Sound cfg s' := by
  obtain move := step_move h
  cases move with
  | join idle =>
    refine ⟨hs.store,fun t ht sid now e hc => ?_⟩
    rcases List.mem_append.mp ht with ht | ht
    · exact hs.claims t ht sid now e hc
    · rw [List.mem_singleton.mp ht,idle] at hc
      cases hc
  | quiet here idle idle' sub =>
    refine ⟨fun sid e he => hs.store sid e (sub sid e he),fun t ht sid now e hc => ?_⟩
    rcases mem_or_eq_of_mem_set ht with ht | rfl
    · exact hs.claims t ht sid now e hc
    · rw [idle'] at hc
      cases hc
  | @record i clock sid pending here =>
    refine ⟨fun k e he => ?_,fun t ht k now e hc => ?_⟩
    · rw [Table.lookup_insert_eq] at he
      split_ifs at he with hk
      · cases he
        rw [hk]
        simp
      · have hold := hs.store k e he
        rw [getElem?_append_left (List.getElem?_eq_some_iff.mp hold).1]
        exact hold
    · rcases mem_or_eq_of_mem_set ht with ht | rfl
      · simpa using (hs.claims t ht k now e hc).grow (m := [(sid,pending)]) (f := [])
      · cases hc
  | @accept i clock sid body now e here found accepted =>
    refine ⟨hs.store,fun t ht k time c hc => ?_⟩
    rcases mem_or_eq_of_mem_set ht with ht | rfl
    · exact hs.claims t ht k time c hc
    · cases hc
      obtain ⟨httl,msg,hmsg,htag⟩ := judge_accepted accepted
      have hcall := signed_of_unforged here found hok hmsg htag
      exact ⟨hs.store _ _ found,httl,hcall⟩
  | redeem here =>
    refine ⟨fun k e he => hs.store k e (lookup_erase_of he).2,fun t ht k now e hc => ?_⟩
    rcases mem_or_eq_of_mem_set ht with ht | rfl
    · exact hs.claims t ht k now e hc
    · cases hc
      exact hs.claims _ (mem_of_getElem? here) _ _ _ rfl
  | @sign call =>
    refine ⟨hs.store,fun t ht k now e hc => ?_⟩
    simpa using (hs.claims t ht k now e hc).grow (m := []) (f := [call])

/-! If no two requests are at one challenge at a time, only one is let in with it. -/

def Task.claims (c : ℕ) (t : Task Uuid) : Bool := t.claim.any (fun (_,_,e) => e.number = c)

/-- At most one request has verified a challenge, and a challenge that one was let in with has left
the store. -/
structure Single (s : Sys Uuid) : Prop where
  one : ∀ c, Census.count (Task.claims c) s.tasks ≤ 1
  gone : ∀ t ∈ s.tasks, ∀ c, t.spent = some c → ∀ sid e, s.store.lookup sid = some e → e.number ≠ c

lemma single_init : Single (Sys.init : Sys Uuid) := by
  refine ⟨fun c => ?_,fun t ht => ?_⟩
  · simp [Sys.init,Census.count]
  · cases ht

omit [DecidableEq Uuid] in
lemma claims_of_idle (h : t.claim = none) (c : ℕ) : t.claims c = false := by
  simp [Task.claims,h]

omit [DecidableEq Uuid] in
lemma spent_of_idle (h : t.claim = none) : t.spent = none := by
  cases t with
  | redeemed sid now e => cases h
  | _ => rfl

omit [DecidableEq Uuid] in
lemma count_set_same (here : s.tasks[i]? = some t) (u : Task Uuid) {c : ℕ}
    (h : u.claims c = t.claims c) :
    Census.count (Task.claims c) (s.tasks.set i u) = Census.count (Task.claims c) s.tasks := by
  have hset := Census.total_set (fun t : Task Uuid => (t.claims c).toNat) here u
  rw [h] at hset
  unfold Census.count
  omega

lemma count_eq_zero_of_read (hs : Single s)
    (here : s.tasks[i]? = some (.looking sid body now true)) (found : s.store.lookup sid = some e)
    (hok : s.exclusive (.advance i clock) = true) :
    Census.count (Task.claims e.number) s.tasks = 0 := by
  simp only [Sys.exclusive,Sys.reads,here,found,map_some,all_some,List.all_eq_true,
    decide_eq_true_eq] at hok
  refine Census.total_eq_zero (fun t ht => ?_)
  have hfree := hok t ht
  have hgone := hs.gone t ht e.number
  cases t with
  | redeeming k time c => simpa [Task.claims,Task.claim,Task.holds] using hfree
  | redeemed k time c =>
    have hne : c.number ≠ e.number := fun heq => hgone (by simp [Task.spent,heq]) sid e found rfl
    simpa [Task.claims,Task.claim] using hne
  | _ => rfl

lemma single_step (hsound : Sound cfg s) (hs : Single s) (hok : s.exclusive a = true)
    (h : s.step cfg a = some s') : Single s' := by
  obtain move := step_move h
  cases move with
  | @join a t idle =>
    refine ⟨fun c => ?_,fun u hu c hspent => ?_⟩
    · have hone := hs.one c
      unfold Census.count at hone ⊢
      simp only [Sys.join,Census.total_concat,claims_of_idle idle,Bool.toNat_false]
      exact hone
    · rcases List.mem_append.mp hu with hu | hu
      · exact hs.gone u hu c hspent
      · rw [List.mem_singleton.mp hu,spent_of_idle idle] at hspent
        cases hspent
  | @quiet a i t t' store here idle idle' sub =>
    refine ⟨fun c => ?_,fun u hu c hspent sid e he => ?_⟩
    · rw [count_set_same here t' (by rw [claims_of_idle idle,claims_of_idle idle'])]
      exact hs.one c
    · rcases mem_or_eq_of_mem_set hu with hu | rfl
      · exact hs.gone u hu c hspent sid e (sub sid e he)
      · rw [spent_of_idle idle'] at hspent
        cases hspent
  | @record i clock sid pending here =>
    refine ⟨fun c => ?_,fun u hu c hspent k e he => ?_⟩
    · rw [count_set_same here (.recorded sid pending) rfl]
      exact hs.one c
    rcases mem_or_eq_of_mem_set hu with hu | rfl
    swap
    · cases hspent
    rw [Table.lookup_insert_eq] at he
    split_ifs at he with hk
    swap
    · exact hs.gone u hu c hspent k e he
    -- the number of the new challenge is not in use
    cases he
    rintro rfl
    cases u with
    | redeemed k' time e' =>
      obtain ⟨hissued,_⟩ := hsound.claims _ hu _ _ _ rfl
      have hnumber : e'.number = s.issued.length := Option.some.inj hspent
      have hlt := (List.getElem?_eq_some_iff.mp hissued).1
      omega
    | _ => cases hspent
  | @accept i clock sid body now e here found accepted =>
    have hzero := count_eq_zero_of_read hs here found hok
    refine ⟨fun c => ?_,fun u hu c hspent => ?_⟩
    · by_cases hc : e.number = c
      · subst hc
        have hset := Census.total_set (fun t : Task Uuid => (t.claims e.number).toNat) here
          (.redeeming sid now e)
        have hnew : (Task.redeeming sid now e).claims e.number = true := by
          simp [Task.claims,Task.claim]
        have hold : (Task.looking sid body now true).claims e.number = false := rfl
        unfold Census.count at hzero ⊢
        simp only [hnew,hold,Bool.toNat_true,Bool.toNat_false] at hset ⊢
        omega
      · rw [count_set_same here (.redeeming sid now e) (by simp [Task.claims,Task.claim,hc])]
        exact hs.one c
    · rcases mem_or_eq_of_mem_set hu with hu | rfl
      · exact hs.gone u hu c hspent
      · cases hspent
  | @redeem i clock sid now e here =>
    refine ⟨fun c => ?_,fun u hu c hspent k e' he => ?_⟩
    · rw [count_set_same here (.redeemed sid now e) rfl]
      exact hs.one c
    obtain ⟨hk,he⟩ := lookup_erase_of he
    rcases mem_or_eq_of_mem_set hu with hu | rfl
    · exact hs.gone u hu c hspent k e' he
    -- a challenge is in the store for its own session only
    cases hspent
    intro hnumber
    obtain ⟨hissued,_⟩ := hsound.claims _ (mem_of_getElem? here) _ _ _ rfl
    have hother := hsound.store k e' he
    rw [hnumber,hissued] at hother
    exact hk (Prod.ext_iff.mp (Option.some.inj hother)).1.symm
  | sign => exact ⟨hs.one,hs.gone⟩

/-- In every run without forged tags: whoever is let in has a challenge that was issued for the
session, in time, with a tag that a holder of the secret computed over its nonce, its timestamp and
its session id. If moreover no request reads a challenge between another one's verification and
removal of it, then at most one request is let in with each challenge. -/
theorem challenges_redeemed (cfg : Config Uuid) (s : Sys Uuid)
    (h : Run (Sys.step cfg) (fun s a => s.unforged cfg a = true) .init s) :
    (∀ sid now e, .redeemed sid now e ∈ s.tasks → s.issued[e.number]? = some (sid,e.pending) ∧
        elapsed now e.pending.createdAtWallMs ≤ cfg.ttlMs.toInt ∧
        (⟨e.pending.nonce.1,e.pending.challengeTimestampMs,cfg.crypto.uuidText sid⟩ : SigningCall)
          ∈ s.signed) ∧
    (Run (Sys.step cfg) (fun s a => s.unforged cfg a = true ∧ s.exclusive a = true) .init s →
      ∀ c, Census.count (fun t => decide (t.spent = some c)) s.tasks ≤ 1) := by
  have hsound : Sound cfg s := h.invariant (fun _ _ _ hI hok hs => sound_step hI hok hs) sound_init
  refine ⟨fun sid now e ht => hsound.claims _ ht _ _ _ rfl,fun h' c => ?_⟩
  have hsingle : Single s := by
    refine h'.invariant_of (J := Sound cfg) (fun t ht => ?_)
      (fun _ _ _ hJ hI hok hs => single_step hJ hI hok.2 hs) single_init
    exact ht.invariant (fun _ _ _ hI hok hs => sound_step hI hok.1 hs) sound_init
  refine (Census.count_le_count (fun t _ ht => ?_)).trans (hsingle.one c)
  cases t with
  | redeemed k time e => simpa [Task.spent,Task.claims,Task.claim] using ht
  | _ => simp [Task.spent] at ht

end

/-! A session of one client, whose tag is all zeros. -/

def sampleCrypto : Crypto ℕ :=
  ⟨fun _ _ => ⟨List.replicate 32 0,by simp⟩,fun _ => .ok (List.replicate 32 0),
    fun _ => .ok (List.replicate 16 0),fun _ => some 7,fun _ => "7"⟩

def sampleConfig : Config ℕ := ⟨sampleCrypto,[],1000,1000⟩

def sampleNonce : Nonce := ⟨List.replicate 16 0,by decide⟩

def twoAttempts : List (Label ℕ) :=
  [.challenge 7 sampleNonce (some 5),.advance 0 (some 5),.advance 0 none,
    .sign ⟨sampleNonce.1,5,"7"⟩,.authenticate ⟨"7","",5,""⟩ (some 6),
    .authenticate ⟨"7","",5,""⟩ (some 6)]

theorem challenges_redeemed_one_after_the_other : ∃ s,
    Run (Sys.step sampleConfig) (fun s a => s.unforged sampleConfig a = true) .init s ∧
      Census.count (fun t => decide (t.spent = some 0)) s.tasks = 1 ∧
      ∀ c, Census.count (fun t => decide (t.spent = some c)) s.tasks ≤ 1 := by
  have hexists : ∃ s, Run (Sys.step sampleConfig)
      (fun s a => s.unforged sampleConfig a = true ∧ s.exclusive a = true) .init s ∧
      Census.count (fun t => decide (t.spent = some 0)) s.tasks = 1 :=
    exists_run (twoAttempts++[.advance 1 none,.advance 1 none,.advance 1 none,.advance 2 none,
      .advance 2 none]) (by decide +kernel)
  obtain ⟨s,hrun,hone⟩ := hexists
  have hrun' : Run (Sys.step sampleConfig) (fun s a => s.unforged sampleConfig a = true) .init s :=
    hrun.mono (fun _ _ _ hok => hok.1)
  exact ⟨s,hrun',hone,(challenges_redeemed sampleConfig s hrun').2 hrun⟩

theorem challenge_redeemed_twice : ∃ s,
    Run (Sys.step sampleConfig) (fun s a => s.unforged sampleConfig a = true) .init s ∧
      Census.count (fun t => decide (t.spent = some 0)) s.tasks = 2 :=
  exists_run (twoAttempts++[.advance 1 none,.advance 2 none,.advance 1 none,.advance 2 none,
    .advance 1 none,.advance 2 none]) (by decide +kernel)

end PirateServer.ChallengeAuth
