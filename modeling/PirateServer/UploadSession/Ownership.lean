import PirateServer.UploadSession.Commit

/-! To whom a session for an artifact belongs, and what becomes of its file. Completing and deleting
take the session out of the table before they look at its project; and a deletion for another
project, or a failure after the session has been taken, leaves the file. -/
namespace PirateServer.UploadSession
open Lib List

def Request.caller : Request → Caller
  | chunk r => r.caller
  | complete caller _ => caller
  | delete caller => caller

def Request.isChunk : Request → Bool
  | chunk _ => true
  | _ => false

/-- The bearer token and the project of the path are accepted. -/
def admits (cfg : Config) (caller : Caller) : Bool :=
  match admitCaller cfg.service caller with
  | .ok () => true
  | .error _ => false

/-- What the sweep that begins every request does to a session and its file. -/
def Slot.sweep (cfg : Config) (now : Int64) (x : Slot) : Slot :=
  if x.session.any (fun sess => sessionIsExpired cfg sess now) then { x with session :=
    none }.unlink
  else x

/-- A request for the session at `k`, undisturbed, in a table of sessions: it sweeps all of them,
and goes on with its own. -/
def settleTable (cfg : Config) (now : Int64) (verdict : Except ApiError Unit) (n : ℕ)
    (table : List Slot) (k : ℕ) (r : Request) : Option (List Slot × Answer) :=
  table[k]?.bind fun x => (settle cfg now verdict n x (.arrived r)).map
    fun (y,a) => ((table.map (Slot.sweep cfg now)).set k y,a)

/-! A request for another project, in any state of the session. -/

variable {cfg : Config} {x y : Slot} {t t' : Task} {a : Act} {now : Int64}
  {verdict : Except ApiError Unit} {sess : Session}

lemma Turn.session_none (hturn : Turn cfg x a t y t') (h : x.session = none) :
    y.session = none := by
  cases hturn with
  | update found _ => rw [h] at found; cases found
  | unlink gone _ =>
    rcases gone with rfl | rfl
    · exact h
    · exact h
  | dismiss _ _ _ => rfl
  | take _ _ _ => rfl
  | _ => exact h

lemma settle_session_none {n : ℕ} {b : Answer} (h : settle cfg now verdict n x t = some (y,b))
    (hnone : x.session = none) : y.session = none := by
  induction n generalizing x t with
  | zero =>
    obtain ⟨_,rfl⟩ | ⟨m,_,_,hm,_⟩ := settle_cases h
    · exact hnone
    · cases hm
  | succ n ih =>
    obtain ⟨_,rfl⟩ | ⟨m,z,t',hm,hturned,hrest⟩ := settle_cases h
    · exact hnone
    · cases hm
      exact ih hrest ((turned_turn hturned).session_none hnone)

lemma lockChunk_foreign (cfg : Config) (now : Int64) {r : ChunkRequest}
    (hforeign : sess.target.belongsTo r.caller.projectId = false) :
    ∃ e, lockChunk cfg now r (some sess) = (some sess,.answered (.error e)) := by
  unfold lockChunk
  cases admitCaller cfg.service r.caller with
  | error e => exact ⟨e,rfl⟩
  | ok u =>
    cases parseOffset r.offset with
    | error e => exact ⟨e,rfl⟩
    | ok offset =>
      simp only [hforeign,Bool.not_false,if_true]
      exact ⟨_,rfl⟩

lemma locked_foreign (now : Int64) {r : Request} (hservice : cfg.service = .deploy)
    (hforeign : sess.target.belongsTo r.caller.projectId = false) (hchunk : r.isChunk = false) :
    ∃ u, locked cfg now (.swept r) (some sess) = some
      (if admits cfg r.caller then none else some sess,u) ∧
      (admits cfg r.caller = false → ∃ e, u = .answered (.error e)) := by
  cases r with
  | chunk r => cases hchunk
  | complete caller root =>
    have hforeign' : sess.target.belongsTo caller.projectId = false := hforeign
    cases hadm : admitCaller cfg.service caller with
    | error e =>
      refine ⟨.answered (.error e),?_,fun _ => ⟨e,rfl⟩⟩
      simp [locked,lockComplete,admits,Request.caller,hadm]
    | ok u =>
      refine ⟨.dropping (.error foreignSession),?_,fun h => ?_⟩
      · simp [locked,lockComplete,storageCfg,admits,Request.caller,hservice ▸ hadm,
          hservice,hforeign']
      · simp [admits,Request.caller,hadm] at h
  | delete caller =>
    have hforeign' : sess.target.belongsTo caller.projectId = false := hforeign
    cases hadm : admitCaller cfg.service caller with
    | error e =>
      refine ⟨.answered (.error e),?_,fun _ => ⟨e,rfl⟩⟩
      simp [locked,lockDelete,admits,Request.caller,hadm]
    | ok u =>
      refine ⟨.answered (.error foreignSession),?_,fun h => ?_⟩
      · simp [locked,lockDelete,admits,Request.caller,hadm,hforeign']
      · simp [admits,Request.caller,hadm] at h

lemma foreign_iff {r : Request} (hservice : cfg.service = .deploy) (hsess : x.session = some sess)
    (hforeign : sess.target.belongsTo r.caller.projectId = false) :
    (∃ n e, settle cfg now verdict n x (.arrived r) = some (x,.error e)) ↔
      sessionIsExpired cfg sess now = false ∧ (r.isChunk = true ∨ admits cfg r.caller = false) := by
  have hsweep : turned cfg x (.arrived r) (.lock now) =
      some ({ x with session := (lockSweep cfg now r x.session).1 },
        (lockSweep cfg now r x.session).2) := rfl
  constructor
  · rintro ⟨n,e,h⟩
    obtain ⟨h,_⟩ | ⟨m,z,t',rfl,hturned,hrest⟩ := settle_cases h
    · cases h
    have hturned' : turned cfg x (.arrived r) (.lock now) = some (z,t') := hturned
    rw [hsweep,Option.some.injEq,Prod.mk.injEq] at hturned'
    obtain ⟨rfl,rfl⟩ := hturned'
    cases hlive : sessionIsExpired cfg sess now with
    | true =>
      have hgone := settle_session_none hrest (by simp [hsess,lockSweep,hlive])
      rw [hsess] at hgone
      cases hgone
    | false =>
      refine ⟨rfl,?_⟩
      by_contra hcond
      rw [not_or,Bool.not_eq_true,Bool.not_eq_false] at hcond
      rw [hsess,lockSweep_live hlive] at hrest
      obtain ⟨h,_⟩ | ⟨m,z,t',rfl,hturned,hrest⟩ := settle_cases hrest
      · cases h
      obtain ⟨u,hlocked,_⟩ := locked_foreign now hservice hforeign hcond.1
      have hturned' : turned cfg { x with session := some sess } (.swept r)
          (.lock now) = some (z,t') :=
        hturned
      rw [turned,hlocked,hcond.2] at hturned'
      cases hturned'
      have hgone := settle_session_none hrest rfl
      rw [hsess] at hgone
      cases hgone
  · rintro ⟨hlive,hcond⟩
    have hfirst : turned cfg x (.arrived r) (.lock now) = some (x,.swept r) := by
      rw [hsweep,hsess,lockSweep_live hlive,← hsess]
    have hsecond : ∃ e, turned cfg x (.swept r) (.lock now) = some (x,.answered (.error e)) := by
      obtain ⟨session,place,data⟩ := x
      cases hsess
      by_cases hchunk : r.isChunk = true
      · cases r with
        | chunk r =>
          obtain ⟨e,he⟩ := lockChunk_foreign cfg now hforeign
          exact ⟨e,by simp [turned,locked,he]⟩
        | complete caller root | delete caller => cases hchunk
      · obtain ⟨u,hlocked,hanswer⟩ := locked_foreign now hservice hforeign
          (Bool.not_eq_true _ ▸ hchunk)
        have hrefused := hcond.resolve_left hchunk
        obtain ⟨e,rfl⟩ := hanswer hrefused
        exact ⟨e,by simp [turned,hlocked,hrefused]⟩
    obtain ⟨e,he⟩ := hsecond
    refine ⟨2,e,?_⟩
    rw [settle_succ (by simp) hfirst,settle_succ (by simp) he]
    exact settle_answered

lemma sweep_eq_iff : x.sweep cfg now = x ↔
    ∀ sess, x.session = some sess → sessionIsExpired cfg sess now = false := by
  unfold Slot.sweep
  cases hs : x.session with
  | none => simp
  | some sess =>
    cases he : sessionIsExpired cfg sess now with
    | false => simp [he]
    | true =>
      refine iff_of_false (fun h => ?_) (fun h => Bool.false_ne_true ((h sess rfl).symm.trans he))
      have hgone := congrArg Slot.session h
      simp [he,Slot.unlink,hs] at hgone

/-- The same in the table: besides, no other session may have expired. -/
lemma foreign_table_iff {table : List Slot} {k : ℕ} {r : Request} (hservice : cfg.service = .deploy)
    (hk : table[k]? = some x) (hsess : x.session = some sess)
    (hforeign : sess.target.belongsTo r.caller.projectId = false) :
    (∃ n e, settleTable cfg now verdict n table k r = some (table,.error e)) ↔
      (∀ y ∈ table, ∀ sess, y.session = some sess → sessionIsExpired cfg sess now = false) ∧
        (r.isChunk = true ∨ admits cfg r.caller = false) := by
  have hslot : ∀ n e, settleTable cfg now verdict n table k r = some (table,.error e) ↔
      settle cfg now verdict n x (.arrived r) = some (x,.error e) ∧
        ∀ j : ℕ, j ≠ k → ∀ y, table[j]? = some y → y.sweep cfg now = y := by
    intro n e
    obtain ⟨hlt,_⟩ := List.getElem?_eq_some_iff.mp hk
    rw [settleTable,hk,Option.bind_some,Option.map_eq_some_iff]
    constructor
    · rintro ⟨⟨y,a⟩,hsettle,heq⟩
      obtain ⟨htable,rfl⟩ := Prod.mk.inj heq
      have hat : ∀ j : ℕ, ((table.map (Slot.sweep cfg now)).set k y)[j]? = table[j]? := by
        intro j
        exact congrArg (fun l : List Slot => l[j]?) htable
      have hy := hat k
      rw [getElem?_set_self (by simpa using hlt),hk] at hy
      refine ⟨Option.some.inj hy ▸ hsettle,fun j hj z hz => ?_⟩
      have hother := hat j
      rw [getElem?_set_ne hj.symm,getElem?_map,hz] at hother
      exact Option.some.inj hother
    · rintro ⟨hsettle,hothers⟩
      refine ⟨_,hsettle,Prod.ext (ext_getElem? fun j => ?_) rfl⟩
      by_cases hj : j = k
      · subst hj
        rw [getElem?_set_self (by simpa using hlt),hk]
      · rw [getElem?_set_ne (Ne.symm hj),getElem?_map]
        cases hz : table[j]? with
        | none => rfl
        | some z => exact congrArg some (hothers j hj z hz)
  have hother : (∀ j : ℕ, j ≠ k → ∀ y, table[j]? = some y → y.sweep cfg now = y) ∧
        sessionIsExpired cfg sess now = false ↔
      ∀ y ∈ table, ∀ sess, y.session = some sess → sessionIsExpired cfg sess now = false := by
    constructor
    · rintro ⟨hothers,hlive⟩ y hy
      obtain ⟨j,hj⟩ := List.mem_iff_getElem?.mp hy
      by_cases hjk : j = k
      · subst hjk
        rw [hk] at hj
        cases hj
        rintro _ hs
        cases hsess.symm.trans hs
        exact hlive
      · exact sweep_eq_iff.mp (hothers j hjk y hj)
    · intro hall
      exact ⟨fun j _ y hy => sweep_eq_iff.mpr (hall y (mem_of_getElem? hy)),
        hall x (mem_of_getElem? hk) sess hsess⟩
  have hone := @foreign_iff cfg x now verdict sess r hservice hsess hforeign
  rw [← hother]
  constructor
  · rintro ⟨n,e,h⟩
    obtain ⟨hsettle,hothers⟩ := (hslot n e).mp h
    obtain ⟨hlive,hcond⟩ := hone.mp ⟨n,e,hsettle⟩
    exact ⟨⟨hothers,hlive⟩,hcond⟩
  · rintro ⟨⟨hothers,hlive⟩,hcond⟩
    obtain ⟨n,e,hsettle⟩ := hone.mpr ⟨hlive,hcond⟩
    exact ⟨n,e,(hslot n e).mpr ⟨hsettle,hothers⟩⟩

/-! The file of a session that has left the table. -/

namespace Task

/-- Belongs to the storage alone. -/
def stores : Task → Bool
  | committing .. | reconciling _ => true
  | _ => false

/-- Has the file to remove, or to read before it is removed; but what has been forwarded may stay.
-/
def mustNotFail : Task → Bool
  | sweeping _ | taken _ | hashing .. => true
  | dropping a => a ≠ .ok .deployed
  | _ => false

end Task

def Sys.careful (cfg : Config) (s : Sys) : Label → Bool
  | .act i (.lock _) =>
    match s.tasks[i]? with
    | some (.swept (.delete caller)) =>
      !admits cfg caller || s.slot.session.all (fun sess => sess.target.belongsTo caller.projectId)
    | _ => true
  | .act i (.file (.error _)) => s.tasks[i]?.all (fun t => !t.mustNotFail)
  | _ => true

/-- The file is gone or has been forwarded, or a request has it in hand. -/
structure Accounted (s : Sys) : Prop where
  held : s.slot.session = none → s.slot.place = .temporary → s.streamed = none →
    ∃ t ∈ s.tasks, t.closes = true
  sent : .dropping (.ok .deployed) ∈ s.tasks → s.streamed ≠ none
  deploys : ∀ t ∈ s.tasks, t.stores = false

/-- What a step of one request may do. -/
structure Keeps (x : Slot) (t : Task) (y : Slot) (t' : Task) : Prop where
  held : y.session = none → y.place = .temporary → t'.closes = true ∨
    t = .dropping (.ok .deployed) ∨
    (x.session = none ∧ x.place = .temporary ∧ t.closes = false)
  sent : t' = .dropping (.ok .deployed) → t.delivers t' ≠ none
  deploys : t'.stores = false

/-- What a request may do with the session while it holds the lock of the table. -/
structure Releases (cfg : Config) (t : Task) (session session' : Option Session) (t' : Task) :
    Prop where
  opened : t.closes = false
  deploys : t'.stores = false
  unsent : t' ≠ .dropping (.ok .deployed)
  gone : session' = none → session = none ∨ t'.closes = true ∨
    ∃ caller sess, t = .swept (.delete caller) ∧ session = some sess ∧
      admits cfg caller = true ∧ sess.target.belongsTo caller.projectId = false

section
variable {session session' : Option Session}

section
variable (hopened : t.closes = false) (hstores : t'.stores = false)
    (hunsent : t' ≠ .dropping (.ok .deployed))
include hopened hstores hunsent

lemma Releases.kept : Releases cfg t session session t' :=
  ⟨hopened,hstores,hunsent,.inl⟩

lemma Releases.inHand (hcloses : t'.closes = true) : Releases cfg t session session' t' :=
  ⟨hopened,hstores,hunsent,fun _ => .inr (.inl hcloses)⟩

end

lemma releases_lockSweep {r : Request} (h : lockSweep cfg now r session = (session',t')) :
    Releases cfg (.arrived r) session session' t' := by
  cases session with
  | none =>
    cases h
    exact .kept rfl rfl (by simp)
  | some sess =>
    unfold lockSweep at h
    dsimp only at h
    split_ifs at h
    · cases h
      exact .inHand rfl rfl (by simp) rfl
    · cases h
      exact .kept rfl rfl (by simp)

lemma releases_lockChunk {r : ChunkRequest} (h : lockChunk cfg now r session = (session',t')) :
    Releases cfg (.swept (.chunk r)) session session' t' := by
  unfold lockChunk at h
  split at h
  · cases h
    exact .kept rfl rfl (by simp)
  split at h
  · cases h
    exact .kept rfl rfl (by simp)
  split at h
  · cases h
    exact .kept rfl rfl (by simp)
  split_ifs at h
  · cases h
    exact .kept rfl rfl (by simp)
  · cases h
    exact .inHand rfl rfl (by simp) rfl
  split at h
  all_goals
    cases h
    exact .kept rfl rfl (by simp)

lemma releases_lockComplete {caller : Caller} {root : Root}
    (h : lockComplete cfg now caller root session = (session',t')) :
    Releases cfg (.swept (.complete caller root)) session session' t' := by
  unfold lockComplete at h
  split at h
  · cases h
    exact .kept rfl rfl (by simp)
  split at h
  · cases h
    exact .kept rfl rfl (by simp)
  split at h
  · cases h
    exact .kept rfl rfl (by simp)
  split_ifs at h
  all_goals
    cases h
    exact .inHand rfl rfl (by simp) rfl

lemma releases_lockDelete {caller : Caller} (h : lockDelete cfg caller session = (session',t')) :
    Releases cfg (.swept (.delete caller)) session session' t' := by
  unfold lockDelete at h
  split at h
  · cases h
    exact .kept rfl rfl (by simp)
  rename_i hadm
  split at h
  · cases h
    exact .kept rfl rfl (by simp)
  rename_i sess
  split_ifs at h with hforeign
  · cases h
    refine ⟨rfl,rfl,by simp,fun _ => .inr (.inr ⟨caller,sess,rfl,rfl,?_,?_⟩)⟩
    · rw [admits,hadm]
    · simpa using hforeign
  · cases h
    exact .inHand rfl rfl (by simp) rfl

lemma releases_lockUpdate {c : Passed} (h : lockUpdate cfg now c session = (session',t')) :
    Releases cfg (.updating c) session session' t' := by
  cases session with
  | none =>
    cases h
    exact .kept rfl rfl (by simp)
  | some sess =>
    unfold lockUpdate at h
    dsimp only at h
    split_ifs at h
    · cases h
      exact .kept rfl rfl (by simp)
    · cases h
      exact ⟨rfl,rfl,by simp,nofun⟩

lemma locked_releases (h : locked cfg now t session = some (session',t')) :
    Releases cfg t session session' t' := by
  cases t with
  | arrived r => exact releases_lockSweep (Option.some.inj h)
  | swept r =>
    cases r with
    | chunk r => exact releases_lockChunk (Option.some.inj h)
    | complete caller root => exact releases_lockComplete (Option.some.inj h)
    | delete caller => exact releases_lockDelete (Option.some.inj h)
  | updating c => exact releases_lockUpdate (Option.some.inj h)
  | _ => cases h

end

lemma unlink_place (x : Slot) : x.unlink.place ≠ .temporary := by
  unfold Slot.unlink
  dsimp only
  split_ifs with h
  · decide
  · exact h

lemma Keeps.same (hsession : y.session = x.session) (hplace : y.place = x.place)
    (hclosed : t.closes = true → t'.closes = true) (hdone : t' ≠ .dropping (.ok .deployed))
    (hstores : t'.stores = false) : Keeps x t y t' := by
  refine ⟨fun hnone htemp => ?_,fun h => absurd h hdone,hstores⟩
  cases hc : t.closes with
  | true => exact .inl (hclosed hc)
  | false => exact .inr (.inr ⟨hsession ▸ hnone,hplace ▸ htemp,rfl⟩)

lemma operated_keeps {outcome : Except String ℕ} (hstores : t.stores = false)
    (hfail : ∀ e, outcome = .error e → t.mustNotFail = false)
    (h : operated cfg outcome x t = some (y,t')) : Keeps x t y t' := by
  cases t with
  | sweeping r =>
    cases outcome with
    | error e => cases hfail e rfl
    | ok n =>
      cases h
      exact ⟨fun _ htemp => absurd htemp (unlink_place x),by simp,rfl⟩
  | dropping b =>
    cases outcome with
    | error e =>
      have hb : b = .ok .deployed := by simpa [Task.mustNotFail] using hfail e rfl
      cases h
      exact ⟨fun _ _ => .inr (.inl (by rw [hb])),by simp,rfl⟩
    | ok n =>
      cases h
      exact ⟨fun _ htemp => absurd htemp (unlink_place x),by simp,rfl⟩
  | opening c =>
    cases outcome with
    | error e =>
      cases h
      exact .same rfl rfl (by simp [Task.closes]) (by simp) rfl
    | ok n =>
      simp only [operated] at h
      split_ifs at h
      cases h
      exact .same rfl rfl (by simp [Task.closes]) (by simp) rfl
  | writing c rest =>
    cases rest with
    | nil =>
      cases outcome with
      | error e | ok n =>
        cases h
        exact .same rfl rfl (by simp [Task.closes]) (by simp) rfl
    | cons b rest =>
      cases outcome with
      | error e =>
        cases h
        exact .same rfl rfl (by simp [Task.closes]) (by simp) rfl
      | ok n =>
        simp only [operated] at h
        split_ifs at h
        cases h
        exact .same rfl rfl (by simp [Task.closes]) (by simp) rfl
  | taken sess =>
    cases outcome with
    | error e => cases hfail e rfl
    | ok n =>
      simp only [operated] at h
      split_ifs at h
      cases h
      exact .same rfl rfl (fun _ => rfl) (by simp) rfl
  | hashing sess read =>
    cases outcome with
    | error e => cases hfail e rfl
    | ok n =>
      simp only [operated] at h
      split_ifs at h
      all_goals
        cases h
        exact .same rfl rfl (fun _ => rfl) (by simp) rfl
  | streaming sess sent =>
    cases outcome with
    | error e =>
      cases h
      exact .same rfl rfl (fun _ => rfl) (by simp) rfl
    | ok n =>
      simp only [operated] at h
      split_ifs at h
      all_goals
        cases h
        exact .same rfl rfl (fun _ => rfl) (by simp) rfl
  | committing sess bytes => cases hstores
  | _ => cases h

lemma judged_keeps (hservice : cfg.service = .deploy)
    (hstores : t.stores = false) (h : judged cfg verdict x t = some t') : Keeps x t x t' := by
  cases t with
  | checked sess =>
    cases verdict with
    | error e =>
      cases h
      exact .same rfl rfl (fun _ => rfl) (by simp) rfl
    | ok u =>
      simp only [judged,hservice] at h
      split_ifs at h
      cases h
      exact .same rfl rfl (fun _ => rfl) (by simp) rfl
  | replying sent last =>
    cases verdict with
    | error e =>
      cases h
      exact .same rfl rfl (fun _ => rfl) (by simp) rfl
    | ok u =>
      cases last with
      | false => cases h
      | true =>
        cases h
        exact ⟨fun _ _ => .inl rfl,fun _ => by simp [Task.delivers],rfl⟩
  | reconciling bytes => cases hstores
  | _ => cases h

variable {s s' : Sys}

lemma careful_keeps {i : ℕ} (hservice : cfg.service = .deploy)
    (hs : Accounted s) (hok : s.careful cfg (.act i a) = true) (ht : s.tasks[i]? = some t)
    (h : turned cfg s.slot t a = some (y,t')) : Keeps s.slot t y t' := by
  have hstores := hs.deploys t (mem_of_getElem? ht)
  cases a with
  | lock now =>
    obtain ⟨⟨session',u⟩,hlocked,hy⟩ := Option.map_eq_some_iff.mp h
    cases hy
    have hrel := locked_releases hlocked
    refine ⟨fun hgone htemp => ?_,fun h => absurd h hrel.unsent,hrel.deploys⟩
    rcases hrel.gone hgone with hbefore | hcloses' | ⟨caller,sess,rfl,hsess,hadm,hforeign⟩
    · exact .inr (.inr ⟨hbefore,htemp,hrel.opened⟩)
    · exact .inl hcloses'
    · simp [Sys.careful,ht,hadm,hsess,hforeign] at hok
  | file outcome =>
    refine operated_keeps hstores (fun e he => ?_) h
    subst he
    simpa [Sys.careful,ht] using hok
  | judge verdict =>
    obtain ⟨u,hjudged,hy⟩ := Option.map_eq_some_iff.mp h
    cases hy
    exact judged_keeps hservice hstores hjudged

lemma Accounted.turn {i : ℕ} (hs : Accounted s) (ht : s.tasks[i]? = some t)
    (hkeeps : Keeps s.slot t y t') : Accounted (s.turn i t y t') := by
  have hmem : t' ∈ s.tasks.set i t' := mem_of_getElem? (getElem?_set_here ht)
  have hstream : (s.turn i t y t').streamed = none → s.streamed = none ∧ t.delivers t' = none := by
    intro h
    rw [Sys.turn,Option.or_eq_none_iff] at h
    exact ⟨h.2,h.1⟩
  refine ⟨fun hnone htemp hnot => ?_,fun hin => ?_,fun u hu => ?_⟩
  · rcases hkeeps.held hnone htemp with hcloses | hdone | ⟨hbefore,hthere,hopen⟩
    · exact ⟨t',hmem,hcloses⟩
    · exact absurd (hstream hnot).1 (hs.sent (hdone ▸ mem_of_getElem? ht))
    · obtain ⟨u,hu,hcloses⟩ := hs.held hbefore hthere (hstream hnot).1
      obtain ⟨j,hj⟩ := List.mem_iff_getElem?.mp hu
      have hne : i ≠ j := by
        rintro rfl
        rw [ht,Option.some.injEq] at hj
        rw [hj,hcloses] at hopen
        cases hopen
      refine ⟨u,mem_of_getElem? (i := j) ?_,hcloses⟩
      change (s.tasks.set i t')[j]? = some u
      rw [getElem?_set_ne hne]
      exact hj
  · intro hnot
    rcases mem_set_cases hin with hnew | hold
    · exact hkeeps.sent hnew.symm (hstream hnot).2
    · exact hs.sent hold (hstream hnot).1
  · rcases mem_set_cases hu with rfl | hold
    · exact hkeeps.deploys
    · exact hs.deploys u hold

lemma accounted_step {l : Label} (hservice : cfg.service = .deploy) (hs : Accounted s)
    (hok : s.careful cfg l = true) (h : s.step cfg l = some s') : Accounted s' := by
  cases l with
  | request r =>
    cases h
    refine ⟨fun hnone htemp hnot => ?_,fun hin => ?_,fun u hu => ?_⟩
    · obtain ⟨t,ht,hcloses⟩ := hs.held hnone htemp hnot
      exact ⟨t,mem_append_left _ ht,hcloses⟩
    · rcases List.mem_append.mp hin with hold | hnew
      · exact hs.sent hold
      · cases List.mem_singleton.mp hnew
    · rcases List.mem_append.mp hu with hold | hnew
      · exact hs.deploys u hold
      · rw [List.mem_singleton.mp hnew]
        rfl
  | act i a =>
    obtain ⟨t,ht,hturn⟩ := Option.bind_eq_some_iff.mp h
    obtain ⟨⟨y,t'⟩,hturned,rfl⟩ := Option.map_eq_some_iff.mp hturn
    exact hs.turn ht (careful_keeps hservice hs hok ht hturned)

/-- A request for another project is refused and leaves all sessions, with their counters and files,
exactly when none has expired and the request is a chunk or is not admitted; and without deletions
for another project and failures after a session was taken, a session that has left the table leaves
no file but in the hand of a request. -/
theorem session_bound_to_project (cfg : Config) (hservice : cfg.service = .deploy) :
    (∀ (table : List Slot) (k : ℕ) (x : Slot) (sess : Session) (r : Request) (now : Int64)
        (verdict : Except ApiError Unit),
      table[k]? = some x → x.session = some sess →
      sess.target.belongsTo r.caller.projectId = false →
      ((∃ n e, settleTable cfg now verdict n table k r = some (table,.error e)) ↔
        (∀ y ∈ table, ∀ sess, y.session = some sess → sessionIsExpired cfg sess now = false) ∧
          (r.isChunk = true ∨ admits cfg r.caller = false))) ∧
    ∀ (target : Target) (fileBytes : ℕ) (fileSha256 : String) (created : Int64) (s : Sys),
      Run (Sys.step cfg) (fun s l => s.careful cfg l = true)
        (.create target fileBytes fileSha256 created) s →
      s.slot.session = none → (∀ t ∈ s.tasks, t.closes = false) →
      s.slot.place ≠ .temporary ∨ s.streamed ≠ none := by
  refine ⟨fun table k x sess r now verdict hk hsess hforeign =>
    foreign_table_iff hservice hk hsess hforeign,?_⟩
  intro target fileBytes fileSha256 created s hrun hnone hidle
  have hs : Accounted s := by
    refine hrun.invariant (I := Accounted)
      (fun _ _ _ hI hok hstep => accounted_step hservice hI hok hstep) ⟨fun h => ?_,fun h => ?_,?_⟩
    · cases h
    · cases h
    · exact fun t ht => absurd ht not_mem_nil
  by_contra hcond
  rw [not_or,not_not,not_not] at hcond
  obtain ⟨t,ht,hcloses⟩ := hs.held hnone hcond.1 hcond.2
  rw [hidle t ht] at hcloses
  cases hcloses

def artifactTarget : Target := .deploy "app" "1.0.0" none

/-- A session for three bytes of an artifact of the project `app`. -/
def artifactSession : Sys := .create artifactTarget 3 "6" 0

/-- Besides, a session of another project that has a byte, and one that is over. -/
def artifactTable : List Slot :=
  [artifactSession.slot,⟨some ⟨.deploy "other" "2.0.0" none,9,"6",1,4⟩,.temporary,[7]⟩,
    ⟨none,.removed,[]⟩]

theorem session_bound_to_project_app :
    (∃ n e, settleTable (sampleConfig .deploy) 5 (.ok ()) n artifactTable 0
      (.chunk ⟨⟨true,"other"⟩,some "0",none,[1]⟩) = some (artifactTable,.error e)) ∧
    ∃ s, Run (Sys.step (sampleConfig .deploy))
      (fun s l => s.careful (sampleConfig .deploy) l = true)
        artifactSession s ∧ s.slot.session = none ∧
      (s.slot.place ≠ .temporary ∨ s.streamed ≠ none) := by
  obtain ⟨hforeign,hrun⟩ := session_bound_to_project (sampleConfig .deploy) rfl
  refine ⟨(hforeign artifactTable 0 artifactSession.slot ⟨artifactTarget,3,"6",0,0⟩ _ 5 (.ok ()) rfl
    rfl (by decide)).mpr ⟨?_,.inl rfl⟩,?_⟩
  · rintro y hy sess hsess
    simp only [artifactTable,mem_cons,not_mem_nil,or_false] at hy
    rcases hy with rfl | rfl | rfl
    · cases hsess
      decide +kernel
    · cases hsess
      decide +kernel
    · cases hsess
  have hexists : ∃ s, Run (Sys.step (sampleConfig .deploy))
      (fun s l => s.careful (sampleConfig .deploy) l = true) artifactSession s ∧
      s.slot.session = none ∧ ∀ t ∈ s.tasks, t.closes = false :=
    exists_run [.request (.delete ⟨true,"app"⟩),.act 0 (.lock 5),.act 0 (.lock 5),
      .act 0 (.file (.ok 0))] (by decide +kernel)
  obtain ⟨s,hs,hnone,hidle⟩ := hexists
  exact ⟨s,hs,hnone,hrun _ _ _ _ s hs hnone hidle⟩

/-- Completing a session of another project removes it; deleting it leaves its file; and any request
for one session removes the others that have expired. -/
theorem foreign_requests_destroy :
    (∃ n y e, settle (sampleConfig .deploy) 5 (.ok ()) n artifactSession.slot
        (.arrived (.complete ⟨true,"other"⟩ .directory)) = some (y,.error e) ∧
      y.session = none ∧ y.place = .removed) ∧
    (∃ n e, settleTable (sampleConfig .deploy) 9000000 (.ok ()) n
        [⟨some ⟨artifactTarget,3,"6",0,9000000⟩,.temporary,[]⟩,artifactSession.slot] 0
        (.chunk ⟨⟨true,"other"⟩,some "0",none,[1]⟩) =
      some ([⟨some ⟨artifactTarget,3,"6",0,9000000⟩,.temporary,[]⟩,⟨none,.removed,[]⟩],.error e)) ∧
    ∃ s, Run (Sys.step (sampleConfig .deploy)) anyStep artifactSession s ∧ s.slot.session = none ∧
      s.slot.place = .temporary ∧ s.streamed = none ∧
        s.tasks = [.answered (.error foreignSession)] := by
  refine ⟨⟨3,⟨none,.removed,[]⟩,foreignSession,by decide +kernel,rfl,rfl⟩,
    ⟨2,foreignSession,by decide +kernel⟩,?_⟩
  exact exists_run [.request (.delete ⟨true,"other"⟩),.act 0 (.lock 5),.act 0 (.lock 5)]
    (by decide +kernel)

end PirateServer.UploadSession
