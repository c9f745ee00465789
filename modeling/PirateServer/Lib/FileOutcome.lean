import PirateServer.Lib.FileScript

/-! What the operations on a file system achieve if nothing outside fails: a file that was written
can be written again and read, and a program without failures is a sequence of such operations. -/
namespace PirateServer.Lib
open List
namespace FileTree
variable {D α : Type} {t t' : Disk D} {last : Bool} {p q : Place} {path : List String} {d : D}

def HasFile (t : Disk D) (path : List String) (d : D) : Prop :=
  ∃ q mode, t.resolve true path = .ok q ∧ t.node q = some (.file d mode)

variable {onLink onLink' : Place → List String → Except IoError Place}

lemma walkWith_set {mode : ℕ} (hon : ∀ p cs, onLink p cs = .ok q → onLink' p cs = .ok q)
    (hq : ∀ n, t q = some n → ∃ d m, n = .file d m) (h : t.walkWith last onLink p path = .ok q) :
    (t.set q (some (.file d mode))).walkWith last onLink' p path = .ok q := by
  induction path generalizing p with
  | nil => exact h
  | cons c cs ih =>
    by_cases hdot : c = "."
    · simp only [Disk.walkWith,if_pos hdot] at h ⊢
      exact ih h
    by_cases hdots : c = ".."
    · simp only [Disk.walkWith,if_neg hdot,if_pos hdots] at h ⊢
      split_ifs at h ⊢
      exact ih h
    simp only [Disk.walkWith,if_neg hdot,if_neg hdots] at h ⊢
    by_cases hpq : p++[c] = q
    · -- the last name: what was there is a file or nothing
      have hset : (t.set q (some (.file d mode))) (p++[c]) = some (.file d mode) := by
        simp [Disk.set,hpq]
      have hcs : cs = [] := by
        cases hn : t (p++[c]) with
        | none =>
          simp only [hn] at h
          split_ifs at h with hcs
          exact hcs
        | some n =>
          obtain ⟨e,m,rfl⟩ := hq n (hpq ▸ hn)
          simp only [hn] at h
          split_ifs at h with hcs
          exact hcs
      rw [hset,hpq]
      exact if_pos hcs
    · have hset : (t.set q (some (.file d mode))) (p++[c]) = t (p++[c]) := by
        simp [Disk.set,hpq]
      rw [hset]
      cases hn : t (p++[c]) with
      | none =>
        simp only [hn] at h
        exact h
      | some n =>
        simp only [hn] at h
        cases n with
        | dir => exact ih h
        | file e m => exact h
        | link target =>
          dsimp only at h ⊢
          split_ifs at h ⊢
          · exact h
          · exact hon _ _ h

lemma walk_set {n mode : ℕ} (hq : ∀ n, t q = some n → ∃ d m, n = .file d m)
    (h : t.walk last n p path = .ok q) :
    (t.set q (some (.file d mode))).walk last n p path = .ok q := by
  induction n generalizing p path with
  | zero => exact walkWith_set (fun _ _ hon => hon) hq h
  | succ n ih => exact walkWith_set (fun _ _ hon => ih hon) hq h

lemma hasFile_set {mode : ℕ} (h : t.resolve true path = .ok q)
    (hq : t.node q = none ∨ ∃ d m, t.node q = some (.file d m)) :
    HasFile (t.set q (some (.file d mode))) path d := by
  have hne : q ≠ [] := by
    rintro rfl
    rcases hq with hq | ⟨e,m,hq⟩
    · cases hq
    · cases hq
  have hnode : t.node q = t q := by simp [Disk.node,hne]
  rw [hnode] at hq
  refine ⟨q,mode,walk_set (fun n hn => ?_) h,by simp [Disk.node,hne,Disk.set]⟩
  rcases hq with hq | ⟨e,m,hq⟩
  · rw [hq] at hn
    cases hn
  · rw [hq] at hn
    cases hn
    exact ⟨e,m,rfl⟩

lemma hasFile_of_write {f : Option D → D} (h : (write path f t).1 = .ok ()) :
    ∃ old, HasFile (write path f t).2 path (f old) := by
  unfold write atPath at h ⊢
  cases hq : t.resolve true path with
  | error e =>
    rw [hq] at h
    cases h
  | ok q =>
    simp only [hq] at h ⊢
    cases hn : t.node q with
    | none => exact ⟨none,hasFile_set hq (.inl hn)⟩
    | some n =>
      cases n with
      | dir =>
        simp only [hn] at h
        cases h
      | link target =>
        simp only [hn] at h
        cases h
      | file e m => exact ⟨some e,hasFile_set hq (.inr ⟨e,m,hn⟩)⟩

lemma HasFile.write {f : Option D → D} (h : HasFile t path d) :
    (write path f t).1 = .ok () ∧ HasFile (FileTree.write path f t).2 path (f (some d)) := by
  obtain ⟨q,m,hq,hn⟩ := h
  simp only [FileTree.write,atPath,hq,hn]
  exact ⟨trivial,hasFile_set hq (.inr ⟨d,m,hn⟩)⟩

variable {L : Place → Prop}

lemma walkWith_single {c : String}
    (hdot : c ≠ ".") (hdots : c ≠ "..") : t.walkWith false onLink p [c] = .ok (p++[c]) := by
  simp only [Disk.walkWith,if_neg hdot,if_neg hdots,if_true,and_self]
  split
  all_goals rfl

lemma walkWith_parents (hs : StraightFrom L false p path) (hl : LinksAt L t)
    (hsame : ∀ q n, p <+: q → q ≠ p → q <+: p++path → q ≠ p++path → t q = some n → t' q = some n)
    (h : t.walkWith false onLink p path = .ok q) : t'.walkWith false onLink' p path = .ok q := by
  induction path generalizing p with
  | nil => exact h
  | cons c cs ih =>
    obtain ⟨hdot,hdots⟩ := hs.regular c mem_cons_self
    by_cases hcs : cs = []
    · subst hcs
      rw [walkWith_single hdot hdots] at h ⊢
      exact h
    · simp only [Disk.walkWith,if_neg hdot,if_neg hdots] at h ⊢
      have hdir : t (p++[c]) = some .dir := by
        cases hn : t (p++[c]) with
        | none => simp [hn,hcs] at h
        | some n =>
          cases n with
          | dir => rfl
          | file d m => simp [hn,hcs] at h
          | link target => exact absurd (hl _ _ hn) (hs.not_link (.inl hcs))
      have hdir' : t' (p++[c]) = some .dir := by
        refine hsame _ _ (prefix_append _ _) (by simp) ⟨cs,by simp⟩ ?_ hdir
        simpa using hcs
      simp only [hdir] at h
      simp only [hdir']
      refine ih hs.tail (fun q n hpq hne hq hend => ?_) h
      refine hsame q n ((prefix_append p [c]).trans hpq) ?_ (by simpa using hq)
        (by simpa using hend)
      rintro rfl
      have hlen := hpq.length_le
      simp at hlen

lemma resolve_parents (hs : Straight L false path) (hl : LinksAt L t)
    (hsame : ∀ q n, q ≠ [] → q <+: path → q ≠ path → t q = some n → t' q = some n)
    (h : t.resolve false path = .ok q) : t'.resolve false path = .ok q :=
  walkWith_parents hs hl (fun q n _ hne hq hend => hsame q n hne hq hend) h

variable {target : List String}

lemma readLink_eq_some (hs : Straight L false path) (hl : LinksAt L t) (hne : path ≠ []) :
    t.readLink path = some target ↔ t.resolve false path = .ok path ∧
      t path = some (.link target) := by
  constructor
  · intro h
    unfold Disk.readLink at h
    split at h
    · cases h
    rename_i q hq
    obtain rfl := resolve_straight hs hl hq
    refine ⟨hq,?_⟩
    split at h
    · rename_i hn
      rw [Disk.node,if_neg hne] at hn
      cases h
      exact hn
    · cases h
  · rintro ⟨hq,hn⟩
    simp [Disk.readLink,hq,Disk.node,hne,hn]

lemma symlinked (hs : Straight L false path)
    (hl : LinksAt L t) (h : (symlink target path t).1 = .ok ()) :
    (symlink target path t).2 path = some (.link target) := by
  unfold symlink atPath at h ⊢
  cases hq : t.resolve false path with
  | error e =>
    rw [hq] at h
    cases h
  | ok q =>
    obtain rfl := resolve_straight hs hl hq
    simp only [hq] at h ⊢
    split at h
    · simp [Disk.set]
    · cases h

lemma renamed {source dest : List String} (hs : Straight L false source)
    (hd : Straight L false dest) (hl : LinksAt L t) (h : (rename source dest t).1 = .ok ()) :
    t.resolve false dest = .ok dest ∧ ∃ n, t.node source = some n ∧
      (rename source dest t).2 = (t.set source none).set dest (some n) := by
  unfold rename atPath at h ⊢
  cases ha : t.resolve false source with
  | error e =>
    rw [ha] at h
    cases h
  | ok a =>
    obtain rfl := resolve_straight hs hl ha
    simp only [ha] at h ⊢
    cases hb : t.resolve false dest with
    | error e =>
      rw [hb] at h
      cases h
    | ok b =>
      obtain rfl := resolve_straight hd hl hb
      simp only [hb] at h ⊢
      refine ⟨trivial,?_⟩
      split at h
      · cases h
      · cases h
      · cases h
      · rename_i n _ hn _
        exact ⟨n,hn,rfl⟩

lemma readLink_kept (hs : Straight L false path)
    (hl : LinksAt L t) (hl' : LinksAt L t') (hne : path ≠ [])
    (hsame : ∀ q n, q ≠ [] → q <+: path → t q = some n → t' q = some n)
    (h : t.readLink path = some target) : t'.readLink path = some target := by
  obtain ⟨hq,hn⟩ := (readLink_eq_some hs hl hne).mp h
  refine (readLink_eq_some hs hl' hne).mpr ⟨?_,hsame path _ hne (prefix_refl _) hn⟩
  exact resolve_parents hs hl (fun q n hne hq _ => hsame q n hne hq) hq

def Guarantee.anything : Guarantee D := ⟨fun _ _ _ => True,fun _ _ => trivial,
    fun _ _ _ _ _ _ => trivial⟩

lemma Confined.linksAt {op : Op D α} (h : Confined L .anything op)
    (hl : LinksAt L t) : LinksAt L (op t).2 := (h t hl).links

lemma HasFile.read (h : HasFile t path d) : t.read path = .ok d := by
  obtain ⟨q,m,hq,hn⟩ := h
  simp [Disk.read,hq,hn]

end FileTree

namespace Script
open FileTree
variable {D M E E' α β : Type} {w : World D M}

/-- No operation to come fails from outside. -/
def Calm (w : World D M) : Prop := ∀ f ∈ w.faults, f = none

lemma call_calm (h : Calm w) (op : Op D α) : (call op : Script D M IoError α) w =
      ((op w.disk).1,{ w with disk := (op w.disk).2, faults := w.faults.tail }) := by
  unfold call
  split
  · rename_i f faults hf
    have hnone := h (some f) (by rw [hf]; exact mem_cons_self)
    cases hnone
  · rfl

lemma Calm.tail (h : Calm w) (t : Disk D) (m : M) : Calm (⟨t,m,w.faults.tail⟩ : World D M) :=
  fun f hf => h f (mem_of_mem_tail hf)

lemma bind_apply (m : Script D M E α) (f : α → Script D M E β) (w : World D M) :
    (m >>= f) w = match m w with
      | (.ok a,w') => f a w'
      | (.error e,w') => (.error e,w') := rfl

variable {w' : World D M}

variable {f : α → Script D M E β} {m : Script D M E α}

lemma bind_ok {a : α} (h : m w = (.ok a,w')) : (m >>= f) w = f a w' := by
  rw [bind_apply,h]

lemma bind_error {e : E} (h : m w = (.error e,w')) : (m >>= f) w = (.error e,w') := by
  rw [bind_apply,h]

instance : LawfulMonad (Script D M E) := by
  refine LawfulMonad.mk' _ (fun m => ?_) (fun _ _ => rfl) (fun m f g => ?_)
  · funext w
    rcases bind_cases m pure w with ⟨a,ha,heq⟩ | ⟨e,he,heq⟩
    · exact heq.trans (Prod.ext ha.symm rfl)
    · exact heq.trans (Prod.ext he.symm rfl)
  · funext w
    rcases hm : m w with ⟨x,w'⟩
    cases x with
    | ok a => rw [bind_ok hm,bind_apply (m >>= f),bind_ok hm,bind_apply (f a)]
    | error e => rw [bind_error hm,bind_error (bind_error hm)]

lemma bind_result {b : β} (h : ((m >>= f) w).1 = .ok b) :
    ∃ a, (m w).1 = .ok a ∧ (m >>= f) w = f a (m w).2 ∧ (f a (m w).2).1 = .ok b := by
  rcases bind_cases m f w with ⟨a,ha,heq⟩ | ⟨e,_,heq⟩
  · exact ⟨a,ha,heq,by rw [← heq]; exact h⟩
  · rw [heq] at h
    cases h

/-! Relations between the worlds before and after a program that does not use its memory. -/

/-- A relation that holds across every operation, and across any number of them. -/
structure Steady (R : World D M → World D M → Prop) : Prop where
  refl : ∀ w, R w w
  trans : ∀ a b c, R a b → R b c → R a c
  call : ∀ {α : Type} (op : Op D α) (w : World D M), R w ((call op : Script D M IoError α) w).2

def Respects (R : World D M → World D M → Prop) (m : Script D M E α) : Prop := ∀ w, R w (m w).2

variable {R : World D M → World D M → Prop}

lemma respects_same (hR : Steady R) (h : ∀ w, (m w).2 = w) : Respects R m := by
  intro w
  rw [h]
  exact hR.refl w

lemma respects_bind (hR : Steady R) (hm : Respects R m) (hf : ∀ a, Respects R (f a)) :
    Respects R (m >>= f) := by
  intro w
  rcases bind_cases m f w with ⟨a,_,heq⟩ | ⟨e,_,heq⟩
  · rw [heq]
    exact hR.trans _ _ _ (hm w) (hf a _)
  · rw [heq]
    exact hm w

lemma respects_when {m : Script D M E Unit} (hR : Steady R) (hm : Respects R m) (c : Bool) :
    Respects R (m.when c) := by
  cases c with
  | true => exact hm
  | false => exact respects_same hR (fun _ => rfl)

lemma steady_memory : Steady (fun w w' : World D M => w'.memory = w.memory) where
  refl _ := rfl
  trans _ _ _ h h' := h'.trans h
  call op w := by
    unfold Script.call
    split
    · rfl
    · rfl

/-! Pre- and postconditions. -/

/-- From a world with `P` the program ends with a result and a world as in `Q`, or with an error
and a world as in `X`. -/
def Ends (P : World D M → Prop) (m : Script D M E α) (Q : α → World D M → Prop)
    (X : E → World D M → Prop) : Prop :=
  ∀ w, P w → (∀ a, (m w).1 = .ok a → Q a (m w).2) ∧ (∀ e, (m w).1 = .error e → X e (m w).2)

variable {P : World D M → Prop} {Q : α → World D M → Prop} {X : E → World D M → Prop}

lemma ends_pure {a : α} (h : ∀ w, P w → Q a w) : Ends P (pure a : Script D M E α) Q X := by
  intro w hw
  refine ⟨fun b hb => ?_,fun e he => by cases he⟩
  cases hb
  exact h w hw

lemma ends_fail {e : E} (h : ∀ w, P w → X e w) : Ends P (fail e : Script D M E α) Q X := by
  intro w hw
  refine ⟨fun b hb => (by cases hb),fun e he => ?_⟩
  cases he
  exact h w hw

lemma ends_ofExcept {x : Except E α} (h : ∀ w, P w → ∀ a, x = .ok a → Q a w)
    (h' : ∀ w, P w → ∀ e, x = .error e → X e w) : Ends P (ofExcept x) Q X :=
  fun w hw => ⟨h w hw,h' w hw⟩

lemma ends_look {f : Disk D → α} (h : ∀ w, P w → Q (f w.disk) w) :
    Ends P (look f : Script D M E α) Q X := by
  intro w hw
  refine ⟨fun b hb => ?_,fun e he => by cases he⟩
  cases hb
  exact h w hw

lemma ends_consult {f : M → α} (h : ∀ w, P w → Q (f w.memory) w) :
    Ends P (consult f : Script D M E α) Q X := by
  intro w hw
  refine ⟨fun b hb => ?_,fun e he => by cases he⟩
  cases hb
  exact h w hw

lemma ends_fact {p : Prop} (h : p → Ends P m Q X) :
    Ends (fun w => p ∧ P w) m Q X := fun w hw => h hw.1 w hw.2

lemma ends_remember {f : M → M} {Q : Unit → World D M → Prop}
    (h : ∀ w, P w → Q () { w with memory := f w.memory }) :
    Ends P (remember f : Script D M E Unit) Q X := by
  intro w hw
  exact ⟨fun _ _ => h w hw,fun e he => by cases he⟩

lemma ends_bind {R : β → World D M → Prop}
    (hm : Ends P m Q X) (hf : ∀ a, Ends (Q a) (f a) R X) : Ends P (m >>= f) R X := by
  intro w hw
  obtain ⟨hok,herror⟩ := hm w hw
  rcases bind_cases m f w with ⟨a,ha,heq⟩ | ⟨e,he,heq⟩
  · rw [heq]
    exact hf a _ (hok a ha)
  · rw [heq]
    refine ⟨fun b hb => (by cases hb),fun e' he' => ?_⟩
    cases he'
    exact herror e he

lemma ends_mapError {f : E → E'} {X : E' → World D M → Prop}
    (h : Ends P m Q (fun e => X (f e))) : Ends P (m.mapError f) Q X := by
  intro w hw
  obtain ⟨hok,herror⟩ := h w hw
  refine ⟨fun a ha => hok a (mapError_eq_ok ha),fun e he => ?_⟩
  cases hm : (m w).1 with
  | ok a =>
    change (m w).1.mapError f = .error e at he
    rw [hm] at he
    cases he
  | error e' =>
    change (m w).1.mapError f = .error e at he
    rw [hm] at he
    cases he
    exact herror e' hm

lemma ends_attempt {Q : Except E α → World D M → Prop} {X : E' → World D M → Prop}
    (h : Ends P m (fun a => Q (.ok a)) (fun e => Q (.error e))) : Ends P (m.attempt) Q X := by
  intro w hw
  obtain ⟨hok,herror⟩ := h w hw
  refine ⟨fun x hx => ?_,fun e he => by cases he⟩
  cases hx
  cases hm : (m w).1 with
  | ok a => exact hok a hm
  | error e => exact herror e hm

lemma ends_ignore {Q : Unit → World D M → Prop} {X : E' → World D M → Prop}
    (h : Ends P m (fun _ => Q ()) (fun _ => Q ())) : Ends P (m.ignore) Q X := by
  intro w hw
  obtain ⟨hok,herror⟩ := h w hw
  refine ⟨fun _ _ => ?_,fun e he => by cases he⟩
  cases hm : (m w).1 with
  | ok a => exact hok a hm
  | error e => exact herror e hm

lemma ends_when {m : Script D M E Unit} {c : Bool} {Q : Unit → World D M → Prop}
    (h : c = true → Ends P m Q X) (h' : c = false → ∀ w, P w → Q () w) : Ends P (m.when c) Q X := by
  cases c with
  | true => exact h rfl
  | false => exact ends_pure (h' rfl)

variable {Q' : α → World D M → Prop} {X' : E → World D M → Prop} {P' : World D M → Prop}

lemma Ends.mono (h : Ends P m Q X) (hP : ∀ w, P' w → P w)
    (hQ : ∀ a w, Q a w → Q' a w) (hX : ∀ e w, X e w → X' e w) : Ends P' m Q' X' := by
  intro w hw
  obtain ⟨hok,herror⟩ := h w (hP w hw)
  exact ⟨fun a ha => hQ a _ (hok a ha),fun e he => hX e _ (herror e he)⟩

lemma Ends.and (h : Ends P m Q X) (h' : Ends P' m Q' X') :
    Ends (fun w => P w ∧ P' w) m (fun a w => Q a w ∧ Q' a w) (fun e w => X e w ∧ X' e w) := by
  rintro w ⟨hw,hw'⟩
  obtain ⟨hok,herror⟩ := h w hw
  obtain ⟨hok',herror'⟩ := h' w hw'
  exact ⟨fun a ha => ⟨hok a ha,hok' a ha⟩,fun e he => ⟨herror e he,herror' e he⟩⟩

lemma Ends.always {C : World D M → Prop}
    (h : Ends P m (fun _ => C) (fun _ => C)) (hw : P w) : C (m w).2 := by
  obtain ⟨hok,herror⟩ := h w hw
  cases hx : (m w).1 with
  | ok a => exact hok a hx
  | error e => exact herror e hx

lemma ends_call {op : Op D α} {c : Prop} {X : IoError → World D M → Prop}
    (hP : ∀ w, P w → c → Calm w)
    (h : ∀ w, P w → ∀ a t, op w.disk = (.ok a,t) → Q a ⟨t,w.memory,w.faults.tail⟩)
    (h' : c → ∀ w, P w → ∀ e t, op w.disk = (.error e,t) → X e ⟨t,w.memory,w.faults.tail⟩) :
    Ends P (call op) Q (fun e w => c → X e w) := by
  intro w hw
  refine ⟨fun a ha => ?_,fun e he hc => ?_⟩
  · unfold call at ha ⊢
    split at ha
    · cases ha
    · exact h w hw a _ (Prod.ext ha rfl)
  · rw [call_calm (hP w hw hc)] at he ⊢
    exact h' hc w hw e _ (Prod.ext he rfl)

lemma ends_call_calm {op : Op D α} {X : IoError → World D M → Prop} (hP : ∀ w, P w → Calm w)
    (h : ∀ w, P w → ∀ a t, op w.disk = (.ok a,t) → Q a ⟨t,w.memory,w.faults.tail⟩)
    (h' : ∀ w, P w → ∀ e t, op w.disk = (.error e,t) → X e ⟨t,w.memory,w.faults.tail⟩) :
    Ends P (call op) Q X :=
  (ends_call (c := True) (fun w hw _ => hP w hw) h (fun _ => h')).mono (fun _ hw => hw)
    (fun _ _ hq => hq) (fun _ _ hx => hx trivial)

end Script

end PirateServer.Lib
