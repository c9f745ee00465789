import PirateServer.Lib.Fallible
import PirateServer.Lib.FileTree

/-! Programs that work on a file system and on a memory of their own. An operation may fail for a
reason that lies outside, after any part of its effect. The rules show what a program guarantees of
the tree. -/
namespace PirateServer.Lib
open FileTree

/-- A failure from outside, and the places at which the operation has not had its effect yet. -/
structure Fault where
  text : String
  spared : Place → Bool

/-- `faults` says of each operation to come whether it fails from outside. -/
structure World (D M : Type) where
  disk : Disk D
  memory : M
  faults : List (Option Fault)

def Script (D M E α : Type) : Type := World D M → Except E α × World D M

namespace Script
variable {D M E E' α β : Type}

instance : Monad (Script D M E) where
  pure a := fun w => (.ok a,w)
  bind m f := fun w =>
    match m w with
    | (.ok a,w') => f a w'
    | (.error e,w') => (.error e,w')

def fail (e : E) : Script D M E α := fun w => (.error e,w)

def ofExcept (x : Except E α) : Script D M E α := fun w => (x,w)

/-- Read something off the tree. -/
def look (f : Disk D → α) : Script D M E α := fun w => (.ok (f w.disk),w)

def consult (f : M → α) : Script D M E α := fun w => (.ok (f w.memory),w)

def remember (f : M → M) : Script D M E Unit := fun w => (.ok (),{ w with memory := f w.memory })

def mapError (f : E → E') (m : Script D M E α) : Script D M E' α :=
  fun w => ((m w).1.mapError f,(m w).2)

/-- Go on with the result, whether it is an error or not. -/
def attempt (m : Script D M E α) : Script D M E' (Except E α) := fun w => (.ok (m w).1,(m w).2)

/-- Go on in any case. -/
def ignore (m : Script D M E α) : Script D M E' Unit := fun w => (.ok (),(m w).2)

/-- Only if the condition holds. -/
def when (m : Script D M E Unit) (c : Bool) : Script D M E Unit := if c then m else pure ()

/-- One operation of the file system. -/
def call (op : Op D α) : Script D M IoError α := fun w =>
  match w.faults with
  | some f::faults =>
    (.error (.other f.text),{ w with
      disk := fun p => if f.spared p then w.disk p else (op w.disk).2 p
      faults := faults })
  | _ => ((op w.disk).1,{ w with disk := (op w.disk).2, faults := w.faults.tail })

/-- From a tree with links only at places of `L`, the program keeps to `G`; if it ends well, its
result has the property `post`. -/
structure Within (L : Place → Prop) (G : Guarantee D) (m : Script D M E α) (post : α → Prop) :
    Prop where
  evolves : ∀ w, LinksAt L w.disk → Evolves L G w.disk (m w).2.disk
  result : ∀ w, LinksAt L w.disk → ∀ a, (m w).1 = .ok a → post a

variable {L : Place → Prop} {G : Guarantee D} {post : α → Prop} {next : β → Prop}
  {m : Script D M E α}

lemma within_same (hdisk : ∀ w, (m w).2.disk = w.disk)
    (h : ∀ w a, (m w).1 = .ok a → post a) : Within L G m post := by
  refine ⟨fun w hl => ?_,fun w _ a ha => h w a ha⟩
  rw [hdisk]
  exact .refl hl

lemma within_pure {a : α} (h : post a) : Within L G (pure a : Script D M E α) post := by
  refine within_same (fun _ => rfl) (fun w b hb => ?_)
  cases hb
  exact h

lemma within_fail (e : E) : Within L G (fail e : Script D M E α) post :=
  within_same (fun _ => rfl) (fun _ _ h => by cases h)

lemma within_ofExcept (x : Except E α) :
    Within L G (ofExcept x : Script D M E α) (fun a => x = .ok a) :=
  within_same (fun _ => rfl) (fun _ _ ha => ha)

lemma within_look (f : Disk D → α) : Within L G (look f : Script D M E α) (fun _ => True) :=
  within_same (fun _ => rfl) (fun _ _ _ => trivial)

lemma within_remember (f : M → M) : Within L G (remember f : Script D M E Unit) (fun _ => True) :=
  within_same (fun _ => rfl) (fun _ _ _ => trivial)

lemma Within.weaken (hm : Within L G m post) :
    Within L G m (fun _ => True) := ⟨hm.evolves,fun _ _ _ _ => trivial⟩

lemma bind_cases (m : Script D M E α) (f : α → Script D M E β) (w : World D M) :
    (∃ a, (m w).1 = .ok a ∧ (m >>= f) w = f a (m w).2) ∨
      ∃ e, (m w).1 = .error e ∧ (m >>= f) w = (.error e,(m w).2) := by
  change (∃ a, _ ∧ (match m w with
    | (.ok a,w') => f a w'
    | (.error e,w') => (.error e,w')) = _) ∨ ∃ e, _ ∧ (match m w with
    | (.ok a,w') => f a w'
    | (.error e,w') => (.error e,w')) = _
  rcases m w with ⟨x,w'⟩
  cases x with
  | ok a => exact .inl ⟨a,rfl,rfl⟩
  | error e => exact .inr ⟨e,rfl,rfl⟩

variable {f : α → Script D M E β}

lemma within_bind (hm : Within L G m post)
    (hf : ∀ a, post a → Within L G (f a) next) : Within L G (m >>= f) next := by
  refine ⟨fun w hl => ?_,fun w hl b hb => ?_⟩
  · have he := hm.evolves w hl
    rcases bind_cases m f w with ⟨a,ha,heq⟩ | ⟨e,_,heq⟩
    · rw [heq]
      exact he.trans ((hf a (hm.result w hl a ha)).evolves _ he.links)
    · rw [heq]
      exact he
  · have he := hm.evolves w hl
    rcases bind_cases m f w with ⟨a,ha,heq⟩ | ⟨e,_,heq⟩
    · rw [heq] at hb
      exact (hf a (hm.result w hl a ha)).result _ he.links b hb
    · rw [heq] at hb
      cases hb

lemma within_then (hm : Within L G m (fun _ => True)) (hf : ∀ a, Within L G (f a) next) :
    Within L G (m >>= f) next := within_bind hm (fun a _ => hf a)

lemma within_when {c : Bool} {m : Script D M E Unit} (hm : Within L G m (fun _ => True)) :
    Within L G (m.when c) (fun _ => True) := by
  cases c with
  | true => exact hm
  | false => exact within_pure trivial

lemma within_mapError {f : E → E'} (hm : Within L G m post) : Within L G (m.mapError f) post := by
  refine ⟨hm.evolves,fun w hl a ha => hm.result w hl a ?_⟩
  change (m w).1.mapError f = .ok a at ha
  exact mapError_eq_ok ha

lemma within_attempt (hm : Within L G m post) :
    Within L G (m.attempt : Script D M E' (Except E α)) (fun _ => True) :=
  ⟨hm.evolves,fun _ _ _ _ => trivial⟩

lemma within_ignore (hm : Within L G m post) :
    Within L G (m.ignore : Script D M E' Unit) (fun _ => True) :=
  ⟨hm.evolves,fun _ _ _ _ => trivial⟩

lemma within_call {op : Op D α} (h : Confined L G op) :
    Within L G (call op : Script D M IoError α) (fun _ => True) := by
  refine ⟨fun w hl => ?_,fun _ _ _ _ => trivial⟩
  have he := h w.disk hl
  unfold call
  split
  swap
  · exact he
  rename_i f faults _
  refine ⟨fun p target hp => ?_,fun p => ?_⟩
  · dsimp only at hp
    split_ifs at hp
    · exact hl p target hp
    · exact he.links p target hp
  · dsimp only
    split_ifs
    · exact G.refl p _
    · exact he.rel p

end Script

end PirateServer.Lib
