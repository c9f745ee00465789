import Mathlib

/-! A file system as a program uses it: directories, files and symbolic links below one directory,
paths that are followed name by name, and the operations that change the tree. What lies outside
of that directory is not represented; a path that leads there ends in an error. -/
namespace PirateServer.Lib.FileTree
open List
variable {D α : Type}

/-- Where a node is: the names on the way down from the top. -/
abbrev Place := List String

inductive Node (D : Type)
  | dir
  | file (data : D) (mode : ℕ)
  | link (target : List String)
  deriving DecidableEq, Repr

def Disk (D : Type) : Type := Place → Option (Node D)

inductive IoError
  | notFound
  | notADirectory
  | isADirectory
  | alreadyExists
  | invalidInput
  | tooManyLinks
  | outside
  | other (text : String)
  deriving DecidableEq, Repr

/-- As `Display` prints it. -/
def IoError.text : IoError → String
  | notFound => "No such file or directory (os error 2)"
  | notADirectory => "Not a directory (os error 20)"
  | isADirectory => "Is a directory (os error 21)"
  | alreadyExists => "File exists (os error 17)"
  | invalidInput => "Invalid argument (os error 22)"
  | tooManyLinks => "Too many levels of symbolic links (os error 40)"
  | outside => "Permission denied (os error 13)"
  | other text => text

abbrev Op (D α : Type) := Disk D → Except IoError α × Disk D

namespace Disk

def node (t : Disk D) (p : Place) : Option (Node D) := if p = [] then some .dir else t p

def set (t : Disk D) (p : Place) (n : Option (Node D)) : Disk D :=
  fun q => if q = p then n else t q

def clear (t : Disk D) (gone : Place → Bool) : Disk D := fun p => if gone p then none else t p

/-- The names of a path one after the other, from the place `p` on. A link at the end is followed
if `last` says so; the rest of a path with a link is left to `onLink`. -/
def walkWith (t : Disk D) (last : Bool) (onLink : Place → List String → Except IoError Place) :
    Place → List String → Except IoError Place
  | p,[] => .ok p
  | p,c::cs =>
    if c = "." then walkWith t last onLink p cs
    else if c = ".." then
      if p = [] then .error .outside else walkWith t last onLink p.dropLast cs
    else
      match t (p++[c]) with
      | some .dir => walkWith t last onLink (p++[c]) cs
      | some (.file ..) => if cs = [] then .ok (p++[c]) else .error .notADirectory
      | some (.link target) =>
        if cs = [] ∧ last = false then .ok (p++[c]) else onLink p (target++cs)
      | none => if cs = [] then .ok (p++[c]) else .error .notFound

/-- At most `n` links are followed. -/
def walk (t : Disk D) (last : Bool) : ℕ → Place → List String → Except IoError Place
  | 0 => walkWith t last (fun _ _ => .error .tooManyLinks)
  | n+1 => walkWith t last (walk t last n)

def resolve (t : Disk D) (last : Bool) (path : List String) : Except IoError Place :=
  walk t last 40 [] path

/-- `metadata`, which follows links. -/
def metadata (t : Disk D) (path : List String) : Option (Node D) :=
  match t.resolve true path with
  | .ok q => t.node q
  | .error _ => none

def pathExists (t : Disk D) (path : List String) : Bool := (t.metadata path).isSome

def isDir (t : Disk D) (path : List String) : Bool :=
  match t.metadata path with
  | some .dir => true
  | _ => false

def isFile (t : Disk D) (path : List String) : Bool :=
  match t.metadata path with
  | some (.file ..) => true
  | _ => false

def read (t : Disk D) (path : List String) : Except IoError D :=
  match t.resolve true path with
  | .error e => .error e
  | .ok q =>
    match t.node q with
    | some (.file data _) => .ok data
    | some .dir => .error .isADirectory
    | _ => .error .notFound

/-- `read_link`. -/
def readLink (t : Disk D) (path : List String) : Option (List String) :=
  match t.resolve false path with
  | .error _ => none
  | .ok q =>
    match t.node q with
    | some (.link target) => some target
    | _ => none

end Disk

/-- `Path::file_name`, which does not see a dot. -/
def fileName (path : List String) : Option String :=
  ((path.filter (· ≠ ".")).getLast?).filter (· ≠ "..")

def atPath (last : Bool) (path : List String) (f : Place → Option (Node D) → Op D α) : Op D α :=
  fun t =>
    match t.resolve last path with
    | .error e => (.error e,t)
    | .ok q => f q (t.node q) t

def write (path : List String) (f : Option D → D) : Op D Unit :=
  atPath true path (fun q n t =>
    match n with
    | none => (.ok (),t.set q (some (.file (f none) 0o644)))
    | some (.file data mode) => (.ok (),t.set q (some (.file (f (some data)) mode)))
    | some .dir => (.error .isADirectory,t)
    | some (.link _) => (.error .tooManyLinks,t))

def setPermissions (path : List String) (mode : ℕ) : Op D Unit :=
  atPath true path (fun q n t =>
    match n with
    | none => (.error .notFound,t)
    | some (.file data _) => (.ok (),t.set q (some (.file data mode)))
    | some _ => (.ok (),t))

def removeFile (path : List String) : Op D Unit :=
  atPath false path (fun q n t =>
    match n with
    | none => (.error .notFound,t)
    | some .dir => (.error .isADirectory,t)
    | some _ => (.ok (),t.set q none))

def removeDirAll (path : List String) : Op D Unit :=
  atPath false path (fun q n t =>
    match n with
    | none => (.error .notFound,t)
    | some (.file ..) => (.error .notADirectory,t)
    | some (.link _) => (.ok (),t.set q none)
    | some .dir =>
      if path.getLast? = some "." then (.error .invalidInput,t.clear (fun p => q <+: p ∧ p ≠ q))
      else (.ok (),t.clear (fun p => q <+: p)))

def symlink (target path : List String) : Op D Unit :=
  atPath false path (fun q n t =>
    match n with
    | none => (.ok (),t.set q (some (.link target)))
    | some _ => (.error .alreadyExists,t))

/-- Give a file or a link another name, in place of the file or link that has it. -/
def rename (source dest : List String) : Op D Unit :=
  atPath false source (fun a n =>
    atPath false dest (fun b m t =>
      match n,m with
      | none,_ => (.error .notFound,t)
      | _,some .dir | some .dir,_ => (.error .isADirectory,t)
      | some n,_ => (.ok (),(t.set a none).set b (some n))))

/-- Make the directories of a path that are not there, from the place `p` on. -/
def createDirsFrom : Place → List String → Op D Unit
  | _,[],t => (.ok (),t)
  | p,c::cs,t =>
    match t.walk true 40 p [c] with
    | .error e => (.error e,t)
    | .ok q =>
      match t.node q with
      | some .dir => createDirsFrom q cs t
      | some _ => (.error .notADirectory,t)
      | none =>
        if q = p++[c] then createDirsFrom q cs (t.set q (some .dir)) else (.error .alreadyExists,t)

def createDirAll (path : List String) : Op D Unit := createDirsFrom [] path

/-- An entry of an archive. -/
structure Entry (D : Type) where
  path : List String
  node : Node D

/-- Make the directories below `p` that an entry needs, and the entry; nothing below `p` is
followed. -/
def extractFrom (e : Node D) : Place → List String → Op D Unit
  | _,[],t => (.ok (),t)
  | p,[c],t =>
    match t.node (p++[c]),e with
    | some .dir,.dir => (.ok (),t)
    | some .dir,_ => (.error .isADirectory,t)
    | _,_ => (.ok (),t.set (p++[c]) (some e))
  | p,c::d::cs,t =>
    match t.node (p++[c]) with
    | some .dir => extractFrom e (p++[c]) (d::cs) t
    | some _ => (.error .notADirectory,t)
    | none => extractFrom e (p++[c]) (d::cs) (t.set (p++[c]) (some .dir))

def extract (dst : List String) (e : Entry D) : Op D Unit :=
  atPath true dst (fun q n t =>
    if ".." ∈ e.path then (.error .invalidInput,t)
    else
      match n with
      | some .dir => extractFrom e.node q (e.path.filter (· ≠ ".")) t
      | _ => (.error .notADirectory,t))

/-! What an operation can do to the tree, if links are only at known places. -/

def LinksAt (L : Place → Prop) (t : Disk D) : Prop := ∀ p target, t p = some (.link target) → L p

/-- What may become of the node at each place, in any number of steps. -/
structure Guarantee (D : Type) where
  rel : Place → Option (Node D) → Option (Node D) → Prop
  refl : ∀ p n, rel p n n
  trans : ∀ p a b c, rel p a b → rel p b c → rel p a c

def Guarantee.Free (G : Guarantee D) (p : Place) : Prop := ∀ a b, G.rel p a b

/-- The tree `t'` can come after `t`: its links are where they may be, and no node has become what
it may not. -/
structure Evolves (L : Place → Prop) (G : Guarantee D) (t t' : Disk D) : Prop where
  links : LinksAt L t'
  rel : ∀ p, G.rel p (t p) (t' p)

def Confined (L : Place → Prop) (G : Guarantee D) (op : Op D α) : Prop :=
  ∀ t, LinksAt L t → Evolves L G t (op t).2

/-- A path below the place `p` that goes through no place of a link, except at its end if a link
there is not followed. -/
structure StraightFrom (L : Place → Prop) (last : Bool) (p : Place) (path : List String) :
    Prop where
  regular : ∀ c ∈ path, c ≠ "." ∧ c ≠ ".."
  clear : ∀ q, p <+: q → q ≠ p → q <+: p++path → (q ≠ p++path ∨ last = true) → ¬L q

def Straight (L : Place → Prop) (last : Bool) (path : List String) : Prop :=
  StraightFrom L last [] path

variable {L : Place → Prop} {G : Guarantee D} {t t' t'' : Disk D} {last : Bool} {p q : Place}
  {path : List String} {cs target : List String}

lemma StraightFrom.tail {c : String} (h : StraightFrom L last p (c::cs)) :
    StraightFrom L last (p++[c]) cs := by
  refine ⟨fun d hd => h.regular d (mem_cons_of_mem _ hd),fun q hpq hne hq hend => ?_⟩
  have hsame : p++[c]++cs = p++c::cs := by simp
  rw [hsame] at hq hend
  refine h.clear q ((prefix_append p [c]).trans hpq) ?_ hq hend
  rintro rfl
  have hlen := hpq.length_le
  simp at hlen

lemma StraightFrom.not_link {c : String} (h : StraightFrom L last p (c::cs))
    (hend : cs ≠ [] ∨ last = true) : ¬L (p++[c]) := by
  refine h.clear _ (prefix_append _ _) (by simp) ?_ (hend.imp_left ?_)
  · exact ⟨cs,by simp⟩
  · intro hcs heq
    exact hcs (by simpa using heq)

lemma walkWith_straight {onLink : Place → List String → Except IoError Place}
    (hs : StraightFrom L last p path) (hl : LinksAt L t)
    (h : t.walkWith last onLink p path = .ok q) : q = p++path := by
  induction path generalizing p with
  | nil =>
    cases h
    simp
  | cons c cs ih =>
    obtain ⟨hdot,hdots⟩ := hs.regular c mem_cons_self
    simp only [Disk.walkWith,if_neg hdot,if_neg hdots] at h
    split at h
    · rw [ih hs.tail h]
      simp
    · split_ifs at h with hcs
      cases h
      rw [hcs]
    · rename_i target hlink
      split_ifs at h with hcs
      · cases h
        rw [hcs.1]
      · refine absurd (hl _ _ hlink) (hs.not_link ?_)
        by_cases hnil : cs = []
        · exact .inr (by simpa [hnil] using hcs)
        · exact .inl hnil
    · split_ifs at h with hcs
      cases h
      rw [hcs]

lemma walk_straight {n : ℕ} (hs : StraightFrom L last p path) (hl : LinksAt L t)
    (h : t.walk last n p path = .ok q) : q = p++path := by
  cases n with
  | zero => exact walkWith_straight hs hl h
  | succ n => exact walkWith_straight hs hl h

lemma resolve_straight (hs : Straight L last path) (hl : LinksAt L t)
    (h : t.resolve last path = .ok q) : q = path := by
  rw [walk_straight hs hl h,nil_append]

lemma Evolves.refl (hl : LinksAt L t) : Evolves L G t t := ⟨hl,fun p => G.refl p _⟩

lemma Evolves.trans (h : Evolves L G t t') (h' : Evolves L G t' t'') : Evolves L G t t'' :=
  ⟨h'.links,fun p => G.trans p _ _ _ (h.rel p) (h'.rel p)⟩

lemma evolves_set (hl : LinksAt L t) {n : Option (Node D)} (hrel : G.rel p (t p) n)
    (hn : ∀ target, n = some (.link target) → L p) : Evolves L G t (t.set p n) := by
  refine ⟨fun q target hq => ?_,fun q => ?_⟩
  · unfold Disk.set at hq
    split_ifs at hq with hqp
    · exact hqp ▸ hn target hq
    · exact hl q target hq
  · unfold Disk.set
    split_ifs with hqp
    · exact hqp ▸ hrel
    · exact G.refl q _

lemma evolves_clear (hl : LinksAt L t) {gone : Place → Bool}
    (h : ∀ p, gone p = true → G.Free p) : Evolves L G t (t.clear gone) := by
  refine ⟨fun q target hq => ?_,fun q => ?_⟩
  · unfold Disk.clear at hq
    split_ifs at hq
    exact hl q target hq
  · unfold Disk.clear
    split_ifs with hgone
    · exact h q hgone _ _
    · exact G.refl q _

lemma LinksAt.node (hl : LinksAt L t) (h : t.node p = some (.link target)) : L p := by
  unfold Disk.node at h
  split_ifs at h
  · cases h
  · exact hl p target h

lemma confined_atPath {f : Place → Option (Node D) → Op D α} (hs : Straight L last path)
    (hf : ∀ t, LinksAt L t → Evolves L G t (f path (t.node path) t).2) :
    Confined L G (atPath last path f) := by
  intro t hl
  cases hq : t.resolve last path with
  | error e =>
    simp only [atPath,hq]
    exact .refl hl
  | ok q =>
    obtain rfl := resolve_straight hs hl hq
    simp only [atPath,hq]
    exact hf t hl

lemma confined_write {f : Option D → D} (hs : Straight L true path) (hG : G.Free path) :
    Confined L G (write path f) := by
  refine confined_atPath hs (fun t hl => ?_)
  split
  · exact evolves_set hl (hG _ _) (by simp)
  · exact evolves_set hl (hG _ _) (by simp)
  · exact .refl hl
  · exact .refl hl

lemma confined_setPermissions {mode : ℕ} (hs : Straight L true path) (hG : G.Free path) :
    Confined L G (setPermissions path mode : Op D Unit) := by
  refine confined_atPath hs (fun t hl => ?_)
  split
  · exact .refl hl
  · exact evolves_set hl (hG _ _) (by simp)
  · exact .refl hl

lemma confined_removeFile (hs : Straight L false path) (hG : G.Free path) :
    Confined L G (removeFile path : Op D Unit) := by
  refine confined_atPath hs (fun t hl => ?_)
  split
  · exact .refl hl
  · exact .refl hl
  · exact evolves_set hl (hG _ _) (by simp)

lemma confined_removeDirAll (hs : Straight L false path) (hG : ∀ p, path <+: p → G.Free p) :
    Confined L G (removeDirAll path : Op D Unit) := by
  refine confined_atPath hs (fun t hl => ?_)
  split
  · exact .refl hl
  · exact .refl hl
  · exact evolves_set hl (hG path (prefix_refl path) _ _) (by simp)
  · split_ifs
    · exact evolves_clear hl (fun p hp => hG p (of_decide_eq_true hp).1)
    · exact evolves_clear hl (fun p hp => hG p (of_decide_eq_true hp))

lemma confined_symlink (hs : Straight L false path) (hG : G.Free path)
    (hL : L path) : Confined L G (symlink target path : Op D Unit) := by
  refine confined_atPath hs (fun t hl => ?_)
  split
  · exact evolves_set hl (hG _ _) (fun _ _ => hL)
  · exact .refl hl

lemma confined_rename {source dest : List String} (ha : Straight L false source)
    (hb : Straight L false dest) (hGa : G.Free source) (hGb : G.Free dest)
      (hL : L source → L dest) :
    Confined L G (rename source dest : Op D Unit) := by
  refine confined_atPath ha (fun t hl => ?_)
  have hlink : ∀ target, t.node source = some (.link target) → L dest :=
    fun target h => hL (hl.node h)
  refine confined_atPath hb (fun t' hl' => ?_) t hl
  split
  · exact .refl hl'
  · exact .refl hl'
  · exact .refl hl'
  · rename_i n _ hn _
    have hleft : Evolves L G t' (t'.set source none) := evolves_set hl' (hGa _ _) (by simp)
    refine hleft.trans (evolves_set hleft.links (hGb _ _) (fun target h => ?_))
    exact hlink target (by rw [hn,h])

lemma confined_createDirsFrom (hs : StraightFrom L true p path)
    (hG : ∀ q, p <+: q → q ≠ p → q <+: p++path → G.rel q none (some .dir)) :
    Confined L G (createDirsFrom p path : Op D Unit) := by
  induction path generalizing p with
  | nil => exact fun t hl => .refl hl
  | cons c cs ih =>
    have hrest : Confined L G (createDirsFrom (p++[c]) cs : Op D Unit) := by
      refine ih hs.tail (fun q hpq hne hq => ?_)
      refine hG q ((prefix_append p [c]).trans hpq) ?_ (by simpa using hq)
      rintro rfl
      have hlen := hpq.length_le
      simp at hlen
    have hfirst : G.rel (p++[c]) none (some .dir) :=
      hG _ (prefix_append _ _) (by simp) ⟨cs,by simp⟩
    have hone : StraightFrom L true p [c] := by
      refine ⟨fun d hd => ?_,fun q hpq hne hq _ => ?_⟩
      · rw [List.mem_singleton.mp hd]
        exact hs.regular c mem_cons_self
      · exact hs.clear q hpq hne (hq.trans ⟨cs,by simp⟩) (.inr rfl)
    intro t hl
    rw [createDirsFrom]
    split
    · exact .refl hl
    rename_i q hq
    rw [walk_straight hone hl hq]
    split
    · exact hrest t hl
    · exact .refl hl
    rename_i hnone
    rw [if_pos rfl]
    have hmade : Evolves L G t (t.set (p++[c]) (some .dir)) := by
      refine evolves_set hl ?_ (by simp)
      have hnode : t (p++[c]) = none := by simpa [Disk.node] using hnone
      rw [hnode]
      exact hfirst
    exact hmade.trans (hrest _ hmade.links)

lemma confined_createDirAll (hs : Straight L true path)
    (hG : ∀ q, q ≠ [] → q <+: path → G.rel q none (some .dir)) :
    Confined L G (createDirAll path : Op D Unit) :=
  confined_createDirsFrom hs (fun q _ hne hq => hG q hne hq)

lemma confined_extractFrom {e : Node D} (he : ∀ target, e ≠ .link target)
    (hG : ∀ q, p <+: q → G.Free q) : Confined L G (extractFrom e p path) := by
  induction path generalizing p with
  | nil => exact fun t hl => .refl hl
  | cons c cs ih =>
    have hfirst : G.Free (p++[c]) := hG _ (prefix_append _ _)
    have hrest : Confined L G (extractFrom e (p++[c]) cs) :=
      ih (fun q hq => hG q ((prefix_append p [c]).trans hq))
    intro t hl
    cases cs with
    | nil =>
      simp only [extractFrom]
      split
      · exact .refl hl
      · exact .refl hl
      · exact evolves_set hl (hfirst _ _) (fun target h => absurd (Option.some.inj h) (he target))
    | cons d cs =>
      simp only [extractFrom]
      split
      · exact hrest t hl
      · exact .refl hl
      · have hmade : Evolves L G t (t.set (p++[c]) (some .dir)) :=
          evolves_set hl (hfirst _ _) (by simp)
        exact hmade.trans (hrest _ hmade.links)

lemma confined_extract {e : Entry D} (hs : Straight L true path)
    (hG : ∀ p, path <+: p → G.Free p) (he : ∀ target, e.node ≠ .link target) :
    Confined L G (extract path e) := by
  refine confined_atPath hs (fun t hl => ?_)
  split_ifs
  · exact .refl hl
  · split
    · exact confined_extractFrom he hG t hl
    · exact .refl hl

end PirateServer.Lib.FileTree
