import PirateServer.StackTun.Resync

/-! The two handlers that replace the configuration, with every way in which saving can fail. The
new root is in memory before anything is written, and the file is cut before it is written, so a
request that fails in `save_to_disk` leaves traces; one that is refused does not. -/
namespace PirateServer.StackTun.FailedUpdates
open Lib Resync

/-- The text of a root, what is in a file after some bytes of a text have been written, and the
parser of the text. -/
structure Codec (Text : Type) where
  encode : PersistRoot → Text
  beginning : ℕ → Text → Text
  decode : Text → Option PersistRoot
  decode_encode : ∀ root, decode (encode root) = some root

/-- The points at which `save_to_disk` can fail. -/
inductive SaveFailure
  | createDir
  | serialize
  | openFile
  | write (written : ℕ)
  deriving DecidableEq

/-- The body of a request. -/
inductive Put
  | profiles (profiles : List TunnelProfile)
  | routes (routes : List StackTunRouteRule)
  deriving DecidableEq

def Put.request : Put → Updates.Request
  | profiles ps => .putConfig ps
  | routes rs => .putRoutes rs

/-- A request, whether it carries the bearer token, and how saving goes if it gets that far. -/
structure Attempt where
  put : Put
  authorized : Bool
  failure : Option SaveFailure
  deriving DecidableEq

inductive StatusCode
  | ok
  | badRequest
  | unauthorized
  | internalServerError
  deriving DecidableEq

structure Server (Text Addr : Type) where
  root : PersistRoot
  file : Option Text
  running : Running Addr

variable {Text Addr : Type} (codec : Codec Text) (parse : String → Option Addr)

/-- The root that `ConfigStore::load` makes of a file. -/
def loadRoot (file : Option Text) : PersistRoot := (file.bind codec.decode).getD .default

def Server.start (file : Option Text) : Server Text Addr :=
  ⟨loadRoot codec file,file,resyncAll parse (loadRoot codec file) .empty⟩

/-- The file after a failed `save_to_disk`. -/
def SaveFailure.leaves (root : PersistRoot) (file : Option Text) : SaveFailure → Option Text
  | createDir | serialize | openFile => file
  | write written => some (codec.beginning written (codec.encode root))

variable (s : Server Text Addr) (a : Attempt)

/-- `put_config` and `put_routes`: their checks, the replacement in memory, the saving, and the
`resync_all` of the first. -/
def handle : StatusCode × Server Text Addr :=
  if a.authorized = false then (.unauthorized,s)
  else if a.put.request.valid = false then (.badRequest,s)
  else
    let root := a.put.request.newRoot s.root
    match a.failure with
    | some f => (.internalServerError,{ s with root := root, file := f.leaves codec root s.file })
    | none =>
      match a.put with
      | .profiles _ => (.ok,⟨root,some (codec.encode root),resyncAll parse root s.running⟩)
      | .routes _ => (.ok,{ s with root := root, file := some (codec.encode root) })

def step : Option (Server Text Addr) :=
  some (handle codec parse s a).2

def Attempt.Refused (a : Attempt) : Prop := a.authorized = false ∨ a.put.request.valid = false

/-- Saving fails, for a root that is there already, and leaves the file as it was. -/
def Attempt.Harmless : Prop :=
  ∃ f, a.failure = some f ∧ a.put.request.newRoot s.root = s.root ∧
    f.leaves codec s.root s.file = s.file

/-- `resync_all` would leave the listeners and their queues as they are. -/
structure Settled (root : PersistRoot) (r : Running Addr) : Prop where
  queues : ∀ id, (resyncAll parse root r).queues.lookup id = r.queues.lookup id
  taskQueues : ∀ id, (resyncAll parse root r).taskQueues.lookup id = r.taskQueues.lookup id
  listenerTasks : ∀ id, (resyncAll parse root r).listenerTasks.lookup id = r.listenerTasks.lookup id

/-- Each listener stands where a profile of its id says, and each profile that asks for a listener,
with an address, has one. -/
structure InPlace (root : PersistRoot) (r : Running Addr) : Prop where
  placed : ∀ id addr, r.listenerTasks.lookup id = some addr →
    ∃ p ∈ root.profiles, p.id = id ∧ relays p = true ∧ addrForListen parse p = .ok addr
  present : ∀ p ∈ root.profiles, relays p = true → ∀ addr, addrForListen parse p = .ok addr →
    (r.listenerTasks.lookup p.id).isSome = true

/-- The request asks for no listener that runs at another address. -/
def Attempt.MovesNone : Prop :=
  ∀ ps, a.put = .profiles ps → ∀ p ∈ ps, relays p = true →
    ∀ addr, s.running.listenerTasks.lookup p.id = some addr → addrForListen parse p = .ok addr

/-- Memory, disk and listeners say the same. -/
structure Agrees (s : Server Text Addr) : Prop where
  disk : loadRoot codec s.file = s.root
  listeners : InPlace parse s.root s.running
  settled : Settled parse s.root s.running

variable {α : Type} {parse : String → Option Addr} {root : PersistRoot}

def added (root : PersistRoot) (val : TunnelProfile → Option α) (id : String) : Option α :=
  root.profiles.findSome? (fun p => if p.id = id then val p else none)

variable (r : Running Addr) (id : String)

lemma lookup_queues_added :
    (resyncAll parse root r).queues.lookup id =
      (r.queues.lookup id).or (added root (when relays (fun p => some (queueConfig p))) id) := by
  apply lookup_body
  intro mq p
  unfold when upsertListenerQueue
  split <;> rfl

lemma lookup_taskQueues_added :
    (resyncAll parse root r).taskQueues.lookup id = ((r.taskQueues.lookup id).or
        (added root (when serves (fun p => some (taskQueueConfig p))) id)).filter
          (fun _ => decide (id ∈ desired serves root)) := by
  refine (Table.lookup_retain _ _ _).trans (congrArg _ (lookup_body ?_ _ _))
  intro mq p
  unfold when upsertListenerTaskQueue
  split <;> rfl

lemma lookup_listenerTasks_added :
    (resyncAll parse root r).listenerTasks.lookup id =
      ((r.listenerTasks.lookup id).filter (fun _ => decide (id ∈ desired relays root))).or
        (added root (when relays (fun p => (addrForListen parse p).toOption)) id) := by
  rw [← Table.lookup_retain (fun id _ => decide (id ∈ desired relays root))]
  apply lookup_body
  intro lm p
  unfold when
  split
  · show _ = (addrForListen parse p).toOption.elim lm (lm.insertNew p.id)
    cases addrForListen parse p <;> rfl
  · rfl

lemma or_or_self (a b : Option α) : (a.or b).or b = a.or b := by
  cases a <;> cases b <;> rfl

lemma filter_true_eq (o : Option α) : o.filter (fun _ => true) = o := by
  cases o <;> rfl

theorem settled_resyncAll (parse : String → Option Addr) (root : PersistRoot) (r : Running Addr) :
    Settled parse root (resyncAll parse root r) where
  queues id := by
    rw [lookup_queues_added,lookup_queues_added,or_or_self]
  taskQueues id := by
    rw [lookup_taskQueues_added,lookup_taskQueues_added]
    by_cases h : id ∈ desired serves root
    · simp only [h,decide_true,filter_true_eq,or_or_self]
    · simp [h]
  listenerTasks id := by
    rw [lookup_listenerTasks_added,lookup_listenerTasks_added]
    by_cases h : id ∈ desired relays root
    · simp only [h,decide_true,filter_true_eq,or_or_self]
    · simp [h]

lemma inPlace_resyncAll {r : Running Addr} (hstay : ∀ p ∈ root.profiles, relays p = true →
      ∀ addr, r.listenerTasks.lookup p.id = some addr → addrForListen parse p = .ok addr) :
    InPlace parse root (resyncAll parse root r) where
  placed id addr h := by
    rw [lookup_listenerTasks_added,Option.or_eq_some_iff] at h
    rcases h with h | ⟨_,h⟩
    · obtain ⟨hold,hdesired⟩ := Option.filter_eq_some_iff.mp h
      rw [decide_eq_true_eq] at hdesired
      obtain ⟨p,hp,rfl⟩ := List.mem_map.mp hdesired
      obtain ⟨hmem,hkind⟩ := List.mem_filter.mp hp
      exact ⟨p,hmem,rfl,hkind,hstay p hmem hkind addr hold⟩
    · obtain ⟨p,hmem,hp⟩ := List.exists_of_findSome?_eq_some h
      unfold when at hp
      split_ifs at hp with hid hkind
      cases haddr : addrForListen parse p with
      | error e => simp [haddr,Except.toOption] at hp
      | ok found =>
        simp only [haddr,Except.toOption,Option.some.injEq] at hp
        exact ⟨p,hmem,hid,hkind,by rw [haddr,hp]⟩
  present p hmem hkind addr haddr := by
    have hadded : (added root (when relays (fun p => (addrForListen parse p).toOption))
        p.id).isSome = true := by
      refine List.findSome?_isSome_iff.mpr ⟨p,hmem,?_⟩
      simp [when,hkind,haddr,Except.toOption]
    rw [lookup_listenerTasks_added,Option.isSome_or,hadded,Bool.or_true]

lemma resyncAll_congr {root' : PersistRoot} (h : root'.profiles = root.profiles)
    (r : Running Addr) : resyncAll parse root' r = resyncAll parse root r := by
  cases root
  cases root'
  cases h
  rfl

variable {codec : Codec Text} {s s' : Server Text Addr} {a : Attempt}

lemma handle_error (hpass : ¬a.Refused) (h : (handle codec parse s a).1 ≠ .ok) :
    ∃ f, a.failure = some f ∧ (handle codec parse s a).2 = { s with
        root := a.put.request.newRoot s.root
        file := f.leaves codec (a.put.request.newRoot s.root) s.file } := by
  obtain ⟨hauth,hvalid⟩ := not_or.mp hpass
  unfold handle at h ⊢
  rw [if_neg hauth,if_neg hvalid] at h ⊢
  cases hf : a.failure with
  | some f => exact ⟨f,rfl,rfl⟩
  | none =>
    rw [hf] at h
    cases hp : a.put <;> simp [hp] at h

lemma handle_refused (h : a.Refused) : (handle codec parse s a).2 = s := by
  unfold handle
  split_ifs with hauth hvalid
  · rfl
  · rfl
  · exact absurd h (not_or.mpr ⟨hauth,hvalid⟩)

/-- A failed request changes nothing exactly when it was refused, or when it asked for what was
there and the failure left the file alone. -/
lemma failed_unchanged_iff (h : (handle codec parse s a).1 ≠ .ok) :
    (handle codec parse s a).2 = s ↔ a.Refused ∨ a.Harmless codec s := by
  by_cases hpass : a.Refused
  · exact iff_of_true (handle_refused hpass) (.inl hpass)
  obtain ⟨f,hf,heq⟩ := handle_error hpass h
  rw [heq,or_iff_right hpass]
  constructor
  · intro hsame
    have hroot : a.put.request.newRoot s.root = s.root := congrArg Server.root hsame
    have hfile := congrArg Server.file hsame
    simp only [hroot] at hfile
    exact ⟨f,hf,hroot,hfile⟩
  · rintro ⟨g,hg,hroot,hleft⟩
    cases hf.symm.trans hg
    rw [hroot,hleft]

lemma Agrees.of_saved (h : a.failure = none) (hstay : a.MovesNone parse s)
    (hs : Agrees codec parse s) : Agrees codec parse (handle codec parse s a).2 := by
  have hload (root : PersistRoot) : loadRoot codec (some (codec.encode root)) = root := by
    simp [loadRoot,codec.decode_encode]
  by_cases hrefused : a.Refused
  · rw [handle_refused hrefused]
    exact hs
  obtain ⟨hauth,hvalid⟩ := not_or.mp hrefused
  unfold handle
  rw [if_neg hauth,if_neg hvalid,h]
  cases hp : a.put with
  | profiles ps => exact ⟨hload _,inPlace_resyncAll (hstay ps hp),settled_resyncAll parse _ _⟩
  | routes rs =>
    have hprofiles : ((Put.routes rs).request.newRoot s.root).profiles = s.root.profiles := rfl
    have hsettled := hs.settled
    exact ⟨hload _,⟨hs.listeners.placed,hs.listeners.present⟩,
      ⟨fun id => by rw [resyncAll_congr hprofiles]; exact hsettled.queues id,
        fun id => by rw [resyncAll_congr hprofiles]; exact hsettled.taskQueues id,
        fun id => by rw [resyncAll_congr hprofiles]; exact hsettled.listenerTasks id⟩⟩

lemma Agrees.start (file : Option Text) :
    Agrees codec parse (Server.start codec parse file : Server Text Addr) :=
  ⟨rfl,inPlace_resyncAll (fun p _ _ addr h => by cases h),settled_resyncAll parse _ _⟩

/-- The request is saved and moves no listener, or it is refused, or it is harmless. -/
def Attempt.Tame (codec : Codec Text) (parse : String → Option Addr) (s : Server Text Addr)
    (a : Attempt) : Prop :=
  a.failure = none ∧ a.MovesNone parse s ∨ a.Refused ∨ a.Harmless codec s

lemma Agrees.step (hs : Agrees codec parse s) (hok : a.Tame codec parse s)
    (h : FailedUpdates.step codec parse s a = some s') : Agrees codec parse s' := by
  simp only [FailedUpdates.step,Option.some.injEq] at h
  subst h
  rcases hok with ⟨hsaved,hstay⟩ | hrefused | hharmless
  · exact hs.of_saved hsaved hstay
  · rw [handle_refused hrefused]
    exact hs
  · by_cases hrefused : a.Refused
    · rw [handle_refused hrefused]
      exact hs
    obtain ⟨f,hf⟩ : ∃ f, a.failure = some f := hharmless.imp (fun _ h => h.1)
    have hstatus : (handle codec parse s a).1 ≠ .ok := by
      obtain ⟨hauth,hvalid⟩ := not_or.mp hrefused
      simp [handle,if_neg hauth,if_neg hvalid,hf]
    rw [(failed_unchanged_iff hstatus).mpr (.inr hharmless)]
    exact hs

def wholeText : Codec (List PersistRoot) where
  encode root := [root]
  beginning written text := text.take written
  decode text := text.head?
  decode_encode _ := rfl

def webServer : Server (List PersistRoot) (List ℕ × ℕ) :=
  .start wholeText parseSocketAddrV4 (some [webRoot])

def refusedPut : Attempt := ⟨.profiles [connector "c" 80,connector "c" 81],true,none⟩

def grownPut : Attempt := ⟨.profiles grownRoot.profiles,true,none⟩

def emptyPut : Attempt := ⟨.profiles [],true,some .openFile⟩

def movedPut : Attempt := ⟨.profiles [tcpListener "web" "0.0.0.0:9001" 8],true,none⟩

end PirateServer.StackTun.FailedUpdates
