import PirateServer.Relay.Lanes

/-! Isolation of the cycles: the counts that cut the two lanes agree wherever a leg is running, so
that no byte gets from one connection into another. -/
namespace PirateServer.Relay
open Lib Packet List

/-- The listener has answered every `Pull` but the one that it is working on. -/
def ListenerPc.Balanced (heard answered : ℕ) : ListenerPc → Prop
  | ended => answered ≤ heard
  | pc => heard = answered + pc.owes.toNat

/-- The connector has seen the answer to every `Pull` but the one that it awaits. -/
def ConnectorPc.Balanced (asked told : ℕ) : ConnectorPc → Prop
  | ended _ => asked ≤ told + 1
  | pc => asked = told + pc.awaits.toNat

/-- While the listener is in a leg, the `CliFin` of the cycle comes before the next `Pull`, and a
`SrvFin` under way belongs to an earlier cycle. -/
structure Running (pc : ConnectorPc) (up : List ClientMsg) (down : List Item) : Prop where
  started : pc ≠ .handshake
  guarded : ∀ pre, pre ++ [.pull] <+: up → .cliFin ∈ pre
  left : pc = .pull → .cliFin ∈ up
  unfinished : ∀ rest, .msg .srvFin::rest <:+ down → ∃ i ∈ rest, i.answers = true
  hopeful : ∀ text, .msg (.error text) ∉ down

variable {i : Item}

namespace Running
variable {pc pc' : ConnectorPc} {up : List ClientMsg} {down : List Item}

lemma goto (h : Running pc up down) (hs : pc' ≠ .handshake) (hp : pc' ≠ .pull) :
    Running pc' up down := ⟨hs,h.guarded,fun hpc => absurd hpc hp,h.unfinished,h.hopeful⟩

lemma leave (h : Running pc up down) (hfin : .cliFin ∈ up) : Running .pull up down :=
  ⟨by simp,h.guarded,fun _ => hfin,h.unfinished,h.hopeful⟩

lemma tailDown (h : Running pc up (i::down)) : Running pc up down where
  started := h.started
  guarded := h.guarded
  left := h.left
  unfinished rest hrest := h.unfinished rest (hrest.trans (suffix_cons i down))
  hopeful text hmem := h.hopeful text (mem_cons_of_mem i hmem)

lemma pushDown (h : Running pc up down) (hfin : i ≠ .msg .srvFin)
    (herr : ∀ text, i ≠ .msg (.error text)) : Running pc up (down ++ [i]) where
  started := h.started
  guarded := h.guarded
  left := h.left
  unfinished rest hrest := by
    rcases List.suffix_concat_iff.mp hrest with hnil | ⟨pre,hpre,hsuf⟩
    · cases hnil
    cases pre with
    | nil =>
      cases hpre
      exact absurd rfl hfin
    | cons j pre =>
      cases hpre
      obtain ⟨k,hk,hans⟩ := h.unfinished pre hsuf
      exact ⟨k,mem_append_left _ hk,hans⟩
  hopeful text hmem := by
    rcases List.mem_append.mp hmem with hmem | hmem
    · exact h.hopeful text hmem
    · exact herr text (List.mem_singleton.mp hmem).symm

lemma tailUp {m : ClientMsg} (h : Running pc (m::up) down) (hm : m ≠ .cliFin) :
    Running pc up down where
  started := h.started
  guarded pre hpre := by
    have hmem := h.guarded (m::pre) ((cons_prefix_cons).mpr ⟨rfl,hpre⟩)
    exact (List.mem_cons.mp hmem).resolve_left (Ne.symm hm)
  left hpc := (List.mem_cons.mp (h.left hpc)).resolve_left (Ne.symm hm)
  unfinished := h.unfinished
  hopeful := h.hopeful

lemma pushUp {m : ClientMsg} (h : Running pc up down) (hm : m ≠ .pull) :
    Running pc (up ++ [m]) down where
  started := h.started
  guarded pre hpre := by
    rcases List.prefix_concat_iff.mp hpre with heq | hpre
    · have := (append_inj' heq rfl).2
      exact absurd (List.singleton_inj.mp this).symm hm
    · exact h.guarded pre hpre
  left hpc := mem_append_left _ (h.left hpc)
  unfinished := h.unfinished
  hopeful := h.hopeful

lemma pull (h : Running .pull up down) : Running .awaitReply (up ++ [.pull]) down where
  started := by simp
  guarded pre hpre := by
    rcases List.prefix_concat_iff.mp hpre with heq | hpre
    · rw [(append_inj' heq rfl).1]
      exact h.left rfl
    · exact h.guarded pre hpre
  left hpc := by cases hpc
  unfinished := h.unfinished
  hopeful := h.hopeful

lemma start (hs : pc ≠ .handshake) (hp : pc ≠ .pull) (hup : .pull ∉ up)
    (hdown : ∀ i ∈ down, i.answers = false) : Running pc up (down ++ [.msg .assigned]) where
  started := hs
  guarded pre hpre := absurd (hpre.subset (by simp)) hup
  left hpc := absurd hpc hp
  unfinished rest hrest := by
    rcases List.suffix_concat_iff.mp hrest with hnil | ⟨pre,hpre,_⟩
    · cases hnil
    · cases pre with
      | nil => cases hpre
      | cons j pre =>
        cases hpre
        exact ⟨.msg .assigned,by simp,rfl⟩
  hopeful text hmem := by
    rcases List.mem_append.mp hmem with hmem | hmem
    · cases hdown _ hmem
    · cases List.mem_singleton.mp hmem

end Running

/-- What the two loops agree on, whatever the bytes are. -/
structure Control (s : Sys) : Prop where
  listener : s.listener.Balanced s.heard s.answered
  connector : s.connector.Balanced s.asked s.told
  running : s.listener.inLeg = true → Running s.connector s.up s.down
  noUnset : .msg .unset ∉ s.down
  reported : ∀ status leave, s.listener = .report status leave → status.code ≠ .notFound

structure Invariant (s : Sys) : Prop extends Control s where
  up : s.upLane.Sound
  down : s.downLane.Sound

variable {s t : Sys}

lemma ListenerPc.Balanced.answered_le {pc : ListenerPc} {heard answered : ℕ}
    (h : pc.Balanced heard answered) : answered ≤ heard := by
  cases pc <;> simp only [ListenerPc.Balanced] at h <;> omega

lemma ConnectorPc.Balanced.asked_le {pc : ConnectorPc} {asked told : ℕ}
    (h : pc.Balanced asked told) : asked ≤ told + 1 := by
  cases pc <;> simp only [ConnectorPc.Balanced,awaits,Bool.toNat_true,
    Bool.toNat_false] at h <;> omega

lemma pull_notMem {up : List ClientMsg} (h : cuts (up.flatMap ClientMsg.packets) = 0) :
    .pull ∉ up := by
  intro hmem
  obtain ⟨pre,post,rfl⟩ := append_of_mem hmem
  simp only [flatMap_append,flatMap_cons,ClientMsg.packets,cuts_append,cuts] at h
  omega

lemma answers_eq_false {down : List Item} (h : cuts (down.flatMap Item.packets) = 0) :
    ∀ i ∈ down, i.answers = false := by
  intro i hmem
  obtain ⟨pre,post,rfl⟩ := append_of_mem hmem
  simp only [flatMap_append,flatMap_cons,cuts_append] at h
  rcases i with m | status
  · cases m <;> first | rfl | (simp only [Item.packets,cuts] at h; omega)
  · by_cases hcode : status.code = .notFound
    · simp only [Item.packets,hcode,if_true,cuts] at h
      omega
    · simp [Item.answers,hcode]

lemma Invariant.no_answer (h : Invariant s) (hc : s.connector.hasEnded = false)
    (ha : s.connector.awaits = false) : (∀ i ∈ s.down, i.answers = false) ∧ .pull ∉ s.up ∧
      s.listener.owes = false ∧ s.asked = s.told := by
  have hup : s.heard + cuts (s.up.flatMap ClientMsg.packets) = s.asked := h.up.counts
  have hdown : s.told + cuts (s.down.flatMap Item.packets) = s.answered := h.down.counts
  have hturn : s.asked = s.told := by
    have hcon := h.connector
    generalize s.connector = pc at hc ha hcon
    cases pc <;> simp_all [ConnectorPc.Balanced,ConnectorPc.hasEnded]
  have hle := h.listener.answered_le
  refine ⟨answers_eq_false (by omega),pull_notMem (by omega),?_,hturn⟩
  have hbal := h.listener
  have heq : s.heard = s.answered := by omega
  generalize s.listener = pc at hbal
  cases pc <;> simp_all [ListenerPc.Balanced,ListenerPc.owes]

lemma Invariant.owing (h : Invariant s) (ho : s.listener.owes = true) :
    (∀ i ∈ s.down, i.answers = false) ∧ .pull ∉ s.up := by
  have hup : s.heard + cuts (s.up.flatMap ClientMsg.packets) = s.asked := h.up.counts
  have hdown : s.told + cuts (s.down.flatMap Item.packets) = s.answered := h.down.counts
  have hle := h.connector.asked_le
  have hbal : s.heard = s.answered + 1 := by
    have hlis := h.listener
    generalize s.listener = pc at ho hlis
    cases pc <;> simp_all [ListenerPc.Balanced,ListenerPc.owes]
  exact ⟨answers_eq_false (by omega),pull_notMem (by omega)⟩

lemma Invariant.heard_eq (h : Invariant s) (hl : s.listener.inLeg = true) :
    s.heard = s.answered := by
  have hbal := h.listener
  generalize s.listener = pc at hl hbal
  cases pc <;> simp_all [ListenerPc.Balanced,ListenerPc.inLeg,ListenerPc.owes]

lemma Invariant.asked_eq (h : Invariant s) (hc : s.connector.downloads = true) :
    s.asked = s.told := by
  have hbal := h.connector
  generalize s.connector = pc at hc hbal
  cases pc <;> simp_all [ConnectorPc.Balanced,ConnectorPc.downloads,ConnectorPc.awaits]

variable {wild peers : Prop} {eof : Party → Prop}

lemma notMem_tail {rest : List Item} (h : .msg .unset ∉ i::rest) :
    .msg .unset ∉ rest := fun hm => h (mem_cons_of_mem i hm)

lemma notMem_push {down : List Item} (h : .msg .unset ∉ down) (hi : i ≠ .msg .unset) :
    .msg .unset ∉ down ++ [i] := by
  simp only [mem_append,mem_singleton,not_or]
  exact ⟨h,Ne.symm hi⟩

lemma Invariant.control_setLeg {p : Party} {k l : Leg} {sock : Party → ℕ → Socket}
    {read got : Log} (h : Invariant s) (pc : s.leg? p = some k) :
    Control ({ s with sock := sock, read := read, got := got }.setLeg p l) := by
  rcases s with ⟨connector,listener,up,down,_,_,lost,_,asked,heard,answered,told⟩
  cases p with
  | connector =>
    cases Sys.leg?_connector.mp pc
    exact ⟨h.listener,h.connector,fun hl => (h.running hl).goto nofun nofun,h.noUnset,h.reported⟩
  | listener =>
    cases Sys.leg?_listener.mp pc
    exact ⟨h.listener,h.connector,fun _ => h.running rfl,h.noUnset,nofun⟩

lemma Mishap.control (m : Mishap wild s t) (h : Invariant s) : Control t := by
  rcases s with ⟨connector,listener,up,down,sock,read,lost,got,asked,heard,answered,told⟩
  cases m with
  | @misreads i rest how pc head _ =>
    cases head
    have hle := h.connector.asked_le
    exact ⟨h.listener,show asked ≤ told + i.answers.toNat + 1 by simp only at hle; omega,
      fun hl => (h.running hl).tailDown.goto nofun nofun,notMem_tail h.noUnset,h.reported⟩
  | cutOff _ _ | ends _ _ =>
    exact ⟨h.listener,h.connector.asked_le,fun hl => (h.running hl).goto nofun nofun,
      h.noUnset,h.reported⟩
  | leaves pc gone =>
    cases gone
    rcases pc with pc | pc <;> cases pc <;>
      exact ⟨h.listener,h.connector,nofun,h.noUnset,h.reported⟩
  | leavesUnset pc head =>
    exact absurd (head ▸ mem_cons_self) h.noUnset
  | mishears pc head _ | legFails _ pc =>
    cases pc
    exact ⟨h.listener,h.connector,nofun,h.noUnset,fun _ _ hr => by cases hr; exact nofun⟩
  | stops pc _ =>
    exact ⟨h.listener.answered_le,h.connector,nofun,h.noUnset,nofun⟩
  | misses _ pc | legLeaves pc _ | legUnset pc _ =>
    cases pc
    exact ⟨h.listener,h.connector,nofun,h.noUnset,nofun⟩
  | refuses pc =>
    cases pc
    exact ⟨h.listener,h.connector,nofun,notMem_push h.noUnset (by simp),nofun⟩
  | legPull pc head =>
    have hrun := h.running (by rw [pc]; rfl)
    rw [head] at hrun
    cases hrun.guarded [] (prefix_append [_] _)
  | resets pc _ internal =>
    cases pc
    exact ⟨h.listener,h.connector,nofun,h.noUnset,
      fun _ _ hr => by cases hr; rw [internal]; exact nofun⟩
  | @reports status leave pc =>
    cases pc
    cases leave
    · exact ⟨h.listener,h.connector,nofun,notMem_push h.noUnset (by simp),
        nofun⟩
    · exact ⟨h.listener.answered_le,h.connector,nofun,
        notMem_push h.noUnset (by simp),nofun⟩

lemma Move.control (m : Move wild peers eof s t) (h : Invariant s) : Control t := by
  rcases s with ⟨connector,listener,up,down,sock,read,lost,got,asked,heard,answered,told⟩
  cases m with
  | peerWrote | peerShut => exact ⟨h.listener,h.connector,h.running,h.noUnset,h.reported⟩
  | reads pc _ _ | readsEof _ pc _ _ | writes pc _ => exact h.control_setLeg pc
  | ready pc head =>
    cases pc
    cases head
    exact ⟨h.listener,h.connector,fun hl => absurd rfl (h.running hl).started,
      notMem_tail h.noUnset,h.reported⟩
  | assigned pc head | takes pc head =>
    cases pc
    cases head
    exact ⟨h.listener,h.connector,fun hl => (h.running hl).tailDown.goto nofun nofun,
      notMem_tail h.noUnset,h.reported⟩
  | retries pc head =>
    cases pc
    cases head
    exact ⟨h.listener,h.connector,fun hl => absurd mem_cons_self ((h.running hl).hopeful _),
      notMem_tail h.noUnset,h.reported⟩
  | takesFin pc head =>
    cases pc
    cases head
    have hno := (h.no_answer rfl rfl).1
    refine ⟨h.listener,h.connector,fun hl => ?_,notMem_tail h.noUnset,h.reported⟩
    -- a leg that has sent its last frame is over
    obtain ⟨i,hi,hans⟩ := (h.running hl).unfinished _ (suffix_refl _)
    rw [hno i (mem_cons_of_mem _ hi)] at hans
    cases hans
  | pulls pc =>
    cases pc
    have hturn := (h.no_answer rfl rfl).2.2.2
    exact ⟨h.listener,congrArg Nat.succ hturn,fun hl => (h.running hl).pull,h.noUnset,h.reported⟩
  | connects pc =>
    cases pc
    exact ⟨h.listener,h.connector,fun hl => (h.running hl).goto nofun nofun,h.noUnset,h.reported⟩
  | sends pc =>
    cases pc
    exact ⟨h.listener,h.connector,fun hl => ((h.running hl).pushUp (by simp)).goto nofun nofun,
      h.noUnset,h.reported⟩
  | sendsFin pc =>
    cases pc
    exact ⟨h.listener,h.connector,fun hl => ((h.running hl).pushUp (by simp)).leave (by simp),
      h.noUnset,h.reported⟩
  | hears pc head =>
    cases pc
    exact ⟨congrArg Nat.succ h.listener,h.connector,nofun,h.noUnset,nofun⟩
  | looksUp pc | legFin pc _ =>
    cases pc
    exact ⟨h.listener,h.connector,nofun,h.noUnset,nofun⟩
  | @dequeues got pc =>
    cases pc
    split <;> exact ⟨h.listener,h.connector,nofun,h.noUnset,nofun⟩
  | assigns pc =>
    cases pc
    obtain ⟨hno,hpull⟩ := h.owing rfl
    refine ⟨h.listener,h.connector,fun _ => .start ?_ ?_ hpull hno,notMem_push h.noUnset (by simp),
      nofun⟩
    -- a connector that awaits no answer is owed none
    all_goals
      rintro rfl
      cases (h.no_answer rfl rfl).2.2.1
  | timesOut pc | legSendsFin pc =>
    cases pc
    exact ⟨h.listener,h.connector,nofun,notMem_push h.noUnset (by simp),nofun⟩
  | legTakes pc head =>
    cases pc
    cases head
    exact ⟨h.listener,h.connector,fun _ => (h.running rfl).tailUp (by simp),h.noUnset,nofun⟩
  | legSends pc =>
    cases pc
    exact ⟨h.listener,h.connector,fun _ => (h.running rfl).pushDown (by simp) (by simp),
      notMem_push h.noUnset (by simp),nofun⟩
  | mishap m => exact m.control h

theorem Invariant.step {l : Label} (h : Invariant s) (hs : step s l = some t) : Invariant t := by
  have m : Move True True (fun _ => True) s t :=
    step_move hs (fun _ => trivial) (fun _ => trivial) (fun _ _ _ _ => trivial)
  exact ⟨m.control h,h.up.run m.upLane,h.down.run (m.downLane h.heard_eq h.asked_eq h.reported)⟩

lemma Invariant.init : Invariant Sys.init where
  listener := rfl
  connector := rfl
  running hl := by cases hl
  noUnset := by simp [Sys.init]
  reported _ _ hr := by cases hr
  up := by
    refine ⟨rfl,fun _ _ => rfl,fun _ => rfl,fun _ => prefix_refl _,fun c _ => ?_⟩
    simp [Lane.carried,Sys.upLane,Sys.init,bytesOf,ConnectorPc.pending,ListenerPc.loaded]
  down := by
    refine ⟨rfl,fun _ _ => rfl,fun _ => rfl,fun _ => prefix_refl _,fun c _ => ?_⟩
    simp [Lane.carried,Sys.downLane,Sys.init,bytesOf,Item.packets,ConnectorPc.loaded,
      ListenerPc.pending]

theorem ReachableBy.invariant {ok : Sys → Label → Prop} (h : ReachableBy ok s) : Invariant s :=
  Run.invariant (I := Invariant) (fun _ _ _ hi _ hs => hi.step hs) .init h

/-- In every run the bytes written to the target socket of a cycle are a prefix of the bytes read
from the public socket of the same cycle, and the other way round. -/
theorem relay_isolated {s : Sys} (h : Reachable s) (c : ℕ) :
    s.got .connector c <+: s.read .listener c ∧ s.got .listener c <+: s.read .connector c :=
  ⟨h.invariant.down.delivered c,h.invariant.up.delivered c⟩

/-- A `Pull` that is answered by `Assigned`, up to the two legs. -/
def openCycle : List Label :=
  [.send .connector,.receive .listener,.lookup true,.dequeue true,.send .listener,
    .receive .connector,.connect none]

/-- The endpoint of `p` writes in cycle `c`, and the bytes come to the other one. -/
def passOn (p q : Party) (c : ℕ) (bytes : List UInt8) : List Label :=
  [.peerWrite p c bytes,.read p chunkSize,.send p,.receive q,.write q bytes.length]

/-- The target of the first cycle closes after an exchange, and a second public socket is served. -/
def twoCycles : List Label :=
  .receive .connector::openCycle ++ passOn .listener .connector 1 [1,2] ++
    passOn .connector .listener 1 [3] ++
    [.peerShut .connector 1,.read .connector 1,.send .connector,.receive .listener] ++
    openCycle ++ passOn .listener .connector 2 [9]

theorem relay_isolated_two : ∃ s, Reachable s ∧ s.got .connector 1 = [1,2] ∧
    s.got .listener 1 = [3] ∧ s.got .connector 2 = [9] ∧ s.got .connector 2 <+: s.read .listener 2 ∧
    s.got .listener 2 <+: s.read .connector 2 := by
  obtain ⟨s,hs,hp⟩ := (Option.any_eq_true _ _).mp
      (show (execute step anyStep twoCycles Sys.init).any
    (fun s => s.got .connector 1 = [1,2] ∧ s.got .listener 1 = [3] ∧
      s.got .connector 2 = [9]) = true
      by decide +kernel)
  obtain ⟨h1,h2,h3⟩ := of_decide_eq_true hp
  have hr : Reachable s := execute_run hs
  exact ⟨s,hr,h1,h2,h3,relay_isolated hr 2⟩

end PirateServer.Relay
