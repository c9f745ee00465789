import PirateServer.Relay.Closing

/-! What late closes give: no error in any state, no byte lost in a cycle that is over, and a
return to the `Pull`s as soon as both endpoints have shut down. -/
namespace PirateServer.Relay
open Lib Packet List

/-! The work that is left in a cycle: a byte is read, sent, received and written, and each of
these lowers its share. -/

def ClientMsg.weight : ClientMsg → ℕ
  | fromConnector chunk => 2 * chunk.length
  | cliFin => 1
  | _ => 0

def Item.weight : Item → ℕ
  | msg (.fromListener chunk) => 2 * chunk.length
  | msg .srvFin => 1
  | msg .assigned => 6
  | _ => 0

def Leg.weight : Leg → ℕ
  | select => 4
  | writing chunk => 4 + chunk.length
  | sending chunk => 4 + 3 * chunk.length
  | fin => 3

def ConnectorPc.weight : ConnectorPc → ℕ
  | pull => 1
  | connect => 5
  | leg k => k.weight
  | _ => 0

def ListenerPc.weight : ListenerPc → ℕ
  | leg l => l.weight
  | _ => 0

def Sys.unreadIn (s : Sys) (c : ℕ) : ℕ :=
  (s.sock .connector c).unread.length + (s.sock .listener c).unread.length

def Sys.weight (s : Sys) : ℕ :=
  s.connector.weight + s.listener.weight + (s.up.map ClientMsg.weight).sum +
    (s.down.map Item.weight).sum + 4 * s.unreadIn s.heard

variable {U V : Prop} {w : ConnectorPc} {v : ListenerPc} {up : List ClientMsg} {down : List Item}

lemma Phase.in_cycle (h : Phase U V w v up down) (hp : (w.pulls && v.pulls) = false) :
    w ≠ .handshake ∧ (w = .awaitReply → ∀ text rest, down ≠ .msg (.error text)::rest) ∧
      (v = .recv → up = []) ∧ v.owes = false := by
  cases h with
  | opening | idle | asked | timedOut => cases hp
  | serving owes found =>
    cases v with
    | notReady => exact absurd rfl found
    | lookup | dequeue | assign | timedOut => cases hp
    | recv | leg | report | ended => cases owes
  | running side live frames hdown =>
    cases side with
    | assigned =>
      refine ⟨nofun,fun _ text rest h => ?_,nofun,rfl⟩
      rw [hdown] at h
      cases h
    | connecting | relaying => exact ⟨nofun,nofun,nofun,rfl⟩
  | closingUp side _ _ _ _ => cases side <;> exact ⟨nofun,fun _ _ _ => nofun,nofun,rfl⟩
  | closingDown side _ _ _ _ => cases side <;> exact ⟨nofun,nofun,fun _ => rfl,rfl⟩

lemma Leg.live_of_drains {l : Leg} (h : l.drains = true) : l.live = true := by
  cases l with
  | select | writing => exact h
  | sending | fin => cases h

lemma Phase.chunk_down {chunk : List UInt8}
    (h : Phase U V (.leg .select) v up (.msg (.fromListener chunk)::down)) : 0 < chunk.length := by
  rcases h.head_down with hi | ⟨hi,_⟩
  · exact length_pos_of_ne_nil (of_decide_eq_true hi)
  · cases hi

lemma Phase.chunk_up {chunk : List UInt8}
    (h : Phase U V w (.leg .select) (.fromConnector chunk::up) down) : 0 < chunk.length := by
  rcases h.head_up with hm | ⟨hm,_⟩
  · exact length_pos_of_ne_nil (of_decide_eq_true hm)
  · cases hm

lemma Phase.connector_live {k : Leg} (h : Phase U V (.leg k) v up down) : k = .fin ∨
    k.live = true := by
  cases h with
  | running side _ _ _ =>
    cases side with
    | relaying live _ => exact .inr live
  | closingUp side _ _ _ _ => cases side; exact .inl rfl
  | closingDown _ drains _ _ _ => exact .inr (Leg.live_of_drains drains)

lemma Phase.listener_live {l : Leg} (h : Phase U V w (.leg l) up down) : l = .fin ∨
    l.live = true := by
  cases h with
  | serving owes => cases owes
  | running _ live _ _ => exact .inr live
  | closingUp _ drains _ _ _ => exact .inr (Leg.live_of_drains drains)
  | closingDown side _ _ _ _ => cases side; exact .inl rfl

lemma Phase.leg_live {s : Sys} {p : Party} {l : Leg}
    (h : Phase U V s.connector s.listener up down) (pc : s.leg? p = some l) :
    l = .fin ∨ l.live = true := by
  cases p with
  | connector => rw [Sys.leg?_connector.mp pc] at h; exact h.connector_live
  | listener => rw [Sys.leg?_listener.mp pc] at h; exact h.listener_live

lemma Entering.no_fail {pre : List Item} (h : Entering w up pre) (status : Status) :
    .fail status ∉ pre := by
  cases h <;> simp

lemma LeavingDown.no_fail {post : List Item} (h : LeavingDown v post) (status : Status) :
    .fail status ∉ post := by
  cases h <;> simp

lemma Phase.no_fail (h : Phase U V w v up down) (status : Status) : .fail status ∉ down := by
  have hchunk : ∀ chunks : List Item, (∀ i ∈ chunks, i.isChunk = true) → .fail status ∉ chunks :=
    fun _ frames hi => by cases frames _ hi
  cases h with
  | opening | idle | asked | serving | timedOut | closingUp => simp
  | running side _ frames hdown =>
    rw [hdown,mem_append,not_or]
    exact ⟨side.no_fail status,hchunk _ frames⟩
  | closingDown side _ frames hdown _ =>
    rw [hdown,mem_append,not_or]
    exact ⟨hchunk _ frames,side.no_fail status⟩

lemma Phase.errorFree {s : Sys} (h : Phase U V s.connector s.listener s.up s.down) :
    s.errorFree = true := by
  obtain ⟨hended,hlended,hready,hreport⟩ := h.going
  have hv : (s.listener.pulls || s.listener.inLeg) = true := by
    generalize s.listener = v at hlended hready hreport ⊢
    cases v with
    | recv | lookup | dequeue | assign | timedOut | leg => rfl
    | notReady => exact absurd rfl hready
    | report status leave => exact absurd rfl (hreport status leave)
    | ended => exact absurd rfl hlended
  have hdown : s.down.all Item.isMsg = true := by
    refine List.all_eq_true.mpr (fun i hi => ?_)
    cases i with
    | msg m => rfl
    | fail status => exact absurd hi (h.no_fail status)
  rw [Sys.errorFree,hended,hv,hdown]
  rfl

variable {s t : Sys} {chunk : List UInt8}

lemma Leg.writing_pos
    (h : Leg.writing chunk = .fin ∨ (Leg.writing chunk).live = true) : 0 < chunk.length := by
  rcases h with h | h
  · cases h
  · exact length_pos_of_ne_nil (of_decide_eq_true h)

lemma Leg.sending_pos
    (h : Leg.sending chunk = .fin ∨ (Leg.sending chunk).live = true) : 0 < chunk.length := by
  rcases h with h | h
  · cases h
  · exact length_pos_of_ne_nil (of_decide_eq_true h)

lemma Leg.weight_next :
    (if chunk = [] then select else writing chunk).weight = 4 + chunk.length := by
  split
  · rename_i h
    rw [h]
    rfl
  · rfl

lemma Sys.weight_setLeg {p : Party} {k l : Leg} (pc : s.leg? p = some k) :
    (s.setLeg p l).weight + k.weight = s.weight + l.weight := by
  rcases s with ⟨connector,listener,up,down,sock,read,lost,got,asked,heard,answered,told⟩
  cases p with
  | connector =>
    cases Sys.leg?_connector.mp pc
    simp only [Sys.weight,Sys.setLeg,ConnectorPc.weight,Sys.unreadIn]
    omega
  | listener =>
    cases Sys.leg?_listener.mp pc
    simp only [Sys.weight,Sys.setLeg,ListenerPc.weight,Sys.unreadIn]
    omega

variable {p : Party} {f : Socket → Socket}

lemma Sys.weight_modify {c : ℕ}
    (hf : ∀ k, (f k).unread = k.unread) : (s.modify p c f).weight = s.weight := by
  have hsock (q : Party) (d : ℕ) : ((s.modify p c f).sock q d).unread = (s.sock q d).unread := by
    by_cases hq : q = p
    · subst hq
      by_cases hd : d = c
      · rw [hd,Sys.modify_self,hf]
      · rw [Sys.modify_of_ne hd]
    · rw [Sys.modify_other hq]
  have hunread : (s.modify p c f).unreadIn s.heard = s.unreadIn s.heard := by
    rw [Sys.unreadIn,Sys.unreadIn,hsock,hsock]
  exact congrArg (fun n => _ + 4 * n) hunread

lemma Sys.weight_opens : (s.opens p).weight = s.weight :=
  Sys.weight_modify (fun _ => rfl)

lemma Sys.weight_shutsDown : (s.shutsDown p).weight = s.weight :=
  Sys.weight_modify (fun _ => rfl)

lemma Sys.unreadIn_drop {c k : ℕ} :
    (s.modify p c (fun sk => { sk with unread := sk.unread.drop k })).unreadIn c +
      ((s.sock p c).unread.take k).length = s.unreadIn c := by
  cases p with
  | connector | listener =>
    rw [Sys.unreadIn,Sys.unreadIn,Sys.modify_self,Sys.modify_other (by simp)]
    simp only [length_drop,length_take]
    omega

lemma Sys.weight_readChunk {k : ℕ} (pc : s.leg? p = some .select)
    (hc : s.cycle p = s.heard) (hsome : (s.here p).unread ≠ []) (hk : 0 < k) :
    (s.readChunk p k).weight < s.weight := by
  have hpos := length_pos_of_ne_nil (take_ne_nil hsome hk)
  have hdrop := s.unreadIn_drop (p := p) (c := s.heard) (k := k)
  have hset := Sys.weight_setLeg (l := .sending ((s.here p).unread.take k))
    (s := { s.modifyHere p (fun sk => { sk with unread := sk.unread.drop k }) with
      read := s.read.add p (s.cycle p) ((s.here p).unread.take k) }) pc
  simp only [Sys.here,Sys.modifyHere,hc] at hpos hset
  simp only [Sys.readChunk,Sys.here,Sys.modifyHere,hc]
  simp only [Leg.weight,Sys.weight] at hset ⊢
  simp only [Sys.modify,Sys.unreadIn] at hset hdrop ⊢
  omega

lemma Sys.weight_writeChunk {k : ℕ}
    (pc : s.leg? p = some (.writing chunk)) (hpos : 0 < chunk.length) (hk : 0 < k) :
    (s.writeChunk p chunk k).weight < s.weight := by
  have hset := Sys.weight_setLeg (s := { s with got := s.got.add p (s.cycle p) (chunk.take k) })
    (l := if chunk.drop k = [] then .select else .writing (chunk.drop k)) pc
  rw [Leg.weight_next,length_drop] at hset
  have hw : Leg.weight (.writing chunk) = 4 + chunk.length := rfl
  change Sys.weight (s.writeChunk p chunk k) + _ = s.weight + _ at hset
  omega

lemma Orderly.lowers (h : Orderly s) (hp : s.pullPhase = false)
    (m : Move False False (fun p => s.late p = true) s t) :
    t.heard = s.heard ∧ t.weight < s.weight := by
  have hph := h.phase
  obtain ⟨hhand,herror,hrecv,howes⟩ := hph.in_cycle hp
  cases m with
  | peerWrote w _ _ | peerShut w _ => exact w.elim
  | @reads p k pc hsome hk =>
    exact ⟨by cases p <;> rfl,Sys.weight_readChunk pc (h.cycle_eq pc) hsome hk⟩
  | @readsEof p _ pc _ _ =>
    have hset := Sys.weight_setLeg (l := .fin) pc
    simp only [Leg.weight] at hset
    exact ⟨by cases p <;> rfl,by omega⟩
  | @writes p chunk k pc hk =>
    exact ⟨by cases p <;> rfl,Sys.weight_writeChunk pc (Leg.writing_pos (hph.leg_live pc)) hk⟩
  | ready pc _ => exact absurd pc hhand
  | assigned pc head =>
    refine ⟨rfl,?_⟩
    simp only [Sys.weight,pc,head,ConnectorPc.weight,Item.weight,Sys.unreadIn,map_cons,sum_cons]
    omega
  | retries pc head => exact absurd head (herror pc _ _)
  | takes pc head =>
    rw [pc,head] at hph
    have hpos := hph.chunk_down
    refine ⟨rfl,?_⟩
    simp only [Sys.weight,pc,head,ConnectorPc.weight,Leg.weight,Item.weight,Sys.unreadIn,
      map_cons,sum_cons]
    omega
  | takesFin pc head | legFin pc head =>
    refine ⟨rfl,?_⟩
    rw [Sys.weight_shutsDown]
    simp only [Sys.weight,pc,head,ConnectorPc.weight,ListenerPc.weight,Leg.weight,Item.weight,
      ClientMsg.weight,Sys.unreadIn,map_cons,sum_cons]
    omega
  | connects pc =>
    refine ⟨rfl,?_⟩
    rw [Sys.weight_opens]
    simp only [Sys.weight,pc,ConnectorPc.weight,Leg.weight,Sys.unreadIn]
    omega
  | sends pc =>
    have hpos := Leg.sending_pos (hph.leg_live (Sys.leg?_connector.mpr pc))
    refine ⟨rfl,?_⟩
    simp only [Sys.weight,pc,ConnectorPc.weight,Leg.weight,ClientMsg.weight,Sys.unreadIn,
      map_append,sum_append,map_singleton,sum_singleton]
    omega
  | pulls pc | sendsFin pc | legSendsFin pc =>
    refine ⟨rfl,?_⟩
    simp only [Sys.weight,pc,ConnectorPc.weight,ListenerPc.weight,Leg.weight,Item.weight,
      ClientMsg.weight,Sys.unreadIn,map_append,sum_append,map_singleton,sum_singleton]
    omega
  | hears pc head =>
    rw [hrecv pc] at head
    cases head
  | looksUp pc | dequeues pc | assigns pc | timesOut pc =>
    rw [pc] at howes
    cases howes
  | legTakes pc head =>
    rw [pc,head] at hph
    have hpos := hph.chunk_up
    refine ⟨rfl,?_⟩
    simp only [Sys.weight,pc,head,ListenerPc.weight,Leg.weight,ClientMsg.weight,Sys.unreadIn,
      map_cons,sum_cons]
    omega
  | legSends pc =>
    have hpos := Leg.sending_pos (hph.leg_live (Sys.leg?_listener.mpr pc))
    refine ⟨rfl,?_⟩
    simp only [Sys.weight,pc,ListenerPc.weight,Leg.weight,Item.weight,Sys.unreadIn,
      map_append,sum_append,map_singleton,sum_singleton]
    omega
  | mishap m => exact (h.no_mishap m).elim

def Socket.over (k : Socket) : Prop := k.opened = true ∧ k.shut = true

variable {q : Party} {d : ℕ}

lemma Sys.over_modify {c : ℕ} (hf : ∀ k : Socket, k.over → (f k).over) (h : (s.sock q d).over) :
    ((s.modify p c f).sock q d).over := by
  by_cases hq : q = p
  · subst hq
    by_cases hd : d = c
    · subst hd
      rw [Sys.modify_self]
      exact hf _ h
    · rwa [Sys.modify_of_ne hd]
  · rwa [Sys.modify_other hq]

lemma Sys.over_opens (h : (s.sock q d).over) : ((s.opens p).sock q d).over :=
  Sys.over_modify (f := fun k => { k with opened := true }) (fun _ hk => ⟨rfl,hk.2⟩) h

lemma Sys.over_shutsDown (h : (s.sock q d).over) : ((s.shutsDown p).sock q d).over :=
  Sys.over_modify (f := fun k => { k with finished := true }) (fun _ hk => hk) h

variable {peers wild : Prop} {eof : Party → Prop}

lemma Orderly.keeps_over (h : Orderly s)
    (m : Move False peers eof s t) (ho : (s.sock q d).over) : (t.sock q d).over := by
  cases m with
  | peerWrote _ _ _ => exact Sys.over_modify (fun _ hk => hk) ho
  | peerShut _ _ => exact Sys.over_modify (fun _ hk => ⟨hk.1,rfl⟩) ho
  | reads _ _ _ =>
    rw [Sys.readChunk_sock]
    exact Sys.over_modify (fun _ hk => hk) ho
  | @readsEof p _ _ _ _ | @writes p _ _ _ _ => cases p <;> exact ho
  | connects pc | assigns pc => exact Sys.over_opens ho
  | takesFin pc head | legFin pc head => exact Sys.over_shutsDown ho
  | ready | assigned | retries | takes | pulls | sends | sendsFin | hears | looksUp | dequeues
  | timesOut | legTakes | legSends | legSendsFin => exact ho
  | mishap m => exact (h.no_mishap m).elim

def loopStep (s : Sys) (l : Label) : Prop := l.peer = false ∧ closesLate s l = true

def Sys.Can (s : Sys) : Prop := ∃ l t, loopStep s l ∧ step s l = some t

lemma Sys.can_of {l : Label} (hp : l.peer = false) (hc : closesLate s l = true)
    (h : (step s l).isSome = true) : s.Can := by
  obtain ⟨t,ht⟩ := Option.isSome_iff_exists.mp h
  exact ⟨l,t,⟨hp,hc⟩,ht⟩

lemma Sys.can_take {i : Item} {rest : List Item} (hw : s.connector = .leg .select)
    (hd : s.down = i::rest) : s.Can :=
  Sys.can_of (l := .receive .connector) rfl rfl
    (by simp [step,Sys.receive,hd,Sys.connectorTakes,hw])

lemma Sys.can_legTake {m : ClientMsg} {rest : List ClientMsg} (hv : s.listener = .leg .select)
    (hu : s.up = m::rest) : s.Can :=
  Sys.can_of (l := .receive .listener) rfl rfl (by simp [step,Sys.receive,hu,Sys.listenerTakes,hv])

lemma Sys.can_enter {rest : List Item} (hw : s.connector = .awaitReply)
    (hd : s.down = .msg .assigned::rest) : s.Can :=
  Sys.can_of (l := .receive .connector) rfl rfl
    (by simp [step,Sys.receive,hd,Sys.connectorTakes,hw])

lemma Sys.can_connect (hw : s.connector = .connect) : s.Can :=
  Sys.can_of (l := .connect none) rfl rfl (by simp [step,hw])

lemma Sys.can_pull (hw : s.connector = .pull) : s.Can :=
  Sys.can_of (l := .send .connector) rfl rfl (by simp [step,Sys.send,hw])

lemma Sys.can_or_selects {l : Leg} (pc : s.leg? p = some l) : l = .select ∨ s.Can := by
  cases l with
  | select => exact .inl rfl
  | writing chunk =>
    exact .inr (Sys.can_of (l := .write p 1) rfl rfl (by simp [step,Sys.writeSocket,pc]))
  | sending chunk | fin =>
    refine .inr (Sys.can_of (l := .send p) rfl rfl ?_)
    cases p with
    | connector => simp [step,Sys.send,Sys.leg?_connector.mp pc]
    | listener => simp [step,Sys.send,Sys.leg?_listener.mp pc]

lemma Sys.can_read (pc : s.leg? p = some .select) (hsome : (s.here p).unread ≠ []) : s.Can :=
  Sys.can_of (l := .read p 1) rfl (by simp [closesLate,Label.orderly,hsome])
    (by simp [step,Sys.readSocket,pc,hsome,chunkSize])

lemma Sys.can_close (pc : s.leg? p = some .select) (hnone : (s.here p).unread = [])
    (hshut : (s.here p).shut = true) (hlate : s.late p = true) : s.Can :=
  Sys.can_of (l := .read p 1) rfl (by simp [closesLate,Label.orderly,hlate])
    (by simp [step,Sys.readSocket,pc,hnone,hshut])

/-- Two legs that have nothing to do but wait, with both endpoints shut down: everything has
been delivered, and the connector may come to the end of its socket. -/
lemma Orderly.can_finish (h : Orderly s) (hw : s.connector = .leg .select)
    (hv : s.listener = .leg .select) (hdown : s.down = [])
    (hover : ∀ p, (s.sock p s.heard).over) : s.Can := by
  have hcycle : s.cycle .connector = s.heard := h.cycle_eq (Sys.leg?_connector.mpr hw)
  by_cases hl : (s.here .listener).unread = []
  swap
  · exact Sys.can_read (Sys.leg?_listener.mpr hv) hl
  by_cases hc : (s.here .connector).unread = []
  swap
  · exact Sys.can_read (Sys.leg?_connector.mpr hw) hc
  refine Sys.can_close (Sys.leg?_connector.mpr hw) hc ?_ ?_
  · rw [Sys.here,hcycle]
    exact (hover .connector).2
  · have hbytes := h.down_bytes (by rw [hw]; rfl)
    have hsent : s.sent .listener s.heard = s.read .listener s.heard := by
      rw [Sys.sent,show (s.sock .listener s.heard).unread = [] from hl,append_nil]
    rw [hw,hv,hdown] at hbytes
    simp only [Sys.late,Party.other,Sys.leg?_listener.mpr hv,hcycle,(hover .listener).2,hsent,
      Bool.true_and,decide_eq_true_eq]
    simpa [ConnectorPc.loaded,Leg.loaded,ListenerPc.pending,Leg.pending,bytesOf] using hbytes

lemma Orderly.can (h : Orderly s) (hp : s.pullPhase = false)
    (hover : ∀ p, (s.sock p s.heard).over) : s.Can := by
  have hph := h.phase
  have howes := (hph.in_cycle hp).2.2.2
  rw [Sys.pullPhase] at hp
  generalize hw : s.connector = w at hph hp
  generalize hv : s.listener = v at hph hp howes
  generalize hu : s.up = up at hph
  generalize hd : s.down = down at hph
  cases hph with
  | opening | idle | asked | timedOut => cases hp
  | serving owes found =>
    rw [owes] at howes
    cases howes
  | @running _ l _ pre chunks _ side live frames hdown =>
    cases side with
    | assigned => exact Sys.can_enter hw (hd.trans hdown)
    | connecting => exact Sys.can_connect hw
    | @relaying k _ klive upFrames =>
      rcases Sys.can_or_selects (Sys.leg?_connector.mpr hw) with rfl | hcan
      · rcases Sys.can_or_selects (Sys.leg?_listener.mpr hv) with rfl | hcan
        · cases chunks with
          | nil => exact h.can_finish hw hv (hd.trans hdown) hover
          | cons i chunks => exact Sys.can_take hw (hd.trans hdown)
        · exact hcan
      · exact hcan
  | @closingUp _ l post chunks _ side drains frames hup closed =>
    cases side with
    | fin => exact (Sys.can_or_selects (Sys.leg?_connector.mpr hw)).resolve_left (by simp)
    | left => exact Sys.can_pull hw
    | pulled =>
      rcases Sys.can_or_selects (Sys.leg?_listener.mpr hv) with rfl | hcan
      · cases chunks <;> exact Sys.can_legTake hv (hu.trans hup)
      · exact hcan
  | @closingDown k _ post chunks _ side drains frames hdown closed =>
    cases side with
    | fin => exact (Sys.can_or_selects (Sys.leg?_listener.mpr hv)).resolve_left (by simp)
    | left =>
      rcases Sys.can_or_selects (Sys.leg?_connector.mpr hw) with rfl | hcan
      · cases chunks <;> exact Sys.can_take hw (hd.trans hdown)
      · exact hcan

variable {l : Label}

lemma closesLate.move (hc : closesLate s l = true) (h : step s l = some t)
    (hp : l.peer = true → peers) : Move False peers (fun p => s.late p = true) s t := by
  obtain ⟨horderly,hread⟩ := (Bool.and_eq_true _ _).mp hc
  refine step_move h (fun hno => ?_) hp (fun p k hl hnone => ?_)
  · rw [horderly] at hno
    cases hno
  · subst hl
    simpa [hnone] using hread

lemma Orderly.step (h : Orderly s) (hc : closesLate s l = true) (hs : step s l = some t) :
    Orderly t :=
  h.move (h.toInvariant.step hs) (closesLate.move hc hs (fun _ => trivial))

lemma Orderly.init : Orderly Sys.init where
  toInvariant := .init
  phase := .opening
  lost _ _ := rfl
  settled _ _ ho := by cases ho

theorem ReachableBy.orderly (h : ReachableBy (fun u l => closesLate u l = true) s) : Orderly s :=
  Run.invariant (I := Orderly) (fun _ _ _ hi hc hs => hi.step hc hs) .init h

lemma Orderly.settled_at_pull {c : ℕ} (h : Orderly s) (hp : s.pullPhase = true)
    (ho : (s.sock p c).opened = true) : s.Settled c := by
  rcases h.settled p c ho with hset | ⟨_,hrun⟩
  · exact hset
  · rw [hp] at hrun
    cases hrun

lemma Orderly.settles (h : Orderly s) (hover : ∀ p, (s.sock p s.heard).over) :
    Inevitable Relay.step loopStep (fun t => t.pullPhase = true ∧ t.Settled s.heard) s := by
  let Running := fun t : Sys => Orderly t ∧ t.heard = s.heard ∧ ∀ p, (t.sock p s.heard).over
  have hrun : ∀ t, Running t → ¬(t.pullPhase = true ∧ t.Settled s.heard) → t.pullPhase = false := by
    intro t ⟨ht,_,hto⟩ hnot
    by_contra hp
    have hp' := Bool.of_not_eq_false hp
    exact hnot ⟨hp',ht.settled_at_pull hp' (hto .connector).1⟩
  refine Inevitable.of_measure (I := Running) Sys.weight ?_ ?_ ⟨h,rfl,hover⟩
  · intro t ht hnot
    exact ht.1.can (hrun t ht hnot) (fun p => by rw [ht.2.1]; exact ht.2.2 p)
  · intro t l u ht hnot hl hs
    have m : Move False False (fun p => t.late p = true) t u :=
      closesLate.move hl.2 hs (fun hp => by rw [hl.1] at hp; cases hp)
    obtain ⟨hheard,hlt⟩ := ht.1.lowers (hrun t ht hnot) m
    exact ⟨⟨ht.1.step hl.2 hs,hheard.trans ht.2.1,fun p => ht.1.keeps_over m (ht.2.2 p)⟩,hlt⟩

/-- In every run whose legs come to the end of their sockets only late, no side ever reports an
error, at the `Pull`s every byte of every cycle so far has been delivered, and a cycle whose
endpoints have shut down comes back to the `Pull`s. -/
theorem late_closes_deliver {s : Sys} (h : ReachableBy (fun u l => closesLate u l = true) s) :
    s.errorFree = true ∧ (s.pullPhase = true → ∀ p c, (s.sock p c).opened = true → s.Settled c) ∧
      ((∀ p, (s.sock p s.heard).opened = true ∧ (s.sock p s.heard).shut = true) →
        Inevitable step (fun u l => l.peer = false ∧ closesLate u l = true)
          (fun t => t.pullPhase = true ∧ t.Settled s.heard) s) := by
  have ho := h.orderly
  exact ⟨ho.phase.errorFree,fun hp _ _ hopen => ho.settled_at_pull hp hopen,ho.settles⟩

def exchange : List Label :=
  .receive .connector::openCycle ++ passOn .listener .connector 1 [1,2] ++
    passOn .connector .listener 1 [3] ++ [.peerShut .connector 1,.peerShut .listener 1]

theorem late_closes_deliver_exchange : ∃ s, ReachableBy (fun u l => closesLate u l = true) s ∧
    s.got .connector 1 = [1,2] ∧ s.got .listener 1 = [3] ∧ s.errorFree = true ∧
    Inevitable step (fun u l => l.peer = false ∧ closesLate u l = true)
      (fun t => t.pullPhase = true ∧ t.Settled s.heard) s := by
  obtain ⟨s,hs,hp⟩ := (Option.any_eq_true _ _).mp (show (execute step
    (fun u l => closesLate u l = true) exchange Sys.init).any (fun s => s.got .connector 1 = [1,2] ∧
      s.got .listener 1 = [3] ∧ ((s.sock .connector s.heard).opened = true ∧
      (s.sock .connector s.heard).shut = true) ∧ (s.sock .listener s.heard).opened = true ∧
      (s.sock .listener s.heard).shut = true) = true by decide +kernel)
  obtain ⟨h1,h2,hc,hl⟩ := of_decide_eq_true hp
  have hr : ReachableBy (fun u l => closesLate u l = true) s := execute_run hs
  obtain ⟨herror,_,hsettles⟩ := late_closes_deliver hr
  refine ⟨s,hr,h1,h2,herror,hsettles (fun p => ?_)⟩
  cases p with
  | connector => exact hc
  | listener => exact hl

variable {c : ℕ}

def ListenerPc.between : ListenerPc → Bool
  | recv | report _ _ | ended => true
  | _ => false

/-- The listener will not write again to its socket of cycle `c`. -/
def Sys.Past (s : Sys) (c : ℕ) : Prop := c < s.heard ∨ c = s.heard ∧ s.listener.between = true

lemma Sys.Past.lt (h : s.Past c) (hb : s.listener.between = false) : c < s.heard := by
  rcases h with h | ⟨_,h⟩
  · exact h
  · rw [hb] at h
    cases h

lemma Sys.Past.between (h : s.Past c) (hh : t.heard = s.heard) (hb : t.listener.between = true) :
    t.Past c := by
  rcases h with h | ⟨h,_⟩
  · exact .inl (hh ▸ h)
  · exact .inr ⟨hh ▸ h,hb⟩

lemma Mishap.past (m : Mishap wild s t) (h : s.Past c) :
    t.Past c ∧ t.got .listener c = s.got .listener c := by
  cases m with
  | misreads | cutOff | ends | leaves | leavesUnset => exact ⟨h,rfl⟩
  | mishears | stops | resets => exact ⟨h.between rfl rfl,rfl⟩
  | @reports _ leave _ => exact ⟨h.between rfl (by cases leave <;> rfl),rfl⟩
  | misses _ pc | refuses pc | legLeaves pc _ | legUnset pc _ | legFails _ pc =>
    exact ⟨.inl (h.lt (by rw [pc]; rfl)),rfl⟩
  | legPull pc _ => exact ⟨.inl (Nat.lt_succ_of_lt (h.lt (by rw [pc]; rfl))),rfl⟩

lemma Move.past (m : Move wild peers eof s t)
    (h : s.Past c) : t.Past c ∧ t.got .listener c = s.got .listener c := by
  cases m with
  | peerWrote | peerShut | ready | assigned | retries | takes | takesFin | pulls | connects
  | sends | sendsFin => exact ⟨h,rfl⟩
  | @reads p _ pc _ _ | @readsEof p _ pc _ _ =>
    cases p with
    | connector => exact ⟨h,rfl⟩
    | listener => exact ⟨.inl (h.lt (by rw [Sys.leg?_listener.mp pc]; rfl)),rfl⟩
  | @writes p chunk k pc _ =>
    cases p with
    | connector => exact ⟨h,rfl⟩
    | listener =>
      have hlt := h.lt (by rw [Sys.leg?_listener.mp pc]; rfl)
      have hgot : s.got.add .listener s.heard (chunk.take k) .listener c = s.got .listener c :=
        Log.add_of_ne hlt.ne
      exact ⟨.inl hlt,hgot⟩
  | hears pc _ =>
    have hle : c ≤ s.heard := by
      rcases h with h | ⟨h,_⟩
      all_goals exact h.le
    exact ⟨.inl (Nat.lt_succ_of_le hle),rfl⟩
  | looksUp pc | dequeues pc | assigns pc | timesOut pc | legTakes pc _ | legFin pc _ | legSends pc
  | legSendsFin pc => exact ⟨.inl (h.lt (by rw [pc]; rfl)),rfl⟩
  | mishap m => exact m.past h

lemma Sys.Past.got_eq (h : s.Past c) (hr : Run step anyStep s t) :
    t.got .listener c = s.got .listener c := by
  refine (hr.invariant (I := fun u => u.Past c ∧ u.got .listener c = s.got .listener c) ?_
    ⟨h,rfl⟩).2
  intro u l v ⟨hu,hgot⟩ _ hs
  have m : Move True True (fun _ => True) u v :=
    step_move hs (fun _ => trivial) (fun _ => trivial) (fun _ _ _ _ => trivial)
  obtain ⟨hv,hsame⟩ := m.past hu
  exact ⟨hv,hsame.trans hgot⟩

/-- The public endpoint writes a byte and shuts down before the target has answered: the answer is
never delivered, though both loops are back at their `Pull`s. And where both endpoints shut down at
once, the listener ends the session with an error. -/
theorem orderly_closes_fail :
    (∃ s, ReachableBy (fun _ l => l.orderly = true) s ∧ s.pullPhase = true ∧
      (∀ p, (s.sock p 1).shut = true) ∧ s.sent .connector 1 = [2] ∧
      ∀ t, Run step anyStep s t → t.got .listener 1 = []) ∧
    ∃ s, ReachableBy (fun _ l => l.orderly = true) s ∧ (∀ p, (s.sock p 1).shut = true) ∧
      s.listener = .report ⟨.invalidArgument,
        "expected TunPull as first message each cycle"⟩ true := by
  constructor
  · obtain ⟨s,hs,hp⟩ := (Option.any_eq_true _ _).mp
        (show (execute step (fun _ l => l.orderly = true)
      (.receive .connector::openCycle ++ passOn .listener .connector 1 [1] ++
        [.peerShut .listener 1,.read .listener 1,.send .listener,.peerWrite .connector 1 [2],
          .peerShut .connector 1,.receive .connector]) Sys.init).any (fun s => s.pullPhase = true ∧
        (s.sock .connector 1).shut = true ∧ (s.sock .listener 1).shut = true ∧
        s.sent .connector 1 = [2] ∧ s.got .listener 1 = [] ∧ 1 = s.heard ∧
        s.listener.between = true) = true by decide +kernel)
    obtain ⟨hpull,hc,hl,hsent,hgot,hpast⟩ := of_decide_eq_true hp
    have hlost : s.Past 1 := .inr hpast
    exact ⟨s,execute_run hs,hpull,fun p => by cases p <;> assumption,hsent,
      fun t ht => (hlost.got_eq ht).trans hgot⟩
  · obtain ⟨s,hs,hp⟩ := (Option.any_eq_true _ _).mp
        (show (execute step (fun _ l => l.orderly = true)
      (.receive .connector::openCycle ++ [.peerShut .connector 1,.peerShut .listener 1,
        .read .connector 1,.read .listener 1,.send .connector,.send .listener,.receive .listener])
        Sys.init).any (fun s => (s.sock .connector 1).shut = true ∧
          (s.sock .listener 1).shut = true ∧
        s.listener = .report ⟨.invalidArgument,"expected TunPull as first message each cycle"⟩ true)
        = true by decide +kernel)
    obtain ⟨hc,hl,hreport⟩ := of_decide_eq_true hp
    exact ⟨s,execute_run hs,fun p => by cases p <;> assumption,hreport⟩

end PirateServer.Relay
