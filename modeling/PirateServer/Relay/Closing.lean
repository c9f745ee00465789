import PirateServer.Relay.Phases

/-! Every move of a session with late closes keeps to its phases, and a cycle is left only with
all of its bytes delivered. -/
namespace PirateServer.Relay
open Lib Packet List

/-- The leg of `p` has come to the end of its socket in the running cycle, late. -/
structure Sys.Closed (s : Sys) (p : Party) : Prop where
  shut : ∀ q, (s.sock q s.heard).shut = true
  unread : (s.sock p s.heard).unread = []
  delivered : s.got p s.heard = s.sent p.other s.heard

structure Orderly (s : Sys) : Prop extends Invariant s where
  phase : Phase (s.Closed .connector) (s.Closed .listener) s.connector s.listener s.up s.down
  lost : ∀ p c, s.lost p c = []
  settled : ∀ p c, (s.sock p c).opened = true → s.Settled c ∨ c = s.heard ∧ s.pullPhase = false

variable {s : Sys}

lemma Invariant.same_cycle (h : Invariant s) (hc : s.connector.downloads = true) :
    s.told = s.asked ∧ s.heard = s.asked ∧ s.answered = s.asked := by
  have hup : s.heard + cuts (s.up.flatMap ClientMsg.packets) = s.asked := h.up.counts
  have hdown : s.told + cuts (s.down.flatMap Item.packets) = s.answered := h.down.counts
  have hle := h.listener.answered_le
  have hturn := h.asked_eq hc
  omega

lemma Orderly.up_bytes (h : Orderly s) (hl : s.listener.inLeg = true) :
    s.got .listener s.heard ++ s.listener.loaded ++
      bytesOf s.heard s.heard (s.up.flatMap ClientMsg.packets) ++ s.connector.pending =
        s.read .connector s.heard := by
  have hcons := h.up.conserved s.heard (.inr ⟨rfl,by simp [Sys.upLane,hl]⟩)
  by_cases hcycle : s.heard = s.asked
  · simpa [Lane.carried,Sys.upLane,h.lost,hcycle] using hcons
  -- a connector with something to send would be in the same cycle
  have hp : s.connector.pending = [] := by
    cases hc : s.connector with
    | leg k => exact absurd (h.same_cycle (by rw [hc]; rfl)).2.1 hcycle
    | _ => rfl
  simpa [Lane.carried,Sys.upLane,h.lost,hcycle,hp] using hcons

lemma Orderly.down_bytes (h : Orderly s) (hc : s.connector.downloads = true) :
    s.got .connector s.heard ++ s.connector.loaded ++
      bytesOf s.heard s.heard (s.down.flatMap Item.packets) ++ s.listener.pending =
        s.read .listener s.heard := by
  obtain ⟨ht,hh,ha⟩ := h.same_cycle hc
  have hcons := h.down.conserved s.told (.inr ⟨rfl,hc⟩)
  have hat : s.told = s.answered := by omega
  simpa [Lane.carried,Sys.downLane,h.lost,hat,show s.answered = s.heard by omega] using hcons

lemma nothing_left {g l b p r u : List UInt8} (h : g ++ l ++ b ++ p = r) (hg : g = r ++ u) :
    l = [] ∧ b = [] ∧ p = [] ∧ u = [] := by
  have hlen := congrArg List.length h
  rw [hg] at hlen
  simp only [length_append] at hlen
  refine ⟨?_,?_,?_,?_⟩ <;> exact eq_nil_of_length_eq_zero (by omega)

lemma no_chunk_up {chunks post : List ClientMsg} {c : ℕ} (frames : ∀ m ∈ chunks, m.isChunk = true)
    (h : bytesOf c c ((chunks ++ post).flatMap ClientMsg.packets) = []) : chunks = [] := by
  cases chunks with
  | nil => rfl
  | cons m chunks =>
    have hm := frames m mem_cons_self
    cases m with
    | fromConnector d =>
      have hd : d = [] := by
        simp only [cons_append,flatMap_cons,ClientMsg.packets,bytesOf,if_true,
          append_eq_nil_iff] at h
        exact h.1
      simp [ClientMsg.isChunk,hd] at hm
    | pull | cliFin | unset => cases hm

lemma no_chunk_down {chunks : List Item} {c : ℕ} (frames : ∀ i ∈ chunks, i.isChunk = true)
    (h : bytesOf c c (chunks.flatMap Item.packets) = []) : chunks = [] := by
  cases chunks with
  | nil => rfl
  | cons i chunks =>
    have hi := frames i mem_cons_self
    rcases i with m | status
    · cases m with
      | fromListener d =>
        have hd : d = [] := by
          simp only [flatMap_cons,Item.packets,cons_append,bytesOf,if_true,append_eq_nil_iff] at h
          exact h.1
        simp [Item.isChunk,hd] at hi
      | assigned | srvFin | error | ready | unset => cases hi
    · cases hi

lemma Leg.drains_of_live {l : Leg} (hl : l.live = true) (hp : l.pending = []) :
    l.drains = true := by
  cases l with
  | sending chunk => simp_all [live,pending]
  | select | writing | fin => exact hl

lemma Sys.late_spec {p : Party} (h : s.late p = true) : ∃ l, s.leg? p.other = some l ∧ l ≠ .fin ∧
    (s.sock p.other (s.cycle p)).shut = true ∧
      s.got p (s.cycle p) = s.sent p.other (s.cycle p) := by
  unfold Sys.late at h
  split at h
  · cases h
  · cases h
  · rename_i l hfin hleg
    obtain ⟨hshut,hgot⟩ := (Bool.and_eq_true _ _).mp h
    exact ⟨l,hleg,hfin,hshut,of_decide_eq_true hgot⟩

lemma Orderly.late_connector (h : Orderly s) (pc : s.connector = .leg .select)
    (hlate : s.late .connector = true) (hunread : (s.here .connector).unread = [])
    (hshut : (s.here .connector).shut = true) :
    ∃ l, s.listener = .leg l ∧ l.drains = true ∧ (∀ m ∈ s.up, m.isChunk = true) ∧ s.down = [] ∧
      s.Closed .connector := by
  obtain ⟨l,hl,hfin,hother,hgot⟩ := Sys.late_spec hlate
  have hv := Sys.leg?_listener.mp hl
  obtain ⟨_,hcycle,_⟩ := h.same_cycle (by rw [pc]; rfl)
  rw [show s.cycle .connector = s.heard from hcycle.symm] at hother hgot
  have hbytes := h.down_bytes (by rw [pc]; rfl)
  obtain ⟨_,hb,hp,_⟩ := nothing_left hbytes hgot
  have hph := h.phase
  rw [pc,hv] at hph
  generalize hu : s.up = up at hph
  generalize hd : s.down = down at hph
  cases hph with
  | @running _ _ _ pre chunks _ side live frames hdown =>
    cases side with
    | relaying _ upFrames =>
      rw [nil_append] at hdown
      rw [hd,hdown] at hb
      refine ⟨l,hv,Leg.drains_of_live live (by rw [hv] at hp; exact hp),upFrames,?_,?_⟩
      · rw [hdown,no_chunk_down frames hb]
      · refine ⟨fun q => ?_,by rw [hcycle]; exact hunread,hgot⟩
        cases q with
        | connector => rw [hcycle]; exact hshut
        | listener => exact hother
  | closingUp side _ _ _ _ => cases side
  | closingDown side _ _ _ _ => cases side; exact absurd rfl hfin

lemma Orderly.late_listener (h : Orderly s) (pc : s.listener = .leg .select)
    (hlate : s.late .listener = true) (hunread : (s.here .listener).unread = [])
    (hshut : (s.here .listener).shut = true) :
    ∃ k, s.connector = .leg k ∧ k.drains = true ∧ s.up = [] ∧
      (∀ i ∈ s.down, i.isChunk = true) ∧ s.Closed .listener := by
  obtain ⟨k,hk,hfin,hother,hgot⟩ := Sys.late_spec hlate
  have hw := Sys.leg?_connector.mp hk
  have hbytes := h.up_bytes (by rw [pc]; rfl)
  obtain ⟨_,hb,hp,_⟩ := nothing_left hbytes hgot
  have hph := h.phase
  rw [pc,hw] at hph
  generalize hu : s.up = up at hph
  generalize hd : s.down = down at hph
  cases hph with
  | running side live frames hdown =>
    cases side with
    | relaying klive upFrames =>
      rw [hu,← append_nil up] at hb
      refine ⟨k,hw,Leg.drains_of_live klive (by rw [hw] at hp; exact hp),
        no_chunk_up upFrames hb,?_,?_⟩
      · rw [hdown]; exact frames
      · refine ⟨fun q => ?_,hunread,hgot⟩
        cases q with
        | connector => exact hother
        | listener => exact hshut
  | closingUp side _ _ _ _ => cases side; exact absurd rfl hfin
  | closingDown side _ _ _ _ => cases side

variable {t : Sys} {c : ℕ}

lemma Sys.Settled.congr (h : s.Settled c) (hs : ∀ p, (t.sock p c).shut = (s.sock p c).shut)
    (hu : ∀ p, (t.sock p c).unread = (s.sock p c).unread) (hr : ∀ p, t.read p c = s.read p c)
    (hg : ∀ p, t.got p c = s.got p c) : t.Settled c where
  shut p := by rw [hs]; exact h.shut p
  delivered p := by rw [hg,h.delivered,Sys.sent,Sys.sent,hr,hu]

lemma Sys.Settled.of_eq (h : s.Settled c) (hs : ∀ p, t.sock p c = s.sock p c)
    (hr : ∀ p, t.read p c = s.read p c) (hg : ∀ p, t.got p c = s.got p c) : t.Settled c :=
  h.congr (fun p => by rw [hs]) (fun p => by rw [hs]) hr hg

/-- Nothing but the sockets of the running cycle changes. -/
structure Sys.SameOff (s t : Sys) : Prop where
  sock : ∀ p c, c ≠ s.heard → t.sock p c = s.sock p c
  read : ∀ p c, c ≠ s.heard → t.read p c = s.read p c
  got : ∀ p c, c ≠ s.heard → t.got p c = s.got p c

lemma Sys.SameOff.of_eq (hs : t.sock = s.sock) (hr : t.read = s.read) (hg : t.got = s.got) :
    s.SameOff t :=
  ⟨fun p c _ => by rw [hs],fun p c _ => by rw [hr],fun p c _ => by rw [hg]⟩

lemma Orderly.settled_off (h : Orderly s) (off : s.SameOff t) (hh : t.heard = s.heard)
    (hp : t.pullPhase = false ∨ t.Settled s.heard) (p : Party) (c : ℕ)
    (ho : (t.sock p c).opened = true) : t.Settled c ∨ c = t.heard ∧ t.pullPhase = false := by
  rw [hh]
  by_cases hc : c = s.heard
  · subst hc
    exact hp.symm.imp_right (fun hp => ⟨rfl,hp⟩)
  · rw [off.sock p c hc] at ho
    rcases h.settled p c ho with hset | ⟨heq,_⟩
    · exact .inl (hset.of_eq (fun q => off.sock q c hc) (fun q => off.read q c hc)
        (fun q => off.got q c hc))
    · exact absurd heq hc

variable {p q : Party} {d k : ℕ}

lemma Log.add_of_ne {f : Log} {x : List UInt8} (h : d ≠ c) : f.add p c x q d = f q d := by
  by_cases hq : q = p
  · subst hq
    simp only [Log.add,Function.update_self,Function.update_of_ne h]
  · simp only [Log.add,Function.update_of_ne hq]

variable {f : Socket → Socket}

lemma Sys.modify_of_ne (h : d ≠ c) : (s.modify p c f).sock q d = s.sock q d := by
  by_cases hq : q = p
  · subst hq
    simp only [Sys.modify,Function.update_self,Function.update_of_ne h]
  · simp only [Sys.modify,Function.update_of_ne hq]

lemma Sys.modify_self : (s.modify p c f).sock p c = f (s.sock p c) := by
  simp only [Sys.modify,Function.update_self]

lemma Sys.modify_other (h : q ≠ p) : (s.modify p c f).sock q d = s.sock q d := by
  simp only [Sys.modify,Function.update_of_ne h]

lemma Sys.write_of_shut {bytes : List UInt8} (hgoing : (s.sock p c).shut = false)
    (hshut : (s.sock q d).shut = true) :
    (s.modify p c (fun k => { k with unread := k.unread ++ bytes })).sock q d = s.sock q d := by
  by_cases hd : d = c
  · subst hd
    refine Sys.modify_other (fun hq => ?_)
    subst hq
    rw [hgoing] at hshut
    cases hshut
  · exact Sys.modify_of_ne hd

lemma Sys.shut_of_shut (hshut : (s.sock q d).shut = true) :
    (s.modify p c (fun k => { k with shut := true })).sock q d = s.sock q d := by
  by_cases hd : d = c
  · subst hd
    by_cases hq : q = p
    · subst hq
      rw [Sys.modify_self,← hshut]
    · exact Sys.modify_other hq
  · exact Sys.modify_of_ne hd

lemma Orderly.peer (h : Orderly s) (hi : Invariant (s.modify p c f))
    (hopen : ∀ k : Socket, (f k).opened = k.opened)
    (hsame : ∀ q d, (s.sock q d).shut = true → (s.modify p c f).sock q d = s.sock q d) :
    Orderly (s.modify p c f) := by
  have hclosed : ∀ q, s.Closed q → (s.modify p c f).Closed q := by
    intro q hq
    have hs (r : Party) : (s.modify p c f).sock r s.heard = s.sock r s.heard :=
        hsame r _ (hq.shut r)
    refine ⟨fun r => ?_,?_,?_⟩
    · exact (congrArg Socket.shut (hs r)).trans (hq.shut r)
    · exact (congrArg Socket.unread (hs q)).trans hq.unread
    · refine hq.delivered.trans ?_
      rw [Sys.sent,Sys.sent,show (s.modify p c f).heard = s.heard from rfl,hs]
      rfl
  refine ⟨hi,h.phase.mono (hclosed _) (hclosed _),h.lost,fun q d ho => ?_⟩
  have ho' : (s.sock q d).opened = true := by
    by_cases hd : d = c
    · subst hd
      by_cases hq : q = p
      · subst hq
        rwa [Sys.modify_self,hopen] at ho
      · rwa [Sys.modify_other hq] at ho
    · rwa [Sys.modify_of_ne hd] at ho
  rcases h.settled q d ho' with hset | hrun
  · exact .inl (hset.of_eq (fun r => hsame r d (hset.shut r)) (fun _ => rfl) (fun _ => rfl))
  · exact .inr hrun

lemma Orderly.nothing_unread (h : Orderly s) (hc : s.Closed p) :
    (s.sock p.other s.heard).unread = [] := by
  have hpre : s.got p s.heard <+: s.read p.other s.heard := by
    cases p with
    | connector => exact h.down.delivered s.heard
    | listener => exact h.up.delivered s.heard
  have hlen := hpre.length_le
  rw [hc.delivered,Sys.sent,length_append] at hlen
  exact eq_nil_of_length_eq_zero (by omega)

lemma Orderly.cycle_eq {l : Leg} (h : Orderly s) (pc : s.leg? p = some l) :
    s.cycle p = s.heard := by
  cases p with
  | connector =>
    have hpc := Sys.leg?_connector.mp pc
    exact (h.same_cycle (by rw [hpc]; rfl)).2.1.symm
  | listener => rfl

lemma Sys.pullPhase_setLeg {l : Leg} : (s.setLeg p l).pullPhase = false := by
  cases p with
  | connector => rfl
  | listener => exact Bool.and_false _

lemma take_ne_nil {xs : List UInt8} (hx : xs ≠ []) (hk : 0 < k) : xs.take k ≠ [] := by
  intro h
  rcases List.take_eq_nil_iff.mp h with h | h
  · omega
  · exact hx h

lemma Sys.readChunk_sock : (s.readChunk p k).sock =
    (s.modify p (s.cycle p) (fun sk => { sk with unread := sk.unread.drop k })).sock := by
  cases p <;> rfl

lemma Orderly.reads (h : Orderly s) (hi : Invariant (s.readChunk p k))
    (pc : s.leg? p = some .select) (hsome : (s.here p).unread ≠ []) (hk : 0 < k) :
    Orderly (s.readChunk p k) := by
  have hcycle := h.cycle_eq pc
  have hchunk := take_ne_nil hsome hk
  have off : s.SameOff (s.readChunk p k) := by
    refine ⟨fun q c hc => ?_,fun q c hc => ?_,fun q c hc => ?_⟩
    all_goals have hne : c ≠ s.cycle p := hcycle ▸ hc
    · rw [Sys.readChunk_sock]
      exact Sys.modify_of_ne hne
    · cases p <;> exact Log.add_of_ne hne
    · cases p <;> rfl
  -- the other side has not come to its end, or there would be nothing to read
  have hopen : ¬s.Closed p.other := by
    intro hc
    have hu := h.nothing_unread hc
    rw [show p.other.other = p by cases p <;> rfl,← hcycle] at hu
    exact hsome hu
  refine ⟨hi,?_,by cases p <;> exact h.lost,
    h.settled_off off (by cases p <;> rfl) (.inl Sys.pullPhase_setLeg)⟩
  have hph := h.phase
  cases p with
  | connector =>
    rw [Sys.leg?_connector.mp pc] at hph
    exact hph.reads_connector hopen hchunk
  | listener =>
    rw [Sys.leg?_listener.mp pc] at hph
    exact hph.reads_listener hopen hchunk

lemma Orderly.readsEof (h : Orderly s) (hi : Invariant (s.setLeg p .fin))
    (hlate : s.late p = true) (pc : s.leg? p = some .select) (hunread : (s.here p).unread = [])
    (hshut : (s.here p).shut = true) : Orderly (s.setLeg p .fin) := by
  have off : s.SameOff (s.setLeg p .fin) := by
    cases p <;> exact .of_eq rfl rfl rfl
  refine ⟨hi,?_,by cases p <;> exact h.lost,
    h.settled_off off (by cases p <;> rfl) (.inl Sys.pullPhase_setLeg)⟩
  cases p with
  | connector =>
    obtain ⟨l,hl,hdrains,hup,hdown,hc⟩ :=
      h.late_connector (Sys.leg?_connector.mp pc) hlate hunread hshut
    simp only [Sys.setLeg,hl,hdown]
    exact .closingUp .fin hdrains hup (append_nil _).symm ⟨hc.shut,hc.unread,hc.delivered⟩
  | listener =>
    obtain ⟨k,hk,hdrains,hup,hdown,hc⟩ :=
      h.late_listener (Sys.leg?_listener.mp pc) hlate hunread hshut
    simp only [Sys.setLeg,hk,hup]
    exact .closingDown .fin hdrains hdown (append_nil _).symm ⟨hc.shut,hc.unread,hc.delivered⟩

lemma Orderly.writes {chunk : List UInt8} (h : Orderly s)
    (hi : Invariant (s.writeChunk p chunk k)) (pc : s.leg? p = some (.writing chunk)) :
    Orderly (s.writeChunk p chunk k) := by
  have hcycle := h.cycle_eq pc
  have off : s.SameOff (s.writeChunk p chunk k) := by
    refine ⟨fun q c hc => ?_,fun q c hc => ?_,fun q c hc => ?_⟩
    · cases p <;> rfl
    · cases p <;> rfl
    · have hne : c ≠ s.cycle p := hcycle ▸ hc
      cases p <;> exact Log.add_of_ne hne
  refine ⟨hi,?_,by cases p <;> exact h.lost,
    h.settled_off off (by cases p <;> rfl) (.inl Sys.pullPhase_setLeg)⟩
  have hph := h.phase
  cases p with
  | connector =>
    rw [Sys.leg?_connector.mp pc] at hph
    exact hph.writes_connector (fun hc => ⟨hc.shut,hc.unread,hc.delivered⟩)
  | listener =>
    rw [Sys.leg?_listener.mp pc] at hph
    exact hph.writes_listener (fun hc => ⟨hc.shut,hc.unread,hc.delivered⟩)

lemma Orderly.settled_takesFin {rest : List Item} (h : Orderly s)
    (pc : s.connector = .leg .select) (head : s.down = .msg .srvFin::rest) :
    s.listener = .recv ∧ s.up = [] ∧ rest = [] ∧ s.Settled s.heard := by
  have hph := h.phase
  rw [pc,head] at hph
  rcases hph.head_down with hi | ⟨_,hv,hu,hd,hc⟩
  · cases hi
  refine ⟨hv,hu,hd,hc.shut,fun p => ?_⟩
  have hbytes := h.down_bytes (by rw [pc]; rfl)
  rw [head,hd,pc,hv] at hbytes
  simp only [ConnectorPc.loaded,Leg.loaded,ListenerPc.pending,flatMap_cons,Item.packets,
    flatMap_nil,bytesOf,append_nil] at hbytes
  cases p with
  | connector =>
    rw [hbytes,Sys.sent,show (s.sock Party.connector.other s.heard).unread = [] from hc.unread,
      append_nil]
    rfl
  | listener => exact hc.delivered

lemma Orderly.settled_legFin {rest : List ClientMsg} (h : Orderly s)
    (pc : s.listener = .leg .select) (head : s.up = .cliFin::rest) :
    s.down = [] ∧ (s.connector = .pull ∧ rest = [] ∨ s.connector = .awaitReply ∧ rest = [.pull]) ∧
      s.Settled s.heard := by
  have hph := h.phase
  rw [pc,head] at hph
  rcases hph.head_up with hm | ⟨_,hc,hd,hw⟩
  · cases hm
  refine ⟨hd,hw,hc.shut,fun p => ?_⟩
  have hbytes := h.up_bytes (by rw [pc]; rfl)
  cases p with
  | connector => exact hc.delivered
  | listener =>
    have hgot : s.got .listener s.heard = s.read .connector s.heard := by
      rcases hw with ⟨hw,hr⟩ | ⟨hw,hr⟩ <;> rw [head,hr,pc,hw] at hbytes <;>
        simpa [ListenerPc.loaded,Leg.loaded,ConnectorPc.pending,ClientMsg.packets,
          bytesOf] using hbytes
    rw [hgot,Sys.sent,show (s.sock Party.listener.other s.heard).unread = [] from hc.unread,
      append_nil]
    rfl

lemma Orderly.goes (h : Orderly s) (hi : Invariant t)
    (hph : Phase (t.Closed .connector) (t.Closed .listener) t.connector t.listener t.up t.down)
    (hs : t.sock = s.sock) (hr : t.read = s.read) (hg : t.got = s.got) (hl : t.lost = s.lost)
    (hh : s.pullPhase = false → t.heard = s.heard)
      (hp : s.pullPhase = false → t.pullPhase = false) :
    Orderly t := by
  refine ⟨hi,hph,fun p c => by rw [hl]; exact h.lost p c,fun p c ho => ?_⟩
  rw [hs] at ho
  rcases h.settled p c ho with hset | ⟨hc,hrun⟩
  · exact .inl (hset.of_eq (fun _ => by rw [hs]) (fun _ => by rw [hr]) (fun _ => by rw [hg]))
  · exact .inr ⟨by rw [hh hrun,hc],hp hrun⟩

lemma Sys.sameOff_modify (hc : s.cycle p = s.heard)
    (hs : t.sock = (s.modifyHere p f).sock) (hr : t.read = s.read) (hg : t.got = s.got) :
    s.SameOff t := by
  refine ⟨fun q c hne => ?_,fun q c _ => by rw [hr],fun q c _ => by rw [hg]⟩
  rw [hs]
  exact Sys.modify_of_ne (hc ▸ hne)

lemma Sys.sameOff_opens (hc : s.cycle p = s.heard) (hs : t.sock = (s.opens p).sock)
    (hr : t.read = s.read) (hg : t.got = s.got) : s.SameOff t :=
  Sys.sameOff_modify hc hs hr hg

lemma Orderly.ends (h : Orderly s) (hi : Invariant t) (hset : s.Settled s.heard)
    (hph : Phase (t.Closed .connector) (t.Closed .listener) t.connector t.listener t.up t.down)
    (hc : s.cycle p = s.heard) (hs : t.sock = (s.shutsDown p).sock) (hr : t.read = s.read)
    (hg : t.got = s.got) (hl : t.lost = s.lost) (hh : t.heard = s.heard) : Orderly t := by
  have hsock (q : Party) (c : ℕ) : (t.sock q c).shut = (s.sock q c).shut ∧
      (t.sock q c).unread = (s.sock q c).unread := by
    rw [hs]
    simp only [Sys.shutsDown,Sys.modifyHere]
    by_cases hq : q = p
    · subst hq
      by_cases hcc : c = s.cycle q
      · subst hcc
        rw [Sys.modify_self]
        exact ⟨rfl,rfl⟩
      · rw [Sys.modify_of_ne hcc]
        exact ⟨rfl,rfl⟩
    · rw [Sys.modify_other hq]
      exact ⟨rfl,rfl⟩
  refine ⟨hi,hph,fun q c => by rw [hl]; exact h.lost q c,
    h.settled_off (Sys.sameOff_modify hc hs hr hg) hh (.inr ?_)⟩
  exact hset.congr (fun q => (hsock q _).1) (fun q => (hsock q _).2) (fun q => by rw [hr])
    (fun q => by rw [hg])

lemma Orderly.no_mishap (h : Orderly s) (m : Mishap False s t) : False := by
  have hph := h.phase
  obtain ⟨hended,hlended,hready,hreport⟩ := hph.going
  cases m with
  | misreads pc head odd =>
    rw [head] at hph
    rw [hph.expects pc] at odd
    cases odd
  | cutOff _ gone | leaves _ gone => exact absurd gone hlended
  | ends w _ | misses w _ | legFails w _ => exact w.elim
  | leavesUnset pc head => exact absurd (head ▸ mem_cons_self) h.noUnset
  | mishears pc head other =>
    rw [pc,head] at hph
    rw [hph.no_mishearing] at other
    cases other
  | stops _ gone | legLeaves _ gone | resets _ gone _ => rw [hended] at gone; cases gone
  | refuses pc => exact absurd pc hready
  | legUnset pc head | legPull pc head =>
    rw [pc,head] at hph
    rcases hph.head_up with hm | ⟨hm,_⟩ <;> cases hm
  | reports pc => exact absurd pc (hreport _ _)

theorem Orderly.move (h : Orderly s) (hi : Invariant t)
    (m : Move False True (fun p => s.late p = true) s t) : Orderly t := by
  have hph := h.phase
  cases m with
  | peerWrote _ _ going => exact h.peer hi (fun _ => rfl) (fun _ _ => Sys.write_of_shut going)
  | peerShut _ _ => exact h.peer hi (fun _ => rfl) (fun _ _ => Sys.shut_of_shut)
  | reads pc hsome hk => exact h.reads hi pc hsome hk
  | readsEof hlate pc hnone hshut => exact h.readsEof hi hlate pc hnone hshut
  | writes pc _ => exact h.writes hi pc
  | ready pc head =>
    rw [pc,head] at hph
    refine h.goes hi hph.ready rfl rfl rfl rfl (fun _ => rfl) (fun hp => ?_)
    rwa [Sys.pullPhase,pc] at hp
  | assigned pc head =>
    rw [pc,head] at hph
    exact h.goes hi hph.assigned rfl rfl rfl rfl (fun _ => rfl) (fun _ => rfl)
  | retries pc head =>
    rw [pc,head] at hph
    refine h.goes hi hph.retries rfl rfl rfl rfl (fun _ => rfl) (fun hp => ?_)
    rwa [Sys.pullPhase,pc] at hp
  | takes pc head =>
    rw [pc,head] at hph
    exact h.goes hi (hph.takes (fun hc => ⟨hc.shut,hc.unread,hc.delivered⟩)) rfl rfl rfl rfl
      (fun _ => rfl) (fun _ => rfl)
  | takesFin pc head =>
    obtain ⟨hv,hu,hrest,hset⟩ := h.settled_takesFin pc head
    refine h.ends (p := .connector) hi hset ?_ (h.cycle_eq (Sys.leg?_connector.mpr pc)) rfl rfl rfl
      rfl rfl
    simp only [Sys.shutsDown,Sys.modifyHere,Sys.modify,hv,hu,hrest]
    exact .idle
  | pulls pc =>
    rw [pc] at hph
    refine h.goes hi (hph.pulls (fun hc => ⟨hc.shut,hc.unread,hc.delivered⟩)) rfl rfl rfl rfl
      (fun _ => rfl) (fun hp => ?_)
    rwa [Sys.pullPhase,pc] at hp
  | connects pc =>
    rw [pc] at hph
    have hcycle : s.cycle .connector = s.heard := (h.same_cycle (by rw [pc]; rfl)).2.1.symm
    exact ⟨hi,hph.connects,h.lost,h.settled_off (Sys.sameOff_opens hcycle rfl rfl rfl)
      rfl (.inl rfl)⟩
  | sends pc =>
    rw [pc] at hph
    exact h.goes hi hph.sends rfl rfl rfl rfl (fun _ => rfl) (fun _ => rfl)
  | sendsFin pc =>
    rw [pc] at hph
    exact h.goes hi (hph.sendsFin (fun hc => ⟨hc.shut,hc.unread,hc.delivered⟩)) rfl rfl rfl rfl
      (fun _ => rfl) (fun _ => hph.fin_connector)
  | hears pc head =>
    rw [pc,head] at hph
    obtain ⟨hnext,hw⟩ := hph.hears
    refine h.goes hi hnext rfl rfl rfl rfl (fun hp => ?_) (fun hp => ?_)
    all_goals
      rw [Sys.pullPhase,pc,hw] at hp
      cases hp
  | looksUp pc =>
    rw [pc] at hph
    refine h.goes hi hph.looksUp rfl rfl rfl rfl (fun _ => rfl) (fun hp => ?_)
    rwa [Sys.pullPhase,pc] at hp
  | dequeues pc =>
    rw [pc] at hph
    refine h.goes hi hph.dequeues rfl rfl rfl rfl (fun _ => rfl) (fun hp => ?_)
    rw [Sys.pullPhase,pc] at hp
    simp only [Sys.pullPhase]
    split <;> exact hp
  | assigns pc =>
    rw [pc] at hph
    exact ⟨hi,hph.assigns,h.lost,h.settled_off (Sys.sameOff_opens (p := .listener) rfl rfl rfl rfl)
      rfl (.inl (Bool.and_false _))⟩
  | timesOut pc =>
    rw [pc] at hph
    refine h.goes hi hph.timesOut rfl rfl rfl rfl (fun _ => rfl) (fun hp => ?_)
    rwa [Sys.pullPhase,pc] at hp
  | legTakes pc head =>
    rw [pc,head] at hph
    exact h.goes hi (hph.legTakes (fun hc => ⟨hc.shut,hc.unread,hc.delivered⟩)) rfl rfl rfl rfl
      (fun _ => rfl) (fun _ => Bool.and_false _)
  | legFin pc head =>
    obtain ⟨hd,hw,hset⟩ := h.settled_legFin pc head
    refine h.ends (p := .listener) hi hset ?_ rfl rfl rfl rfl rfl rfl
    simp only [Sys.shutsDown,Sys.modifyHere,Sys.modify,hd]
    rcases hw with ⟨hw,rfl⟩ | ⟨hw,rfl⟩ <;> rw [hw]
    · exact .idle
    · exact .asked
  | legSends pc =>
    rw [pc] at hph
    exact h.goes hi hph.legSends rfl rfl rfl rfl (fun _ => rfl) (fun _ => Bool.and_false _)
  | legSendsFin pc =>
    rw [pc] at hph
    refine h.goes hi (hph.legSendsFin (fun hc => ⟨hc.shut,hc.unread,hc.delivered⟩)) rfl rfl rfl rfl
      (fun _ => rfl) (fun _ => ?_)
    rw [Sys.pullPhase,hph.fin_listener,Bool.false_and]
  | mishap m => exact (h.no_mishap m).elim

end PirateServer.Relay
