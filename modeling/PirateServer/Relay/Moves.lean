import PirateServer.Relay.Machine

/-! Everything that a step of the relay does, as one list of cases with the program points and the
messages they need. -/
namespace PirateServer.Relay
open Lib

def ConnectorPc.waits : ConnectorPc → Bool
  | handshake | awaitReply | leg .select => true
  | _ => false

def ConnectorPc.expects : ConnectorPc → Item → Bool
  | handshake,.msg (.ready true) => true
  | awaitReply,.msg .assigned => true
  | awaitReply,.msg (.error _) => true
  | leg .select,.msg (.fromListener _) => true
  | leg .select,.msg .srvFin => true
  | leg .select,.msg .unset => true
  | _,_ => false

namespace Label

/-- The endpoint of a socket acts, not one of the loops. -/
def peer : Label → Bool
  | peerWrite _ _ _ | peerShut _ _ => true
  | _ => false

/-- No I/O error, no stream or task that is dropped, and the listener has its queue. -/
def orderly : Label → Bool
  | sendFails _ | ioError _ _ | connect (some _) | lookup false | reset _ | abort => false
  | _ => true

end Label

/-- The moves that end the session or report an error, and those that leave a cycle without its
last frame. The parameter says whether an event that is not orderly may be the cause. -/
inductive Mishap (wild : Prop) (s : Sys) : Sys → Prop
  -- the connector
  | misreads {i rest how} (pc : s.connector.waits = true) (head : s.down = i::rest)
      (odd : s.connector.expects i = false) :
      Mishap wild s ({ s with down := rest, told := s.told + i.answers.toNat }.endSession how)
  | cutOff {how} (going : s.connector.hasEnded = false) (gone : s.listener = .ended) :
      Mishap wild s (s.endSession how)
  | ends {how} (w : wild) (going : s.connector.hasEnded = false) : Mishap wild s (s.endSession how)
  | leaves (pc : s.connector = .leg .select ∨ s.connector = .leg .fin)
      (gone : s.listener = .ended) : Mishap wild s { s with connector := .pull }
  | leavesUnset {rest} (pc : s.connector = .leg .select) (head : s.down = .msg .unset::rest) :
      Mishap wild s { s with down := rest, connector := .pull }
  -- the listener
  | mishears {m rest} (pc : s.listener = .recv) (head : s.up = m::rest) (other : m.asks = false) :
      Mishap wild s { s with
        up := rest
        listener := .report ⟨.invalidArgument,"expected TunPull as first message each cycle"⟩ true }
  | stops (pc : s.listener = .recv ∨ s.listener = .assign)
      (gone : s.connector.hasEnded = true) : Mishap wild s { s with listener := .ended }
  | misses (w : wild) (pc : s.listener = .lookup) :
      Mishap wild s { s with listener := .notReady }
  | refuses (pc : s.listener = .notReady) :
      Mishap wild s { s with
        down := s.down ++ [.fail ⟨.notFound,"queue not ready"⟩]
        answered := s.answered + 1
        listener := .recv }
  | legLeaves (pc : s.listener = .leg .select) (gone : s.connector.hasEnded = true) :
      Mishap wild s { s with listener := .recv }
  | legUnset {rest} (pc : s.listener = .leg .select) (head : s.up = .unset::rest) :
      Mishap wild s { s with up := rest, listener := .recv }
  | legPull {rest error} (pc : s.listener = .leg .select) (head : s.up = .pull::rest) :
      Mishap wild s { { s with up := rest, heard := s.heard + 1 }.giveUp .listener with
        listener := .report ⟨.internal,"relay " ++ error⟩ false }
  | legFails {l error} (w : wild) (pc : s.listener = .leg l) :
      Mishap wild s { s.giveUp .listener with
        listener := .report ⟨.internal,"relay " ++ error⟩ false }
  | resets {status} (pc : s.listener = .recv) (gone : s.connector.hasEnded = true)
      (internal : status.code = .internal) : Mishap wild s { s with listener := .report status true }
  | reports {status leave} (pc : s.listener = .report status leave) :
      Mishap wild s { s with
        down := s.down ++ [.fail status]
        listener := if leave then .ended else .recv }

/-- What a step does. The parameters say whether it may be one that is not orderly, one of the
endpoints, and which leg may come to the end of its socket. -/
inductive Move (wild peers : Prop) (eof : Party → Prop) (s : Sys) : Sys → Prop
  -- the endpoints
  | peerWrote {p c bytes} (w : peers) (opened : (s.sock p c).opened = true)
      (going : (s.sock p c).shut = false) :
      Move wild peers eof s (s.modify p c (fun k => { k with unread := k.unread ++ bytes }))
  | peerShut {p c} (w : peers) (opened : (s.sock p c).opened = true) :
      Move wild peers eof s (s.modify p c (fun k => { k with shut := true }))
  -- either leg
  | reads {p k} (pc : s.leg? p = some .select) (some_unread : (s.here p).unread ≠ []) (pos : 0 < k) :
      Move wild peers eof s (s.readChunk p k)
  | readsEof {p} (w : eof p) (pc : s.leg? p = some .select)
      (none_unread : (s.here p).unread = []) (shut : (s.here p).shut = true) :
      Move wild peers eof s (s.setLeg p .fin)
  | writes {p chunk k} (pc : s.leg? p = some (.writing chunk)) (pos : 0 < k) :
      Move wild peers eof s (s.writeChunk p chunk k)
  -- the connector
  | ready {rest} (pc : s.connector = .handshake) (head : s.down = .msg (.ready true)::rest) :
      Move wild peers eof s { s with down := rest, connector := .pull }
  | assigned {rest} (pc : s.connector = .awaitReply) (head : s.down = .msg .assigned::rest) :
      Move wild peers eof s { s with down := rest, told := s.told + 1, connector := .connect }
  | retries {rest text} (pc : s.connector = .awaitReply) (head : s.down = .msg (.error text)::rest) :
      Move wild peers eof s { s with down := rest, told := s.told + 1, connector := .pull }
  | takes {rest chunk} (pc : s.connector = .leg .select)
      (head : s.down = .msg (.fromListener chunk)::rest) :
      Move wild peers eof s { s with down := rest, connector := .leg (.writing chunk) }
  | takesFin {rest} (pc : s.connector = .leg .select) (head : s.down = .msg .srvFin::rest) :
      Move wild peers eof s ({ s with down := rest, connector := .pull }.shutsDown .connector)
  | pulls (pc : s.connector = .pull) :
      Move wild peers eof s { s with
        up := s.up ++ [.pull]
        asked := s.asked + 1
        connector := .awaitReply }
  | connects (pc : s.connector = .connect) :
      Move wild peers eof s ({ s with connector := .leg .select }.opens .connector)
  | sends {chunk} (pc : s.connector = .leg (.sending chunk)) :
      Move wild peers eof s { s with up := s.up ++ [.fromConnector chunk], connector := .leg .select }
  | sendsFin (pc : s.connector = .leg .fin) :
      Move wild peers eof s { s with up := s.up ++ [.cliFin], connector := .pull }
  -- the listener
  | hears {rest} (pc : s.listener = .recv) (head : s.up = .pull::rest) :
      Move wild peers eof s { s with up := rest, heard := s.heard + 1, listener := .lookup }
  | looksUp (pc : s.listener = .lookup) : Move wild peers eof s { s with listener := .dequeue }
  | dequeues {got : Bool} (pc : s.listener = .dequeue) :
      Move wild peers eof s { s with listener := if got then .assign else .timedOut }
  | assigns (pc : s.listener = .assign) :
      Move wild peers eof s ({ s with
        down := s.down ++ [Item.msg .assigned]
        answered := s.answered + 1
        listener := .leg .select }.opens .listener)
  | timesOut (pc : s.listener = .timedOut) :
      Move wild peers eof s { s with
        down := s.down ++ [.msg (.error "pull_timeout")]
        answered := s.answered + 1
        listener := .recv }
  | legTakes {rest chunk} (pc : s.listener = .leg .select)
      (head : s.up = .fromConnector chunk::rest) :
      Move wild peers eof s { s with up := rest, listener := .leg (.writing chunk) }
  | legFin {rest} (pc : s.listener = .leg .select) (head : s.up = .cliFin::rest) :
      Move wild peers eof s ({ s with up := rest, listener := .recv }.shutsDown .listener)
  | legSends {chunk} (pc : s.listener = .leg (.sending chunk)) :
      Move wild peers eof s { s with
        down := s.down ++ [.msg (.fromListener chunk)]
        listener := .leg .select }
  | legSendsFin (pc : s.listener = .leg .fin) :
      Move wild peers eof s { s with down := s.down ++ [.msg .srvFin], listener := .recv }
  -- and what ends the session or a cycle in another way
  | mishap {t} (m : Mishap wild s t) : Move wild peers eof s t

variable {wild peers : Prop} {eof : Party → Prop} {s t : Sys}

lemma Sys.leg?_connector {l : Leg} : s.leg? .connector = some l ↔ s.connector = .leg l := by
  simp only [Sys.leg?]
  cases s.connector <;> simp [ConnectorPc.leg?]

lemma Sys.leg?_listener {l : Leg} : s.leg? .listener = some l ↔ s.listener = .leg l := by
  simp only [Sys.leg?]
  cases s.listener <;> simp [ListenerPc.leg?]

lemma Move.failed {p : Party} {l : Leg} {error : String} (w : wild) (pc : s.leg? p = some l) :
    Move wild peers eof s (s.proceed p (.failed error)) := by
  cases p with
  | connector =>
    rw [Sys.leg?_connector] at pc
    exact .mishap (.ends w (by rw [pc]; rfl))
  | listener => exact .mishap (.legFails w (Sys.leg?_listener.mp pc))

lemma Move.of_connectorReceive (h : s.receive .connector = some t) : Move wild peers eof s t := by
  rcases s with ⟨connector,listener,up,down,sock,read,lost,got,asked,heard,answered,told⟩
  cases down with
  | cons i rest =>
    cases connector with
    | handshake =>
      rcases i with m | status
      · cases m with
        | ready ok =>
          cases ok <;> cases h <;> [exact .mishap (.misreads rfl rfl rfl); exact .ready rfl rfl]
        | assigned | fromListener | srvFin | error | unset =>
          cases h; exact .mishap (.misreads rfl rfl rfl)
      · cases h; exact .mishap (.misreads rfl rfl rfl)
    | awaitReply =>
      rcases i with m | status
      · cases m with
        | assigned => cases h; exact .assigned rfl rfl
        | error text => cases h; exact .retries rfl rfl
        | fromListener | srvFin | ready | unset => cases h; exact .mishap (.misreads rfl rfl rfl)
      · cases h; exact .mishap (.misreads rfl rfl rfl)
    | leg l =>
      cases l with
      | select =>
        rcases i with m | status
        · cases m with
          | assigned | error | ready => cases h; exact .mishap (.misreads rfl rfl rfl)
          | fromListener chunk => cases h; exact .takes rfl rfl
          | srvFin => cases h; exact .takesFin rfl rfl
          | unset => cases h; exact .mishap (.leavesUnset rfl rfl)
        · cases h; exact .mishap (.misreads rfl rfl rfl)
      | writing | sending | fin => cases h
    | pull | connect | ended => cases h
  | nil =>
    simp only [Sys.receive] at h
    split at h
    · rename_i hover
      simp only [Sys.connectorAtEnd] at h
      split at h <;> cases h
      · exact .mishap (.cutOff rfl hover)
      · exact .mishap (.cutOff rfl hover)
      · exact .mishap (.leaves (.inl rfl) hover)
    · cases h

lemma Move.of_listenerReceive (h : s.receive .listener = some t) : Move wild peers eof s t := by
  rcases s with ⟨connector,listener,up,down,sock,read,lost,got,asked,heard,answered,told⟩
  cases up with
  | cons m rest =>
    cases listener with
    | recv =>
      cases m with
      | pull => cases h; exact .hears rfl rfl
      | fromConnector | cliFin | unset => cases h; exact .mishap (.mishears rfl rfl rfl)
    | leg l =>
      cases l with
      | select =>
        cases h
        cases m with
        | pull => exact .mishap (.legPull rfl rfl)
        | fromConnector chunk => exact .legTakes rfl rfl
        | cliFin => exact .legFin rfl rfl
        | unset => exact .mishap (.legUnset rfl rfl)
      | writing | sending | fin => cases h
    | lookup | dequeue | assign | timedOut | notReady | report | ended => cases h
  | nil =>
    simp only [Sys.receive] at h
    split at h
    · rename_i hover
      simp only [Sys.listenerAtEnd] at h
      split at h <;> cases h
      · exact .mishap (.stops (.inl rfl) hover)
      · exact .mishap (.legLeaves rfl hover)
    · cases h

variable {p : Party}

lemma Move.of_read {k : ℕ} (h : s.readSocket p k = some t)
    (he : (s.here p).unread = [] → eof p) : Move wild peers eof s t := by
  simp only [Sys.readSocket] at h
  split at h
  swap
  · cases h
  rename_i pc
  split at h
  · rename_i hnone
    split at h <;> cases h
    rename_i hshut
    exact .readsEof (he hnone) pc hnone hshut
  · rename_i hsome
    split at h <;> cases h
    rename_i hk
    exact .reads pc hsome hk.1

lemma Move.of_write {k : ℕ} (h : s.writeSocket p k = some t) : Move wild peers eof s t := by
  simp only [Sys.writeSocket] at h
  split at h
  · rename_i chunk pc
    split at h <;> cases h
    rename_i hk
    exact .writes pc hk
  · cases h

lemma Move.of_send (h : s.send p = some t) : Move wild peers eof s t := by
  cases p with
  | connector =>
    simp only [Sys.send] at h
    split at h
    case h_1 pc => cases h; exact .pulls pc
    case h_2 pc => cases h; exact .sends pc
    case h_3 pc => cases h; exact .sendsFin pc
    case h_4 => cases h
  | listener =>
    simp only [Sys.send] at h
    split at h
    case h_1 pc => cases h; exact .assigns pc
    case h_2 pc => cases h; exact .timesOut pc
    case h_3 pc => cases h; exact .mishap (.refuses pc)
    case h_4 pc => cases h; exact .legSends pc
    case h_5 pc => cases h; exact .legSendsFin pc
    case h_6 pc => cases h; exact .mishap (.reports pc)
    case h_7 => cases h

lemma Move.of_sendFails (w : wild) (h : s.sendFails p = some t) : Move wild peers eof s t := by
  cases p with
  | connector =>
    simp only [Sys.sendFails] at h
    split at h
    · rename_i hover
      split at h
      case h_1 pc => cases h; exact .mishap (.ends w (by rw [pc]; rfl))
      case h_2 pc => cases h; exact .failed w (Sys.leg?_connector.mpr pc)
      case h_3 pc => cases h; exact .mishap (.leaves (.inr pc) hover)
      case h_4 => cases h
    · cases h
  | listener =>
    simp only [Sys.sendFails] at h
    split at h
    · rename_i hover
      split at h
      case h_1 pc => cases h; exact .mishap (.stops (.inr pc) hover)
      case h_2 pc => cases h; exact .failed w (Sys.leg?_listener.mpr pc)
      case h_3 pc => cases h; exact .failed w (Sys.leg?_listener.mpr pc)
      case h_4 => cases h
    · cases h

theorem step_move {l : Label} (h : step s l = some t) (hw : l.orderly = false → wild)
    (hp : l.peer = true → peers)
    (he : ∀ p k, l = .read p k → (s.here p).unread = [] → eof p) : Move wild peers eof s t := by
  cases l with
  | peerWrite p c bytes =>
    simp only [step] at h
    split at h <;> cases h
    rename_i hopen
    exact .peerWrote (hp rfl) hopen.1 hopen.2
  | peerShut p c =>
    simp only [step] at h
    split at h <;> cases h
    rename_i hopen
    exact .peerShut (hp rfl) hopen
  | receive p =>
    cases p with
    | connector => exact .of_connectorReceive h
    | listener => exact .of_listenerReceive h
  | read p k => exact .of_read h (he p k rfl)
  | write p k => exact .of_write h
  | send p => exact .of_send h
  | sendFails p => exact .of_sendFails (hw rfl) h
  | ioError p text =>
    have w := hw rfl
    simp only [step,Sys.ioError] at h
    split at h
    case h_1 pc => cases h; exact .failed w pc
    case h_2 pc => cases h; exact .failed w pc
    case h_3 => cases h
  | connect error =>
    simp only [step] at h
    split at h
    · rename_i pc
      split at h <;> cases h
      · exact .connects pc
      · exact .mishap (.ends (hw rfl) (by rw [pc]; rfl))
    · cases h
  | lookup found =>
    simp only [step] at h
    split at h <;> cases h
    rename_i pc
    cases found with
    | true => exact .looksUp pc
    | false => exact .mishap (.misses (hw rfl) pc)
  | dequeue got =>
    simp only [step] at h
    split at h <;> cases h
    rename_i pc
    exact .dequeues pc
  | reset text =>
    have w := hw rfl
    simp only [step] at h
    split at h
    · rename_i hover
      split at h
      case h_1 pc => cases h; exact .mishap (.resets pc hover rfl)
      case h_2 pc => cases h; exact .failed w (Sys.leg?_listener.mpr pc)
      case h_3 => cases h
    · cases h
  | abort =>
    simp only [step] at h
    split at h <;> cases h
    rename_i hgoing
    exact .mishap (.ends (hw rfl) (by simpa using hgoing))

end PirateServer.Relay
