import PirateServer.Relay.Moves

/-! Frames carry no connection id. Each direction of the relay refines a lane whose cycles are cut
by the `Pull`s, or by their answers. -/
namespace PirateServer.Relay
open Lib Packet Relation List

def ClientMsg.packets : ClientMsg → List (Packet UInt8)
  | pull => [.cut]
  | fromConnector chunk => [.data chunk]
  | cliFin => []
  | unset => []

def Item.packets : Item → List (Packet UInt8)
  | msg .assigned => [.cut]
  | msg (.error _) => [.cut]
  | msg (.fromListener chunk) => [.data chunk]
  | fail status => if status.code = .notFound then [.cut] else []
  | _ => []

namespace ConnectorPc

/-- The connector has sent a `Pull` and has not left the cycle that it began. -/
def uploads : ConnectorPc → Bool
  | awaitReply | connect | leg _ => true
  | _ => false

def downloads : ConnectorPc → Bool
  | connect | leg _ => true
  | _ => false

def awaits : ConnectorPc → Bool
  | awaitReply => true
  | _ => false

end ConnectorPc

namespace ListenerPc

/-- A `Pull` has been received and not been answered. -/
def owes : ListenerPc → Bool
  | lookup | dequeue | assign | timedOut | notReady => true
  | _ => false

def inLeg : ListenerPc → Bool
  | leg _ => true
  | _ => false

end ListenerPc

namespace Sys

/-- From the target sockets to the public ones. -/
def upLane (s : Sys) : Lane UInt8 where
  sent := s.asked
  sending := s.connector.uploads
  out := s.connector.pending
  wire := s.up.flatMap ClientMsg.packets
  rcvd := s.heard
  receiving := s.listener.owes || s.listener.inLeg
  inp := s.listener.loaded
  read := s.read .connector
  lost := s.lost .connector
  written := s.got .listener

/-- From the public sockets to the target ones. -/
def downLane (s : Sys) : Lane UInt8 where
  sent := s.answered
  sending := s.listener.inLeg
  out := s.listener.pending
  wire := s.down.flatMap Item.packets
  rcvd := s.told
  receiving := s.connector.downloads
  inp := s.connector.loaded
  read := s.read .listener
  lost := s.lost .listener
  written := s.got .connector

end Sys

lemma Log.add_nil (f : Log) (p : Party) (c : ℕ) : f.add p c [] = f := by
  simp only [Log.add,append_nil,Function.update_eq_self]

lemma Leg.loaded_next {chunk : List UInt8} :
    (if chunk = [] then select else writing chunk).loaded = chunk := by
  split
  · rename_i h
    exact h.symm
  · rfl

lemma ConnectorPc.pending_of_uploads {pc : ConnectorPc} (h : pc.uploads = false) :
    pc.pending = [] := by
  cases pc <;> simp_all [uploads,pending]

variable {wild peers : Prop} {eof : Party → Prop} {s t : Sys}

lemma Sys.upLane_stop {pc : ConnectorPc} (hpc : pc.uploads = false) :
    ReflTransGen Lane.Step s.upLane (Sys.upLane { s.giveUp .connector with connector := pc }) := by
  have hp := ConnectorPc.pending_of_uploads hpc
  cases hup : s.connector.uploads with
  | true =>
    have hstop : Lane.Step s.upLane _ := .stop hup
    simp only [Sys.upLane,hpc,hp]
    exact .single hstop
  | false =>
    have hout := ConnectorPc.pending_of_uploads hup
    simp only [Sys.upLane,hup,hpc,hp,Sys.giveUp,Sys.pending,hout,Log.add_nil]
    exact .refl

lemma Sys.upLane_leave {pc : ConnectorPc} (hpc : pc.uploads = false)
    (hp : s.connector.pending = []) :
    ReflTransGen Lane.Step s.upLane (Sys.upLane { s with connector := pc }) := by
  have hstop := Sys.upLane_stop (s := s) hpc
  simpa only [Sys.giveUp,Sys.pending,hp,Log.add_nil] using hstop

lemma Mishap.upLane (m : Mishap wild s t) : ReflTransGen Lane.Step s.upLane t.upLane := by
  cases m with
  | leavesUnset pc head => exact Sys.upLane_leave rfl (by rw [pc]; rfl)
  | leaves pc _ => exact Sys.upLane_leave rfl (by rcases pc with pc | pc <;> rw [pc] <;> rfl)
  | cutOff _ _ | ends _ _ => exact Sys.upLane_stop rfl
  | misreads pc head _ => exact Sys.upLane_stop (s := { s with down := _, told := _ }) rfl
  | @mishears m rest pc head other =>
    cases s
    cases pc
    cases head
    cases m with
    | pull => cases other
    | fromConnector chunk => exact .single (.skip rfl rfl)
    | cliFin | unset => exact .refl
  | stops pc _ =>
    cases s
    rcases pc with pc | pc
    · cases pc; exact .refl
    · cases pc; exact .single .close
  | misses _ pc | resets pc _ _ =>
    cases s
    cases pc
    exact .refl
  | refuses pc | legLeaves pc _ | legFails _ pc =>
    cases s
    cases pc
    exact .single .close
  | legUnset pc head =>
    cases s
    cases pc
    cases head
    exact .single .close
  | legPull pc head =>
    cases s
    cases pc
    cases head
    exact .single (.accept false rfl rfl)
  | @reports status leave pc =>
    cases s
    cases pc
    cases leave <;> exact .refl

lemma Move.upLane (m : Move wild peers eof s t) : ReflTransGen Lane.Step s.upLane t.upLane := by
  cases m with
  | peerWrote | peerShut => exact .refl
  | @reads p k pc _ _ =>
    cases s
    cases p with
    | connector => cases Sys.leg?_connector.mp pc; exact .single (.take _ rfl rfl)
    | listener => cases Sys.leg?_listener.mp pc; exact .refl
  | @readsEof p _ pc _ _ =>
    cases s
    cases p with
    | connector => cases Sys.leg?_connector.mp pc; exact .refl
    | listener => cases Sys.leg?_listener.mp pc; exact .refl
  | @writes p chunk k pc _ =>
    cases s
    cases p with
    | connector =>
      cases Sys.leg?_connector.mp pc
      simp only [Sys.writeChunk]
      split <;> exact .refl
    | listener =>
      cases Sys.leg?_listener.mp pc
      simp only [Sys.writeChunk,Sys.setLeg,Sys.upLane,ListenerPc.loaded,Leg.loaded_next]
      exact .single (.put k rfl)
  | ready pc _ | assigned pc _ | takes pc _ | connects pc | looksUp pc | assigns pc | legSends pc =>
    cases s
    cases pc
    exact .refl
  | retries pc head => exact Sys.upLane_leave rfl (by rw [pc]; rfl)
  | takesFin pc head => exact Sys.upLane_leave (s := s) rfl (by rw [pc]; rfl)
  | pulls pc =>
    cases s
    cases pc
    simp only [Sys.upLane,flatMap_append]
    exact .single (.cut true rfl)
  | sends pc =>
    cases s
    cases pc
    simp only [Sys.upLane,flatMap_append]
    exact .single .push
  | sendsFin pc =>
    have hleave : ReflTransGen Lane.Step s.upLane (Sys.upLane { s with connector := .pull }) :=
      Sys.upLane_leave rfl (by rw [pc]; rfl)
    simp only [Sys.upLane,flatMap_append]
    rw [show [ClientMsg.cliFin].flatMap ClientMsg.packets = [] from rfl,append_nil]
    exact hleave
  | hears pc head =>
    cases s
    cases pc
    cases head
    exact .single (.accept true rfl rfl)
  | @dequeues got pc =>
    cases s
    cases pc
    split <;> exact .refl
  | timesOut pc | legSendsFin pc =>
    cases s
    cases pc
    exact .single .close
  | legFin pc head =>
    cases s
    cases pc
    cases head
    exact .single .close
  | legTakes pc head =>
    cases s
    cases pc
    cases head
    exact .single (.load rfl rfl)
  | mishap m => exact m.upLane

lemma ListenerPc.pending_of_inLeg {pc : ListenerPc} (h : pc.inLeg = false) : pc.pending = [] := by
  cases pc <;> simp_all [inLeg,pending]

lemma Sys.downLane_stop {pc : ListenerPc} (hpc : pc.inLeg = false)
    (hc : s.listener.inLeg = true → s.heard = s.answered) :
    ReflTransGen Lane.Step s.downLane (Sys.downLane
      { s.giveUp .listener with listener := pc }) := by
  have hp := ListenerPc.pending_of_inLeg hpc
  cases hleg : s.listener.inLeg with
  | true =>
    have hstop : Lane.Step s.downLane _ := .stop hleg
    simp only [Sys.downLane,hpc,hp,Sys.giveUp,Sys.cycle,hc hleg]
    exact .single hstop
  | false =>
    have hout := ListenerPc.pending_of_inLeg hleg
    simp only [Sys.downLane,hleg,hpc,hp,Sys.giveUp,Sys.pending,hout,Log.add_nil]
    exact .refl

lemma Sys.downLane_leave {pc : ListenerPc} (hpc : pc.inLeg = false)
    (hc : s.listener.inLeg = true → s.heard = s.answered) (hp : s.listener.pending = []) :
    ReflTransGen Lane.Step s.downLane (Sys.downLane { s with listener := pc }) := by
  have hstop := Sys.downLane_stop hpc hc
  simpa only [Sys.giveUp,Sys.pending,hp,Log.add_nil] using hstop

lemma Sys.downLane_misread {i : Item} {rest : List Item} {how : SessionEnd}
    (hw : s.connector.waits = true) (head : s.down = i::rest) : ReflTransGen Lane.Step s.downLane
      (Sys.downLane ({ s with down := rest, told :=
        s.told + i.answers.toNat }.endSession how)) := by
  have hinp : s.downLane.inp = [] := by
    simp only [Sys.downLane]
    generalize s.connector = pc at hw
    cases pc with
    | leg l => cases l <;> first | rfl | cases hw
    | _ => rfl
  have hwire : s.downLane.wire = i.packets ++ rest.flatMap Item.packets := by
    simp only [Sys.downLane,head,flatMap_cons]
  have hclose : Lane.Step s.downLane _ := .close
  -- an answer is a cut, a chunk is dropped, and the rest leaves no trace on the lane
  rcases i with m | status
  · cases m with
    | assigned | error =>
      have hacc : Lane.Step s.downLane _ := .accept false hwire hinp
      rw [hinp] at hacc
      exact .single hacc
    | fromListener chunk => exact (ReflTransGen.single hclose).tail (.skip hwire rfl)
    | srvFin | ready | unset =>
      rw [hwire] at hclose
      exact .single hclose
  · by_cases hcode : status.code = .notFound
    · simp only [Item.packets,hcode,if_true] at hwire
      have hacc : Lane.Step s.downLane _ := .accept false hwire hinp
      rw [hinp] at hacc
      simp only [Item.answers,hcode,decide_true,Bool.toNat_true]
      exact .single hacc
    · simp only [Item.packets,hcode,if_false,nil_append] at hwire
      rw [hwire] at hclose
      simp only [Item.answers,hcode,decide_false,Bool.toNat_false,Nat.add_zero]
      exact .single hclose

lemma Mishap.downLane (m : Mishap wild s t) (hl : s.listener.inLeg = true → s.heard = s.answered)
    (hr : ∀ status leave, s.listener = .report status leave → status.code ≠ .notFound) :
    ReflTransGen Lane.Step s.downLane t.downLane := by
  cases m with
  | misreads pc head _ => exact Sys.downLane_misread pc head
  | cutOff | ends | leaves => exact .single .close
  | leavesUnset pc head =>
    cases s
    cases pc
    cases head
    exact .single .close
  | mishears pc _ _ | misses _ pc | resets pc _ _ =>
    cases s
    cases pc
    exact .refl
  | stops pc _ =>
    cases s
    rcases pc with pc | pc <;> cases pc <;> exact .refl
  | refuses pc =>
    cases s
    cases pc
    simp only [Sys.downLane,flatMap_append]
    exact .single (.cut false rfl)
  | legLeaves pc _ => exact Sys.downLane_leave rfl hl (by rw [pc]; rfl)
  | legUnset pc head => exact Sys.downLane_leave (s := s) rfl hl (by rw [pc]; rfl)
  | legPull pc head =>
    simp only [Sys.giveUp,Sys.pending,pc,ListenerPc.pending,Leg.pending,Log.add_nil]
    exact Sys.downLane_leave (s := s) rfl hl (by rw [pc]; rfl)
  | legFails _ pc => exact Sys.downLane_stop rfl hl
  | @reports status leave pc =>
    have hcode := hr status leave pc
    have hnil : [Item.fail status].flatMap Item.packets = [] := by
      simp only [flatMap_singleton,Item.packets,hcode,if_false]
    cases s
    cases pc
    simp only [Sys.downLane,flatMap_append,hnil,append_nil]
    cases leave <;> exact .refl

lemma Move.downLane (m : Move wild peers eof s t)
    (hl : s.listener.inLeg = true → s.heard = s.answered)
    (hc : s.connector.downloads = true → s.asked = s.told)
    (hr : ∀ status leave, s.listener = .report status leave → status.code ≠ .notFound) :
    ReflTransGen Lane.Step s.downLane t.downLane := by
  cases m with
  | peerWrote | peerShut => exact .refl
  | @reads p k pc _ _ =>
    cases s
    cases p with
    | connector => cases Sys.leg?_connector.mp pc; exact .refl
    | listener =>
      cases Sys.leg?_listener.mp pc
      cases hl rfl
      exact .single (.take _ rfl rfl)
  | @readsEof p _ pc _ _ =>
    cases s
    cases p with
    | connector => cases Sys.leg?_connector.mp pc; exact .refl
    | listener => cases Sys.leg?_listener.mp pc; exact .refl
  | @writes p chunk k pc _ =>
    cases s
    cases p with
    | connector =>
      cases Sys.leg?_connector.mp pc
      cases hc rfl
      simp only [Sys.writeChunk,Sys.setLeg,Sys.downLane,ConnectorPc.loaded,Leg.loaded_next]
      exact .single (.put k rfl)
    | listener =>
      cases Sys.leg?_listener.mp pc
      simp only [Sys.writeChunk]
      split <;> exact .refl
  | ready pc head =>
    cases s
    cases pc
    cases head
    exact .refl
  | assigned pc head =>
    cases s
    cases pc
    cases head
    exact .single (.accept true rfl rfl)
  | retries pc head =>
    cases s
    cases pc
    cases head
    exact .single (.accept false rfl rfl)
  | takesFin pc head =>
    cases s
    cases pc
    cases head
    exact .single .close
  | takes pc head =>
    cases s
    cases pc
    cases head
    exact .single (.load rfl rfl)
  | sendsFin pc => exact .single .close
  | pulls pc | connects pc | sends pc | hears pc _ | looksUp pc | legTakes pc _ =>
    cases s
    cases pc
    exact .refl
  | @dequeues got pc =>
    cases s
    cases pc
    split <;> exact .refl
  | assigns pc =>
    cases s
    cases pc
    simp only [Sys.downLane,Sys.opens,Sys.modifyHere,Sys.modify,flatMap_append]
    exact .single (.cut true rfl)
  | timesOut pc =>
    cases s
    cases pc
    simp only [Sys.downLane,flatMap_append]
    exact .single (.cut false rfl)
  | legFin pc head => exact Sys.downLane_leave (s := s) rfl hl (by rw [pc]; rfl)
  | legSends pc =>
    cases s
    cases pc
    simp only [Sys.downLane,flatMap_append]
    exact .single .push
  | legSendsFin pc =>
    have hleave : ReflTransGen Lane.Step s.downLane (Sys.downLane { s with listener := .recv }) :=
      Sys.downLane_leave rfl hl (by rw [pc]; rfl)
    simp only [Sys.downLane,flatMap_append]
    rw [show [Item.msg ServerMsg.srvFin].flatMap Item.packets = [] from rfl,append_nil]
    exact hleave
  | mishap m => exact m.downLane hl hr

end PirateServer.Relay
