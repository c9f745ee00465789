import PirateServer.Relay.Isolation

/-! Orderly closes. A leg leaves at the first last frame that it sends or receives, so a cycle ends
well only if the leg that comes first to its end has delivered everything in the other direction and
the other leg does not come to its own end meanwhile. The phases say where the two loops are and
what is under way between them. -/
namespace PirateServer.Relay
open Lib Packet List

def Party.other : Party → Party
  | connector => listener
  | listener => connector

/-- Everything that the endpoint of `p` has written in cycle `c`. -/
def Sys.sent (s : Sys) (p : Party) (c : ℕ) : List UInt8 := s.read p c ++ (s.sock p c).unread

/-- The other leg is still open, its endpoint has shut down, and all that it has written has been
delivered to the socket of `p`. -/
def Sys.late (s : Sys) (p : Party) : Bool :=
  match s.leg? p.other with
  | none => false
  | some .fin => false
  | some _ => (s.sock p.other (s.cycle p)).shut && s.got p (s.cycle p) = s.sent p.other (s.cycle p)

def closesLate (s : Sys) (l : Label) : Bool :=
  l.orderly && match l with
    | .read p _ => (s.here p).unread ≠ [] || s.late p
    | _ => true

/-- Both endpoints of cycle `c` have shut down, and each has got what the other has written. -/
structure Sys.Settled (s : Sys) (c : ℕ) : Prop where
  shut : ∀ p, (s.sock p c).shut = true
  delivered : ∀ p, s.got p c = s.sent p.other c

def ConnectorPc.pulls : ConnectorPc → Bool
  | handshake | pull | awaitReply => true
  | _ => false

def ListenerPc.pulls : ListenerPc → Bool
  | recv | lookup | dequeue | assign | timedOut => true
  | _ => false

/-- Both loops are at a `Pull`. -/
def Sys.pullPhase (s : Sys) : Bool := s.connector.pulls && s.listener.pulls

def Item.isMsg : Item → Bool
  | msg _ => true
  | fail _ => false

def Sys.errorFree (s : Sys) : Bool :=
  !s.connector.hasEnded && (s.listener.pulls || s.listener.inLeg) && s.down.all Item.isMsg

namespace Leg

/-- In the middle of a cycle; no chunk is empty. -/
def live : Leg → Bool
  | select => true
  | writing chunk => chunk ≠ []
  | sending chunk => chunk ≠ []
  | fin => false

def drains : Leg → Bool
  | select => true
  | writing chunk => chunk ≠ []
  | _ => false

end Leg

def ClientMsg.isChunk : ClientMsg → Bool
  | fromConnector chunk => chunk ≠ []
  | _ => false

def Item.isChunk : Item → Bool
  | msg (.fromListener chunk) => chunk ≠ []
  | _ => false

/-- The connector comes into the cycle that the listener has begun: where it is, what it has
sent, and what it has to receive before the first chunk. -/
inductive Entering : ConnectorPc → List ClientMsg → List Item → Prop
  | assigned : Entering .awaitReply [] [.msg .assigned]
  | connecting : Entering .connect [] []
  | relaying {k up} (live : k.live = true) (frames : ∀ m ∈ up, m.isChunk = true) :
      Entering (.leg k) up []

/-- The connector leaves the cycle first: where it is and what it sends behind the last chunk. -/
inductive LeavingUp : ConnectorPc → List ClientMsg → Prop
  | fin : LeavingUp (.leg .fin) []
  | left : LeavingUp .pull [.cliFin]
  | pulled : LeavingUp .awaitReply [.cliFin,.pull]

inductive LeavingDown : ListenerPc → List Item → Prop
  | fin : LeavingDown (.leg .fin) []
  | left : LeavingDown .recv [.msg .srvFin]

/-- The phases of a session in which every cycle ends well. The two propositions say that one
side has come late to the end of its socket. -/
inductive Phase (upClosed downClosed : Prop) :
    ConnectorPc → ListenerPc → List ClientMsg → List Item → Prop
  | opening : Phase upClosed downClosed .handshake .recv [] [.msg (.ready true)]
  | idle : Phase upClosed downClosed .pull .recv [] []
  | asked : Phase upClosed downClosed .awaitReply .recv [.pull] []
  | serving {v} (owes : v.owes = true) (found : v ≠ .notReady) :
      Phase upClosed downClosed .awaitReply v [] []
  | timedOut {text} : Phase upClosed downClosed .awaitReply .recv [] [.msg (.error text)]
  | running {w l up pre chunks down} (side : Entering w up pre) (live : l.live = true)
      (frames : ∀ i ∈ chunks, i.isChunk = true) (hdown : down = pre ++ chunks) :
      Phase upClosed downClosed w (.leg l) up down
  | closingUp {w l post chunks up} (side : LeavingUp w post) (drains : l.drains = true)
      (frames : ∀ m ∈ chunks, m.isChunk = true) (hup : up = chunks ++ post) (closed : upClosed) :
      Phase upClosed downClosed w (.leg l) up []
  | closingDown {k v post chunks down} (side : LeavingDown v post) (drains : k.drains = true)
      (frames : ∀ i ∈ chunks, i.isChunk = true) (hdown : down = chunks ++ post)
      (closed : downClosed) : Phase upClosed downClosed (.leg k) v [] down

variable {s : Sys} {U V U' V' : Prop} {w : ConnectorPc} {v : ListenerPc} {up : List ClientMsg}
  {down : List Item}

lemma Phase.mono (h : Phase U V w v up down) (hu : U → U') (hv : V → V') :
    Phase U' V' w v up down := by
  cases h with
  | opening => exact .opening
  | idle => exact .idle
  | asked => exact .asked
  | serving owes found => exact .serving owes found
  | timedOut => exact .timedOut
  | running side live frames hdown => exact .running side live frames hdown
  | closingUp side drains frames hup closed => exact .closingUp side drains frames hup (hu closed)
  | closingDown side drains frames hdown closed =>
    exact .closingDown side drains frames hdown (hv closed)

lemma Phase.going (h : Phase U V w v up down) : w.hasEnded = false ∧ v ≠ .ended ∧
    v ≠ .notReady ∧ ∀ status leave, v ≠ .report status leave := by
  cases h with
  | serving owes found => cases v <;> simp_all [ConnectorPc.hasEnded,ListenerPc.owes]
  | running side | closingUp side | closingDown side => cases side <;> simp [ConnectorPc.hasEnded]
  | opening | idle | asked | timedOut => simp [ConnectorPc.hasEnded]

lemma Leg.live_next {chunk : List UInt8} :
    (if chunk = [] then select else writing chunk).live = true := by
  split
  · rfl
  · exact decide_eq_true ‹_›

lemma Leg.drains_next {chunk : List UInt8} :
    (if chunk = [] then select else writing chunk).drains = true := by
  split
  · rfl
  · exact decide_eq_true ‹_›

namespace Phase

/-! What each move of a loop does to the phase. -/

variable {chunk : List UInt8}

lemma reads_connector (h : Phase U V (.leg .select) v up down) (hV : ¬V)
    (hc : chunk ≠ []) : Phase U' V' (.leg (.sending chunk)) v up down := by
  cases h with
  | running side live frames hdown =>
    cases side with
    | relaying _ upFrames =>
      exact .running (.relaying (decide_eq_true hc) upFrames) live frames hdown
  | closingUp side _ _ _ _ => cases side
  | closingDown _ _ _ _ closed => exact absurd closed hV

lemma reads_listener (h : Phase U V w (.leg .select) up down) (hU : ¬U)
    (hc : chunk ≠ []) : Phase U' V' w (.leg (.sending chunk)) up down := by
  cases h with
  | serving owes => cases owes
  | running side _ frames hdown => exact .running side (decide_eq_true hc) frames hdown
  | closingUp _ _ _ _ closed => exact absurd closed hU
  | closingDown side _ _ _ _ => cases side

variable {rest : List UInt8}

lemma writes_connector (h : Phase U V (.leg (.writing chunk)) v up down)
    (hV : V → V') : Phase U' V' (.leg (if rest = [] then .select else .writing rest)) v
      up down := by
  cases h with
  | running side live frames hdown =>
    cases side with
    | relaying _ upFrames => exact .running (.relaying Leg.live_next upFrames) live frames hdown
  | closingUp side _ _ _ _ => cases side
  | closingDown side _ frames hdown closed =>
    exact .closingDown side Leg.drains_next frames hdown (hV closed)

lemma writes_listener (h : Phase U V w (.leg (.writing chunk)) up down)
    (hU : U → U') : Phase U' V' w (.leg (if rest = [] then .select else .writing rest))
      up down := by
  cases h with
  | serving owes => cases owes
  | running side _ frames hdown => exact .running side Leg.live_next frames hdown
  | closingUp side _ frames hup closed =>
    exact .closingUp side Leg.drains_next frames hup (hU closed)
  | closingDown side _ _ _ _ => cases side

lemma ready (h : Phase U V .handshake v up (.msg (.ready true)::down)) :
    Phase U' V' .pull v up down := by
  cases h with
  | opening => exact .idle
  | running side _ _ _ => cases side

lemma assigned (h : Phase U V .awaitReply v up (.msg .assigned::down)) :
    Phase U' V' .connect v up down := by
  cases h with
  | running side live frames hdown =>
    cases side with
    | assigned =>
      cases hdown
      exact .running .connecting live frames rfl

lemma retries {text : String} (h : Phase U V .awaitReply v up (.msg (.error text)::down)) :
    Phase U' V' .pull v up down := by
  cases h with
  | timedOut => exact .idle
  | running side _ _ hdown =>
    cases side with
    | assigned => cases hdown

lemma head_down {i : Item} (h : Phase U V (.leg .select) v up (i::down)) :
    i.isChunk = true ∨ i = .msg .srvFin ∧ v = .recv ∧ up = [] ∧ down = [] ∧ V := by
  cases h with
  | @running _ _ _ pre chunks _ side _ frames hdown =>
    cases side with
    | relaying _ _ =>
      rw [nil_append] at hdown
      exact .inl (frames i (hdown ▸ mem_cons_self))
  | @closingDown _ _ post chunks _ side _ frames hdown closed =>
    cases chunks with
    | cons j chunks =>
      cases hdown
      exact .inl (frames i mem_cons_self)
    | nil =>
      cases side with
      | fin => cases hdown
      | left =>
        cases hdown
        exact .inr ⟨rfl,rfl,rfl,rfl,closed⟩

lemma expects {i : Item} (h : Phase U V w v up (i::down)) (hw : w.waits = true) :
    w.expects i = true := by
  cases h with
  | opening => rfl
  | timedOut => rfl
  | running side live frames hdown =>
    cases side with
    | assigned => cases hdown; rfl
    | connecting => cases hw
    | @relaying k _ klive upFrames =>
      cases k with
      | select =>
        rw [nil_append] at hdown
        have hi := frames i (hdown ▸ mem_cons_self)
        rcases i with m | status
        · cases m <;> first | rfl | cases hi
        · cases hi
      | writing | sending | fin => cases hw
  | @closingDown k _ _ _ _ side drains frames hdown closed =>
    cases k with
    | select =>
      have hph : Phase U V (.leg .select) v [] (i::down) :=
        .closingDown side drains frames hdown closed
      rcases head_down hph with hi | ⟨rfl,_⟩
      · rcases i with m | status
        · cases m <;> first | rfl | cases hi
        · cases hi
      · rfl
    | writing | sending | fin => cases hw

lemma takes (h : Phase U V (.leg .select) v up (.msg (.fromListener chunk)::down))
    (hV : V → V') : Phase U' V' (.leg (.writing chunk)) v up down := by
  cases h with
  | running side live frames hdown =>
    cases side with
    | relaying _ upFrames =>
      rw [nil_append] at hdown
      subst hdown
      exact .running (.relaying (frames _ mem_cons_self) upFrames) live
        (fun i hi => frames i (mem_cons_of_mem _ hi)) rfl
  | @closingDown _ _ post chunks _ side _ frames hdown closed =>
    cases chunks with
    | cons j chunks =>
      cases hdown
      exact .closingDown side (frames _ mem_cons_self)
        (fun i hi => frames i (mem_cons_of_mem _ hi)) rfl (hV closed)
    | nil => cases side <;> cases hdown

lemma pulls (h : Phase U V .pull v up down) (hU : U → U') :
    Phase U' V' .awaitReply v (up ++ [.pull]) down := by
  cases h with
  | idle => exact .asked
  | running side _ _ _ => cases side
  | closingUp side drains frames hup closed =>
    cases side with
    | left => exact .closingUp .pulled drains frames (by rw [hup,append_assoc]; rfl) (hU closed)

lemma connects (h : Phase U V .connect v up down) : Phase U' V' (.leg .select) v up down := by
  cases h with
  | running side live frames hdown =>
    cases side with
    | connecting => exact .running (.relaying rfl (by simp)) live frames hdown
  | closingUp side _ _ _ _ => cases side

lemma sends (h : Phase U V (.leg (.sending chunk)) v up down) :
    Phase U' V' (.leg .select) v (up ++ [.fromConnector chunk]) down := by
  cases h with
  | running side live frames hdown =>
    cases side with
    | relaying klive upFrames =>
      refine .running (.relaying rfl (fun m hm => ?_)) live frames hdown
      rcases List.mem_append.mp hm with hm | hm
      · exact upFrames m hm
      · cases List.mem_singleton.mp hm
        exact klive
  | closingUp side _ _ _ _ => cases side
  | closingDown _ drains _ _ _ => cases drains

lemma sendsFin (h : Phase U V (.leg .fin) v up down) (hU : U → U') :
    Phase U' V' .pull v (up ++ [.cliFin]) down := by
  cases h with
  | running side _ _ _ =>
    cases side with
    | relaying live _ => cases live
  | closingUp side drains frames hup closed =>
    cases side with
    | fin =>
      rw [append_nil] at hup
      exact .closingUp .left drains frames (by rw [hup]) (hU closed)
  | closingDown _ drains _ _ _ => cases drains

lemma fin_connector (h : Phase U V (.leg .fin) v up down) : v.pulls = false := by
  cases h with
  | running _ _ _ _ => rfl
  | closingUp _ _ _ _ _ => rfl
  | closingDown _ drains _ _ _ => cases drains

lemma fin_listener (h : Phase U V w (.leg .fin) up down) : w.pulls = false := by
  cases h with
  | serving owes => cases owes
  | running _ live _ _ => cases live
  | closingUp _ drains _ _ _ => cases drains
  | closingDown _ _ _ _ _ => rfl

lemma hears (h : Phase U V w .recv (.pull::up) down) :
    Phase U' V' w .lookup up down ∧ w.pulls = true := by
  cases h with
  | asked => exact ⟨.serving rfl (by simp),rfl⟩

lemma no_mishearing {m : ClientMsg} (h : Phase U V w .recv (m::up) down) : m.asks = true := by
  cases h with
  | asked => rfl

lemma looksUp (h : Phase U V w .lookup up down) : Phase U' V' w .dequeue up down := by
  cases h with
  | serving _ _ => exact .serving rfl (by simp)
  | closingDown side _ _ _ _ => cases side

lemma dequeues {got : Bool} (h : Phase U V w .dequeue up down) :
    Phase U' V' w (if got then .assign else .timedOut) up down := by
  cases h with
  | serving _ _ => cases got <;> exact .serving rfl (by simp)
  | closingDown side _ _ _ _ => cases side

lemma assigns (h : Phase U V w .assign up down) :
    Phase U' V' w (.leg .select) up (down ++ [.msg .assigned]) := by
  cases h with
  | serving _ _ =>
    exact .running .assigned rfl (by simp) (show _ = [Item.msg .assigned] ++ [] from rfl)
  | closingDown side _ _ _ _ => cases side

lemma timesOut {text : String} (h : Phase U V w .timedOut up down) :
    Phase U' V' w .recv up (down ++ [.msg (.error text)]) := by
  cases h with
  | serving _ _ => exact .timedOut
  | closingDown side _ _ _ _ => cases side

lemma head_up {m : ClientMsg} (h : Phase U V w (.leg .select) (m::up) down) :
    m.isChunk = true ∨ m = .cliFin ∧ U ∧ down = [] ∧
      (w = .pull ∧ up = [] ∨ w = .awaitReply ∧ up = [.pull]) := by
  cases h with
  | running side _ _ _ =>
    cases side with
    | relaying _ upFrames => exact .inl (upFrames m mem_cons_self)
  | @closingUp _ _ post chunks _ side _ frames hup closed =>
    cases chunks with
    | cons n chunks =>
      cases hup
      exact .inl (frames m mem_cons_self)
    | nil =>
      cases side with
      | fin => cases hup
      | left => cases hup; exact .inr ⟨rfl,closed,rfl,.inl ⟨rfl,rfl⟩⟩
      | pulled => cases hup; exact .inr ⟨rfl,closed,rfl,.inr ⟨rfl,rfl⟩⟩

lemma legTakes (h : Phase U V w (.leg .select) (.fromConnector chunk::up) down)
    (hU : U → U') : Phase U' V' w (.leg (.writing chunk)) up down := by
  cases h with
  | running side live frames hdown =>
    cases side with
    | relaying klive upFrames =>
      exact .running (.relaying klive (fun m hm => upFrames m (mem_cons_of_mem _ hm)))
        (upFrames _ mem_cons_self) frames hdown
  | @closingUp _ _ post chunks _ side _ frames hup closed =>
    cases chunks with
    | cons n chunks =>
      cases hup
      exact .closingUp side (frames _ mem_cons_self)
        (fun m hm => frames m (mem_cons_of_mem _ hm)) rfl (hU closed)
    | nil => cases side <;> cases hup

lemma legSends (h : Phase U V w (.leg (.sending chunk)) up down) :
    Phase U' V' w (.leg .select) up (down ++ [.msg (.fromListener chunk)]) := by
  cases h with
  | serving owes => cases owes
  | @running _ _ _ pre chunks _ side live frames hdown =>
    have hnext : down ++ [.msg (.fromListener chunk)] =
        pre ++ (chunks ++ [.msg (.fromListener chunk)]) := by
      rw [hdown,append_assoc]
    refine .running side rfl (fun i hi => ?_) hnext
    rcases List.mem_append.mp hi with hi | hi
    · exact frames i hi
    · cases List.mem_singleton.mp hi
      exact live
  | closingUp _ drains _ _ _ => cases drains
  | closingDown side _ _ _ _ => cases side

lemma legSendsFin (h : Phase U V w (.leg .fin) up down) (hV : V → V') :
    Phase U' V' w .recv up (down ++ [.msg .srvFin]) := by
  cases h with
  | serving owes => cases owes
  | running _ live _ _ => cases live
  | closingUp _ drains _ _ _ => cases drains
  | closingDown side drains frames hdown closed =>
    cases side with
    | fin =>
      rw [append_nil] at hdown
      exact .closingDown .left drains frames (by rw [hdown]) (hV closed)

end Phase

end PirateServer.Relay
