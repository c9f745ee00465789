import PirateServer.Lib.Lane
import PirateServer.Lib.Run

/-! The relay of a tunnel: `connector_run_session` and `tunnel_server_loop`, joined by two reliable
first-in-first-out streams. Each `Pull` that is answered by `Assigned` joins a public socket of the
listener with a target socket of the connector until a leg leaves. Each side counts `Pull`s and
answers by itself; sockets are numbered by these counts. How long the listener waits for a socket is
left open, and so is `wait_ms`. -/
namespace PirateServer.Relay
open Lib

inductive Party
  | connector
  | listener
  deriving DecidableEq, Repr

/-- `CHUNK`. -/
def chunkSize : ℕ := 64 * 1024

inductive Code
  | internal
  | notFound
  | invalidArgument
  deriving DecidableEq, Repr

structure Status where
  code : Code
  message : String
  deriving DecidableEq, Repr

/-- `tun_client_msg::Msg`; `unset` is a message without the `oneof`. -/
inductive ClientMsg
  | pull
  | fromConnector (chunk : List UInt8)
  | cliFin
  | unset
  deriving DecidableEq, Repr

/-- `tun_server_msg::Msg`, likewise. -/
inductive ServerMsg
  | assigned
  | fromListener (chunk : List UInt8)
  | srvFin
  | error (text : String)
  | ready (ok : Bool)
  | unset
  deriving DecidableEq, Repr

/-- What the listener puts into its channel: a message, or a status that ends the stream. -/
inductive Item
  | msg (m : ServerMsg)
  | fail (status : Status)
  deriving DecidableEq, Repr

/-- Program points of the loops in `relay_connector_leg` and `relay_listener_leg`: the `select!`,
`write_all` with the bytes that are left, and the `send` of a chunk or of the last frame. -/
inductive Leg
  | select
  | writing (chunk : List UInt8)
  | sending (chunk : List UInt8)
  | fin
  deriving DecidableEq, Repr

/-- What a received message means to a leg. -/
inductive Frame
  | data (chunk : List UInt8)
  | fin
  | bad (error : String)
  | stop
  deriving DecidableEq, Repr

/-- The match in `relay_listener_leg`. -/
def ClientMsg.frame : ClientMsg → Frame
  | fromConnector chunk => .data chunk
  | cliFin => .fin
  | pull => .bad "unexpected pull during relay"
  | unset => .stop

/-- The match in `relay_connector_leg`. -/
def Item.frame : Item → Frame
  | msg (.fromListener chunk) => .data chunk
  | msg .srvFin => .fin
  | msg (.error text) => .bad text
  | msg (.ready _) => .bad "unexpected control message during relay"
  | msg .assigned => .bad "unexpected control message during relay"
  | msg .unset => .stop
  | fail status => .bad status.message

def ClientMsg.asks : ClientMsg → Bool
  | pull => true
  | _ => false

/-- The answers to a `Pull`: `Assigned`, `Error`, or the status for a missing queue. -/
def Item.answers : Item → Bool
  | msg .assigned => true
  | msg (.error _) => true
  | fail status => status.code = .notFound
  | _ => false

/-- How a leg goes on. -/
inductive Outcome
  | go (leg : Leg)
  | done
  | failed (error : String)

def Frame.outcome : Frame → Outcome
  | data chunk => .go (.writing chunk)
  | fin => .done
  | bad error => .failed error
  | stop => .done

/-- How `connector_run_session` ends; `aborted` means that its task was. -/
inductive SessionEnd
  | streamEnded
  | emptyServerStream
  | serverError (text : String)
  | unexpectedFirst (m : ServerMsg)
  | unexpectedReply (m : ServerMsg)
  | status (status : Status)
  | outboundClosed
  | connect (error : String)
  | relay (error : String)
  | aborted
  deriving DecidableEq, Repr

inductive ConnectorPc
  | handshake
  | pull
  | awaitReply
  | connect
  | leg (leg : Leg)
  | ended (how : SessionEnd)
  deriving DecidableEq, Repr

/-- Program points of `tunnel_server_loop`; at `report` a status is about to be sent, after which
the loop is left or goes on. -/
inductive ListenerPc
  | recv
  | lookup
  | dequeue
  | assign
  | timedOut
  | notReady
  | leg (leg : Leg)
  | report (status : Status) (leave : Bool)
  | ended
  deriving DecidableEq, Repr

/-- A socket: `unread` has been written by its endpoint, which has `shut` down its sending half
or will go on; `finished` says that the leg has shut down the other half. -/
structure Socket where
  opened : Bool := false
  unread : List UInt8 := []
  shut : Bool := false
  finished : Bool := false
  deriving DecidableEq, Repr

/-- The bytes of each socket, by side and cycle. -/
abbrev Log := Party → ℕ → List UInt8

def Log.add (f : Log) (p : Party) (c : ℕ) (bytes : List UInt8) : Log :=
  Function.update f p (Function.update (f p) c (f p c ++ bytes))

/-- `sock .connector c` is the target socket of cycle `c`, `sock .listener c` the public one, and
`read`, `lost` and `got` record what was read from it, what of this was never sent on, and what
was written to it. The counters are the `Pull`s sent and received, and the answers sent and
received. -/
structure Sys where
  connector : ConnectorPc
  listener : ListenerPc
  up : List ClientMsg
  down : List Item
  sock : Party → ℕ → Socket
  read : Log
  lost : Log
  got : Log
  asked : ℕ
  heard : ℕ
  answered : ℕ
  told : ℕ

/-- The handler has sent `Ready(true)` and has started the loop. -/
def Sys.init : Sys where
  connector := .handshake
  listener := .recv
  up := []
  down := [.msg (.ready true)]
  sock _ _ := {}
  read _ _ := []
  lost _ _ := []
  got _ _ := []
  asked := 0
  heard := 0
  answered := 0
  told := 0

inductive Label
  | peerWrite (p : Party) (c : ℕ) (bytes : List UInt8)
  | peerShut (p : Party) (c : ℕ)
  | receive (p : Party)
  | read (p : Party) (k : ℕ)
  | write (p : Party) (k : ℕ)
  | send (p : Party)
  | sendFails (p : Party)
  | ioError (p : Party) (text : String)
  | connect (error : Option String)
  | lookup (found : Bool)
  | dequeue (got : Bool)
  | reset (text : String)
  | abort
  deriving DecidableEq, Repr

namespace Leg

/-- Read and still to be sent. -/
def pending : Leg → List UInt8
  | sending chunk => chunk
  | _ => []

def loaded : Leg → List UInt8
  | writing chunk => chunk
  | _ => []

end Leg

namespace ConnectorPc

def leg? : ConnectorPc → Option Leg
  | leg l => some l
  | _ => none

def hasEnded : ConnectorPc → Bool
  | ended _ => true
  | _ => false

def pending : ConnectorPc → List UInt8
  | leg l => l.pending
  | _ => []

def loaded : ConnectorPc → List UInt8
  | leg l => l.loaded
  | _ => []

end ConnectorPc

namespace ListenerPc

def leg? : ListenerPc → Option Leg
  | leg l => some l
  | _ => none

def pending : ListenerPc → List UInt8
  | leg l => l.pending
  | _ => []

def loaded : ListenerPc → List UInt8
  | leg l => l.loaded
  | _ => []

end ListenerPc

namespace Sys

def cycle (s : Sys) : Party → ℕ
  | .connector => s.asked
  | .listener => s.heard

def leg? (s : Sys) : Party → Option Leg
  | .connector => s.connector.leg?
  | .listener => s.listener.leg?

variable (s : Sys) (p : Party)

def setLeg (l : Leg) : Sys :=
  match p with
  | .connector => { s with connector := .leg l }
  | .listener => { s with listener := .leg l }

def here : Socket := s.sock p (s.cycle p)

def modify (c : ℕ) (f : Socket → Socket) : Sys :=
  { s with sock := Function.update s.sock p (Function.update (s.sock p) c (f (s.sock p c))) }

def modifyHere (f : Socket → Socket) : Sys := s.modify p (s.cycle p) f

def opens : Sys := s.modifyHere p (fun k => { k with opened := true })

def shutsDown : Sys := s.modifyHere p (fun k => { k with finished := true })

/-- Read and still to be sent. -/
def pending (s : Sys) : Party → List UInt8
  | .connector => s.connector.pending
  | .listener => s.listener.pending

/-- A leg is left with a chunk that it has not sent. -/
def giveUp : Sys := { s with lost := s.lost.add p (s.cycle p) (s.pending p) }

def endSession (s : Sys) (how : SessionEnd) : Sys :=
  { s.giveUp .connector with connector := .ended how }

def proceed (s : Sys) : Party → Outcome → Sys
  | p,.go l => s.setLeg p l
  | .connector,.done => { s with connector := .pull }
  | .connector,.failed error => s.endSession (.relay error)
  | .listener,.done => { s with listener := .recv }
  | .listener,.failed error =>
    { s.giveUp .listener with listener := .report ⟨.internal,"relay " ++ error⟩ false }

/-- The message branch of a leg's `select!`; the last frame shuts the socket down. -/
def take (f : Frame) : Sys :=
  (if f = .fin then s.shutsDown p else s).proceed p f.outcome

/-- `connector_run_session` with the next item of its stream. -/
def connectorTakes (s : Sys) (i : Item) : Option Sys :=
  match s.connector,i with
  | .handshake,.msg (.ready true) => some { s with connector := .pull }
  | .handshake,.msg (.error text) => some (s.endSession (.serverError text))
  | .handshake,.msg m => some (s.endSession (.unexpectedFirst m))
  | .handshake,.fail status => some (s.endSession (.status status))
  | .awaitReply,.msg .assigned => some { s with connector := .connect }
  | .awaitReply,.msg (.error _) => some { s with connector := .pull }
  | .awaitReply,.msg m => some (s.endSession (.unexpectedReply m))
  | .awaitReply,.fail status => some (s.endSession (.status status))
  | .leg .select,i => some (s.take .connector i.frame)
  | _,_ => none

/-- `connector_run_session` at the end of its stream. -/
def connectorAtEnd (s : Sys) : Option Sys :=
  match s.connector with
  | .handshake => some (s.endSession .emptyServerStream)
  | .awaitReply => some (s.endSession .streamEnded)
  | .leg .select => some (s.take .connector .stop)
  | _ => none

/-- `tunnel_server_loop` with the next message of its stream. -/
def listenerTakes (s : Sys) (m : ClientMsg) : Option Sys :=
  match s.listener,m with
  | .recv,.pull => some { s with listener := .lookup }
  | .recv,_ =>
    some { s with
      listener := .report ⟨.invalidArgument,"expected TunPull as first message each cycle"⟩ true }
  | .leg .select,m => some (s.take .listener m.frame)
  | _,_ => none

/-- `tunnel_server_loop` at the end of its stream. -/
def listenerAtEnd (s : Sys) : Option Sys :=
  match s.listener with
  | .recv => some { s with listener := .ended }
  | .leg .select => some (s.take .listener .stop)
  | _ => none

def receive (s : Sys) : Party → Option Sys
  | .connector =>
    match s.down with
    | i::rest =>
      { s with down := rest, told := s.told + i.answers.toNat }.connectorTakes i
    | [] => if s.listener = .ended then s.connectorAtEnd else none
  | .listener =>
    match s.up with
    | m::rest =>
      { s with up := rest, heard := s.heard + m.asks.toNat }.listenerTakes m
    | [] => if s.connector.hasEnded then s.listenerAtEnd else none

/-- A leg has read `k` bytes, or what there is. -/
def readChunk (k : ℕ) : Sys :=
  let chunk := (s.here p).unread.take k
  { s.modifyHere p (fun sk => { sk with unread := sk.unread.drop k }) with
    read := s.read.add p (s.cycle p) chunk }.setLeg p (.sending chunk)

/-- The read branch of a leg's `select!`. -/
def readSocket (k : ℕ) : Option Sys :=
  if s.leg? p = some .select then
    if (s.here p).unread = [] then
      if (s.here p).shut then some (s.setLeg p .fin) else none
    else if 0 < k ∧ k ≤ chunkSize then some (s.readChunk p k)
    else none
  else none

/-- A leg has written the first `k` bytes of `chunk`. -/
def writeChunk (chunk : List UInt8) (k : ℕ) : Sys :=
  { s with got := s.got.add p (s.cycle p) (chunk.take k) }.setLeg p
    (if chunk.drop k = [] then .select else .writing (chunk.drop k))

/-- One write of `write_all`. -/
def writeSocket (k : ℕ) : Option Sys :=
  match s.leg? p with
  | some (.writing chunk) => if 0 < k then some (s.writeChunk p chunk k) else none
  | _ => none

def send (s : Sys) : Party → Option Sys
  | .connector =>
    match s.connector with
    | .pull =>
      some { s with up := s.up ++ [.pull], asked := s.asked + 1, connector := .awaitReply }
    | .leg (.sending chunk) =>
      some { s with up := s.up ++ [.fromConnector chunk], connector := .leg .select }
    | .leg .fin => some { s with up := s.up ++ [.cliFin], connector := .pull }
    | _ => none
  | .listener =>
    match s.listener with
    | .assign =>
      some { s.opens .listener with
        down := s.down ++ [.msg .assigned]
        answered := s.answered + 1
        listener := .leg .select }
    | .timedOut =>
      some { s with
        down := s.down ++ [.msg (.error "pull_timeout")]
        answered := s.answered + 1
        listener := .recv }
    | .notReady =>
      some { s with
        down := s.down ++ [.fail ⟨.notFound,"queue not ready"⟩]
        answered := s.answered + 1
        listener := .recv }
    | .leg (.sending chunk) =>
      some { s with down := s.down ++ [.msg (.fromListener chunk)], listener := .leg .select }
    | .leg .fin => some { s with down := s.down ++ [.msg .srvFin], listener := .recv }
    | .report status leave =>
      some { s with down := s.down ++ [.fail status], listener := if leave then .ended else .recv }
    | _ => none

/-- A `send` after the other side has dropped the stream, where the result is not ignored. The
connector ignores it for its last frame. -/
def sendFails (s : Sys) : Party → Option Sys
  | .connector =>
    if s.listener = .ended then
      match s.connector with
      | .pull => some (s.endSession .outboundClosed)
      | .leg (.sending _) => some (s.proceed .connector (.failed "outbound closed"))
      | .leg .fin => some { s with connector := .pull }
      | _ => none
    else none
  | .listener =>
    if s.connector.hasEnded then
      match s.listener with
      | .assign => some { s with listener := .ended }
      | .leg (.sending _) => some (s.proceed .listener (.failed "client disconnected"))
      | .leg .fin => some (s.proceed .listener (.failed "client disconnected"))
      | _ => none
    else none

def ioError (text : String) : Option Sys :=
  match s.leg? p with
  | some .select => some (s.proceed p (.failed text))
  | some (.writing _) => some (s.proceed p (.failed text))
  | _ => none

end Sys

def step (s : Sys) : Label → Option Sys
  | .peerWrite p c bytes =>
    if (s.sock p c).opened ∧ (s.sock p c).shut = false then
      some (s.modify p c (fun k => { k with unread := k.unread ++ bytes }))
    else none
  | .peerShut p c =>
    if (s.sock p c).opened then some (s.modify p c (fun k => { k with shut := true })) else none
  | .receive p => s.receive p
  | .read p k => s.readSocket p k
  | .write p k => s.writeSocket p k
  | .send p => s.send p
  | .sendFails p => s.sendFails p
  | .ioError p text => s.ioError p text
  | .connect error =>
    if s.connector = .connect then
      match error with
      | none =>
        some { s.opens .connector with connector := .leg .select }
      | some text => some (s.endSession (.connect text))
    else none
  | .lookup found =>
    if s.listener = .lookup then
      some { s with listener := if found then .dequeue else .notReady }
    else none
  | .dequeue got =>
    if s.listener = .dequeue then
      some { s with listener := if got then .assign else .timedOut }
    else none
  | .reset text =>
    -- the connector has dropped its streams, and the listener reads an error
    if s.connector.hasEnded then
      match s.listener with
      | .recv => some { s with listener := .report ⟨.internal,"read client: " ++ text⟩ true }
      | .leg .select => some (s.proceed .listener (.failed text))
      | _ => none
    else none
  | .abort => if s.connector.hasEnded then none else some (s.endSession .aborted)

def ReachableBy (ok : Sys → Label → Prop) (s : Sys) : Prop := Run step ok Sys.init s

def Reachable (s : Sys) : Prop := ReachableBy anyStep s

end PirateServer.Relay
