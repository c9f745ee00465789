import PirateServer.Lib.Text

/-! The persisted configuration of the tunnel service: profiles, route rules and the root that
holds them. Fields of a profile that no code reads are left out. -/
namespace PirateServer.StackTun
open Lib

inductive TunnelRole
  | listen
  | connector
  deriving DecidableEq, Repr

inductive TunnelMode
  | tcpRelay
  | requestBus
  deriving DecidableEq, Repr

inductive BusRouteDecisionKind
  | allow
  | deny
  | forward
  | localHandle
  | queue
  deriving DecidableEq, Repr

structure StackTunRouteRule where
  id : String
  priority : ℤ
  hostContains : Option String
  pathPrefix : Option String
  method : Option String
  decision : BusRouteDecisionKind
  forwardUrl : Option String
  localHost : Option String
  localPort : Option UInt16
  deriving DecidableEq

structure TunnelProfile where
  id : String
  role : TunnelRole
  mode : TunnelMode
  defaultBusDecision : Option BusRouteDecisionKind
  listenAddr : Option String
  remoteGrpcEndpoint : Option String
  listenProfileId : Option String
  targetHost : String
  targetPort : UInt16
  maxPendingStreams : ℕ
  streamOfferTtlSecs : ℕ
  pullWaitMs : ℕ
  connectorAllowPubkeyB64 : List String
  enabled : Bool
  maxPendingTasks : Option ℕ
  taskQueueTtlSecs : Option ℕ
  taskClaimLeaseSecs : Option ℕ
  deriving DecidableEq

structure PersistRoot where
  version : UInt32
  profiles : List TunnelProfile
  routes : List StackTunRouteRule
  deriving DecidableEq

def PersistRoot.default : PersistRoot := ⟨0,[],[]⟩

def blank (o : Option String) : Bool := o.all (fun s => Text.trim s = "")

namespace TunnelProfile

def validate (p : TunnelProfile) : Except String Unit :=
  if Text.trim p.id = "" then .error "profile id empty"
  else
    match p.role with
    | .listen =>
      if p.mode ≠ .requestBus ∧ blank p.listenAddr then
        .error "listen profiles require listen_addr unless mode is requestBus"
      else .ok ()
    | .connector =>
      if blank p.remoteGrpcEndpoint then
        .error "connector profiles require remote_grpc_endpoint"
      else if blank p.listenProfileId then
        .error "connector profiles require listen_profile_id"
      else if Text.trim p.targetHost = "" then .error "connector target_host empty"
      else if p.targetPort = 0 then .error "connector target_port invalid"
      else .ok ()

end TunnelProfile

end PirateServer.StackTun
