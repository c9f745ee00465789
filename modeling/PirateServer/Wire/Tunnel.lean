import PirateServer.Lib.Fallible
import PirateServer.Wire.Segmentation

/-! `proxy_tunnel` of the deploy server up to the start of the relay: the checks of the `Open`
message, the session that its token names, the secrets of that session, and the relay that is
started, over gRPC or for a QUIC stream. -/
namespace PirateServer.Wire
open Lib Lib.Bytes ProxySession

structure ProxyOpen where
  host : String
  port : ℕ
  sessionToken : String
  wireMode : Option ℤ
  wireConfigJson : Option String
  preferQuicDataPlane : Option Bool
  deriving DecidableEq, Repr

structure SessionRow where
  clientPubkeyB64 : String
  expiresAt : ℤ
  policyJson : String
  bytesIn : ℤ
  bytesOut : ℤ
  activeMs : ℤ
  firstOpenAt : Option ℤ
  revoked : Bool
  wireMode : Option ℤ
  wireConfigJson : Option String
  deriving DecidableEq, Repr

/-- What an open depends on besides the message: other packages, the environment, the database,
the key in the metadata and the time. -/
structure Server where
  crypto : Crypto
  net : Net
  zones : Zones
  paramsJson : String → Except String WireParams
  policyJson : String → Except String StoredPolicy
  sha256Hex : String → String
  requireSessionToken : Option String
  fetchByTokenSha256 : Option (String → Except String (Option SessionRow))
  pubkey : Option String
  now : ℤ
  quicReady : Bool

/-- `WireParams::from_json`. -/
def WireParams.fromJson (s : Server) (json : String) : Except WireError WireParams :=
  if Text.trim json = "" then .ok ⟨none,none,none,none,none⟩
  else (s.paramsJson json).mapError .badConfig

def require (ok : Bool) (code : Code) (message : String) : Except Status Unit :=
  if ok then .ok () else .error ⟨code,message⟩

@[simp] lemma require_eq_ok {ok : Bool} {code : Code} {message : String} {u : Unit} :
    require ok code message = .ok u ↔ ok = true := by
  unfold require
  split_ifs with h <;> simp [h]

def openSession (s : Server) (o : ProxyOpen) :
    Except Status (Option (SessionRow × StoredPolicy)) := do
  let token := Text.trim o.sessionToken
  if token = "" then
    let requireToken := s.requireSessionToken.any
        (fun v => v = "1" || Text.eqIgnoreAsciiCase v "true")
    require (!requireToken) .failedPrecondition
      "DEPLOY_PROXY_REQUIRE_SESSION_TOKEN requires session token; use CreateConnection"
    return none
  else
    let fetch ← s.fetchByTokenSha256.elim
      (.error ⟨.failedPrecondition,"metadata database required for session token"⟩) .ok
    let pk ← s.pubkey.elim
      (.error ⟨.unauthenticated,"missing pubkey metadata for session token"⟩) .ok
    let found ← (fetch (s.sha256Hex token)).mapError (fun e => ⟨.internal,e⟩)
    let row ← found.elim (.error ⟨.permissionDenied,"invalid session token"⟩) .ok
    require (!row.revoked) .permissionDenied "session revoked"
    require (row.clientPubkeyB64 = pk) .permissionDenied "session token not for this client key"
    require (s.now ≤ row.expiresAt) .permissionDenied "session expired"
    let policy ← (s.policyJson row.policyJson).mapError (fun e => ⟨.internal,"policy json: "++e⟩)
    let allowed ← isScheduleAllowedStored s.zones policy s.now
    require allowed .permissionDenied "outside access schedule"
    require (!activeTimeBudgetExceeded policy row.activeMs.toNat 0) .permissionDenied
      "session active time budget exhausted"
    require (!maxDurationExceeded policy row.firstOpenAt s.now) .permissionDenied
      "session max duration exceeded"
    checkTrafficLimits policy row.bytesIn.toNat row.bytesOut.toNat
    return some (row,policy)

def requireSecrets (m : ℤ) (p : WireParams) : Except Status Unit :=
  match m with
  | 1 | 3 =>
    require (trimmed p.uuid).isSome .invalidArgument
      "uuid is required in wire_config_json for VLESS and VMess"
  | 2 =>
    require (trimmed p.password).isSome .invalidArgument
      "password is required in wire_config_json for Trojan"
  | 4 => do
    require (trimmed p.password).isSome .invalidArgument
      "password is required in wire_config_json for Shadowsocks"
    require (trimmed p.method).isSome .invalidArgument
      "method is required in wire_config_json for Shadowsocks"
  | _ => .ok ()

/-- `validate_inbound_wire`, the test that a row passes before it is stored. -/
def validateInboundWire (s : Server) (wireMode : Option ℤ) (wireConfigJson : Option String) :
    Except Status (Option ℤ × Option String) :=
  match wireMode,wireConfigJson with
  | none,none => .ok (none,none)
  | some m,some j => do
    let j := Text.trim j
    require (j ≠ "") .invalidArgument "wire_config_json is empty"
    require (m = 1 || m = 2 || m = 3 || m = 4 || m = 5) .invalidArgument
      "wire_mode must be 1 (VLESS), 2 (Trojan), 3 (VMess), 4 (Shadowsocks), or 5 (SOCKS5)"
    let p ← (WireParams.fromJson s j).mapError
      (fun e => ⟨.invalidArgument,"wire_config_json: "++e.text⟩)
    requireSecrets m p
    return (some m,some j)
  | _,_ =>
    .error ⟨.invalidArgument,"wire_mode and wire_config_json must both be set or both omitted"⟩

/-- A stored field that the requested mode uses replaces the field of the open. -/
def mergeSecrets (wireMode : ℤ) (session p : WireParams) : WireParams :=
  match wireMode with
  | 1 | 3 => { p with uuid := (trimmed session.uuid).or p.uuid }
  | 2 => { p with password := (nonempty session.password).or p.password }
  | 4 =>
    { p with
      password := (nonempty session.password).or p.password
      method := (trimmed session.method).or p.method }
  | 5 =>
    { p with
      username := (trimmed session.username).or p.username
      password := (nonempty session.password).or p.password }
  | _ => p

def applyManagedWireSecrets (s : Server) (params : WireParams) (wireMode : ℤ)
    (managed : Option (SessionRow × StoredPolicy)) : WireParams :=
  match managed with
  | none => params
  | some (row,_) =>
    match row.wireConfigJson with
    | none => params
    | some json =>
      let j := Text.trim json
      if j = "" then params
      else
        match WireParams.fromJson s j with
        | .error _ => params
        | .ok session => mergeSecrets wireMode session params

/-- The relay that is started: over gRPC for a wire mode or for a raw target, or a ticket for a
QUIC stream to a raw target. -/
inductive Start
  | wire (wireMode : ℤ) (params : WireParams)
  | raw (host : String) (port : ℕ)
  | quic (expectedHost : String) (expectedPort : ℕ)
  deriving DecidableEq, Repr

/-- `proxy_tunnel`, without the admission queue and the registry. -/
def proxyTunnel (s : Server) (o : ProxyOpen) : Except Status Start := do
  let wireMode := o.wireMode.getD 0
  let wireJson := o.wireConfigJson.getD ""
  let host := Text.trim o.host
  if wireMode = 0 then
    require (host ≠ "") .invalidArgument "proxy host is empty"
    require (o.port ≠ 0 && o.port ≤ 65535) .invalidArgument "invalid proxy port"
    proxyAllowlistCheck s.net.allow host
    let _ ← openSession s o
    if s.quicReady && o.preferQuicDataPlane.getD false then return .quic host (o.port%65536)
    else return .raw host o.port
  else
    require (Text.trim wireJson ≠ "") .invalidArgument
      "wire_config_json is required when wire_mode is not RAW_TCP_RELAY"
    let params ← (WireParams.fromJson s (Text.trim wireJson)).mapError
      (fun e => ⟨.invalidArgument,"wire_config_json: "++e.text⟩)
    let managed ← openSession s o
    return .wire wireMode (applyManagedWireSecrets s params wireMode managed)

/-- What an open has passed when its relay starts. -/
inductive Started (s : Server) (o : ProxyOpen) : Start → Prop
  | raw {managed} (mode : o.wireMode.getD 0 = 0)
      (checked : proxyAllowlistCheck s.net.allow (Text.trim o.host) = .ok ())
      (session : openSession s o = .ok managed) : Started s o (.raw (Text.trim o.host) o.port)
  | quic {managed} (mode : o.wireMode.getD 0 = 0)
      (checked : proxyAllowlistCheck s.net.allow (Text.trim o.host) = .ok ())
      (session : openSession s o = .ok managed) :
      Started s o (.quic (Text.trim o.host) (o.port%65536))
  | wire {params managed} (mode : o.wireMode.getD 0 ≠ 0)
      (config : WireParams.fromJson s (Text.trim (o.wireConfigJson.getD "")) = .ok params)
      (session : openSession s o = .ok managed) :
      Started s o (.wire (o.wireMode.getD 0)
        (applyManagedWireSecrets s params (o.wireMode.getD 0) managed))

lemma proxyTunnel_started {s : Server} {o : ProxyOpen} {start : Start}
    (h : proxyTunnel s o = .ok start) : Started s o start := by
  unfold proxyTunnel at h
  dsimp only at h
  split_ifs at h with hmode hquic
  · obtain ⟨_,_,h⟩ := bind_eq_ok h
    obtain ⟨_,_,h⟩ := bind_eq_ok h
    obtain ⟨_,hchecked,h⟩ := bind_eq_ok h
    obtain ⟨managed,hsession,h⟩ := bind_eq_ok h
    cases h
    exact .quic hmode hchecked hsession
  · obtain ⟨_,_,h⟩ := bind_eq_ok h
    obtain ⟨_,_,h⟩ := bind_eq_ok h
    obtain ⟨_,hchecked,h⟩ := bind_eq_ok h
    obtain ⟨managed,hsession,h⟩ := bind_eq_ok h
    cases h
    exact .raw hmode hchecked hsession
  · obtain ⟨_,_,h⟩ := bind_eq_ok h
    obtain ⟨params,hparams,h⟩ := bind_eq_ok h
    obtain ⟨managed,hsession,h⟩ := bind_eq_ok h
    cases h
    exact .wire hmode (mapError_eq_ok hparams) hsession

def runRawRelay (net : Net) (host : String) (port : ℕ) (items : List Item) : Outcome :=
  match net.connect (upstream host port) with
  | .error e => .unreachable host port e
  | .ok () => .bridged host port [] items

/-! The QUIC side of a raw tunnel. -/

structure StreamInitFrame where
  command : UInt8
  ticket : Bytes
  addrType : UInt8
  addr : Bytes
  port : ℕ
  deriving DecidableEq, Repr

/-- `PQDP`. -/
def MAGIC : Bytes := [0x50,0x51,0x44,0x50]

def StreamInitFrame.wireLen (buf : Bytes) : Option ℕ :=
  if buf.length < 7 then none
  else if slice buf 0 4 ≠ MAGIC then none
  else
    let base := 7+wordAt buf 5
    if buf.length < base+3 then none
    else some (base+3+(byteAt buf (base+2)).toNat+2)

inductive QuicDataPlaneError
  | tooShort
  | badMagic
  | unsupportedVersion (v : UInt8)
  deriving DecidableEq, Repr

def QuicDataPlaneError.text : QuicDataPlaneError → String
  | tooShort => "frame too short"
  | badMagic => "bad magic"
  | unsupportedVersion v => "unsupported version "++v.toNat.repr

def StreamInitFrame.decode (buf : Bytes) : Except QuicDataPlaneError StreamInitFrame :=
  if buf.length < 7 then .error .tooShort
  else if slice buf 0 4 ≠ MAGIC then .error .badMagic
  else if byteAt buf 4 ≠ 1 then .error (.unsupportedVersion (byteAt buf 4))
  else
    let tl := wordAt buf 5
    if buf.length < 7+tl+5 then .error .tooShort
    else
      let addrLen := (byteAt buf (7+tl+2)).toNat
      if buf.length < 7+tl+3+addrLen+2 then .error .tooShort
      else .ok {
        command := byteAt buf (7+tl)
        ticket := slice buf 7 tl
        addrType := byteAt buf (7+tl+1)
        addr := slice buf (7+tl+3) addrLen
        port := wordAt buf (7+tl+3+addrLen) }

/-- `read_init_frame` on the pieces that the stream delivers before it is closed. -/
def readInitFrame (buf : Bytes) : List Bytes → Except String Bytes
  | [] => .error (if buf = [] then "empty stream" else "short init")
  | c::cs =>
    let buf := buf++c
    if c = [] then readInitFrame buf cs
    else if 65536 < buf.length then .error "init frame too large"
    else
      match StreamInitFrame.wireLen buf with
      | some wl => if wl ≤ buf.length then .ok (buf.take wl) else readInitFrame buf cs
      | none => readInitFrame buf cs

def destMatches (expectedHost : String) (expectedPort : ℕ) (frame : StreamInitFrame) : Bool :=
  if frame.port ≠ expectedPort then false
  else if frame.addrType = 2 then
    (fromUtf8 frame.addr).any (fun s => Text.eqIgnoreAsciiCase s expectedHost)
  else if frame.addrType = 1 then frame.addr.length = 4 && ipv4Text frame.addr = expectedHost
  else if frame.addrType = 3 then (fromUtf8 frame.addr).any (fun s => s = expectedHost)
  else false

/-- What `run_raw_quic_relay` does with a context and the frame that redeemed its ticket. -/
inductive QuicOutcome
  | healthy
  | refused (message : String)
  | unreachable (host : String) (port : ℕ) (error : String)
  | bridged (host : String) (port : ℕ)
  deriving DecidableEq, Repr

def runRawQuicRelay (net : Net) (expectedHost : String) (expectedPort : ℕ)
    (frame : StreamInitFrame) : QuicOutcome :=
  if frame.command = 2 then .healthy
  else if frame.command ≠ 1 then .refused "unsupported command (use CONNECT or HEALTH_CHECK)"
  else if destMatches expectedHost expectedPort frame = false then
    .refused "destination mismatch vs ProxyOpen"
  else
    match net.connect (upstream expectedHost expectedPort) with
    | .error e => .unreachable expectedHost expectedPort e
    | .ok () => .bridged expectedHost expectedPort

/-- What becomes of a tunnel: of the client's messages over gRPC, or of the frame with which a
QUIC stream redeems the ticket. -/
inductive Ending
  | grpc (outcome : Outcome)
  | quic (outcome : QuicOutcome)
  deriving DecidableEq, Repr

def Start.relay (c : Crypto) (net : Net) (vm : VmessMoment) (items : List Item)
    (frame : StreamInitFrame) : Start → Ending
  | wire wireMode params => .grpc (runWireRelay c net vm wireMode params items)
  | raw host port => .grpc (runRawRelay net host port items)
  | quic host port => .quic (runRawQuicRelay net host port frame)

end PirateServer.Wire
