import PirateServer.ProxySession.Policy
import PirateServer.Wire.Stability

/-! The wire relays of the deploy server. A relay accumulates the bytes of the client's `Data`
messages, runs its parser on all of them after each message, asks the allowlist about the host
that the parser found, connects to that host and hands over to the bridge. The five relays are
one loop with different parsers and different words for the client. -/
namespace PirateServer.Wire
open Lib Lib.Bytes ProxySession

/-- The body of a `ProxyClientMsg`. -/
inductive ClientMsg
  | openAgain
  | data (bytes : Bytes)
  | fin
  | empty
  deriving DecidableEq, Repr

/-- What `inbound.next()` yields. A list of items that ends without `eof` is a stream that is
still open. -/
inductive Item
  | msg (m : ClientMsg)
  | error (text : String)
  | eof
  deriving DecidableEq, Repr

inductive Reply
  | openResult (ok : Bool) (error : String)
  | status (s : Status)
  deriving DecidableEq, Repr

def MAX_PROXY_CHUNK : ℕ := 256*1024

/-- The entries of an allowlist. -/
def listed (list : String) : List String :=
  ((Text.split ',' list).map (fun part => Text.toAsciiLowercase (Text.trim part))).filter (· ≠ "")

variable (list : Option String) (host : String)

/-- The test of both copies of the allowlist check. The variable reads as `none` when it is not
set or not Unicode. -/
def hostAllowed : Except Status Unit :=
  match list with
  | none => .ok ()
  | some list =>
    let list := Text.trim list
    if list = "" ∨ list = "*" then .ok ()
    else
      let hostLc := Text.toAsciiLowercase host
      if (listed list).any (fun p => hostLc = p || Text.endsWith hostLc ("."++p)) then .ok ()
      else .error ⟨.permissionDenied,"proxy target host not allowed by DEPLOY_PROXY_ALLOWLIST"⟩

/-- The copy in `wire_relay`. -/
def allowlist : Except Status Unit := hostAllowed list host

/-- The copy in `deploy_service`. -/
def proxyAllowlistCheck : Except Status Unit :=
  hostAllowed list host

/-- What a relay meets outside: the allowlist variable, and the outcome of connecting to an
address within the time allowed. -/
structure Net where
  allow : Option String
  connect : String → Except String Unit

/-- The target that a handshake names, the number of bytes that the handshake takes, and bytes
for the target that were found inside of it. -/
structure Opening where
  host : String
  port : ℕ
  consumed : ℕ
  inner : Bytes
  deriving DecidableEq, Repr

/-- Where a relay is. Once it is bridged, `initial` goes to the target first and then the data
of the remaining items. -/
inductive Outcome
  | reading (buf : Bytes)
  | closed (reply : Option Reply)
  | unreachable (host : String) (port : ℕ) (error : String)
  | bridged (host : String) (port : ℕ) (initial : Bytes) (rest : List Item)
  deriving DecidableEq, Repr

/-- `format!("{host}:{port}")`. -/
def upstream (host : String) (port : ℕ) : String := host++":"++port.repr

/-- The target was found in `buf`: ask the allowlist, connect, hand over. -/
def Opening.dial (net : Net) (o : Opening) (buf : Bytes) (rest : List Item) : Outcome :=
  match allowlist net.allow o.host with
  | .error e => .closed (some (.openResult false e.message))
  | .ok () =>
    match net.connect (upstream o.host o.port) with
    | .error e => .unreachable o.host o.port e
    | .ok () => .bridged o.host o.port (o.inner++buf.drop o.consumed) rest

/-- A handshake: its parser and what the relay says when the client does not go on with it. -/
structure Handshake where
  parse : Bytes → Verdict String Opening
  limited : Bool
  onEof : Option Reply
  onOpen : Option Reply
  onFin : Option Reply
  stable : Stable parse
  consumed_le : ∀ b o, parse b = .ready o → o.consumed ≤ b.length

def refusal (text : String) : Option Reply := some (.openResult false text)

/-- The loop of a relay. -/
def Handshake.run (hs : Handshake) (net : Net) (buf : Bytes) : List Item → Outcome
  | [] => .reading buf
  | .eof::_ => .closed hs.onEof
  | .error e::_ => .closed (some (.status ⟨.internal,e⟩))
  | .msg .openAgain::_ => .closed hs.onOpen
  | .msg .fin::_ => .closed hs.onFin
  | .msg .empty::rest => hs.run net buf rest
  | .msg (.data d)::rest =>
    if hs.limited = true ∧ MAX_PROXY_CHUNK < d.length then
      .closed (refusal "proxy chunk too large")
    else
      match hs.parse (buf++d) with
      | .needMore _ => hs.run net (buf++d) rest
      | .invalid m => .closed (refusal m)
      | .ready o => o.dial net (buf++d) rest

/-! The five handshakes. -/

variable (c : Crypto)

def vlessOpening (expected : Uuid) (buf : Bytes) : Verdict String Opening :=
  (vlessHeader buf (some expected)).andThen (fun _ => "invalid vless header") (fun h =>
    if h.uuidOk = false then .invalid "vless: uuid mismatch"
    else .ready ⟨h.addr.hostString,h.port,h.payloadStart,[]⟩)

def trojanOpening (password : String) (buf : Bytes) : Verdict String Opening :=
  (trojanServerHandshake c buf password).andThen (fun _ => "trojan: auth failed")
    (fun r => .ready ⟨r.addr.host,r.addr.port,r.payloadOffset,[]⟩)

/-- The replay cache is asked when the header is complete; `cache` is its state at the instant
`clock` at which that happens, and `now` the time of the server. -/
def vmessOpening (cache : ReplayCache) (clock : ℕ) (now : Int64) (uuid : Uuid) (buf : Bytes) :
    Verdict String Opening :=
  (vmessOpenHeaderByteLen buf).elim (.needMore 14) (fun hlen =>
    if buf.length < hlen then .needMore hlen
    else if (cache.checkAndInsert clock (buf.take 12)).1 = false then .invalid "vmess: replay"
    else
      match vmessServerOpenHeader c now uuid (buf.take hlen) with
      | .ok (some o) => .ready ⟨o.addr.hostString,o.port,hlen,[]⟩
      | .ok none => .needMore hlen
      | .error e => .invalid e.text)

def shadowsocksOpening (method password : String) (buf : Bytes) : Verdict String Opening :=
  (ssTcpServerHandshake c buf method password).andThen (fun m => "shadowsocks: "++m)
    (fun r => .ready ⟨r.addr.host,r.addr.port,r.consumed,r.tailAfterAddr⟩)

def socks5Opening (auth : Bool) (user pass : Option String) (buf : Bytes) :
    Verdict String Opening :=
  (socks5ServerParse buf auth user pass).andThen id
    (fun r => .ready ⟨r.target.host,r.target.port,r.consumed,[]⟩)

variable {buf : Bytes}

lemma vlessHeader_le {e : Option Uuid} {h : VlessHeader}
    (hh : vlessHeader buf e = .ready h) : h.payloadStart ≤ buf.length := by
  unfold vlessHeader at hh
  dsimp only at hh
  split_ifs at hh
  cases hr : readAddress (buf.drop (18+(byteAt buf 17).toNat+4))
      (byteAt buf (18+(byteAt buf 17).toNat+3)) with
  | none =>
    rw [hr] at hh
    cases hh
  | some r =>
    simp only [hr,Option.elim_some] at hh
    split_ifs at hh with hlen
    cases hh
    dsimp only
    omega

lemma trojanParseAddress_le {a : TrojanAddr} {n : ℕ}
    (h : trojanParseAddress buf = .ok (some (a,n))) : n ≤ buf.length := by
  unfold trojanParseAddress at h
  dsimp only at h
  split_ifs at h
  · cases h
  · cases h
  · cases h
    omega
  · cases h
  · split at h
    · cases h
    · cases h
      omega
  · cases h
  · cases h
    omega

lemma trojanServerHandshake_le {password : String} {r : TrojanReady}
    (h : trojanServerHandshake c buf password = .ready r) : r.payloadOffset ≤ buf.length := by
  unfold trojanServerHandshake at h
  cases hp : crlfPosition 0 buf with
  | none =>
    rw [hp] at h
    cases h
  | some pos =>
    simp only [hp,Option.elim_some] at h
    split_ifs at h with h1 h2 h3
    split at h
    · rename_i a n ha
      cases h
      have hn := trojanParseAddress_le ha
      rw [List.length_drop] at hn
      dsimp only
      omega
    · cases h
    · cases h

variable {method password : String}

lemma decryptFirstPayload_le {r : SsReady}
    (h : decryptFirstPayload c buf method password = .ok (some r)) : r.consumed ≤ buf.length := by
  unfold decryptFirstPayload at h
  dsimp only at h
  split at h
  · cases h
  split_ifs at h
  · cases h
  · cases h
  split at h
  · cases h
  split_ifs at h
  · cases h
  split at h
  · cases h
  split at h
  · cases h
  · cases h
  · cases h
    dsimp only
    omega

lemma ssTcpServerHandshake_le {r : SsReady}
    (h : ssTcpServerHandshake c buf method password = .ready r) : r.consumed ≤ buf.length := by
  unfold ssTcpServerHandshake at h
  split at h
  · cases h
  dsimp only at h
  split_ifs at h
  split at h
  · cases h
  · rename_i hd
    cases h
    exact decryptFirstPayload_le c hd
  · cases h

lemma readAddr_le {off end_ port : ℕ} {host : String}
    (h : readAddr buf off = some (host,end_,port)) : end_ ≤ buf.length := by
  unfold readAddr at h
  dsimp only at h
  split_ifs at h <;> cases h <;> omega

lemma socks5Request_le {off : ℕ} {r : Socks5Ready}
    (h : socks5Request buf off = .ready r) : r.consumed ≤ buf.length := by
  unfold socks5Request at h
  split_ifs at h
  cases hr : readAddr buf (off+3) with
  | none =>
    rw [hr] at h
    cases h
  | some a =>
    rw [hr] at h
    cases h
    exact readAddr_le hr

lemma socks5ServerParse_le {auth : Bool} {user pass : Option String}
    {r : Socks5Ready} (h : socks5ServerParse buf auth user pass = .ready r) :
    r.consumed ≤ buf.length := by
  unfold socks5ServerParse at h
  dsimp only at h
  split_ifs at h
  · unfold socks5Auth at h
    dsimp only at h
    split_ifs at h
    exact socks5Request_le h
  · exact socks5Request_le h

def vlessHandshake (expected : Uuid) : Handshake where
  parse := vlessOpening expected
  limited := true
  onEof := refusal "vless: stream ended before header"
  onOpen := refusal "duplicate Open"
  onFin := refusal "vless: fin before header"
  stable b x := (vlessHeader_stable (some expected) b x).andThen
  consumed_le b o h := by
    obtain ⟨r,hr,ho⟩ := Verdict.andThen_eq_ready h
    split_ifs at ho
    cases ho
    exact vlessHeader_le hr

def trojanHandshake (password : String) : Handshake where
  parse := trojanOpening c password
  limited := false
  onEof := refusal "trojan: stream ended before handshake"
  onOpen := refusal "duplicate Open"
  onFin := none
  stable b x := (trojanServerHandshake_stable c password b x).andThen
  consumed_le b o h := by
    obtain ⟨r,hr,ho⟩ := Verdict.andThen_eq_ready h
    cases ho
    exact trojanServerHandshake_le c hr

def vmessHandshake (cache : ReplayCache) (clock : ℕ) (now : Int64) (uuid : Uuid) : Handshake where
  parse := vmessOpening c cache clock now uuid
  limited := false
  onEof := none
  onOpen := none
  onFin := none
  stable b x := by
    refine .option (fun n hn => vmessOpenHeaderByteLen_append hn x)
      (fun n hn => .short (fun h => ?_))
    have h12 : 12 ≤ b.length := (vmessOpenHeaderByteLen_ge hn).trans h |>.trans' (by omega)
    rw [List.take_append_of_le_length h,List.take_append_of_le_length h12]
    exact .refl _
  consumed_le b o h := by
    unfold vmessOpening at h
    cases hn : vmessOpenHeaderByteLen b with
    | none =>
      rw [hn] at h
      cases h
    | some n =>
      simp only [hn,Option.elim_some] at h
      split_ifs at h with h1 h2
      split at h
      · cases h
        dsimp only
        omega
      · cases h
      · cases h

def shadowsocksHandshake (method password : String) : Handshake where
  parse := shadowsocksOpening c method password
  limited := true
  onEof := refusal "shadowsocks: stream ended before handshake"
  onOpen := refusal "duplicate Open"
  onFin := none
  stable b x := (ssTcpServerHandshake_stable c method password b x).andThen
  consumed_le b o h := by
    obtain ⟨r,hr,ho⟩ := Verdict.andThen_eq_ready h
    cases ho
    exact ssTcpServerHandshake_le c hr

def socks5Handshake (auth : Bool) (user pass : Option String) : Handshake where
  parse := socks5Opening auth user pass
  limited := true
  onEof := refusal "socks5: stream ended before handshake"
  onOpen := refusal "duplicate Open"
  onFin := none
  stable b x := (socks5ServerParse_stable auth user pass b x).andThen
  consumed_le b o h := by
    obtain ⟨r,hr,ho⟩ := Verdict.andThen_eq_ready h
    cases ho
    exact socks5ServerParse_le hr

/-! The relays, from the parameters of the tunnel. -/

/-- `wire_config_json`. -/
structure WireParams where
  uuid : Option String
  password : Option String
  flow : Option String
  method : Option String
  username : Option String
  deriving DecidableEq, Repr

variable (c : Crypto) (net : Net) (params : WireParams) (items : List Item)

def trimmed (field : Option String) : Option String := (field.map Text.trim).filter (· ≠ "")

def nonempty (field : Option String) : Option String := field.filter (· ≠ "")

def runVlessRelay : Outcome :=
  match trimmed params.uuid with
  | none => .closed (refusal "vless: missing uuid in wire_config_json")
  | some u =>
    match c.parseUuid u with
    | .error e => .closed (refusal ("vless: bad uuid: "++e))
    | .ok expected => (vlessHandshake expected).run net [] items

def runTrojanRelay : Outcome :=
  match nonempty params.password with
  | none => .closed (refusal "trojan: missing password")
  | some password => (trojanHandshake c password).run net [] items

def runVmessRelay (cache : ReplayCache) (clock : ℕ) (now : Int64) : Outcome :=
  match trimmed params.uuid with
  | none => .closed (refusal "vmess: missing uuid")
  | some u =>
    match c.parseUuid u with
    | .error e => .closed (refusal ("vmess: bad uuid: "++e))
    | .ok uid => (vmessHandshake c cache clock now uid).run net [] items

def runShadowsocksRelay : Outcome :=
  match nonempty params.password with
  | none => .closed (refusal "shadowsocks: missing password")
  | some password =>
    match trimmed params.method with
    | none => .closed (refusal "shadowsocks: missing method")
    | some method => (shadowsocksHandshake c method password).run net [] items

def runSocks5Relay : Outcome :=
  let auth := params.username.isSome && params.password.isSome
  (socks5Handshake auth params.username params.password).run net [] items

end PirateServer.Wire
