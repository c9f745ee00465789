import PirateServer.Lib.Bytes
import PirateServer.Lib.Incremental
import PirateServer.Lib.Table
import PirateServer.Lib.Text
import PirateServer.Lib.Wrapping

/-! The server sides of the wire handshakes of `wire_protocol`: VLESS, Trojan, VMess, Shadowsocks
and SOCKS5. Each parser is run on all bytes that the client has sent so far. Hashes and ciphers
come from other packages and are parameters. -/
namespace PirateServer.Wire
open Lib Lib.Bytes

abbrev Bytes := List UInt8

abbrev Uuid := List.Vector UInt8 16

/-- What `shadowsocks_crypto` says about a method. -/
structure CipherKind where
  name : String
  isAead : Bool
  saltLen : ℕ
  tagLen : ℕ
  keyLen : ℕ
  deriving DecidableEq, Repr

/-- Hashes, ciphers and the identifiers of other packages. `decryptPacket` is the cipher made
from a kind, a key and a salt, applied to its `count`-th packet. -/
structure Crypto where
  parseUuid : String → Except String Uuid
  sha224 : Bytes → Bytes
  md5 : Bytes → Bytes
  aes128GcmDecrypt : Bytes → Bytes → Bytes → Except String Bytes
  cipherKind : String → Option CipherKind
  opensslBytesToKey : Bytes → ℕ → Bytes
  decryptPacket : CipherKind → Bytes → Bytes → ℕ → Bytes → Option Bytes

inductive WireError
  | badConfig (text : String)
  | parse (text : String)
  | crypto (text : String)
  | protocol (text : String)
  deriving DecidableEq, Repr

/-- `Display` of `WireError`. -/
def WireError.text : WireError → String
  | badConfig t => "invalid wire config json: "++t
  | parse t => "parse: "++t
  | crypto t => "crypto: "++t
  | protocol t => "protocol: "++t

def textBytes (s : String) : Bytes := s.toUTF8.data.toList

/-! VLESS. -/

inductive VlessAddress
  | ipV4 (octets : Bytes)
  | domain (name : String)
  | ipV6 (octets : Bytes)
  deriving DecidableEq, Repr

def VlessAddress.hostString : VlessAddress → String
  | ipV4 b => ipv4Text b
  | domain s => s
  | ipV6 b => ipv6Text b

/-- The address at the start of the buffer, and its length. Whatever is wrong with it, the answer
is the same as for a buffer that is too short. -/
def readAddress (buf : Bytes) (atype : UInt8) : Option (VlessAddress × ℕ) :=
  if atype = 1 ∧ 4 ≤ buf.length then some (.ipV4 (slice buf 0 4),4)
  else if atype = 2 ∧ buf ≠ [] then
    let n := (byteAt buf 0).toNat
    if buf.length < 1+n then none
    else (fromUtf8 (slice buf 1 n)).map (fun s => (.domain s,1+n))
  else if atype = 3 ∧ 16 ≤ buf.length then some (.ipV6 (slice buf 0 16),16)
  else none

structure VlessHeader where
  uuidOk : Bool
  port : ℕ
  addr : VlessAddress
  payloadStart : ℕ
  deriving DecidableEq, Repr

/-- `vless_parse_request` up to the slice `payload`. -/
def vlessHeader (buf : Bytes) (expectedUuid : Option Uuid) : Verdict Unit VlessHeader :=
  if buf.length < 22 then .needMore 22
  else if byteAt buf 0 ≠ 0 then .invalid ()
  else
    let uuidBytes := slice buf 1 16
    let headerAfterUuid := 18+(byteAt buf 17).toNat
    if buf.length < headerAfterUuid+4 then .needMore (headerAfterUuid+4)
    else if byteAt buf headerAfterUuid ≠ 1 then .invalid ()
    else
      let port := wordAt buf (headerAfterUuid+1)
      let atype := byteAt buf (headerAfterUuid+3)
      let addrStart := headerAfterUuid+4
      if buf.length < addrStart+1 then .needMore (addrStart+1)
      else (readAddress (buf.drop addrStart) atype).elim (.needMore (buf.length+64))
        (fun (addr,alen) =>
        let payloadOff := addrStart+alen
        if buf.length < payloadOff then .needMore payloadOff
        else .ready ⟨expectedUuid.all (fun e => e.toList = uuidBytes),port,addr,payloadOff⟩)

structure VlessRequest extends VlessHeader where
  payload : Bytes
  deriving DecidableEq, Repr

def vlessParseRequest (buf : Bytes) (expectedUuid : Option Uuid) : Verdict Unit VlessRequest :=
  (vlessHeader buf expectedUuid).map (fun h => ⟨h,buf.drop h.payloadStart⟩)

/-! Trojan. -/

structure TrojanAddr where
  host : String
  port : ℕ
  deriving DecidableEq, Repr

def hexDigit (n : ℕ) : UInt8 := (textBytes "0123456789abcdef").getD n 0

variable (c : Crypto)

def trojanAuthLine (password : String) : Bytes :=
  (c.sha224 (textBytes password)).flatMap
    (fun b => [hexDigit (b.toNat/16),hexDigit (b.toNat%16)])++[13,10]

def trojanParseAndVerify (line : Bytes) (password : String) : Bool :=
  line.length = 56 && line = (trojanAuthLine c password).take 56

def trojanParseAddress (buf : Bytes) : Except WireError (Option (TrojanAddr × ℕ)) :=
  if buf.length < 3 then .ok none
  else
    let atype := byteAt buf 0
    if atype = 1 then
      if buf.length < 7 then .ok none
      else .ok (some (⟨ipv4Text (slice buf 1 4),wordAt buf 5⟩,7))
    else if atype = 3 then
      let n := (byteAt buf 1).toNat
      if buf.length < 2+n+2 then .ok none
      else
        match fromUtf8 (slice buf 2 n) with
        | none => .error (.parse (utf8ErrorText (slice buf 2 n)))
        | some host => .ok (some (⟨host,wordAt buf (2+n)⟩,2+n+2))
    else if atype = 4 then
      if buf.length < 19 then .ok none
      else .ok (some (⟨ipv6Text (slice buf 1 16),wordAt buf 17⟩,19))
    else .error (.protocol "unknown trojan address type")

/-- `buf.windows(2).position(|w| w == b"\r\n")`, counted from `i` on. -/
def crlfPosition (i : ℕ) : Bytes → Option ℕ
  | 13::10::_ => some i
  | _::bs => crlfPosition (i+1) bs
  | [] => none

structure TrojanReady where
  addr : TrojanAddr
  payloadOffset : ℕ
  deriving DecidableEq, Repr

def trojanServerHandshake (buf : Bytes) (password : String) :
    Verdict Unit TrojanReady :=
  (crlfPosition 0 buf).elim (.needMore 58) (fun pos =>
    if pos < 56 then .needMore 58
    else
      let line := buf.take pos
      if line.length ≠ 56 ∨ trojanParseAndVerify c line password = false then .invalid ()
      else
        let after := pos+2
        if buf.length ≤ after then .needMore (after+7)
        else
          match trojanParseAddress (buf.drop after) with
          | .ok (some (addr,consumed)) => .ready ⟨addr,after+consumed⟩
          | .ok none => .needMore (after+7)
          | .error _ => .invalid ())

/-! VMess. -/

structure VMessHeaderOpen where
  port : ℕ
  addr : VlessAddress
  timestamp : Int64
  deriving DecidableEq, Repr

def vmessKey (uuid : Uuid) : Bytes := c.md5 uuid.toList

/-- `i64::from_be_bytes`. -/
def be64 (bs : Bytes) : Int64 :=
  Int64.ofInt ((bs.foldl (fun acc b => acc*256+b.toNat) 0 : ℕ) : ℤ)

def vmessOpenHeaderByteLen (buf : Bytes) : Option ℕ :=
  if buf.length < 14 then none else some (14+wordAt buf 12)

/-- The plain text of an open header, at the server time `now`. -/
def vmessOpenPlain (now : Int64) (plain : Bytes) : Except WireError VMessHeaderOpen :=
  if plain.length < 12 then .error (.protocol "vmess plain too short")
  else
    let ts := be64 (slice plain 0 8)
    if Wrapping.within 120 now ts = false then .error (.protocol "vmess timestamp out of window")
    else if byteAt plain 8 ≠ 1 then .error (.protocol "only TCP cmd supported")
    else
      match readAddress (plain.drop 12) (byteAt plain 11) with
      | none => .error (.protocol "bad vmess addr")
      | some (addr,_) => .ok ⟨wordAt plain 9,addr,ts⟩

def vmessServerOpenHeader (now : Int64) (uuid : Uuid) (buf : Bytes) :
    Except WireError (Option VMessHeaderOpen) :=
  if buf.length < 14 then .ok none
  else
    let ctLen := wordAt buf 12
    if buf.length < 14+ctLen then .ok none
    else
      match c.aes128GcmDecrypt (vmessKey c uuid) (buf.take 12) (slice buf 14 ctLen) with
      | .error e => .error (.crypto e)
      | .ok plain => (vmessOpenPlain now plain).map some

/-- The two functions as `run_vmess_relay` uses them: the header is opened when all of it is
there. The result carries the length of the header. -/
def vmessParse (now : Int64) (uuid : Uuid) (buf : Bytes) :
    Verdict WireError (VMessHeaderOpen × ℕ) :=
  (vmessOpenHeaderByteLen buf).elim (.needMore 14) (fun hlen =>
    if buf.length < hlen then .needMore hlen
    else
      match vmessServerOpenHeader c now uuid (buf.take hlen) with
      | .ok (some o) => .ready (o,hlen)
      | .ok none => .needMore hlen
      | .error e => .invalid e)

/-- `VmessReplayCache`: nonces with the instant, in nanoseconds, at which they were seen. -/
structure ReplayCache where
  ttl : ℕ
  maxEntries : ℕ
  q : List (Bytes × ℕ)
  set : Table Bytes ℕ

def ReplayCache.new (ttlSecs maxEntries : ℕ) : ReplayCache :=
  ⟨max ttlSecs 30*10^9,maxEntries,[],∅⟩

/-- The loop at the start of `check_and_insert`: old entries leave from the front. -/
def ReplayCache.expire (now : ℕ) (r : ReplayCache) : ReplayCache :=
  let old := fun e : Bytes × ℕ => decide (r.ttl < now-e.2)
  { r with
    q := r.q.dropWhile old
    set := (r.q.takeWhile old).foldl (fun s e => s.erase e.1) r.set }

def ReplayCache.evict (r : ReplayCache) : ReplayCache :=
  if r.maxEntries ≤ r.set.len then
    match r.q with
    | [] => r
    | e::q => { r with q := q, set := r.set.erase e.1 }
  else r

def ReplayCache.checkAndInsert (now : ℕ) (nonce : Bytes) (r : ReplayCache) : Bool × ReplayCache :=
  let r := r.expire now
  if nonce ∈ r.set then (false,r)
  else
    let r := r.evict
    (true,{ r with set := r.set.insert nonce now, q := r.q++[(nonce,now)] })

/-! Shadowsocks. -/

structure SsReady where
  addr : TrojanAddr
  consumed : ℕ
  tailAfterAddr : Bytes
  deriving DecidableEq, Repr

def decryptFirstPayload (buf : Bytes) (method password : String) :
    Except WireError (Option SsReady) :=
  match c.cipherKind (Text.trim method) with
  | none => .error (.protocol "shadowsocks: unknown cipher method")
  | some kind =>
    if kind.isAead = false then
      .error (.protocol "shadowsocks: only AEAD methods supported on Pirate wire")
    else if buf.length < kind.saltLen then .ok none
    else
      let salt := buf.take kind.saltLen
      let key := c.opensslBytesToKey (textBytes password) kind.keyLen
      let lenCtLen := 2+kind.tagLen
      if buf.length < kind.saltLen+lenCtLen then .ok none
      else
        match c.decryptPacket kind key salt 0 (slice buf kind.saltLen lenCtLen) with
        | none => .error (.protocol "shadowsocks: length chunk decrypt failed")
        | some lenPkt =>
          if lenPkt.length < 2 then .error (.protocol "shadowsocks: bad length plaintext")
          else
            let off := kind.saltLen+lenCtLen
            let payCtLen := wordAt lenPkt 0+kind.tagLen
            if buf.length < off+payCtLen then .ok none
            else
              match c.decryptPacket kind key salt 1 (slice buf off payCtLen) with
              | none => .error (.protocol "shadowsocks: payload decrypt failed")
              | some pay =>
                match trojanParseAddress pay with
                | .error e => .error e
                | .ok none => .error (.protocol "shadowsocks: incomplete address")
                | .ok (some (addr,n)) => .ok (some ⟨addr,off+payCtLen,pay.drop n⟩)

def ssTcpServerHandshake (buf : Bytes) (method password : String) :
    Verdict String SsReady :=
  match c.cipherKind (Text.trim method) with
  | none => .invalid "bad cipher method"
  | some kind =>
    if kind.isAead = false then .invalid "only AEAD"
    else
      let minNeed := kind.saltLen+(2+kind.tagLen)+(7+kind.tagLen)
      if buf.length < kind.saltLen+(2+kind.tagLen) then .needMore (kind.saltLen+(2+kind.tagLen))
      else
        match decryptFirstPayload c buf method password with
        | .ok none => .needMore (max minNeed (buf.length+32))
        | .ok (some r) => .ready r
        | .error _ => .invalid "decrypt"

/-! SOCKS5. -/

structure Socks5Target where
  host : String
  port : ℕ
  deriving DecidableEq, Repr

structure Socks5Ready where
  target : Socks5Target
  consumed : ℕ
  deriving DecidableEq, Repr

def readAddr (buf : Bytes) (off : ℕ) : Option (String × ℕ × ℕ) :=
  if buf.length ≤ off then none
  else if byteAt buf off = 1 then
    if buf.length < off+7 then none
    else some (ipv4Text (slice buf (off+1) 4),off+7,wordAt buf (off+5))
  else if byteAt buf off = 3 then
    if buf.length ≤ off+1 then none
    else
      let n := (byteAt buf (off+1)).toNat
      if buf.length < off+2+n+2 then none
      else some (fromUtf8Lossy (slice buf (off+2) n),off+2+n+2,wordAt buf (off+2+n))
  else if byteAt buf off = 4 then
    if buf.length < off+19 then none
    else some (ipv6Text (slice buf (off+1) 16),off+19,wordAt buf (off+17))
  else none

def socks5Request (buf : Bytes) (off : ℕ) : Verdict String Socks5Ready :=
  if buf.length < off+4 then .needMore (off+4)
  else if byteAt buf off ≠ 5 then .invalid "socks5: bad request version"
  else if byteAt buf (off+1) ≠ 1 then .invalid "socks5: only CONNECT"
  else (readAddr buf (off+3)).elim (.needMore (buf.length+256)) (fun (host,end_,port) =>
    .ready ⟨⟨host,port⟩,end_⟩)

/-- The RFC 1929 section at an offset: the request follows it. -/
def socks5Auth (buf : Bytes) (off : ℕ) (user pass : Option String) : Verdict String Socks5Ready :=
  if buf.length < off+3 then .needMore (off+3)
  else if byteAt buf off ≠ 1 then .invalid "socks5: expected RFC1929 auth"
  else
    let ulen := (byteAt buf (off+1)).toNat
    if buf.length < off+3+ulen then .needMore (off+3+ulen)
    else
      let plen := (byteAt buf (off+2+ulen)).toNat
      if buf.length < off+3+ulen+plen then .needMore (off+3+ulen+plen)
      else
        let u := (fromUtf8 (slice buf (off+2) ulen)).getD ""
        let p := (fromUtf8 (slice buf (off+3+ulen) plen)).getD ""
        if user.map Text.trim ≠ some (Text.trim u) ∨ pass.map Text.trim ≠ some (Text.trim p) then
          .invalid "socks5: auth failed"
        else socks5Request buf (off+3+ulen+plen)

def socks5ServerParse (buf : Bytes) (requireAuth : Bool) (user pass : Option String) :
    Verdict String Socks5Ready :=
  if buf.length < 3 then .needMore 3
  else if byteAt buf 0 ≠ 5 then .invalid "socks5: bad version"
  else
    let nmeth := (byteAt buf 1).toNat
    if buf.length < 2+nmeth then .needMore (2+nmeth)
    else if requireAuth = true then
      if 2 ∉ slice buf 2 nmeth then .invalid "socks5: username auth required"
      else socks5Auth buf (2+nmeth) user pass
    else if 0 ∉ slice buf 2 nmeth then .invalid "socks5: no-auth method missing"
    else socks5Request buf (2+nmeth)

end PirateServer.Wire
