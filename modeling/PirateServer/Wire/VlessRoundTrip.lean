import PirateServer.Lib.Utf8
import PirateServer.Wire.Relay

/-! The first bytes of a VLESS tunnel, written by the client and read by the server. The client
sorts the host into an IPv4 address, an IPv6 address or a name. A name is cut to what its length
byte can say, so it comes through exactly when it has at most 255 bytes. -/
namespace PirateServer.Wire
open Lib Lib.Bytes List Option

/-- The parsers of IP literals of the standard library. -/
structure IpLiterals where
  v4 : String → Option (List.Vector UInt8 4)
  v6 : String → Option (List.Vector UInt8 16)

variable (ips : IpLiterals) (host : String)

def hostToVlessAddr : VlessAddress :=
  match ips.v4 host with
  | some ip => .ipV4 ip.toList
  | none =>
    match ips.v6 host with
    | some ip => .ipV6 ip.toList
    | none => .domain host

/-- The type of an address and its bytes, as `vless_build_request` pushes them. -/
def vlessAddressBytes : VlessAddress → Bytes
  | .ipV4 b => 1::b
  | .domain s =>
    let b := textBytes s
    2::UInt8.ofNat (min b.length 255)::b.take (min b.length 255)
  | .ipV6 b => 3::b

def vlessBuildRequest (uuid : Uuid) (port : UInt16) (addr : VlessAddress) (initialPayload : Bytes) :
    Bytes :=
  (0::uuid.toList)++[0,1]++toBe 2 port.toNat++vlessAddressBytes addr++initialPayload

/-- `wire_tunnel_first_chunk` in the mode `Vless`. -/
def vlessFirstChunk (c : Crypto) (params : WireParams) (targetPort : UInt16)
    (tcpTailAfterConnect : Bytes) : Except WireError Bytes :=
  let addr := hostToVlessAddr ips host
  match params.uuid with
  | none => .error (.protocol "vless uuid")
  | some u =>
    match c.parseUuid (Text.trim u) with
    | .error e => .error (.parse e)
    | .ok id => .ok (vlessBuildRequest id targetPort addr tcpTailAfterConnect)

def IsIpLiteral : Prop := (ips.v4 host).isSome ∨ (ips.v6 host).isSome

def Denotes (addr : VlessAddress) : Prop :=
  match ips.v4 host,ips.v6 host with
  | some ip,_ => addr = .ipV4 ip.toList
  | none,some ip => addr = .ipV6 ip.toList
  | none,none => addr.hostString = host

/-! Reading an address back, whatever follows it. -/

variable (payload : Bytes)

lemma readAddress_ipV4 (ip : List.Vector UInt8 4) :
    readAddress (ip.toList++payload) 1 = some (.ipV4 ip.toList,4) := by
  have hlen : 4 ≤ (ip.toList++payload).length := by simp
  have hslice : slice (ip.toList++payload) 0 4 = ip.toList := by
    rw [slice,drop_zero,take_left' ip.toList_length]
  rw [readAddress,if_pos ⟨rfl,hlen⟩,hslice]

lemma readAddress_ipV6 (ip : List.Vector UInt8 16) :
    readAddress (ip.toList++payload) 3 = some (.ipV6 ip.toList,16) := by
  have hlen : 16 ≤ (ip.toList++payload).length := by simp
  have hslice : slice (ip.toList++payload) 0 16 = ip.toList := by
    rw [slice,drop_zero,take_left' ip.toList_length]
  have h4 : ¬((3 : UInt8) = 1 ∧ 4 ≤ (ip.toList++payload).length) := by simp
  have hname : ¬((3 : UInt8) = 2 ∧ ip.toList++payload ≠ []) := by simp
  rw [readAddress,if_neg h4,if_neg hname,if_pos ⟨rfl,hlen⟩,hslice]

lemma readAddress_name {b : Bytes} (hb : b.length ≤ 255) :
    readAddress (UInt8.ofNat b.length::b++payload) 2 =
      (fromUtf8 b).map (fun s => (.domain s,1+b.length)) := by
  have hn : (byteAt (UInt8.ofNat b.length::b++payload) 0).toNat = b.length :=
    toNat_ofNat_byte (by omega)
  have hlen : ¬(UInt8.ofNat b.length::b++payload).length < 1+b.length := by
    simp only [cons_append,length_cons,length_append]
    omega
  have hslice : slice (UInt8.ofNat b.length::b++payload) 1 b.length = b := by
    rw [slice,cons_append,drop_one,tail_cons,take_left]
  have h4 : ¬((2 : UInt8) = 1 ∧ 4 ≤ (UInt8.ofNat b.length::b++payload).length) := by simp
  rw [readAddress,if_neg h4,if_pos ⟨rfl,by simp⟩]
  simp only [hn,if_neg hlen,hslice]

variable (uuid : Uuid) (port : UInt16)

lemma wordAt_toBe (n : ℕ) (hn : n < 65536) (rest : Bytes) : wordAt (toBe 2 n++rest) 0 = n := by
  have hhigh : (UInt8.ofNat (n/256)).toNat = n/256 := toNat_ofNat_byte (by omega)
  have hlow : (UInt8.ofNat n).toNat = n%256 := by simp
  show (UInt8.ofNat (n/256)).toNat*256+(UInt8.ofNat n).toNat = n
  omega

lemma drop_version_uuid (rest : Bytes) : ((0::uuid.toList)++rest).drop 17 = rest :=
  drop_left' (by simp)

lemma drop_request (atype : UInt8) (rest : Bytes) :
    ((0::uuid.toList)++([0,1]++(toBe 2 port.toNat++atype::rest))).drop 22 = rest := by
  have h19 : ((0::uuid.toList)++([0,1]++(toBe 2 port.toNat++atype::rest))).drop (17+2) =
      toBe 2 port.toNat++atype::rest := by
    rw [← drop_drop,drop_version_uuid]
    rfl
  have h21 := congrArg (List.drop 2) h19
  rw [drop_drop,drop_left' (length_toBe 2 _)] at h21
  have h22 := congrArg (List.drop 1) h21
  rwa [drop_drop] at h22

lemma vlessHeader_request (atype : UInt8) {rest : Bytes} (hne : rest ≠ []) :
    vlessHeader ((0::uuid.toList)++([0,1]++(toBe 2 port.toNat++atype::rest))) (some uuid) =
      (readAddress rest atype).elim (.needMore (22+rest.length+64)) (fun (addr,alen) =>
        if 22+rest.length < 22+alen then .needMore (22+alen)
        else .ready ⟨true,port.toNat,addr,22+alen⟩) := by
  have hpos : 0 < rest.length := length_pos_of_ne_nil hne
  generalize hbuf : (0::uuid.toList)++([0,1]++(toBe 2 port.toNat++atype::rest)) = buf
  have hlen : buf.length = 22+rest.length := by
    rw [← hbuf]
    simp only [length_append,length_cons,length_nil,length_toBe,List.Vector.toList_length]
    omega
  have hversion : byteAt buf 0 = 0 := by
    rw [← hbuf]
    rfl
  have huuid : slice buf 1 16 = uuid.toList := by
    rw [← hbuf,slice,cons_append,drop_one,tail_cons,take_left' uuid.toList_length]
  have h17 : buf.drop 17 = [0,1]++(toBe 2 port.toNat++atype::rest) := by
    rw [← hbuf,drop_version_uuid]
  have h19 : buf.drop 19 = toBe 2 port.toNat++atype::rest := by
    have := congrArg (List.drop 2) h17
    rwa [drop_drop] at this
  have h21 : buf.drop 21 = atype::rest := by
    have := congrArg (List.drop 2) h19
    rwa [drop_drop,drop_left' (length_toBe 2 _)] at this
  have h22 : buf.drop 22 = rest := by
    rw [← hbuf,drop_request]
  have haddons : byteAt buf 17 = 0 := by
    rw [← byteAt_drop buf 17 0,h17]
    rfl
  have hcmd : byteAt buf 18 = 1 := by
    rw [← byteAt_drop buf 17 1,h17]
    rfl
  have hport : wordAt buf 19 = port.toNat := by
    rw [← wordAt_drop buf 19 0,h19]
    exact wordAt_toBe _ port.toNat_lt _
  have htype : byteAt buf 21 = atype := by
    rw [← byteAt_drop buf 21 0,h21]
    rfl
  have h1 : ¬22+rest.length < 22 := by omega
  have h2 : ¬22+rest.length < 22+1 := by omega
  simp [vlessHeader,hlen,hversion,haddons,hcmd,hport,htype,h22,huuid,h1,h2]

variable {atype : UInt8} {rest payload : Bytes} {addr : VlessAddress}

lemma vlessParseRequest_build (hne : rest ≠ [])
    (haddr : vlessAddressBytes addr++payload = atype::rest) :
    vlessParseRequest (vlessBuildRequest uuid port addr payload) (some uuid) =
      (readAddress rest atype).elim (.needMore (22+rest.length+64)) (fun (addr,alen) =>
        if 22+rest.length < 22+alen then .needMore (22+alen)
        else .ready ⟨⟨true,port.toNat,addr,22+alen⟩,rest.drop alen⟩) := by
  have hbuild : vlessBuildRequest uuid port addr payload =
      (0::uuid.toList)++([0,1]++(toBe 2 port.toNat++atype::rest)) := by
    rw [vlessBuildRequest,← haddr]
    simp only [append_assoc]
  have hdrop (alen : ℕ) : ((0::uuid.toList)++([0,1]++(toBe 2 port.toNat++atype::rest))).drop
      (22+alen) = rest.drop alen := by
    rw [← drop_drop,drop_request]
  rw [hbuild,vlessParseRequest,vlessHeader_request uuid port atype hne]
  cases readAddress rest atype with
  | none => rfl
  | some r =>
    obtain ⟨addr,alen⟩ := r
    simp only [elim_some]
    by_cases hshort : 22+rest.length < 22+alen
    · simp only [if_pos hshort,Verdict.map]
    · simp only [if_neg hshort,Verdict.map,hdrop]

def RoundTrips (ips : IpLiterals) (host : String) (port : UInt16) (payload : Bytes)
    (parsed : Verdict Unit VlessRequest) : Prop :=
  ∃ req, parsed = .ready req ∧ req.uuidOk = true ∧ req.port = port.toNat ∧
    Denotes ips host req.addr ∧ req.payload = payload

lemma roundTrips_of_read {ips : IpLiterals} {host : String} {read : VlessAddress} {b : Bytes}
    (hne : b ≠ []) (haddr : vlessAddressBytes addr = atype::b)
    (hread : readAddress (b++payload) atype = some (read,b.length)) (hden : Denotes ips host read) :
    RoundTrips ips host port payload
      (vlessParseRequest (vlessBuildRequest uuid port addr payload) (some uuid)) := by
  have happ : vlessAddressBytes addr++payload = atype::(b++payload) := by
    rw [haddr,cons_append]
  have hlen : ¬22+(b++payload).length < 22+b.length := by
    rw [length_append]
    omega
  rw [vlessParseRequest_build uuid port (by simp [hne]) happ,hread,elim_some]
  simp only [if_neg hlen,drop_left]
  exact ⟨_,rfl,rfl,rfl,hden,rfl⟩

variable {ips : IpLiterals} {host : String}

lemma textBytes_eq_ofText (s : String) : textBytes s = ofText s := rfl

/-- A name comes through exactly when it fits its length byte: the bytes of a longer one are cut,
and what is left of them is not UTF-8 or another name. -/
lemma name_roundTrips_iff (h4 : ips.v4 host = none) (h6 : ips.v6 host = none) :
    RoundTrips ips host port payload
        (vlessParseRequest (vlessBuildRequest uuid port (.domain host) payload) (some uuid)) ↔
      (textBytes host).length ≤ 255 := by
  have hden (addr : VlessAddress) : Denotes ips host addr ↔ addr.hostString = host := by
    simp only [Denotes,h4,h6]
  constructor
  · rintro ⟨req,hreq,-,-,haddr,-⟩
    by_contra hlong
    have hmin : min (textBytes host).length 255 = 255 := by omega
    have hcut : ((textBytes host).take 255).length = 255 := by
      rw [length_take]
      omega
    have happ : vlessAddressBytes (.domain host)++payload =
        2::(UInt8.ofNat ((textBytes host).take 255).length::(textBytes host).take
          255++payload) := by
      simp only [vlessAddressBytes,hmin,hcut,cons_append]
    rw [vlessParseRequest_build uuid port (by simp) happ,readAddress_name payload hcut.le] at hreq
    cases hdec : fromUtf8 ((textBytes host).take 255) with
    | none => simp [hdec] at hreq
    | some s =>
      have hne : s ≠ host := by
        rintro rfl
        rw [textBytes_eq_ofText] at hdec hlong
        exact fromUtf8_take_ne (not_le.mp hlong) hdec
      simp only [hdec,map_some,elim_some] at hreq
      split_ifs at hreq
      simp only [Verdict.ready.injEq] at hreq
      subst hreq
      exact hne ((hden _).mp haddr)
  · intro hshort
    have hmin : min (textBytes host).length 255 = (textBytes host).length := by omega
    have haddr : vlessAddressBytes (.domain host) =
        2::(UInt8.ofNat (textBytes host).length::textBytes host) := by
      simp only [vlessAddressBytes,hmin,take_length]
    have hread : readAddress ((UInt8.ofNat (textBytes host).length::textBytes host)++payload) 2 =
        some (.domain host,(UInt8.ofNat (textBytes host).length::textBytes host).length) := by
      rw [readAddress_name payload hshort,textBytes_eq_ofText,fromUtf8_ofText,map_some,
        length_cons,Nat.add_comm]
    exact roundTrips_of_read uuid port (by simp) haddr hread ((hden _).mpr rfl)

/-- A first chunk is read by the server as the client meant it exactly when the host is an IP
literal or has at most 255 bytes. -/
theorem vless_round_trip_iff (c : Crypto) (ips : IpLiterals) (params : WireParams) (host : String)
    (port : UInt16) (payload : Bytes) {h : Bytes}
    (hh : vlessFirstChunk ips host c params port payload = .ok h) :
    ∃ u uuid, params.uuid = some u ∧ c.parseUuid (Text.trim u) = .ok uuid ∧
      (RoundTrips ips host port payload (vlessParseRequest h (some uuid)) ↔
        IsIpLiteral ips host ∨ (textBytes host).length ≤ 255) := by
  cases hu : params.uuid with
  | none => simp [vlessFirstChunk,hu] at hh
  | some u =>
    cases hid : c.parseUuid (Text.trim u) with
    | error e => simp [vlessFirstChunk,hu,hid] at hh
    | ok uuid =>
      refine ⟨u,uuid,rfl,hid,?_⟩
      simp only [vlessFirstChunk,hu,hid,Except.ok.injEq] at hh
      subst hh
      cases h4 : ips.v4 host with
      | some ip =>
        have haddr : hostToVlessAddr ips host = .ipV4 ip.toList := by simp only [hostToVlessAddr,h4]
        have hne : ip.toList ≠ [] := ne_nil_of_length_pos (by simp)
        have hread : readAddress (ip.toList++payload) 1 = some
            (.ipV4 ip.toList,ip.toList.length) := by
          rw [readAddress_ipV4,ip.toList_length]
        refine iff_of_true ?_ (.inl (.inl (by rw [h4]; rfl)))
        rw [haddr]
        exact roundTrips_of_read uuid port hne rfl hread (by simp only [Denotes,h4])
      | none =>
        cases h6 : ips.v6 host with
        | some ip =>
          have haddr : hostToVlessAddr ips host = .ipV6 ip.toList := by
            simp only [hostToVlessAddr,h4,h6]
          have hne : ip.toList ≠ [] := ne_nil_of_length_pos (by simp)
          have hread : readAddress (ip.toList++payload) 3 =
              some (.ipV6 ip.toList,ip.toList.length) := by
            rw [readAddress_ipV6,ip.toList_length]
          refine iff_of_true ?_ (.inl (.inr (by rw [h6]; rfl)))
          rw [haddr]
          exact roundTrips_of_read uuid port hne rfl hread (by simp only [Denotes,h4,h6])
        | none =>
          have haddr : hostToVlessAddr ips host = .domain host := by
            simp only [hostToVlessAddr,h4,h6]
          have hname : ¬IsIpLiteral ips host := by simp [IsIpLiteral,h4,h6]
          rw [haddr,name_roundTrips_iff uuid port h4 h6,or_iff_right hname]

def zeroCrypto : Crypto where
  parseUuid _ := .ok (List.Vector.replicate 16 0)
  sha224 _ := []
  md5 _ := []
  aes128GcmDecrypt _ _ _ := .error ""
  cipherKind _ := none
  opensslBytesToKey _ _ := []
  decryptPacket _ _ _ _ _ := none

/-- No text is taken for an address. -/
def namesOnly : IpLiterals := ⟨fun _ => none,fun _ => none⟩

def uuidOnly : WireParams := ⟨some "00000000-0000-0000-0000-000000000000",none,none,none,none⟩

def longName : String := String.ofList (List.replicate 256 'a')

theorem vless_round_trip_short :
    ∃ u uuid, uuidOnly.uuid = some u ∧ zeroCrypto.parseUuid (Text.trim u) = .ok uuid ∧
      RoundTrips namesOnly "host" 80 [1,2] (vlessParseRequest
        (vlessBuildRequest (List.Vector.replicate 16 0) 80 (.domain "host") [1,2])
          (some uuid)) := by
  obtain ⟨u,uuid,hu,hid,hiff⟩ := vless_round_trip_iff zeroCrypto namesOnly uuidOnly "host" 80 [1,2]
    (h := vlessBuildRequest (List.Vector.replicate 16 0) 80 (.domain "host") [1,2]) rfl
  exact ⟨u,uuid,hu,hid,hiff.mpr (.inr (by decide +kernel))⟩

theorem vless_long_name_cut :
    ∃ h, vlessFirstChunk namesOnly longName zeroCrypto uuidOnly 80 [] = .ok h ∧
      ∃ req, vlessParseRequest h (some (List.Vector.replicate 16 0)) = .ready req ∧
        req.addr.hostString ≠ longName ∧ (textBytes req.addr.hostString).length = 255 := by
  refine ⟨vlessBuildRequest (List.Vector.replicate 16 0) 80 (.domain longName) [],rfl,
    ⟨⟨true,80,.domain (String.ofList (List.replicate 255 'a')),278⟩,[]⟩,?_,?_,?_⟩
  all_goals decide +kernel

end PirateServer.Wire
