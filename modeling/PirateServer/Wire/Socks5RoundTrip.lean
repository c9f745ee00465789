import PirateServer.Wire.TrojanRoundTrip

/-! The pipelined SOCKS5 greeting. The client always offers the method without authentication and
sends no credentials; the server asks for them exactly when the parameters have both a name and a
password. The address has the layout of a Trojan address, and its reader accepts more. -/
namespace PirateServer.Wire
open Lib Lib.Bytes List

def socks5BuildPipelineConnect (ips : IpLiterals) (host : String) (port : ℕ) :
    Except WireError Bytes :=
  let out := [5,1,0]++[5,1,0]
  match ips.v4 host with
  | some ip => .ok (out++1::ip.toList++toBe 2 port)
  | none =>
    match ips.v6 host with
    | some ip => .ok (out++4::ip.toList++toBe 2 port)
    | none =>
      let b := textBytes host
      if 255 < b.length then .error (.protocol "socks5 domain too long")
      else .ok (out++3::UInt8.ofNat b.length::b++toBe 2 port)

/-- `wire_tunnel_first_chunk` in the mode `Socks5`: the parameters are not used. -/
def socks5FirstChunk (ips : IpLiterals) (_params : WireParams) (host : String) (port : UInt16)
    (tail : Bytes) : Except WireError Bytes :=
  (socks5BuildPipelineConnect ips host port.toNat).map (·++tail)

/-- `run_socks5_relay` parses with the authentication that the parameters ask for. -/
def socks5RelayParse (params : WireParams) (buf : Bytes) : Verdict String Socks5Ready :=
  socks5ServerParse buf (params.username.isSome && params.password.isSome) params.username
    params.password

/-- The two clients write an address alike; only the text of the error differs. -/
lemma socks5BuildPipelineConnect_ok {ips : IpLiterals} {host : String} {port : ℕ} {h : Bytes}
    (hh : socks5BuildPipelineConnect ips host port = .ok h) :
    ∃ a, trojanBuildAddress ips ⟨host,port⟩ = .ok a ∧ h = [5,1,0,5,1,0]++a := by
  cases h4 : ips.v4 host with
  | some ip =>
    simp only [socks5BuildPipelineConnect,h4,Except.ok.injEq] at hh
    exact ⟨_,by simp only [trojanBuildAddress,h4]; rfl,by rw [← hh]; rfl⟩
  | none =>
    cases h6 : ips.v6 host with
    | some ip =>
      simp only [socks5BuildPipelineConnect,h4,h6,Except.ok.injEq] at hh
      exact ⟨_,by simp only [trojanBuildAddress,h4,h6]; rfl,by rw [← hh]; rfl⟩
    | none =>
      simp only [socks5BuildPipelineConnect,h4,h6] at hh
      split_ifs at hh with hlong
      cases hh
      exact ⟨_,by simp only [trojanBuildAddress,h4,h6,if_neg hlong]; rfl,rfl⟩

variable {addr : TrojanAddr}

lemma readAddr_of_trojanParseAddress {buf : Bytes} {off n : ℕ}
    (h : trojanParseAddress (buf.drop off) = .ok (some (addr,n))) :
    readAddr buf off = some (addr.host,off+n,addr.port) := by
  simp only [trojanParseAddress,byteAt_drop,slice_drop,wordAt_drop,length_drop,Nat.add_zero]
    at h
  unfold readAddr
  split_ifs at h with h3 h1 h7 hname hfit hsix h19
  · cases h
  · cases h
  · cases h
    rw [if_neg (by omega),if_pos h1,if_neg (by omega)]
  · cases h
  · split at h
    · cases h
    · rename_i host hhost
      cases h
      rw [if_neg (by omega),if_neg h1,if_pos hname,if_neg (by omega)]
      have hroom : ¬buf.length < off+2+(byteAt buf (off+1)).toNat+2 := by omega
      simp only [if_neg hroom,fromUtf8Lossy_eq hhost]
      simp only [Nat.add_assoc]
  · cases h
  · cases h
    rw [if_neg (by omega),if_neg h1,if_neg hname,if_pos hsix,if_neg (by omega)]

lemma socks5Request_greeting {a rest : Bytes} {n : ℕ}
    (ha : trojanParseAddress (a++rest) = .ok (some (addr,n))) :
    socks5Request ([5,1,0,5,1,0]++a++rest) 3 = .ready ⟨⟨addr.host,addr.port⟩,6+n⟩ := by
  have hlong : 3 ≤ (a++rest).length := by
    by_contra hshort
    rw [trojanParseAddress,if_pos (by omega)] at ha
    cases ha
  have hdrop : ([5,1,0,5,1,0]++a++rest).drop 6 = a++rest := rfl
  have hread := readAddr_of_trojanParseAddress (hdrop ▸ ha)
  have hlen : ¬([5,1,0,5,1,0]++a++rest).length < 3+4 := by
    simp only [cons_append,length_cons,nil_append]
    omega
  have hversion : byteAt ([5,1,0,5,1,0]++a++rest) 3 = 5 := rfl
  have hconnect : byteAt ([5,1,0,5,1,0]++a++rest) (3+1) = 1 := rfl
  simp only [socks5Request,if_neg hlen,hversion,hconnect,ne_eq,not_true,if_false,
    show 3+3 = 6 from rfl,hread,Option.elim_some]

lemma socks5ServerParse_greeting (auth : Bool) (user pass : Option String) (a rest : Bytes) :
    socks5ServerParse ([5,1,0,5,1,0]++a++rest) auth user pass =
      if auth = true then .invalid "socks5: username auth required"
      else socks5Request ([5,1,0,5,1,0]++a++rest) 3 := by
  have hlen : ([5,1,0,5,1,0]++a++rest).length = 6+(a++rest).length := by
    simp only [cons_append,length_cons,nil_append]
    omega
  have hversion : byteAt ([5,1,0,5,1,0]++a++rest) 0 = 5 := rfl
  have hcount : (byteAt ([5,1,0,5,1,0]++a++rest) 1).toNat = 1 := rfl
  have hmethods : slice ([5,1,0,5,1,0]++a++rest) 2 1 = [0] := rfl
  have hlong : ¬6+(a++rest).length < 3 := by omega
  have hnone : (2 : UInt8) ∉ [0] := by decide
  have hopen : ¬(0 : UInt8) ∉ [0] := by decide
  simp only [socks5ServerParse,hlen,if_neg hlong,hversion,ne_eq,not_true,if_false,hcount,hmethods,
    if_pos hnone,if_neg hopen]

/-- The server and the client agree exactly when the parameters lack a name or a password. -/
theorem socks5_agreement_iff (ips : IpLiterals) (params : WireParams) (host : String)
    (port : UInt16)
    (tail : Bytes) {h : Bytes} (hh : socks5FirstChunk ips params host port [] = .ok h) :
    socks5RelayParse params (h++tail) = .ready ⟨⟨hostText ips host,port.toNat⟩,h.length⟩ ↔
      ¬(params.username.isSome = true ∧ params.password.isSome = true) := by
  simp only [socks5FirstChunk,Except.map] at hh
  split at hh
  · cases hh
  rename_i g hg
  cases hh
  obtain ⟨a,ha,rfl⟩ := socks5BuildPipelineConnect_ok hg
  have hparse := trojanParseAddress_build tail port.toNat_lt ha
  have hlen : ([5,1,0,5,1,0]++a).length = 6+a.length := by
    simp only [cons_append,length_cons,nil_append]
    omega
  rw [append_nil,socks5RelayParse,socks5ServerParse_greeting,socks5Request_greeting hparse,
    hlen,← Bool.and_eq_true]
  by_cases hauth : (params.username.isSome && params.password.isSome) = true
  · rw [if_pos hauth]
    exact iff_of_false (by intro h; cases h) (fun h => h hauth)
  · rw [if_neg hauth]
    exact iff_of_true rfl hauth

theorem socks5_agreement_open : ∃ h, socks5FirstChunk namesOnly uuidOnly "host" 80 [] = .ok h ∧
      socks5RelayParse uuidOnly (h++[1,2]) = .ready ⟨⟨"host",80⟩,h.length⟩ :=
  ⟨_,rfl,(socks5_agreement_iff namesOnly uuidOnly "host" 80 [1,2] rfl).mpr (by decide)⟩

theorem socks5_credentials_refused :
    ∃ h, socks5FirstChunk namesOnly ⟨none,some "secret",none,none,some "user"⟩ "host" 80
      [] = .ok h ∧
      socks5RelayParse ⟨none,some "secret",none,none,some "user"⟩ h =
        .invalid "socks5: username auth required" :=
  ⟨_,rfl,by decide +kernel⟩

end PirateServer.Wire
