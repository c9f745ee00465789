import PirateServer.Wire.Tunnel

/-! The allowlist on every path: each address that a tunnel connects to has a host that the
allowlist lets through, and nothing a tunnel does depends on what other addresses would answer. -/
namespace PirateServer.Wire
open Lib Lib.Bytes ProxySession

/-- The host of an address, as the resolution of a `host:port` text cuts it. -/
def hostPart (addr : String) : String := Text.beforeLast ':' addr

def Permitted (list host : String) : Prop :=
  ∃ entry ∈ listed (Text.trim list), Text.toAsciiLowercase host = entry ∨
    ∃ t, Text.toAsciiLowercase host = t++("."++entry)

lemma free_repr (n : ℕ) : Text.Free ':' n.repr := by
  intro hc
  rw [Nat.toList_repr] at hc
  have hd := Nat.isDigit_of_mem_toDigits (by decide) (by decide) hc
  revert hd
  decide

@[simp] lemma hostPart_upstream (host : String) (port : ℕ) : hostPart (upstream host port) = host :=
  Text.beforeLast_append (free_repr port) host

variable {host : String}

lemma permitted_of_hostAllowed {list : String} (hset : Text.trim list ∉ ["","*"])
    (h : hostAllowed (some list) host = .ok ()) : Permitted list host := by
  simp only [List.mem_cons,List.not_mem_nil,or_false] at hset
  unfold hostAllowed at h
  dsimp only at h
  rw [if_neg hset] at h
  split_ifs at h with hany
  obtain ⟨entry,hmem,hentry⟩ := List.any_eq_true.mp hany
  simp only [Bool.or_eq_true,decide_eq_true_eq] at hentry
  refine ⟨entry,hmem,hentry.imp id Text.append_of_endsWith⟩

def Outcome.addresses : Outcome → List String
  | reading _ | closed _ => []
  | unreachable host port _ | bridged host port _ _ => [upstream host port]

def QuicOutcome.addresses : QuicOutcome → List String
  | healthy | refused _ => []
  | unreachable host port _ | bridged host port => [upstream host port]

def Ending.addresses : Ending → List String
  | grpc o => o.addresses
  | quic o => o.addresses

def Checked (allow : Option String) (addr : String) : Prop :=
  ∃ host port, addr = upstream host port ∧ hostAllowed allow host = .ok ()

/-- The networks have the same allowlist and answer alike at addresses that passed the check. -/
structure Net.Agree (net net' : Net) : Prop where
  allow_eq : net'.allow = net.allow
  connect_eq : ∀ addr, Checked net.allow addr → net'.connect addr = net.connect addr

variable {net' : Net}

lemma Net.Agree.upstream {net : Net} (h : net.Agree net') (port : ℕ)
    (hhost : hostAllowed net.allow host = .ok ()) :
    net'.connect (upstream host port) = net.connect (upstream host port) :=
  h.connect_eq _ ⟨host,port,rfl,hhost⟩

variable {addr : String} {net : Net}

lemma dial_addresses {o : Opening} {buf : Bytes} {rest : List Item}
    (h : addr ∈ (o.dial net buf rest).addresses) : Checked net.allow addr := by
  unfold Opening.dial at h
  split at h
  · cases h
  · rename_i hallow
    split at h <;> exact ⟨o.host,o.port,List.mem_singleton.mp h,hallow⟩

lemma dial_agree (h : net.Agree net') (o : Opening) (buf : Bytes)
    (rest : List Item) : o.dial net' buf rest = o.dial net buf rest := by
  unfold Opening.dial
  rw [h.allow_eq]
  cases hallow : allowlist net.allow o.host with
  | error e => rfl
  | ok u => simp only [h.upstream o.port hallow]

variable {items : List Item}

lemma run_addresses {hs : Handshake} {buf : Bytes}
    (h : addr ∈ (hs.run net buf items).addresses) : Checked net.allow addr := by
  fun_induction Handshake.run hs net buf items with
  | case6 buf rest ih => exact ih h
  | case8 buf d rest hd n hp ih => exact ih h
  | case10 buf d rest hd o hp => exact dial_addresses h
  | _ => cases h

lemma run_agree (h : net.Agree net') (hs : Handshake) (items : List Item)
    (buf : Bytes) : hs.run net' buf items = hs.run net buf items := by
  fun_induction Handshake.run hs net buf items with
  | case6 buf rest ih => exact ih
  | case7 buf d rest hd =>
    rw [Handshake.run,if_pos hd]
  | case8 buf d rest hd n hp ih =>
    rw [Handshake.run,if_neg hd,hp]
    exact ih
  | case9 buf d rest hd m hp => rw [Handshake.run,if_neg hd,hp]
  | case10 buf d rest hd o hp =>
    rw [Handshake.run,if_neg hd,hp]
    exact dial_agree h o _ rest
  | _ => rfl

variable {vm : VmessMoment}

lemma runWireRelay_addresses {c : Crypto} {wireMode : ℤ} {params : WireParams}
    (h : addr ∈ (runWireRelay c net vm wireMode params items).addresses) :
    Checked net.allow addr := by
  obtain ⟨reply,hreply⟩ | ⟨hs,hrun⟩ := runWireRelay_eq c vm wireMode params
  · rw [hreply] at h
    cases h
  · rw [hrun] at h
    exact run_addresses h

lemma runWireRelay_agree (h : net.Agree net') (c : Crypto) (vm : VmessMoment)
    (wireMode : ℤ) (params : WireParams) (items : List Item) :
    runWireRelay c net' vm wireMode params items = runWireRelay c net vm wireMode params items := by
  obtain ⟨reply,hreply⟩ | ⟨hs,hrun⟩ := runWireRelay_eq c vm wireMode params
  · rw [hreply,hreply]
  · rw [hrun,hrun]
    exact run_agree h hs items []

def Start.HostChecked (allow : Option String) : Start → Prop
  | wire _ _ => True
  | raw host _ | quic host _ => hostAllowed allow host = .ok ()

variable {start : Start}

lemma proxyTunnel_hostChecked {s : Server} {o : ProxyOpen}
    (h : proxyTunnel s o = .ok start) : start.HostChecked s.net.allow := by
  cases proxyTunnel_started h with
  | raw mode checked session | quic mode checked session => exact checked
  | wire mode config session => trivial

lemma runRawRelay_addresses {port : ℕ} (hhost : hostAllowed net.allow host = .ok ())
    (h : addr ∈ (runRawRelay net host port items).addresses) : Checked net.allow addr := by
  unfold runRawRelay at h
  split at h <;> exact ⟨host,port,List.mem_singleton.mp h,hhost⟩

variable {frame : StreamInitFrame}

lemma runRawQuicRelay_addresses {port : ℕ} (hhost : hostAllowed net.allow host = .ok ())
    (h : addr ∈ (runRawQuicRelay net host port frame).addresses) : Checked net.allow addr := by
  unfold runRawQuicRelay at h
  split_ifs at h
  · cases h
  · cases h
  · cases h
  · split at h <;> exact ⟨host,port,List.mem_singleton.mp h,hhost⟩

lemma relay_addresses {c : Crypto} (hstart : start.HostChecked net.allow)
    (h : addr ∈ (start.relay c net vm items frame).addresses) : Checked net.allow addr := by
  cases start with
  | wire wireMode params => exact runWireRelay_addresses h
  | raw host port => exact runRawRelay_addresses hstart h
  | quic host port => exact runRawQuicRelay_addresses hstart h

lemma relay_agree (h : net.Agree net')
    (hstart : start.HostChecked net.allow) (c : Crypto) (vm : VmessMoment) (items : List Item)
    (frame : StreamInitFrame) :
    start.relay c net' vm items frame = start.relay c net vm items frame := by
  cases start with
  | wire wireMode params =>
    exact congrArg Ending.grpc (runWireRelay_agree h c vm wireMode params items)
  | raw host port => simp only [Start.relay,runRawRelay,h.upstream port hstart]
  | quic host port => simp only [Start.relay,runRawQuicRelay,h.upstream port hstart]

/-- With an allowlist, every address that a tunnel connects to, in whatever mode and whatever the
client sends, has a host that passed the check and is listed or lies below a listed one; and the
answers of all other addresses never matter, so no other address is asked. -/
theorem connections_permitted (s : Server) (list : String) (hallow : s.net.allow = some list)
    (hset : Text.trim list ∉ ["","*"]) (o : ProxyOpen) (start : Start)
    (hstart : proxyTunnel s o = .ok start) (vm : VmessMoment) (items : List Item)
    (frame : StreamInitFrame) : (∀ addr ∈ (start.relay s.crypto s.net vm items frame).addresses,
      hostAllowed s.net.allow (hostPart addr) = .ok () ∧ Permitted list (hostPart addr)) ∧
    ∀ net' : Net, net'.allow = s.net.allow →
      (∀ addr, Permitted list (hostPart addr) → net'.connect addr = s.net.connect addr) →
      start.relay s.crypto net' vm items frame = start.relay s.crypto s.net vm items frame := by
  have hchecked := proxyTunnel_hostChecked hstart
  have hpermitted : ∀ {addr}, Checked s.net.allow addr →
      hostAllowed s.net.allow (hostPart addr) = .ok () ∧ Permitted list (hostPart addr) := by
    rintro addr ⟨host,port,rfl,hhost⟩
    rw [hostPart_upstream]
    refine ⟨hhost,permitted_of_hostAllowed hset ?_⟩
    rw [← hallow]
    exact hhost
  refine ⟨fun addr haddr => hpermitted (relay_addresses hchecked haddr),fun net' heq hconnect => ?_⟩
  exact relay_agree ⟨heq,fun addr h => hconnect addr
    (hpermitted h).2⟩ hchecked s.crypto vm items frame

/-! A server that lets tunnels go to one host and below one domain. -/

def listServer : Server where
  crypto := sampleCrypto
  net := ⟨some "Example.com, 10.0.0.1",fun _ => .ok ()⟩
  zones := ⟨fun _ => ⟨1,0⟩,fun _ => none⟩
  paramsJson _ := .ok noParams
  policyJson _ := .error "EOF while parsing a value"
  sha256Hex t := t
  requireSessionToken := none
  fetchByTokenSha256 := none
  pubkey := none
  now := 0
  quicReady := true

def socks5Open : ProxyOpen := ⟨"",0,"",some 5,some "\x7b\x7d",none⟩

def quicOpen : ProxyOpen := ⟨" api.EXAMPLE.com ",443,"",none,none,some true⟩

def connectFrame : StreamInitFrame :=
  ⟨1,[],2,[97,112,105,46,101,120,97,109,112,108,101,46,99,111,109],443⟩

theorem connections_permitted_samples :
    (Start.relay sampleCrypto listServer.net sampleMoment (dataItems [socks5Hello]) connectFrame
      (.wire 5 noParams)).addresses = ["10.0.0.1:80"] ∧
    Permitted "Example.com, 10.0.0.1" "10.0.0.1" ∧
    (Start.relay sampleCrypto listServer.net sampleMoment [] connectFrame
      (.quic "api.EXAMPLE.com" 443)).addresses = ["api.EXAMPLE.com:443"] ∧
    Permitted "Example.com, 10.0.0.1" "api.EXAMPLE.com" := by
  have h1 : proxyTunnel listServer socks5Open = .ok (.wire 5 noParams) := by decide +kernel
  have h2 : proxyTunnel listServer quicOpen = .ok (.quic "api.EXAMPLE.com" 443) := by decide +kernel
  have p1 := (connections_permitted listServer _ rfl
      (by decide +kernel) socks5Open _ h1 sampleMoment
    (dataItems [socks5Hello]) connectFrame).1 "10.0.0.1:80" (by decide +kernel)
  have p2 := (connections_permitted listServer _ rfl (by decide +kernel) quicOpen _ h2 sampleMoment
    [] connectFrame).1 "api.EXAMPLE.com:443" (by decide +kernel)
  exact ⟨by decide +kernel,p1.2,by decide +kernel,p2.2⟩

end PirateServer.Wire
