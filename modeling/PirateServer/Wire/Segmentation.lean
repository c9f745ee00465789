import PirateServer.Wire.Relay

/-! Where the client's bytes are cut into `Data` messages does not matter, as long as no message
is larger than the relays accept: the same verdict, the same target, the same forwarded bytes. -/
namespace PirateServer.Wire
open Lib Lib.Bytes ProxySession List

/-- The state of the replay cache and the clocks when a VMess header is complete. -/
structure VmessMoment where
  cache : ReplayCache
  clock : ℕ
  now : Int64

/-- The relay that `proxy_tunnel` starts for a wire mode. -/
def runWireRelay (c : Crypto) (net : Net) (vm : VmessMoment) (wireMode : ℤ) (params : WireParams)
    (items : List Item) : Outcome :=
  match wireMode with
  | 1 => runVlessRelay c net params items
  | 2 => runTrojanRelay c net params items
  | 3 => runVmessRelay c net params items vm.cache vm.clock vm.now
  | 4 => runShadowsocksRelay c net params items
  | 5 => runSocks5Relay net params items
  | _ => .closed (refusal "unknown wire_mode")

/-- What `t_in` of the bridge writes to the target when the tunnel has no managed session. -/
def forwarded : List Item → Bytes
  | .msg (.data d)::rest => if MAX_PROXY_CHUNK < d.length then [] else d++forwarded rest
  | .msg .empty::rest => forwarded rest
  | _ => []

/-- What the client and the target see of a relay. -/
inductive Summary
  | reading (received : Bytes)
  | closed (reply : Option Reply)
  | unreachable (host : String) (port : ℕ) (error : String)
  | bridged (host : String) (port : ℕ) (stream : Bytes)
  deriving DecidableEq, Repr

def Outcome.summary : Outcome → Summary
  | reading buf => .reading buf
  | closed reply => .closed reply
  | unreachable host port error => .unreachable host port error
  | bridged host port initial rest => .bridged host port (initial++forwarded rest)

/-- A stream of `Data` messages. -/
def dataItems (cs : List Bytes) : List Item := cs.map (fun d => .msg (.data d))

/-- No message is too large. -/
def Fits (cs : List Bytes) : Prop := ∀ d ∈ cs, d.length ≤ MAX_PROXY_CHUNK

variable {cs : List Bytes}

lemma forwarded_dataItems (h : Fits cs) : forwarded (dataItems cs) = cs.flatten := by
  induction cs with
  | nil => rfl
  | cons d cs ih =>
    have hd : ¬MAX_PROXY_CHUNK < d.length := not_lt.mpr (h d (by simp))
    simp only [dataItems,map_cons,forwarded,if_neg hd,flatten_cons]
    rw [← ih (fun e he => h e (by simp [he]))]
    rfl

variable (hs : Handshake) (net : Net)

lemma run_dataItems (h : Fits cs) (buf : Bytes) :
    hs.run net buf (dataItems cs) = match feed hs.parse buf cs with
      | .waiting b => .reading b
      | .refused m => .closed (refusal m)
      | .accepted o b rest => o.dial net b (dataItems rest) := by
  induction cs generalizing buf with
  | nil => rfl
  | cons d cs ih =>
    have hd : ¬(hs.limited = true ∧ MAX_PROXY_CHUNK < d.length) :=
      fun hn => absurd (h d (by simp)) (not_le.mpr hn.2)
    have htail := ih (fun e he => h e (by simp [he])) (buf++d)
    rw [dataItems,map_cons,Handshake.run,if_neg hd,feed]
    cases hs.parse (buf++d) with
    | needMore n => exact htail
    | invalid m => rfl
    | ready o => rfl

lemma feed_rest {p : Bytes → Verdict String Opening} {buf b : Bytes} {rest : List Bytes}
    {o : Opening} (h : feed p buf cs = .accepted o b rest) : ∀ d ∈ rest, d ∈ cs := by
  induction cs generalizing buf with
  | nil => cases h
  | cons d cs ih =>
    rw [feed] at h
    cases hv : p (buf++d) with
    | needMore n =>
      rw [hv] at h
      intro e he
      exact mem_cons_of_mem d (ih h e he)
    | invalid m =>
      rw [hv] at h
      cases h
    | ready r =>
      rw [hv] at h
      cases h
      exact fun e he => mem_cons_of_mem d he

/-- What a relay makes of a whole stream, whatever messages it comes in. -/
def Handshake.verdict (stream : Bytes) : Summary :=
  match hs.parse stream with
  | .needMore _ => .reading stream
  | .invalid m => .closed (refusal m)
  | .ready o => (o.dial net stream []).summary

lemma run_summary (hne : cs ≠ []) (h : Fits cs) :
    (hs.run net [] (dataItems cs)).summary = hs.verdict net cs.flatten := by
  rw [run_dataItems hs net h]
  have hspec := feed_spec hs.stable [] cs (fun hnil => absurd hnil hne)
  unfold Handshake.verdict
  cases hf : feed hs.parse [] cs with
  | waiting b =>
    simp only [hf,nil_append] at hspec
    obtain ⟨rfl,hw⟩ := hspec
    cases hp : hs.parse cs.flatten with
    | needMore n => rfl
    | invalid m | ready o =>
      rw [hp] at hw
      cases hw
  | refused m =>
    simp only [hf,nil_append] at hspec
    rw [hspec]
    rfl
  | accepted o b rest =>
    simp only [hf,nil_append] at hspec
    obtain ⟨hwhole,hb,hcut⟩ := hspec
    have hrest : Fits rest := fun d hd => h d (feed_rest hf d hd)
    -- the bytes after the handshake are the same, however many of them were already there
    have hle : o.consumed ≤ b.length := hs.consumed_le b o hb
    have hdrop : b.drop o.consumed++rest.flatten = cs.flatten.drop o.consumed := by
      rw [← hcut,drop_append hle]
    rw [hwhole]
    simp only [Opening.dial]
    cases allowlist net.allow o.host with
    | error e => rfl
    | ok u =>
      simp only
      cases net.connect (upstream o.host o.port) with
      | error e => rfl
      | ok u =>
        simp only [Outcome.summary,forwarded_dataItems hrest,append_assoc,hdrop]
        simp [forwarded]

/-- Two ways of cutting one stream into messages that fit. -/
structure SameStream (cs cs' : List Bytes) : Prop where
  nonempty : cs ≠ [] ∧ cs' ≠ []
  fits : Fits cs ∧ Fits cs'
  flatten_eq : cs.flatten = cs'.flatten

variable {cs' : List Bytes}

lemma run_sameStream (h : SameStream cs cs') :
    (hs.run net [] (dataItems cs)).summary = (hs.run net [] (dataItems cs')).summary := by
  rw [run_summary hs net h.nonempty.1 h.fits.1,run_summary hs net h.nonempty.2 h.fits.2,
    h.flatten_eq]

lemma runWireRelay_eq (c : Crypto) (vm : VmessMoment) (wireMode : ℤ) (params : WireParams) :
    (∃ reply, ∀ net items, runWireRelay c net vm wireMode params items = .closed reply) ∨
      ∃ hs : Handshake, ∀ net items,
        runWireRelay c net vm wireMode params items = hs.run net [] items := by
  unfold runWireRelay
  split
  · unfold runVlessRelay
    split
    · exact .inl ⟨_,fun _ _ => rfl⟩
    · split
      · exact .inl ⟨_,fun _ _ => rfl⟩
      · exact .inr ⟨_,fun _ _ => rfl⟩
  · unfold runTrojanRelay
    split
    · exact .inl ⟨_,fun _ _ => rfl⟩
    · exact .inr ⟨_,fun _ _ => rfl⟩
  · unfold runVmessRelay
    split
    · exact .inl ⟨_,fun _ _ => rfl⟩
    · split
      · exact .inl ⟨_,fun _ _ => rfl⟩
      · exact .inr ⟨_,fun _ _ => rfl⟩
  · unfold runShadowsocksRelay
    split
    · exact .inl ⟨_,fun _ _ => rfl⟩
    · split
      · exact .inl ⟨_,fun _ _ => rfl⟩
      · exact .inr ⟨_,fun _ _ => rfl⟩
  · exact .inr ⟨_,fun _ _ => rfl⟩
  · exact .inl ⟨_,fun _ _ => rfl⟩

lemma runWireRelay_sameStream (c : Crypto) (net : Net) (vm : VmessMoment) (wireMode : ℤ)
    (params : WireParams) (h : SameStream cs cs') :
    (runWireRelay c net vm wireMode params (dataItems cs)).summary =
      (runWireRelay c net vm wireMode params (dataItems cs')).summary := by
  obtain ⟨reply,hreply⟩ | ⟨hs,hrun⟩ := runWireRelay_eq c vm wireMode params
  · rw [hreply,hreply]
  · rw [hrun,hrun]
    exact run_sameStream hs net h

/-- What the parser has found in some bytes, up to `key`, or found wrong with them, it finds in
every extension of them. -/
def Persistent {ε ρ κ : Type} (key : ρ → κ) (p : Bytes → Verdict ε ρ) : Prop :=
  ∀ b x, (∀ r, p b = .ready r → ∃ r', p (b++x) = .ready r' ∧ key r' = key r) ∧
    (∀ e, p b = .invalid e → p (b++x) = .invalid e)

lemma Persistent.of_stable {ε ρ : Type} {p : Bytes → Verdict ε ρ} (h : Stable p) :
    Persistent id p := by
  intro b x
  have hle := h b x
  constructor
  · intro r hr
    rw [hr] at hle
    exact ⟨r,hle.ready,rfl⟩
  · intro e he
    rw [he] at hle
    exact hle.invalid

lemma vlessParseRequest_persistent (expected : Option Uuid) :
    Persistent VlessRequest.toVlessHeader (fun buf => vlessParseRequest buf expected) := by
  intro b x
  have hle : (vlessHeader b expected).Le (vlessHeader (b++x) expected) :=
    vlessHeader_stable expected b x
  simp only [vlessParseRequest]
  cases hb : vlessHeader b expected with
  | needMore n => simp [Verdict.map]
  | invalid e =>
    rw [hb] at hle
    rw [hle.invalid]
    exact ⟨fun r hr => (by cases hr),fun e he => he⟩
  | ready h =>
    rw [hb] at hle
    rw [hle.ready]
    refine ⟨fun r hr => ?_,fun e he => (by cases he)⟩
    cases hr
    exact ⟨_,rfl,rfl⟩

/-- Every parser of a handshake sticks to its decision on every extension of its buffer, with the
same target, port and length; and every relay ends the same way with the same target and the same
forwarded bytes for any two ways of cutting one stream into messages of an accepted size. -/
theorem handshakes_independent_of_cuts (c : Crypto) :
    (∀ e, Persistent VlessRequest.toVlessHeader (fun buf => vlessParseRequest buf e)) ∧
    (∀ password, Persistent id (fun buf => trojanServerHandshake c buf password)) ∧
    (∀ now uuid, Persistent id (vmessParse c now uuid)) ∧
    (∀ auth user pass, Persistent id (fun buf => socks5ServerParse buf auth user pass)) ∧
    (∀ method password, Persistent id (fun buf => ssTcpServerHandshake c buf method password)) ∧
    ∀ net vm wireMode params (cs cs' : List Bytes), SameStream cs cs' →
      (runWireRelay c net vm wireMode params (dataItems cs)).summary =
        (runWireRelay c net vm wireMode params (dataItems cs')).summary :=
  ⟨vlessParseRequest_persistent,
    fun password => .of_stable (trojanServerHandshake_stable c password),
    fun now uuid => .of_stable (vmessParse_stable c now uuid),
    fun auth user pass => .of_stable (socks5ServerParse_stable auth user pass),
    fun method password => .of_stable (ssTcpServerHandshake_stable c method password),
    fun net vm wireMode params _ _ h => runWireRelay_sameStream c net vm wireMode params h⟩

/-! A client of the SOCKS5 relay, and one of the VLESS relay whose message is too large. -/

def sampleCrypto : Crypto where
  parseUuid s :=
    if s = "00000000-0000-0000-0000-000000000000" then .ok (List.Vector.replicate 16 0)
    else .error "invalid character"
  sha224 _ := []
  md5 _ := []
  aes128GcmDecrypt _ _ _ := .error "aead::Error"
  cipherKind _ := none
  opensslBytesToKey _ n := List.replicate n 0
  decryptPacket _ _ _ _ _ := none

/-- Every host may be reached, and can be. -/
def openNet : Net := ⟨none,fun _ => .ok ()⟩

def sampleMoment : VmessMoment := ⟨.new 120 50000,0,0⟩

def noParams : WireParams := ⟨none,none,none,none,none⟩

/-- A greeting without authentication and a CONNECT to 10.0.0.1:80. -/
def socks5Hello : Bytes := [5,1,0,5,1,0,1,10,0,0,1,0,80]

theorem handshakes_independent_of_cuts_socks5 :
    (runWireRelay sampleCrypto openNet sampleMoment 5 noParams
      (dataItems [socks5Hello,[1,2]])).summary = .bridged "10.0.0.1" 80 [1,2] ∧
    (runWireRelay sampleCrypto openNet sampleMoment 5 noParams
      (dataItems [socks5Hello,[1,2]])).summary =
      (runWireRelay sampleCrypto openNet sampleMoment 5 noParams
        (dataItems [socks5Hello.take 4,socks5Hello.drop 4++[1],[2]])).summary := by
  refine ⟨by decide +kernel,?_⟩
  refine (handshakes_independent_of_cuts sampleCrypto).2.2.2.2.2 openNet sampleMoment 5
    noParams _ _ ?_
  refine ⟨by decide,⟨?_,?_⟩,by decide⟩
  all_goals
    unfold Fits
    decide

def nilUuidParams : WireParams := ⟨some "00000000-0000-0000-0000-000000000000",none,none,none,none⟩

def vlessHello : Bytes := 0::List.replicate 16 0++[0,1,0,80,1,10,0,0,1]

def fullChunk : Bytes := List.replicate MAX_PROXY_CHUNK 0

lemma runVless_nilUuid (items : List Item) :
    runWireRelay sampleCrypto openNet sampleMoment 1 nilUuidParams items =
      (vlessHandshake (List.Vector.replicate 16 0)).run openNet [] items := by
  have hu : trimmed nilUuidParams.uuid = some "00000000-0000-0000-0000-000000000000" := by
    decide +kernel
  have hp : sampleCrypto.parseUuid "00000000-0000-0000-0000-000000000000" =
      .ok (List.Vector.replicate 16 0) := rfl
  have hr : runWireRelay sampleCrypto openNet sampleMoment 1 nilUuidParams items =
      runVlessRelay sampleCrypto openNet nilUuidParams items := rfl
  rw [hr]
  simp only [runVlessRelay,hu,hp]

lemma vlessHello_ready (rest : List Item) :
    runWireRelay sampleCrypto openNet sampleMoment 1 nilUuidParams
      (.msg (.data vlessHello)::rest) = .bridged "10.0.0.1" 80 [] rest := by
  have hp : (vlessHandshake (List.Vector.replicate 16 0)).parse ([]++vlessHello) =
      .ready ⟨"10.0.0.1",80,26,[]⟩ := by decide +kernel
  have hl : ¬((vlessHandshake (List.Vector.replicate 16 0)).limited = true ∧
      MAX_PROXY_CHUNK < vlessHello.length) := by decide
  rw [runVless_nilUuid,Handshake.run,if_neg hl,hp]
  rfl

lemma vlessHello_tooLarge : runWireRelay sampleCrypto openNet sampleMoment 1 nilUuidParams
    [.msg (.data (vlessHello++fullChunk))] = .closed (refusal "proxy chunk too large") := by
  have hl : (vlessHandshake (List.Vector.replicate 16 0)).limited = true ∧
      MAX_PROXY_CHUNK < (vlessHello++fullChunk).length := by
    refine ⟨rfl,?_⟩
    rw [length_append,fullChunk,length_replicate]
    decide
  rw [runVless_nilUuid,Handshake.run,if_pos hl]

theorem vless_cut_matters : ∃ cs cs' : List Bytes, cs.flatten = cs'.flatten ∧
    (runWireRelay sampleCrypto openNet sampleMoment 1 nilUuidParams (dataItems cs)).summary ≠
      (runWireRelay sampleCrypto openNet sampleMoment 1 nilUuidParams (dataItems cs')).summary := by
  refine ⟨[vlessHello++fullChunk],[vlessHello,fullChunk],by simp,?_⟩
  have h1 : dataItems [vlessHello++fullChunk] = [.msg (.data (vlessHello++fullChunk))] := rfl
  have h2 : dataItems [vlessHello,fullChunk] =
      .msg (.data vlessHello)::dataItems [fullChunk] := rfl
  rw [h1,h2,vlessHello_tooLarge,vlessHello_ready]
  exact fun h => by cases h

end PirateServer.Wire
