import PirateServer.Ingress.Config

/-! The client configuration that is exported for a session, next to the inbound that the
ingress server gets for it: both are read from the same columns, through different keys. -/
namespace PirateServer.Ingress
open Lib ProxySession Option

structure XrayExportOptions where
  serverAddress : String
  tlsServerName : Option String
  deriving DecidableEq, Repr

def tlsEnabled (v : Json) : Bool :=
  match v.asObject with
  | none => false
  | some obj => ((obj.lookup "enabled").bind Json.asBool).getD true

def plainStream : Json := .object [("network",.string "tcp"),("security",.string "none")]

def tlsSettings (tls : Json) (tlsSniOverride : Option String) : List (String × Json) :=
  let serverName := match tls.getStr "server_name" with
    | some sn => some sn
    | none => tlsSniOverride
  ((((tls.get "alpn").bind Json.asArray).map (fun a => ("alpn",Json.array a))).toList ++
    ((tls.getStr "fingerprint").map (fun fp => ("fingerprint",Json.string fp))).toList) ++
    ((serverName.map (fun sn => ("serverName",Json.string sn))).toList ++
      ((tls.get "utls").map (fun u => ("utls",u))).toList)

def tlsStream (settings : List (String × Json)) : Json :=
  .object ([("network",.string "tcp"),("security",.string "tls")] ++
    if settings.isEmpty then [] else [("tlsSettings",.object settings)])

def realityStream (reality : Json) : Json :=
  .object [("network",.string "tcp"),("realitySettings",reality),("security",.string "reality")]

variable (reader : Json.Reader)

def mergeStreamSettings (ingressTlsJson tlsSniOverride : Option String) : Except String Json := do
  let tls ← readTls reader ingressTlsJson
  match tls with
  | some v =>
    if tlsEnabled v then
      match v.get "reality" with
      | some r => return realityStream r
      | none => return tlsStream (tlsSettings v tlsSniOverride)
    else return plainStream
  | none =>
    match tlsSniOverride with
    | some sn => return tlsStream [("serverName",.string sn)]
    | none => return plainStream

def str (v : Json) (k : String) (default : String) : Json := .string ((v.getStr k).getD default)

/-- The user name and password of a SOCKS configuration: those of the first user when the
configuration itself names none. -/
def socksLogin (inner : Json) : String × String :=
  let u := (inner.getStr "username").getD ""
  let p := (inner.getStr "password").getD ""
  if u = "" then
    match ((inner.get "users").bind Json.asArray).bind List.head? with
    | some up => ((up.getStr "username").getD "",(up.getStr "password").getD "")
    | none => (u,p)
  else (u,p)

def vmessAlterId (inner : Json) : ℕ :=
  match (inner.get "alter_id").bind Json.asU64 with
  | some a => a
  | none => ((inner.get "alterId").bind Json.asU64).getD 0

variable (typ : Protocol) (inner : Json) (addr : String) (port : ℤ)

/-- The `settings` of the outbound. -/
def outboundSettings : Json :=
  let vnext (user : List (String × Json)) : Json :=
    .object [("vnext",.array [.object [("address",.string addr),("port",Json.int port),
      ("users",.array [.object user])]])]
  let servers (fields : List (String × Json)) : Json :=
    .object [("servers",.array [.object fields])]
  match typ with
  | .vless => vnext [("encryption",.string "none"),("flow",(inner.get "flow").getD .null),
      ("id",str inner "uuid" "")]
  | .vmess => vnext [("alterId",Json.int (vmessAlterId inner)),("id",str inner "uuid" ""),
      ("security",(inner.get "security").getD (.string "auto"))]
  | .trojan | .hysteria2 => servers [("address",.string addr),
      ("password",str inner "password" ""),("port",Json.int port)]
  | .shadowsocks => servers [("address",.string addr),
      ("method",str inner "method" "2022-blake3-aes-128-gcm"),
      ("password",str inner "password" ""),("port",Json.int port)]
  | .socks => servers [("address",.string addr),("port",Json.int port),
      ("users",.array [.object [("pass",.string (socksLogin inner).2),
        ("user",.string (socksLogin inner).1)]])]

def outboundOf (stream : Json) : Json :=
  .object [("protocol",.string typ.name),("settings",outboundSettings typ inner addr port),
    ("streamSettings",stream),("tag",.string "proxy-out")]

/-- `proto_to_xray_protocol` is the table of `protoToType`, with the same errors. -/
def outboundFromRow (row : GrpcProxySessionRow) (addr : String) (port : ℤ) (stream : Json) :
    Except String Json := do
  let x ← protocolOf row
  let inner ← readConfig reader row
  return outboundOf x inner addr port stream

def xrayDocument (outbound : Json) : Json :=
  .object [("inbounds",.array [.object [("listen",.string "127.0.0.1"),("port",Json.int 10808),
      ("protocol",.string "socks"),("settings",.object [("udp",.bool true)]),
      ("tag",.string "socks-in")]]),
    ("log",.object [("loglevel",.string "warning")]),
    ("outbounds",.array [outbound,
      .object [("protocol",.string "freedom"),("tag",.string "direct")]]),
    ("routing",.object [("domainStrategy",.string "AsIs"),
      ("rules",.array [.object [("network",.string "tcp,udp"),
        ("outboundTag",.string "proxy-out"),("type",.string "field")]])])]

def buildXrayClientConfig (row : GrpcProxySessionRow) (opts : XrayExportOptions) :
    Except String Json :=
  if row.revoked then .error "session revoked"
  else if Text.trim opts.serverAddress = "" then .error "server address is empty"
  else do
    let port ← listenPort row
    let stream ← mergeStreamSettings reader row.ingressTlsJson opts.tlsServerName
    let outbound ← outboundFromRow reader row (Text.trim opts.serverAddress) port stream
    return xrayDocument outbound

/-- What a client proves its identity with. -/
inductive Credentials
  | uuid (id : String)
  | password (secret : String)
  | login (user secret : String)
  deriving DecidableEq, Repr

variable (typ : Protocol)

/-- The credentials that an object defines for a protocol: an entry of a `users` array, or the
configuration itself. -/
def credentialsOf (v : Json) : Option Credentials :=
  match typ with
  | .vless | .vmess => (v.getStr "uuid").map .uuid
  | .trojan | .shadowsocks | .hysteria2 => (v.getStr "password").map .password
  | .socks => (v.getStr "username").bind (fun u => (v.getStr "password").map (.login u))

def usersArray (v : Json) : List Json := ((v.get "users").bind Json.asArray).getD []

def inboundUsers (inbound : Json) : List Credentials :=
  (credentialsOf typ inbound).toList ++ (usersArray inbound).filterMap (credentialsOf typ)

def firstOf (v : Json) (k : String) : Option Json := ((v.get k).bind Json.asArray).bind List.head?

def outboundServer (outbound : Json) : Option Json :=
  (outbound.get "settings").bind (fun s => match typ with
    | .vless | .vmess => firstOf s "vnext"
    | .trojan | .shadowsocks | .hysteria2 | .socks => firstOf s "servers")

def outboundCredentials (outbound : Json) : Option Credentials :=
  (outboundServer typ outbound).bind (fun server => match typ with
    | .vless | .vmess => ((firstOf server "users").bind (·.getStr "id")).map .uuid
    | .trojan | .shadowsocks | .hysteria2 => (server.getStr "password").map .password
    | .socks => (firstOf server "users").bind (fun user =>
        (user.getStr "user").bind (fun u => (user.getStr "pass").map (.login u))))

def usesTls (outbound : Json) : Bool :=
  match (outbound.get "streamSettings").bind (·.getStr "security") with
  | some security => security = "tls" || security = "reality"
  | none => false

def hasTls (inbound : Json) : Bool := ((inbound.get "tls").map tlsEnabled).getD false

def Connects (inbound document : Json) : Prop :=
  ∃ outbound, firstOf document "outbounds" = some outbound ∧
    inbound.get "type" = some (.string typ.name) ∧
    outbound.get "protocol" = some (.string typ.name) ∧
    (∃ port, inbound.get "listen_port" = some port ∧
      (outboundServer typ outbound).bind (·.get "port") = some port) ∧
    (∃ c ∈ inboundUsers typ inbound, outboundCredentials typ outbound = some c) ∧
    usesTls outbound = hasTls inbound

def credentialSource (inner : Json) : Json :=
  if typ = .socks ∧ (inner.getStr "username").getD "" = "" then
    (firstOf inner "users").getD inner
  else inner

/-- The credentials of an object when its missing texts are read as empty ones. -/
def filledCredentials (v : Json) : Credentials :=
  match typ with
  | .vless | .vmess => .uuid ((v.getStr "uuid").getD "")
  | .trojan | .shadowsocks | .hysteria2 => .password ((v.getStr "password").getD "")
  | .socks => .login ((v.getStr "username").getD "") ((v.getStr "password").getD "")

/-- The exporter finds credentials where it looks for them, or a user happens to have the empty
texts that it puts in their place. -/
def CredentialsFound (inner : Json) : Prop :=
  (credentialsOf typ (credentialSource typ inner)).isSome = true ∨
    filledCredentials typ (credentialSource typ inner) ∈ inboundUsers typ inner

/-- Without a TLS column, an override of the server name is given exactly when the
configuration has an enabled section of its own. -/
def TlsFound (inner : Json) (tls : Option Json) (tlsServerName : Option String) : Prop :=
  tls = none → tlsServerName.isSome = ((inner.get "tls").map tlsEnabled).getD false

variable {typ : Protocol}

lemma filledCredentials_of_some {v : Json} {c : Credentials}
    (h : credentialsOf typ v = some c) : filledCredentials typ v = c := by
  cases typ with
  | vless | vmess =>
    obtain ⟨id,hid,rfl⟩ := Option.map_eq_some_iff.mp h
    rw [filledCredentials,hid,getD_some]
  | trojan | shadowsocks | hysteria2 =>
    obtain ⟨p,hp,rfl⟩ := Option.map_eq_some_iff.mp h
    rw [filledCredentials,hp,getD_some]
  | socks =>
    obtain ⟨u,hu,h⟩ := Option.bind_eq_some_iff.mp h
    obtain ⟨p,hp,rfl⟩ := Option.map_eq_some_iff.mp h
    rw [filledCredentials,hu,hp,getD_some,getD_some]

lemma mem_inboundUsers_of_source {inner : Json} {c : Credentials}
    (h : credentialsOf typ (credentialSource typ inner) = some c) : c ∈ inboundUsers typ inner := by
  rw [inboundUsers,List.mem_append]
  rw [credentialSource] at h
  split_ifs at h with hs
  swap
  · exact .inl (by rw [h]; simp)
  cases hf : firstOf inner "users" with
  | none =>
    rw [hf,getD_none] at h
    exact .inl (by rw [h]; simp)
  | some user =>
    rw [hf,getD_some] at h
    refine .inr (List.mem_filterMap.mpr ⟨user,?_,h⟩)
    obtain ⟨items,hitems,hhead⟩ := Option.bind_eq_some_iff.mp hf
    rw [usersArray,hitems,getD_some]
    exact List.mem_of_head? hhead

lemma credentialsFound_iff {inner : Json} : CredentialsFound typ inner ↔
      filledCredentials typ (credentialSource typ inner) ∈ inboundUsers typ inner := by
  rw [CredentialsFound]
  constructor
  · rintro (h | h)
    · obtain ⟨c,hc⟩ := Option.isSome_iff_exists.mp h
      rw [filledCredentials_of_some hc]
      exact mem_inboundUsers_of_source hc
    · exact h
  · exact .inr

lemma socksLogin_eq (inner : Json) : Credentials.login (socksLogin inner).1 (socksLogin inner).2 =
      filledCredentials .socks (credentialSource .socks inner) := by
  rw [socksLogin,credentialSource,firstOf]
  by_cases hu : (inner.getStr "username").getD "" = ""
  · cases hf : ((inner.get "users").bind Json.asArray).bind List.head? with
    | none | some up => simp [hu,filledCredentials]
  · simp [hu,filledCredentials]

lemma credentialSource_of_ne (h : typ ≠ .socks) (inner : Json) :
    credentialSource typ inner = inner := by
  rw [credentialSource,if_neg]
  rintro ⟨h',-⟩
  exact h h'

lemma outboundServer_port (typ : Protocol) (inner : Json) (addr : String) (port : ℤ)
    (stream : Json) :
    (outboundServer typ (outboundOf typ inner addr port stream)).bind (·.get "port") =
      some (Json.int port) := by
  cases typ with
  | vless | vmess | trojan | shadowsocks | socks | hysteria2 => rfl

lemma outboundCredentials_eq (typ : Protocol) (inner : Json) (addr : String) (port : ℤ)
    (stream : Json) : outboundCredentials typ (outboundOf typ inner addr port stream) =
      some (filledCredentials typ (credentialSource typ inner)) := by
  cases typ with
  | vless | vmess | trojan | shadowsocks | hysteria2 =>
    rw [credentialSource_of_ne (by decide)]
    rfl
  | socks =>
    rw [← socksLogin_eq]
    rfl

variable {reader : Json.Reader}

lemma buildXrayClientConfig_ok {row : GrpcProxySessionRow} {opts : XrayExportOptions}
    {document : Json} (h : buildXrayClientConfig reader row opts = .ok document) :
    ∃ typ port inner stream, protocolOf row = .ok typ ∧ listenPort row = .ok port ∧
      readConfig reader row = .ok inner ∧
      mergeStreamSettings reader row.ingressTlsJson opts.tlsServerName = .ok stream ∧
      document = xrayDocument (outboundOf typ inner
        (Text.trim opts.serverAddress) port stream) := by
  rw [buildXrayClientConfig] at h
  split_ifs at h
  obtain ⟨port,hport,h⟩ := bind_eq_ok h
  obtain ⟨stream,hstream,h⟩ := bind_eq_ok h
  obtain ⟨outbound,hout,h⟩ := bind_eq_ok h
  obtain ⟨typ,htyp,hout⟩ := bind_eq_ok hout
  obtain ⟨inner,hinner,hout⟩ := bind_eq_ok hout
  cases hout
  cases h
  exact ⟨typ,port,inner,stream,htyp,hport,hinner,hstream,rfl⟩

lemma usesTls_outboundOf {column sni : Option String} {stream : Json} {tls : Option Json}
    (typ : Protocol) (inner : Json) (addr : String) (port : ℤ)
    (hstream : mergeStreamSettings reader column sni = .ok stream)
    (htls : readTls reader column = .ok tls) : usesTls (outboundOf typ inner addr port stream) =
      match tls with
      | some v => tlsEnabled v
      | none => sni.isSome := by
  obtain ⟨tls',htls',hstream⟩ := bind_eq_ok hstream
  rw [htls] at htls'
  cases htls'
  cases tls with
  | none =>
    cases sni with
    | none | some sn => cases hstream; rfl
  | some v =>
    by_cases hv : tlsEnabled v = true
    · cases hr : v.get "reality" with
      | some r =>
        have hs : realityStream r = stream := by
          simpa [hv,hr,pure,Except.pure] using hstream
        rw [← hs]
        simp only [hv]
        rfl
      | none =>
        have hs : tlsStream (tlsSettings v sni) = stream := by
          simpa [hv,hr,pure,Except.pure] using hstream
        rw [← hs]
        simp only [hv]
        rfl
    · have hs : plainStream = stream := by
        simpa [hv,pure,Except.pure] using hstream
      rw [← hs]
      simp only [hv]
      rfl

lemma get_overlayInbound_of_notMem (inner : Json) {fixed : List (String × Json)} {k : String}
    (h : k ∉ fixed.map Prod.fst) : (overlayInbound inner fixed).get k = inner.get k := by
  cases inner with
  | object m => exact Json.lookup_insertFields_of_notMem m h
  | null | bool _ | number _ | string _ | array _ =>
    refine List.lookup_eq_none_iff.mpr ?_
    intro e he
    simp only [bne_iff_ne]
    rintro rfl
    exact h (List.mem_map_of_mem he)

lemma inboundUsers_overlayInbound (opts : SingboxBuildOptions) (typ typ' : Protocol) (inner : Json)
    (id : String) (port : ℤ) (tls : Option Json) :
    inboundUsers typ (overlayInbound inner (baseFields opts typ' id port tls)) =
      inboundUsers typ inner := by
  have hget : ∀ k ∈ ["uuid","password","username","users"],
      (overlayInbound inner (baseFields opts typ' id port tls)).get k = inner.get k := by
    intro k hk
    apply get_overlayInbound_of_notMem
    cases tls with
    | none | some v => revert k; simp [baseFields]
  have huuid := hget "uuid" (by simp)
  have hpassword := hget "password" (by simp)
  have husername := hget "username" (by simp)
  have husers := hget "users" (by simp)
  simp only [inboundUsers,credentialsOf,usersArray,Json.getStr,huuid,hpassword,husername,husers]

lemma hasTls_overlayInbound (opts : SingboxBuildOptions) (typ : Protocol) (inner : Json)
    (id : String) (port : ℤ) (tls : Option Json) :
    hasTls (overlayInbound inner (baseFields opts typ id port tls)) = match tls with
      | some v => tlsEnabled v
      | none => ((inner.get "tls").map tlsEnabled).getD false := by
  cases tls with
  | some v =>
    have hv : ("tls",v) ∈ baseFields opts typ id port (some v) := by simp [baseFields]
    rw [hasTls,get_overlayInbound_of_mem (nodup_baseFields typ id port _) hv]
    rfl
  | none => rw [hasTls,get_overlayInbound_of_notMem inner (by simp [baseFields])]

/-- The exported configuration connects to the inbound exactly when the exporter finds the
credentials of a user and the TLS section. -/
theorem export_connects_iff {row : GrpcProxySessionRow} {opts : SingboxBuildOptions}
    {xopts : XrayExportOptions} {inbound document inner : Json} {typ : Protocol} {tls : Option Json}
    (hin : inboundFromRow reader opts row = .ok inbound)
    (hout : buildXrayClientConfig reader row xopts = .ok document)
    (htyp : protocolOf row = .ok typ) (hinner : readConfig reader row = .ok inner)
    (htls : readTls reader row.ingressTlsJson = .ok tls) : Connects typ inbound document ↔
      CredentialsFound typ inner ∧ TlsFound inner tls xopts.tlsServerName := by
  obtain ⟨typ',port,inner',tls',htyp',hport,hinner',htls',rfl⟩ := inboundFromRow_ok hin
  obtain ⟨typ'',port',inner'',stream,htyp'',hport',hinner'',hstream,rfl⟩ :=
    buildXrayClientConfig_ok hout
  -- both sides read the same columns
  rw [htyp] at htyp' htyp''
  rw [hinner] at hinner' hinner''
  rw [hport] at hport'
  rw [htls] at htls'
  cases htyp'
  cases htyp''
  cases hinner'
  cases hinner''
  cases hport'
  cases htls'
  rw [credentialsFound_iff]
  set outbound := outboundOf typ inner (Text.trim xopts.serverAddress) port stream with hob
  set inbound := overlayInbound inner (baseFields opts typ row.sessionId port tls) with hib
  have hfirst : firstOf (xrayDocument outbound) "outbounds" = some outbound := rfl
  have hcred : outboundCredentials typ outbound = some _ := outboundCredentials_eq typ inner _ _ _
  have husers : inboundUsers typ inbound = inboundUsers typ inner :=
    inboundUsers_overlayInbound opts typ typ inner _ port tls
  have huses : usesTls outbound = _ := usesTls_outboundOf typ inner _ port hstream htls
  have hhas : hasTls inbound = _ := hasTls_overlayInbound opts typ inner _ port tls
  have htlsIff : usesTls outbound = hasTls inbound ↔ TlsFound inner tls xopts.tlsServerName := by
    rw [huses,hhas]
    cases tls with
    | none | some v => simp [TlsFound]
  constructor
  · rintro ⟨outbound',hfirst',-,-,-,⟨c,hc,hc'⟩,hsame⟩
    rw [hfirst] at hfirst'
    cases hfirst'
    rw [hcred,Option.some.injEq] at hc'
    rw [husers,← hc'] at hc
    exact ⟨hc,htlsIff.mp hsame⟩
  · rintro ⟨hc,hsame⟩
    have hnodup : ((baseFields opts typ row.sessionId port tls).map Prod.fst).Nodup :=
      nodup_baseFields typ row.sessionId port tls
    refine ⟨outbound,hfirst,get_overlayInbound_of_mem hnodup (by simp [baseFields]),rfl,
      ⟨Json.int port,get_overlayInbound_of_mem hnodup (by simp [baseFields]),
        outboundServer_port typ inner _ port stream⟩,⟨_,?_,hcred⟩,htlsIff.mpr hsame⟩
    rw [husers]
    exact hc

def sampleExport : XrayExportOptions := ⟨"ingress.example.com",none⟩

theorem export_connects_top_password : ∃ inbound document,
      inboundFromRow sampleReader sampleOptions goodRow = .ok inbound ∧
      buildXrayClientConfig sampleReader goodRow sampleExport = .ok document ∧
      Connects .trojan inbound document := by
  have hin : inboundFromRow sampleReader sampleOptions goodRow = .ok _ := rfl
  have hout : buildXrayClientConfig sampleReader goodRow sampleExport = .ok _ := rfl
  have hinner : readConfig sampleReader goodRow = .ok (topConfig "one") := rfl
  have htls : readTls sampleReader goodRow.ingressTlsJson = .ok none := rfl
  refine ⟨_,_,hin,hout,(export_connects_iff hin hout rfl hinner htls).mpr ⟨.inl ?_,?_⟩⟩
  · decide +kernel
  · intro _
    rfl

theorem export_users_array_differs : ∃ inbound document,
      inboundFromRow sampleReader sampleOptions (sampleRow (usersText "one")) = .ok inbound ∧
      buildXrayClientConfig sampleReader (sampleRow (usersText "one")) sampleExport =
        .ok document ∧ inboundUsers .trojan inbound = [.password "one"] ∧
      (firstOf document "outbounds").bind (outboundCredentials .trojan) = some (.password "") ∧
      ¬ Connects .trojan inbound document := by
  refine ⟨_,_,rfl,rfl,rfl,rfl,?_⟩
  rintro ⟨outbound,hfirst,-,-,-,⟨c,hc,hc'⟩,-⟩
  cases hfirst
  cases hc'
  revert hc
  decide +kernel

end PirateServer.Ingress
