import PirateServer.Lib.Fallible
import PirateServer.Lib.Table
import PirateServer.ProxySession.Listing

/-! The configuration of the ingress server, written by `ingress-manager` from the rows of the
session table. The query and the write of the file are taken to succeed. -/
namespace PirateServer.Ingress
open Lib ProxySession List

inductive Protocol
  | vless
  | vmess
  | trojan
  | shadowsocks
  | socks
  | hysteria2
  deriving DecidableEq, Repr

def Protocol.name : Protocol → String
  | .vless => "vless"
  | .vmess => "vmess"
  | .trojan => "trojan"
  | .shadowsocks => "shadowsocks"
  | .socks => "socks"
  | .hysteria2 => "hysteria2"

def protoToType (p : ℤ) : Option Protocol :=
  if p = 1 then some .vless
  else if p = 2 then some .vmess
  else if p = 3 then some .trojan
  else if p = 4 then some .shadowsocks
  else if p = 5 then some .socks
  else if p = 6 then some .hysteria2
  else none

/-- The fields of `fixed` on top of those of `inner`. -/
def overlayInbound (inner : Json) (fixed : List (String × Json)) : Json :=
  match inner with
  | .object m => .object (Json.insertFields fixed m)
  | _ => .object fixed

structure SingboxBuildOptions where
  listenAddress : String
  logLevel : String
  deriving DecidableEq, Repr

def inboundTag (sessionId : String) : String :=
  "in-" ++ String.ofList (sessionId.toList.filter (· ≠ '-'))

section
variable (reader : Json.Reader)

def readColumn (label raw : String) : Except String Json :=
  match reader.fromStr raw with
  | .ok v => .ok v
  | .error e => .error (label ++ ": " ++ e)

def readConfig (row : GrpcProxySessionRow) : Except String Json :=
  match row.ingressConfigJson.filter (fun s => Text.trim s ≠ "") with
  | none => .error "ingress_config_json is empty"
  | some cfg => readColumn reader "ingress_config_json" cfg

/-- The section of the TLS column; nothing when the column is null or blank. -/
def readTls (column : Option String) : Except String (Option Json) :=
  match (column.map Text.trim).filter (· ≠ "") with
  | none => .ok none
  | some t => (readColumn reader "ingress_tls_json" t).map some

def listenPort (row : GrpcProxySessionRow) : Except String ℤ :=
  match row.ingressListenPort with
  | none => .error "ingress_listen_port is NULL"
  | some port =>
    if port ≤ 0 ∨ 65535 < port then .error "invalid ingress_listen_port" else .ok port

def protocolOf (row : GrpcProxySessionRow) : Except String Protocol :=
  match row.ingressProtocol with
  | none => .error "ingress_protocol is NULL"
  | some p => match protoToType p with
    | none => .error ("unknown ingress_protocol " ++ toString p)
    | some typ => .ok typ

section
variable (opts : SingboxBuildOptions)

def baseFields (typ : Protocol) (sessionId : String) (port : ℤ)
    (tls : Option Json) : List (String × Json) :=
  [("listen",.string opts.listenAddress),("listen_port",Json.int port),
    ("tag",.string (inboundTag sessionId))] ++ (tls.map (fun v => ("tls",v))).toList ++
    [("type",.string typ.name)]

def inboundFromRow (row : GrpcProxySessionRow) :
    Except String Json := do
  let typ ← protocolOf row
  let port ← listenPort row
  let inner ← readConfig reader row
  let tls ← readTls reader row.ingressTlsJson
  return overlayInbound inner (baseFields opts typ row.sessionId port tls)

def isActive (row : GrpcProxySessionRow) : Bool := !row.revoked && row.ingressProtocol.isSome

/-- The loop over the rows; the first row that is not accepted ends it. -/
def buildInbounds (opts : SingboxBuildOptions) :
    List GrpcProxySessionRow → Except String (List Json)
  | [] => .ok []
  | r :: rest =>
    if isActive r then do
      let inbound ← inboundFromRow reader opts r
      let inbounds ← buildInbounds opts rest
      return inbound :: inbounds
    else buildInbounds opts rest

def singboxDocument (inbounds : List Json) : Json :=
  .object [("inbounds",.array inbounds),
    ("log",.object [("level",.string opts.logLevel)]),
    ("outbounds",.array [.object [("tag",.string "direct"),("type",.string "direct")]]),
    ("route",.object [("final",.string "direct")])]

def buildSingboxConfig (rows : List GrpcProxySessionRow) (opts : SingboxBuildOptions) :
    Except String Json :=
  (buildInbounds reader opts rows).map (singboxDocument opts)

/-- `ORDER BY created_at DESC`. Rows of one instant keep the order in which the table has them. -/
def newestFirst (r r' : GrpcProxySessionRow) : Prop := r'.createdAt ≤ r.createdAt

instance : DecidableRel newestFirst := fun _ _ => inferInstanceAs (Decidable (_ ≤ _))

def listGrpcProxySessionsPage (table : List GrpcProxySessionRow) (limit offset : ℤ)
    (revokedFilter : Option Bool) : List GrpcProxySessionRow :=
  let limit := min (max limit 1) 500
  let offset := max offset 0
  let kept := match revokedFilter with
    | none => table
    | some rev => table.filter (fun r => r.revoked = rev)
  ((kept.insertionSort newestFirst).drop offset.toNat).take limit.toNat

/-- The rows that `ingress-manager` asks for. -/
def managerRows (table : List GrpcProxySessionRow) : List GrpcProxySessionRow :=
  listGrpcProxySessionsPage table 10000 0 (some false)

/-- The document that a run of `ingress-manager` writes; on an error it writes nothing. -/
def ingressManager (table : List GrpcProxySessionRow) :
    Except String Json :=
  buildSingboxConfig reader (managerRows table) opts

def inboundOf (row : GrpcProxySessionRow) : Option Json :=
  if isActive row then (inboundFromRow reader opts row).toOption else none

end

end

def IsUuid (s : String) : Prop :=
  ∃ a b c d e : List Char, s.toList = a ++ '-' :: (b ++ '-' :: (c ++ '-' :: (d ++ '-' :: e))) ∧
    a.length = 8 ∧ b.length = 4 ∧ c.length = 4 ∧ d.length = 4 ∧ e.length = 12 ∧
    ∀ x ∈ a ++ b ++ c ++ d ++ e, (Text.hexDigitValue x).isSome = true

lemma ne_hyphen_of_hexDigit {x : Char} (h : (Text.hexDigitValue x).isSome = true) : x ≠ '-' := by
  rintro rfl
  revert h
  decide +kernel

lemma inboundTag_injOn_uuid {s t : String} (hs : IsUuid s) (ht : IsUuid t)
    (h : inboundTag s = inboundTag t) : s = t := by
  obtain ⟨a,b,c,d,e,hs,ha,hb,hc,hd,he,hhex⟩ := hs
  obtain ⟨a',b',c',d',e',ht,ha',hb',hc',hd',he',hhex'⟩ := ht
  have hstrip : ∀ {u v w x y : List Char},
      (∀ z ∈ u ++ v ++ w ++ x ++ y, (Text.hexDigitValue z).isSome = true) →
      (u ++ '-' :: (v ++ '-' :: (w ++ '-' :: (x ++ '-' :: y)))).filter (fun z => z ≠ '-') =
        u ++ (v ++ (w ++ (x ++ y))) := by
    intro u v w x y hz
    have hall : (u ++ v ++ w ++ x ++ y).filter (fun z => z ≠ '-') = u ++ v ++ w ++ x ++ y := by
      rw [filter_eq_self]
      intro z hmem
      simpa using ne_hyphen_of_hexDigit (hz z hmem)
    simpa [filter_append,filter_cons] using hall
  rw [inboundTag,inboundTag,hs,ht,hstrip hhex,hstrip hhex'] at h
  have hparts := congrArg String.toList h
  simp only [String.toList_append,String.toList_ofList,append_cancel_left_eq] at hparts
  obtain ⟨h1,hparts⟩ := append_inj hparts (by omega)
  obtain ⟨h2,hparts⟩ := append_inj hparts (by omega)
  obtain ⟨h3,hparts⟩ := append_inj hparts (by omega)
  obtain ⟨h4,h5⟩ := append_inj hparts (by omega)
  apply String.toList_inj.mp
  rw [hs,ht,h1,h2,h3,h4,h5]

variable {reader : Json.Reader} {opts : SingboxBuildOptions}

lemma buildInbounds_ok_iff {rows : List GrpcProxySessionRow} {inbounds : List Json} :
    buildInbounds reader opts rows = .ok inbounds ↔
      (∀ r ∈ rows, isActive r = true → ∃ v, inboundFromRow reader opts r = .ok v) ∧
        inbounds = rows.filterMap (inboundOf reader opts) := by
  induction rows generalizing inbounds with
  | nil =>
    rw [buildInbounds,Except.ok.injEq,eq_comm]
    simp
  | cons r rest ih =>
    rw [buildInbounds]
    by_cases ha : isActive r = true
    · rw [if_pos ha]
      cases hr : inboundFromRow reader opts r with
      | error e =>
        refine iff_of_false (by rintro ⟨⟩) ?_
        rintro ⟨hall,-⟩
        obtain ⟨v,hv⟩ := hall r mem_cons_self ha
        rw [hr] at hv
        cases hv
      | ok v =>
        have hof : inboundOf reader opts r = some v := by simp [inboundOf,ha,hr,Except.toOption]
        rw [filterMap_cons_some hof,forall_mem_cons]
        cases hrest : buildInbounds reader opts rest with
        | error e =>
          refine iff_of_false (by rintro ⟨⟩) ?_
          rintro ⟨⟨-,hall⟩,-⟩
          have hok := ih.mpr ⟨hall,rfl⟩
          rw [hrest] at hok
          cases hok
        | ok vs =>
          obtain ⟨hall,hvs⟩ := ih.mp hrest
          have hdo : (Except.ok (v :: vs) : Except String (List Json)) = .ok inbounds ↔
              inbounds = v :: vs := by rw [Except.ok.injEq,eq_comm]
          refine hdo.trans ?_
          rw [hvs]
          exact ⟨fun h => ⟨⟨fun _ => ⟨v,hr⟩,hall⟩,h⟩,fun h => h.2⟩
    · have hof : inboundOf reader opts r = none := by simp [inboundOf,ha]
      rw [if_neg ha,ih,filterMap_cons_none hof]
      simp [ha]

lemma nodup_baseFields (typ : Protocol) (id : String) (port : ℤ) (tls : Option Json) :
    ((baseFields opts typ id port tls).map Prod.fst).Nodup := by
  cases tls with
  | none | some v => simp [baseFields]

variable {v : Json}

lemma get_overlayInbound_of_mem {inner : Json} {fixed : List (String × Json)} {k : String}
    (hk : (fixed.map Prod.fst).Nodup) (hv : (k,v) ∈ fixed) :
    (overlayInbound inner fixed).get k = some v := by
  cases inner with
  | object m => exact Json.lookup_insertFields_of_mem m hk hv
  | null | bool _ | number _ | string _ | array _ => exact (lookup_iff_mem_of_nodup hk).mpr hv

variable {row : GrpcProxySessionRow}

lemma inboundFromRow_ok (h : inboundFromRow reader opts row = .ok v) :
    ∃ typ port inner tls, protocolOf row = .ok typ ∧ listenPort row = .ok port ∧
      readConfig reader row = .ok inner ∧ readTls reader row.ingressTlsJson = .ok tls ∧
      v = overlayInbound inner (baseFields opts typ row.sessionId port tls) := by
  obtain ⟨typ,htyp,h⟩ := bind_eq_ok h
  obtain ⟨port,hport,h⟩ := bind_eq_ok h
  obtain ⟨inner,hinner,h⟩ := bind_eq_ok h
  obtain ⟨tls,htls,h⟩ := bind_eq_ok h
  cases h
  exact ⟨typ,port,inner,tls,htyp,hport,hinner,htls,rfl⟩

lemma tag_of_inboundFromRow (h : inboundFromRow reader opts row = .ok v) :
    v.get "tag" = some (.string (inboundTag row.sessionId)) := by
  obtain ⟨typ,port,inner,tls,-,-,-,-,rfl⟩ := inboundFromRow_ok h
  exact get_overlayInbound_of_mem (nodup_baseFields typ _ port tls) (by simp [baseFields])

lemma inboundOf_eq_some_iff : inboundOf reader opts row = some v ↔
      isActive row = true ∧ inboundFromRow reader opts row = .ok v := by
  rw [inboundOf]
  by_cases ha : isActive row = true
  · cases hr : inboundFromRow reader opts row with
    | error e | ok w => simp [ha,Except.toOption]
  · simp [ha]

structure UuidTable (table : List GrpcProxySessionRow) : Prop where
  uuid : ∀ r ∈ table, IsUuid r.sessionId
  distinct : (table.map (·.sessionId)).Nodup

variable {table : List GrpcProxySessionRow}

lemma UuidTable.eq_of_tag (h : UuidTable table)
    {r r' : GrpcProxySessionRow} {v' : Json} (hr : r ∈ table) (hr' : r' ∈ table)
    (hv : inboundOf reader opts r = some v) (hv' : inboundOf reader opts r' = some v')
    (htag : v.get "tag" = v'.get "tag") : r = r' := by
  have hid := tag_of_inboundFromRow (inboundOf_eq_some_iff.mp hv).2
  have hid' := tag_of_inboundFromRow (inboundOf_eq_some_iff.mp hv').2
  rw [htag,hid',Option.some.injEq,Json.string.injEq] at hid
  have hsame := inboundTag_injOn_uuid (h.uuid r' hr') (h.uuid r hr) hid
  exact inj_on_of_nodup_map h.distinct hr hr' hsame.symm

def liveRows (table : List GrpcProxySessionRow) : List GrpcProxySessionRow :=
  (table.filter (fun r => r.revoked = false)).insertionSort newestFirst

lemma perm_liveRows (table : List GrpcProxySessionRow) :
    (liveRows table).Perm (table.filter (fun r => r.revoked = false)) :=
  perm_insertionSort _ _

lemma mem_table_of_mem_liveRows {r : GrpcProxySessionRow} (h : r ∈ liveRows table) : r ∈ table :=
  mem_of_mem_filter ((perm_liveRows table).mem_iff.mp h)

lemma UuidTable.nodup_liveRows (h : UuidTable table) : (liveRows table).Nodup :=
  (perm_liveRows table).nodup_iff.mpr (h.distinct.of_map.filter _)

lemma filterMap_inboundOf_liveRows (table : List GrpcProxySessionRow) :
    ((liveRows table).filterMap (inboundOf reader opts)).Perm
      (table.filterMap (inboundOf reader opts)) := by
  refine ((perm_liveRows table).filterMap _).trans ?_
  rw [filterMap_filter]
  apply List.Perm.of_eq
  apply filterMap_congr
  intro r _
  by_cases hr : r.revoked = true
  · simp [hr,inboundOf,isActive]
  · simp [hr]

def CoversActive (reader : Json.Reader) (opts : SingboxBuildOptions)
    (table : List GrpcProxySessionRow) (written : Except String Json) : Prop :=
  ∃ document inbounds, written = .ok document ∧
    document.get "inbounds" = some (.array inbounds) ∧
    (inbounds.map (·.get "tag")).Nodup ∧
    inbounds.Perm (table.filterMap (inboundOf reader opts))

lemma ingressManager_ok_iff {document : Json} : ingressManager reader opts table = .ok document ↔
      (∀ r ∈ managerRows table, isActive r = true → ∃ v, inboundFromRow reader opts r = .ok v) ∧
        document = singboxDocument opts ((managerRows table).filterMap
          (inboundOf reader opts)) := by
  rw [ingressManager,buildSingboxConfig]
  cases hb : buildInbounds reader opts (managerRows table) with
  | error e =>
    refine iff_of_false (by rintro ⟨⟩) ?_
    rintro ⟨hall,-⟩
    rw [buildInbounds_ok_iff.mpr ⟨hall,rfl⟩] at hb
    cases hb
  | ok vs =>
    obtain ⟨hall,rfl⟩ := buildInbounds_ok_iff.mp hb
    rw [Except.map,Except.ok.injEq,eq_comm]
    exact ⟨fun h => ⟨hall,h⟩,fun h => h.2⟩

/-- For a table with distinct UUIDs, `ingress-manager` covers the active rows exactly when no
row among the 500 newest live rows is rejected and no accepted row is older than those. -/
theorem ingressManager_covers_iff {table : List GrpcProxySessionRow} (h : UuidTable table) :
    CoversActive reader opts table (ingressManager reader opts table) ↔
      (∀ r ∈ (liveRows table).take 500, isActive r = true →
          ∃ v, inboundFromRow reader opts r = .ok v) ∧
        ∀ r ∈ (liveRows table).drop 500, isActive r = true →
          ∃ e, inboundFromRow reader opts r = .error e := by
  have hmem : ∀ r ∈ (liveRows table).take 500, r ∈ table := by
    intro r hr
    exact mem_table_of_mem_liveRows (mem_of_mem_take hr)
  constructor
  · rintro ⟨document,inbounds,hok,hget,-,hperm⟩
    obtain ⟨hall,rfl⟩ := ingressManager_ok_iff.mp hok
    refine ⟨hall,?_⟩
    intro r hr ha
    cases hv : inboundFromRow reader opts r with
    | error e => exact ⟨e,rfl⟩
    | ok v =>
      -- the inbound of `r` would have to come from one of the first rows, with the same tag
      exfalso
      have hof : inboundOf reader opts r = some v := inboundOf_eq_some_iff.mpr ⟨ha,hv⟩
      have hrt := mem_table_of_mem_liveRows (mem_of_mem_drop hr)
      have hin : v ∈ inbounds := hperm.mem_iff.mpr (List.mem_filterMap.mpr ⟨r,hrt,hof⟩)
      have hwritten : inbounds = (managerRows table).filterMap (inboundOf reader opts) := by
        simpa [singboxDocument,Json.get,Json.asObject] using hget.symm
      rw [hwritten,mem_filterMap] at hin
      obtain ⟨r',hr',hof'⟩ := hin
      have hsame : r = r' := h.eq_of_tag hrt (hmem r' hr') hof hof' rfl
      subst hsame
      exact disjoint_take_drop h.nodup_liveRows le_rfl hr' hr
  · rintro ⟨hall,hold⟩
    refine ⟨_,_,ingressManager_ok_iff.mpr ⟨hall,rfl⟩,rfl,?_,?_⟩
    · rw [List.Nodup,pairwise_map,pairwise_filterMap]
      have hnodup : (managerRows table).Nodup := h.nodup_liveRows.sublist (take_sublist _ _)
      refine hnodup.imp_of_mem ?_
      intro r r' hr hr' hne v hv v' hv' htag
      exact hne (h.eq_of_tag (hmem r hr) (hmem r' hr') hv hv' htag)
    · have hnone : ((liveRows table).drop 500).filterMap (inboundOf reader opts) = [] := by
        rw [filterMap_eq_nil_iff]
        intro r hr
        cases hof : inboundOf reader opts r with
        | none => rfl
        | some v =>
          obtain ⟨ha,hv⟩ := inboundOf_eq_some_iff.mp hof
          obtain ⟨e,he⟩ := hold r hr ha
          rw [he] at hv
          cases hv
      have hsplit : ((liveRows table).filterMap (inboundOf reader opts)).Perm _ :=
        filterMap_inboundOf_liveRows table
      rw [← take_append_drop 500 (liveRows table),filterMap_append,hnone,append_nil] at hsplit
      exact hsplit

def sampleOptions : SingboxBuildOptions := ⟨"0.0.0.0","info"⟩

/-- A row that `inboundFromRow` accepts. -/
def goodRow : GrpcProxySessionRow := sampleRow (topText "one")

def badRow : GrpcProxySessionRow :=
  { sampleRow (topText "two") with
    sessionId := "7d444840-9dc0-11d1-b245-5ffdce74fad3"
    ingressProtocol := some 9 }

lemma isUuid_goodRow : IsUuid goodRow.sessionId :=
  ⟨"7d444840".toList,"9dc0".toList,"11d1".toList,"b245".toList,"5ffdce74fad2".toList,
    by decide +kernel,rfl,rfl,rfl,rfl,rfl,by
      simp [Text.hexDigitValue]⟩

lemma isUuid_badRow : IsUuid badRow.sessionId :=
  ⟨"7d444840".toList,"9dc0".toList,"11d1".toList,"b245".toList,"5ffdce74fad3".toList,
    by decide +kernel,rfl,rfl,rfl,rfl,rfl,by
      simp [Text.hexDigitValue]⟩

lemma goodRow_accepted : ∃ v, inboundFromRow sampleReader sampleOptions goodRow = .ok v := ⟨_,rfl⟩

lemma uuidTable_sample (revoked : Bool) :
    UuidTable [goodRow,{ badRow with revoked := revoked }] := by
  refine ⟨?_,by cases revoked <;> decide +kernel⟩
  intro r hr
  simp only [mem_cons,not_mem_nil,or_false] at hr
  rcases hr with rfl | rfl
  · exact isUuid_goodRow
  · exact isUuid_badRow

def revokedRow : GrpcProxySessionRow := { badRow with revoked := true }

theorem ingressManager_covers_revoked_row :
    CoversActive sampleReader sampleOptions [goodRow,revokedRow]
      (ingressManager sampleReader sampleOptions [goodRow,revokedRow]) := by
  have hlive : liveRows [goodRow,revokedRow] = [goodRow] := rfl
  have htable : UuidTable [goodRow,revokedRow] := uuidTable_sample true
  refine (ingressManager_covers_iff htable).mpr ⟨?_,?_⟩
  · intro r hr _
    rw [hlive] at hr
    rw [List.mem_singleton.mp (mem_of_mem_take hr)]
    exact goodRow_accepted
  · intro r hr
    rw [hlive] at hr
    cases hr

theorem ingressManager_bad_row_removes_inbound : UuidTable [goodRow,badRow] ∧
      (∃ v, inboundOf sampleReader sampleOptions goodRow = some v) ∧
      ingressManager sampleReader sampleOptions [goodRow,badRow] =
        .error "unknown ingress_protocol 9" ∧
      ¬ CoversActive sampleReader sampleOptions [goodRow,badRow]
        (ingressManager sampleReader sampleOptions [goodRow,badRow]) := by
  have herror : ingressManager sampleReader sampleOptions [goodRow,badRow] =
      .error "unknown ingress_protocol 9" := rfl
  refine ⟨uuidTable_sample false,⟨_,rfl⟩,herror,?_⟩
  rintro ⟨document,inbounds,hok,-⟩
  rw [herror] at hok
  cases hok

end PirateServer.Ingress
