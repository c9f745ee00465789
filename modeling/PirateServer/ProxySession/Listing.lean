import PirateServer.Lib.Json
import PirateServer.ProxySession.Policy

/-! The listing of proxy sessions: what an administrator is shown of a row of the session
table. The three configuration columns hold JSON texts, in which secrets are masked. -/
namespace PirateServer.ProxySession
open Lib List

/-- A row of `grpc_proxy_session`. The columns of the tokens are left out: nothing here reads
them. -/
structure GrpcProxySessionRow where
  sessionId : String
  clientPubkeyB64 : String
  boardLabel : String
  createdAt : ℤ
  expiresAt : ℤ
  policyJson : String
  bytesIn : ℤ
  bytesOut : ℤ
  activeMs : ℤ
  lastActivityAt : Option ℤ
  revoked : Bool
  wireMode : Option ℤ
  wireConfigJson : Option String
  ingressProtocol : Option ℤ
  ingressListenPort : Option ℤ
  ingressListenUdpPort : Option ℤ
  ingressConfigJson : Option String
  ingressTlsJson : Option String
  ingressTemplateVersion : ℤ
  deriving DecidableEq, Repr

/-- `ApiError::bad_request`. -/
structure BadRequest where
  message : String
  deriving DecidableEq, Repr

structure ProxyPolicyOut where
  maxSessionDurationSec : ℤ
  trafficTotalBytes : ℤ
  trafficBytesInLimit : ℤ
  trafficBytesOutLimit : ℤ
  activeIdleTimeoutSec : Option ℕ
  accessSchedule : Option StoredAccessSchedule
  neverExpires : Bool
  limitDurationByActiveTime : Bool
  maxConcurrentDevicesPerSession : Option ℤ
  deriving DecidableEq, Repr

/-- The fields of `ProxySessionRowOut`; the two tunnel counts are filled in later by the caller. -/
structure ProxySessionRowOut where
  sessionId : String
  boardLabel : String
  clientPubkeyB64 : String
  createdAtUnixMs : ℤ
  expiresAtUnixMs : ℤ
  policy : ProxyPolicyOut
  bytesIn : ℤ
  bytesOut : ℤ
  activeMs : ℤ
  lastActivityUnixMs : ℤ
  revoked : Bool
  wireMode : Option ℤ
  wireConfig : Option Json
  ingressProtocol : Option ℤ
  ingressListenPort : Option ℤ
  ingressListenUdpPort : Option ℤ
  ingressConfig : Option Json
  ingressTls : Option Json
  ingressTemplateVersion : ℤ

/-- `timestamp_millis` of an instant in nanoseconds. -/
def timestampMillis (t : ℤ) : ℤ := t/10^6

def limitToJson : Option ℕ → ℤ
  | none | some 0 => -1
  | some n => asI64 n

def trafficToJson (limit : Option ℕ) : ℤ := limitToJson limit

def durationToJson (sec : Option ℕ) : ℤ := limitToJson sec

def secretKeys : List String := ["password","secret","psk"]

def maskSecretsInJson : Json → Json
  | .object fields => .object (secretKeys.foldl (fun acc k =>
      if Json.hasField k acc then Json.insertField k (.string "***") acc else acc) fields)
  | v => v

variable (reader : Json.Reader)

/-- Read a JSON text and mask it; `label` starts the error text. -/
def maskJson (label raw : String) : Except BadRequest (Option Json) :=
  if Text.trim raw = "" then .ok none
  else match reader.fromStr raw with
    | .error e => .error ⟨label ++ ": " ++ e⟩
    | .ok v => .ok (some (maskSecretsInJson v))

def maskWireConfigJson (raw : String) : Except BadRequest (Option Json) :=
  maskJson reader "wire_config" raw

def maskTlsJson (raw : String) : Except BadRequest (Option Json) :=
  maskJson reader "ingress_tls" raw

/-- A column that may be null, shown through `mask`. -/
def shown (mask : String → Except BadRequest (Option Json)) :
    Option String → Except BadRequest (Option Json)
  | none => .ok none
  | some raw => mask raw

def emptyPolicy : StoredPolicy := ⟨none,none,none,none,none,none,false,false,none⟩

def policyOut (p : StoredPolicy) : ProxyPolicyOut where
  maxSessionDurationSec := durationToJson p.maxSessionDurationSec
  trafficTotalBytes := trafficToJson p.trafficTotalBytes
  trafficBytesInLimit := trafficToJson p.trafficBytesInLimit
  trafficBytesOutLimit := trafficToJson p.trafficBytesOutLimit
  activeIdleTimeoutSec := p.activeIdleTimeoutSec
  accessSchedule := p.accessSchedule
  neverExpires := p.neverExpires
  limitDurationByActiveTime := p.limitDurationByActiveTime
  maxConcurrentDevicesPerSession := p.maxConcurrentDevicesPerSession.map
    (fun n => if n = 0 then -1 else n)

variable (readPolicy : String → Option StoredPolicy)

def listedRow (row : GrpcProxySessionRow) (wireConfig ingressConfig ingressTls : Option Json) :
    ProxySessionRowOut :=
  let p := (readPolicy row.policyJson).getD emptyPolicy
  { sessionId := row.sessionId
    boardLabel := row.boardLabel
    clientPubkeyB64 := row.clientPubkeyB64
    createdAtUnixMs := timestampMillis row.createdAt
    expiresAtUnixMs :=
      if p.neverExpires || p.maxSessionDurationSec.isNone then -1
      else timestampMillis row.expiresAt
    policy := policyOut p
    bytesIn := row.bytesIn
    bytesOut := row.bytesOut
    activeMs := row.activeMs
    lastActivityUnixMs := (row.lastActivityAt.map timestampMillis).getD 0
    revoked := row.revoked
    wireMode := row.wireMode
    wireConfig := wireConfig
    ingressProtocol := row.ingressProtocol
    ingressListenPort := row.ingressListenPort
    ingressListenUdpPort := row.ingressListenUdpPort
    ingressConfig := ingressConfig
    ingressTls := ingressTls
    ingressTemplateVersion := row.ingressTemplateVersion }

def rowToOut (row : GrpcProxySessionRow) : Except BadRequest ProxySessionRowOut := do
  let wireConfig ← shown (maskWireConfigJson reader) row.wireConfigJson
  let ingressConfig ← shown (maskWireConfigJson reader) row.ingressConfigJson
  let ingressTls ← shown (maskTlsJson reader) row.ingressTlsJson
  return listedRow readPolicy row wireConfig ingressConfig ingressTls

def isSecretKey (k : String) : Bool := secretKeys.contains k

def maskField (e : String × Json) : String × Json :=
  if isSecretKey e.1 then (e.1,.string "***") else e

lemma insert_of_hasField (k : String) (v : Json) (fields : List (String × Json)) :
    (if Json.hasField k fields then Json.insertField k v fields else fields) =
      Json.replaceField k v fields := by
  rw [Json.insertField]
  split_ifs with h
  · rfl
  · exact (Json.replaceField_of_not_hasField (by simpa using h)).symm

lemma maskSecretsInJson_object (fields : List (String × Json)) :
    maskSecretsInJson (.object fields) = .object (fields.map maskField) := by
  simp only [maskSecretsInJson,secretKeys,foldl_cons,foldl_nil,insert_of_hasField,
    Json.replaceField,List.map_map]
  congr 1
  apply map_congr_left
  rintro ⟨k,v⟩ -
  simp only [Function.comp_apply,maskField,isSecretKey,secretKeys,contains_cons,contains_nil]
  by_cases h1 : k = "password"
  · simp [h1]
  · by_cases h2 : k = "secret"
    · simp [h2]
    · by_cases h3 : k = "psk"
      · simp [h3]
      · simp [h1,h2,h3]

def SameBelowTop : Json → Json → Prop
  | .object fields, .object others =>
    List.Forall₂ (fun e e' => isSecretKey e.1 = true ∨ e = e') fields others
  | v, w => v = w

lemma sameBelowTop_refl (v : Json) : SameBelowTop v v := by
  cases v with
  | null | bool _ | number _ | string _ | array _ => rfl
  | object fields => exact List.forall₂_same.mpr (fun _ _ => .inr rfl)

lemma map_maskField_iff {fields others : List (String × Json)}
    (h : fields.map Prod.fst = others.map Prod.fst) : fields.map maskField = others.map maskField ↔
      List.Forall₂ (fun e e' => isSecretKey e.1 = true ∨ e = e') fields others := by
  induction fields generalizing others with
  | nil =>
    cases others with
    | nil => simp
    | cons _ _ => cases h
  | cons e rest ih =>
    cases others with
    | nil => cases h
    | cons e' rest' =>
      simp only [map_cons,List.cons.injEq,forall₂_cons] at h ⊢
      rw [ih h.2]
      apply and_congr_left'
      rw [maskField,maskField,← h.1]
      by_cases hs : isSecretKey e.1 = true
      all_goals simp [hs]

lemma maskSecretsInJson_eq_iff {v w : Json} (h : Json.Alike isSecretKey v w) :
    maskSecretsInJson v = maskSecretsInJson w ↔ SameBelowTop v w := by
  cases v with
  | object fields =>
    cases w with
    | object others =>
      rw [maskSecretsInJson_object,maskSecretsInJson_object,Json.object.injEq]
      exact map_maskField_iff (Json.keys_of_alike isSecretKey h)
    | null | bool _ | number _ | string _ | array _ => cases h
  | null | bool _ | number _ | string _ | array _ =>
    cases w with
    | object others => cases h
    | null | bool _ | number _ | string _ | array _ => rfl

variable (reader : Json.Reader)

/-- Two columns with the same text, or with texts of values that are related. -/
def ColumnBy (R : Json → Json → Prop) (a b : Option String) : Prop :=
  a = b ∨ ∃ s t v w, a = some s ∧ b = some t ∧ reader.fromStr s = .ok v ∧
    reader.fromStr t = .ok w ∧ R v w

/-- The rows differ only in texts stored under secret keys of the three columns. -/
structure RowsAlike (r r' : GrpcProxySessionRow) : Prop where
  rest : { r with wireConfigJson := none, ingressConfigJson := none, ingressTlsJson := none } =
    { r' with wireConfigJson := none, ingressConfigJson := none, ingressTlsJson := none }
  wire : ColumnBy reader (Json.Alike isSecretKey) r.wireConfigJson r'.wireConfigJson
  ingress : ColumnBy reader (Json.Alike isSecretKey) r.ingressConfigJson r'.ingressConfigJson
  tls : ColumnBy reader (Json.Alike isSecretKey) r.ingressTlsJson r'.ingressTlsJson

/-- The columns of the rows differ at most under secret keys of their outermost objects. -/
structure RowsAlikeBelowTop (r r' : GrpcProxySessionRow) : Prop where
  wire : ColumnBy reader SameBelowTop r.wireConfigJson r'.wireConfigJson
  ingress : ColumnBy reader SameBelowTop r.ingressConfigJson r'.ingressConfigJson
  tls : ColumnBy reader SameBelowTop r.ingressTlsJson r'.ingressTlsJson

def Unreadable (a : Option String) : Prop :=
  ∃ s e, a = some s ∧ Text.trim s ≠ "" ∧ reader.fromStr s = .error e

lemma maskJson_of_ok {reader : Json.Reader} {label s : String} {v : Json}
    (h : reader.fromStr s = .ok v) :
    maskJson reader label s = .ok (some (maskSecretsInJson v)) := by
  rw [maskJson]
  split_ifs with hs
  · obtain ⟨e,he⟩ := reader.blank s hs
    rw [he] at h
    cases h
  · rw [h]

variable {reader}

variable {label : String} {a b : Option String}

lemma shown_eq_iff (h : ColumnBy reader (Json.Alike isSecretKey) a b) :
    shown (maskJson reader label) a = shown (maskJson reader label) b ↔
      ColumnBy reader SameBelowTop a b := by
  rcases h with rfl | ⟨s,t,v,w,rfl,rfl,hs,ht,hvw⟩
  · exact ⟨fun _ => .inl rfl,fun _ => rfl⟩
  rw [shown,shown,maskJson_of_ok hs,maskJson_of_ok ht,Except.ok.injEq,Option.some.injEq,
    maskSecretsInJson_eq_iff hvw]
  constructor
  · intro hsame
    exact .inr ⟨s,t,v,w,rfl,rfl,hs,ht,hsame⟩
  rintro (heq | ⟨s',t',v',w',hs',ht',hv',hw',hsame⟩)
  · cases heq
    rw [hs] at ht
    cases ht
    exact sameBelowTop_refl v
  · cases hs'
    cases ht'
    rw [hs] at hv'
    rw [ht] at hw'
    cases hv'
    cases hw'
    exact hsame

lemma shown_error_iff :
    (∃ e, shown (maskJson reader label) a = .error e) ↔ Unreadable reader a := by
  cases a with
  | none => simp [shown,Unreadable]
  | some s =>
    simp only [shown,maskJson,Unreadable,Option.some.injEq]
    by_cases hs : Text.trim s = ""
    · simp [hs]
    · rw [if_neg hs]
      cases hr : reader.fromStr s with
      | ok v => simp [hr]
      | error e => simp [hr,hs]

lemma shown_error_congr {e : BadRequest} (h : ColumnBy reader (Json.Alike isSecretKey) a b)
    (he : shown (maskJson reader label) a = .error e) :
    shown (maskJson reader label) b = .error e := by
  rcases h with rfl | ⟨s,t,v,w,rfl,rfl,hs,ht,hvw⟩
  · exact he
  · rw [shown,maskJson_of_ok hs] at he
    cases he

lemma shown_ok_congr {x : Option Json} (h : ColumnBy reader (Json.Alike isSecretKey) a b)
    (hx : shown (maskJson reader label) a = .ok x) :
    ∃ y, shown (maskJson reader label) b = .ok y := by
  rcases h with rfl | ⟨s,t,v,w,rfl,rfl,hs,ht,hvw⟩
  · exact ⟨x,hx⟩
  · exact ⟨_,maskJson_of_ok ht⟩

variable {readPolicy : String → Option StoredPolicy} {r r' : GrpcProxySessionRow}

lemma listedRow_eq_iff {a b c a' b' c' : Option Json} (h : RowsAlike reader r r') :
    listedRow readPolicy r a b c = listedRow readPolicy r' a' b' c' ↔ a = a' ∧ b = b' ∧ c = c' := by
  have hrest := h.rest
  cases r
  cases r'
  simp only [GrpcProxySessionRow.mk.injEq] at hrest
  simp only [listedRow,ProxySessionRowOut.mk.injEq,hrest]
  tauto

/-- Alike rows are listed alike exactly when some column is unreadable, so that nothing is
listed, or every secret that differs stands in an outermost object. -/
theorem rowToOut_alike_iff (h : RowsAlike reader r r') :
    rowToOut reader readPolicy r = rowToOut reader readPolicy r' ↔
      (Unreadable reader r.wireConfigJson ∨ Unreadable reader r.ingressConfigJson ∨
        Unreadable reader r.ingressTlsJson) ∨ RowsAlikeBelowTop reader r r' := by
  have hwire : shown (maskWireConfigJson reader) r.wireConfigJson =
      shown (maskWireConfigJson reader) r'.wireConfigJson ↔ _ := shown_eq_iff h.wire
  have hingress : shown (maskWireConfigJson reader) r.ingressConfigJson =
      shown (maskWireConfigJson reader) r'.ingressConfigJson ↔ _ := shown_eq_iff h.ingress
  have htls : shown (maskTlsJson reader) r.ingressTlsJson =
      shown (maskTlsJson reader) r'.ingressTlsJson ↔ _ := shown_eq_iff h.tls
  have hwireBad : (∃ e, shown (maskWireConfigJson reader) r.wireConfigJson = .error e) ↔ _ :=
    shown_error_iff
  have hingressBad :
      (∃ e, shown (maskWireConfigJson reader) r.ingressConfigJson = .error e) ↔ _ :=
    shown_error_iff
  have htlsBad : (∃ e, shown (maskTlsJson reader) r.ingressTlsJson = .error e) ↔ _ :=
    shown_error_iff
  rw [← hwireBad,← hingressBad,← htlsBad,rowToOut,rowToOut]
  -- the first column that cannot be read decides both results
  cases hx : shown (maskWireConfigJson reader) r.wireConfigJson with
  | error e =>
    have hx' : shown (maskWireConfigJson reader) r'.wireConfigJson = .error e :=
      shown_error_congr h.wire hx
    rw [hx']
    exact iff_of_true rfl (.inl (.inl ⟨e,rfl⟩))
  | ok x =>
    obtain ⟨x',hx'⟩ : ∃ x', shown (maskWireConfigJson reader) r'.wireConfigJson = .ok x' :=
      shown_ok_congr h.wire hx
    cases hy : shown (maskWireConfigJson reader) r.ingressConfigJson with
    | error e =>
      have hy' : shown (maskWireConfigJson reader) r'.ingressConfigJson = .error e :=
        shown_error_congr h.ingress hy
      rw [hx',hy']
      exact iff_of_true rfl (.inl (.inr (.inl ⟨e,rfl⟩)))
    | ok y =>
      obtain ⟨y',hy'⟩ : ∃ y', shown (maskWireConfigJson reader) r'.ingressConfigJson = .ok y' :=
        shown_ok_congr h.ingress hy
      cases hz : shown (maskTlsJson reader) r.ingressTlsJson with
      | error e =>
        have hz' : shown (maskTlsJson reader) r'.ingressTlsJson = .error e :=
          shown_error_congr h.tls hz
        rw [hx',hy',hz']
        exact iff_of_true rfl (.inl (.inr (.inr ⟨e,rfl⟩)))
      | ok z =>
        obtain ⟨z',hz'⟩ : ∃ z', shown (maskTlsJson reader) r'.ingressTlsJson = .ok z' :=
          shown_ok_congr h.tls hz
        rw [hx,hx',Except.ok.injEq] at hwire
        rw [hy,hy',Except.ok.injEq] at hingress
        rw [hz,hz',Except.ok.injEq] at htls
        rw [hx',hy',hz']
        have hlisted : (Except.ok (listedRow readPolicy r x y z) : Except BadRequest _) =
            .ok (listedRow readPolicy r' x' y' z') ↔ RowsAlikeBelowTop reader r r' := by
          rw [Except.ok.injEq,listedRow_eq_iff h,hwire,hingress,htls]
          exact ⟨fun ⟨a,b,c⟩ => ⟨a,b,c⟩,fun ⟨a,b,c⟩ => ⟨a,b,c⟩⟩
        refine Iff.trans hlisted ?_
        simp

variable (password : String)

def usersConfig : Json :=
  .object [("users",.array [.object [("name",.string "ann"),("password",.string password)]])]

def topConfig : Json := .object [("password",.string password)]

def usersText : String :=
  "\x7b\"users\":[\x7b\"name\":\"ann\",\"password\":\"" ++ password ++ "\"\x7d]\x7d"

def topText : String := "\x7b\"password\":\"" ++ password ++ "\"\x7d"

def sampleReader : Json.Reader :=
  .ofList [(usersText "one",usersConfig "one"),(usersText "two",usersConfig "two"),
    (topText "one",topConfig "one"),(topText "two",topConfig "two")]
    "expected value at line 1 column 1" (by decide +kernel)

def sampleRow (config : String) : GrpcProxySessionRow where
  sessionId := "7d444840-9dc0-11d1-b245-5ffdce74fad2"
  clientPubkeyB64 := "cGs"
  boardLabel := "board"
  createdAt := 0
  expiresAt := 0
  policyJson := "\x7b\x7d"
  bytesIn := 0
  bytesOut := 0
  activeMs := 0
  lastActivityAt := none
  revoked := false
  wireMode := none
  wireConfigJson := none
  ingressProtocol := some 3
  ingressListenPort := some 443
  ingressListenUdpPort := none
  ingressConfigJson := some config
  ingressTlsJson := none
  ingressTemplateVersion := 1

lemma alike_usersConfig (p q : String) : Json.Alike isSecretKey (usersConfig p)
    (usersConfig q) := by
  have hp : isSecretKey "password" = true := by decide +kernel
  simp [Json.Alike,usersConfig,Json.redact,Json.redactFields,Json.redactItems,hp]

lemma alike_topConfig (p q : String) : Json.Alike isSecretKey (topConfig p) (topConfig q) := by
  have hp : isSecretKey "password" = true := by decide +kernel
  simp [Json.Alike,topConfig,Json.redact,Json.redactFields,hp]

theorem rowToOut_alike_iff_top_password :
    RowsAlike sampleReader (sampleRow (topText "one")) (sampleRow (topText "two")) ∧
      rowToOut sampleReader (fun _ => none) (sampleRow (topText "one")) =
        rowToOut sampleReader (fun _ => none) (sampleRow (topText "two")) := by
  have halike : RowsAlike sampleReader (sampleRow (topText "one")) (sampleRow (topText "two")) :=
    ⟨rfl,.inl rfl,.inr ⟨_,_,_,_,rfl,rfl,rfl,rfl,alike_topConfig "one" "two"⟩,.inl rfl⟩
  refine ⟨halike,(rowToOut_alike_iff halike).mpr (.inr ⟨.inl rfl,?_,.inl rfl⟩)⟩
  refine .inr ⟨_,_,topConfig "one",topConfig "two",rfl,rfl,rfl,rfl,.cons (.inl ?_) .nil⟩
  decide +kernel

def listedPassword (result : Except BadRequest ProxySessionRowOut) : Option String :=
  (((result.toOption.bind (·.ingressConfig)).bind (·.get "users")).bind Json.asArray).bind
    (fun users => users.head?.bind (·.getStr "password"))

theorem rowToOut_shows_user_password :
    RowsAlike sampleReader (sampleRow (usersText "one")) (sampleRow (usersText "two")) ∧
      rowToOut sampleReader (fun _ => none) (sampleRow (usersText "one")) ≠
        rowToOut sampleReader (fun _ => none) (sampleRow (usersText "two")) ∧
      listedPassword (rowToOut sampleReader (fun _ => none) (sampleRow (usersText "one"))) =
        some "one" := by
  refine ⟨⟨rfl,.inl rfl,.inr ⟨_,_,_,_,rfl,rfl,rfl,rfl,alike_usersConfig "one" "two"⟩,.inl rfl⟩,
    ?_,by decide +kernel⟩
  intro h
  have hshown := congrArg listedPassword h
  revert hshown
  decide +kernel

end PirateServer.ProxySession
