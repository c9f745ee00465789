import PirateServer.Lib.Lines
import PirateServer.Lib.Table

/-! The environment file of the server: the text that the desktop client writes, and the two
functions with which the server reads it back. Texts are lists of characters. -/
namespace PirateServer.HostEnv
open Lib Lines List

/-- White space of JavaScript: `trimEnd` and `\s` in patterns. It has the byte order mark and
not the next-line control. -/
def isJsWhitespace (c : Char) : Bool :=
  (Text.isWhitespace c && c.toNat != 0x85) || c.toNat == 0xFEFF

def needsQuotes (c : Char) : Bool :=
  isJsWhitespace c || c = '#' || c = '"' || c = '\'' || c = '\\'

def escapeChar (c : Char) : Chars :=
  if c = '\\' then ['\\','\\']
  else if c = '"' then ['\\','"']
  else if c = '\n' then ['\\','n']
  else [c]

def escapeEnvValue (v : Chars) : Chars :=
  if v = [] then ['"','"']
  else if v.any needsQuotes then '"' :: (v.flatMap escapeChar ++ ['"'])
  else v

/-- `SERVER_DEPLOY_ENV_FLAT_KEYS`, in the order of the schema. -/
def serverDeployEnvFlatKeys : List String :=
  ["DEPLOY_SQLITE_URL","DATABASE_URL","POSTGRES_EXPLORER_URL","PIRATE_POSTGRES_ADMIN_URL",
    "PIRATE_MYSQL_ADMIN_URL","PIRATE_MIGRATION_CWD_ALLOWLIST","DEPLOY_ROOT","GRPC_ENDPOINT",
    "RUST_LOG","DEPLOY_GRPC_PUBLIC_URL","DEPLOY_CONTROL_API_PUBLIC_URL",
    "DEPLOY_CONTROL_API_DIRECT_URL","DEPLOY_ALLOW_SERVER_STACK_UPDATE",
    "DEPLOY_MAX_SERVER_STACK_BYTES","DEPLOY_MAX_UPLOAD_BYTES","DEPLOY_KEYS_DIR",
    "DEPLOY_GRPC_ALLOW_UNAUTHENTICATED","DEPLOY_HOST_STATS_LOG_TAIL","DEPLOY_PROXY_ALLOWLIST",
    "DEPLOY_QUIC_DATAPLANE","CONTROL_API_PORT","CONTROL_API_BIND",
    "CONTROL_API_HOST_DEPLOY_ENV_PATH","CONTROL_API_WRITE_DEPLOY_ENV_SCRIPT",
    "CONTROL_API_JWT_TTL_SECS","CONTROL_API_DEPLOY_CHUNK_BYTES",
    "CONTROL_API_DEPLOY_SESSION_CHUNK_BYTES","CONTROL_API_DEPLOY_SESSION_TTL_SECS",
    "CONTROL_API_STORAGE_SESSION_CHUNK_BYTES","CONTROL_API_STORAGE_SESSION_TTL_SECS",
    "CONTROL_API_HOST_DATABASES","CONTROL_API_HOST_DB_MAX_QUERY_ROWS",
    "CONTROL_API_HOST_DB_MAX_PREVIEW_LIMIT","CONTROL_API_HOST_DB_MAX_OFFSET",
    "CONTROL_API_HOST_DB_MAX_SQL_BYTES","CONTROL_API_HOST_DB_MAX_REDIS_PATTERN_BYTES",
    "CONTROL_API_HOST_DB_WORKSPACE_V2","CONTROL_API_HOST_DB_WRITE","CONTROL_API_HOST_DB_SQL_JOBS",
    "CONTROL_API_HOST_DB_MIGRATIONS","CONTROL_API_HOST_DB_ADMIN_CREATE",
    "CONTROL_API_HOST_DB_MIGRATION_RUN","GRPC_SIGNING_KEY_PATH","CONTROL_API_BEARER_TOKEN",
    "CONTROL_API_CORS_ALLOW_ANY","CONTROL_API_CORS_ORIGINS","CONTROL_API_HOST_STATS_SERIES",
    "CONTROL_API_HOST_STATS_STREAM","CONTROL_API_LOG_TAIL_PATH","PIRATE_DISPLAY_STREAM_CONSENT",
    "PIRATE_DATA_MOUNTS_ROOT","PIRATE_STORAGE_ROOT","PIRATE_STORAGE_MAX_BYTES",
    "PIRATE_STORAGE_MAX_UPLOAD_BYTES","PIRATE_STORAGE_BIND_SOURCE_PREFIXES",
    "PIRATE_STORAGE_BIND_SKIP_FAT_REMOUNT","PIRATE_STORAGE_BIND_FAT_REMOUNT_FMASK",
    "CONTROL_API_HOST_TERMINAL","CONTROL_API_HOST_TERMINAL_SHELL",
    "CONTROL_API_HOST_TERMINAL_SESSION_SECS","DEPLOY_SUBSCRIPTION_PUBLIC_HOST",
    "DEPLOY_SUBSCRIPTION_TLS_SNI","CONTROL_API_SUBSCRIPTION_PUBLIC_HOST",
    "CONTROL_API_GRPC_PUBLIC_URL","NGINX_CONFIG_PATH","NGINX_TEST_FULL_CONFIG",
    "NGINX_ADMIN_TOKEN","CONTROL_API_NGINX_SITE_PATH","CONTROL_API_NGINX_ENSURE_SCRIPT",
    "CONTROL_API_NGINX_APPLY_SITE_SCRIPT","CONTROL_API_NGINX_OPS_SCRIPT","PIRATE_WAN_DOMAIN",
    "PIRATE_WAN_ACME_EMAIL","PIRATE_WAN_FIREWALL_MANAGED","CONTROL_UI_ADMIN_USERNAME",
    "CONTROL_UI_ADMIN_PASSWORD","CONTROL_API_JWT_SECRET","CONTROL_UI_ADMIN_PASSWORD_RESET",
    "DEPLOY_DASHBOARD_PASSWORD","MINIO_HOST","MINIO_PORT","MINIO_CONSOLE_PORT","MINIO_USE_SSL",
    "MINIO_ROOT_USER","MINIO_ROOT_PASSWORD","MINIO_DATA_DIR","MEILI_HOST","MEILI_PORT",
    "MEILI_MASTER_KEY","MEILI_DB_PATH","STACK_TUN_STATE_DIR","STACK_TUN_HTTP_BIND",
    "STACK_TUN_GRPC_BIND","STACK_TUN_AUTHORIZED_PEERS_PATH","STACK_TUN_IDENTITY_PATH",
    "STACK_TUN_REST_BEARER","STACK_TUN_ALLOW_UNAUTHENTICATED","SSL_PROVIDER","SSL_EMAIL",
    "SSL_MODE","SSL_WEBROOT","SSL_CERTBOT_DNS_PLUGIN","SSL_CERTBOT_DNS_CREDENTIALS",
    "SSL_CHECK_INTERVAL","SSL_EXPIRY_THRESHOLD_DAYS","SSL_ENABLE_SCHEDULER","SSL_CERTBOT_BIN",
    "SSL_CERTBOT_EXTRA_ARGS","SSL_USE_SUDO","SSL_RELOAD_CMD","PIRATE_NGINX_OPS_SCRIPT",
    "SSL_ALERT_WEBHOOK_URL","SSL_POST_CHECK_ENABLED","SSL_POST_CHECK_PATH","SSL_POST_CHECK_PORT",
    "SSL_POST_CHECK_LOOPBACK","SSL_POST_CHECK_HOST","SSL_STRICT_NGINX_RELOAD"]

abbrev Entry := Chars × Chars

def entryLine (e : Entry) : Chars := e.1 ++ '=' :: escapeEnvValue e.2

def titleLine : Chars :=
  "# Отредактировано в Pirate Desktop. Комментарии из исходного файла не сохраняются.".toList

def extraLine : Chars := "# Дополнительные переменные".toList

variable (flat : List Chars) (m : List Entry)

def knownEntries : List Entry :=
  flat.filterMap (fun k => (m.lookup k).map (fun v => (k,v)))

def unknownEntries : List Entry :=
  (m.filter (fun e => !flat.contains e.1)).insertionSort (fun e e' => e.1 ≤ e'.1)

def envLines : List Chars :=
  let unknown := unknownEntries flat m
  [titleLine,[]] ++ (knownEntries flat m).map entryLine ++
    if unknown.isEmpty then [] else [[],extraLine] ++ unknown.map entryLine

def serializeDotEnv (m : List Entry) : Chars :=
  trimEnd isJsWhitespace (joinLines (envLines (serverDeployEnvFlatKeys.map String.toList) m)) ++
    ['\n']

/-- A line that the readers pass over. -/
def skipped (t : Chars) : Bool := t.isEmpty || t.head? = some '#'

/-- What `read_host_env_file` takes from a line. -/
def readLine (line : Chars) : Option Entry :=
  let t := trim line
  if skipped t then none
  else match splitOnce '=' t with
    | none => none
    | some (k,v) => if trim k = [] then none else some (trim k,trim v)

/-- The map of a text; the last of several lines for a key counts. -/
def readHostEnvFile (raw : Chars) : Table Chars Chars :=
  (lines raw).foldl (fun m line => match readLine line with
    | some e => m.insert e.1 e.2
    | none => m) ∅

def envGet (m : Table Chars Chars) (key : Chars) : Option Chars :=
  ((m.lookup key).map trim).filter (fun s => !s.isEmpty)

structure Seen where
  jwt : Bool
  user : Bool
  pass : Bool
  deriving DecidableEq, Repr

def jwtKey : Chars := "CONTROL_API_JWT_SECRET".toList
def userKey : Chars := "CONTROL_UI_ADMIN_USERNAME".toList
def passKey : Chars := "CONTROL_UI_ADMIN_PASSWORD".toList

def dashboardLine (seen : Seen) (line : Chars) : Seen :=
  let line := trim line
  if skipped line then seen
  else match stripStart (jwtKey ++ ['=']) line with
    | some rest => { seen with jwt := !(trim rest).isEmpty }
    | none => match stripStart (userKey ++ ['=']) line with
      | some rest => { seen with user := !(trim rest).isEmpty }
      | none => match stripStart (passKey ++ ['=']) line with
        | some rest => { seen with pass := !(trim rest).isEmpty }
        | none => seen

def pirateDeployEnvDashboardEnabled (contents : Chars) : Bool :=
  let seen := (lines contents).foldl dashboardLine ⟨false,false,false⟩
  seen.jwt && seen.user && seen.pass

def isIdentifierChar (c : Char) : Bool :=
  ('a' ≤ c && c ≤ 'z') || ('A' ≤ c && c ≤ 'Z') || ('0' ≤ c && c ≤ '9') || c = '_'

/-- A map from ASCII identifiers to values without line breaks and without white space at
their ends. -/
structure EnvMap where
  entries : List Entry
  nodup : (entries.map Prod.fst).Nodup
  keys : ∀ e ∈ entries, e.1 ≠ [] ∧ e.1.all isIdentifierChar = true
  noBreaks : ∀ e ∈ entries, '\n' ∉ e.2 ∧ '\r' ∉ e.2
  trimmed : ∀ e ∈ entries, trim e.2 = e.2

def Unquoted (v : Chars) : Prop := v ≠ [] ∧ v.any needsQuotes = false

variable {v : Chars}

lemma escapeEnvValue_of_unquoted (h : Unquoted v) : escapeEnvValue v = v := by
  rw [escapeEnvValue,if_neg h.1,if_neg]
  simp [h.2]

lemma length_le_flatMap_escapeChar (v : Chars) : v.length ≤ (v.flatMap escapeChar).length := by
  induction v with
  | nil => simp
  | cons c v ih =>
    have hc : 1 ≤ (escapeChar c).length := by
      rw [escapeChar]
      split_ifs
      all_goals simp
    rw [List.flatMap_cons,List.length_append,List.length_cons]
    omega

lemma unquoted_iff (v : Chars) : Unquoted v ↔ v ≠ [] ∧ escapeEnvValue v = v := by
  constructor
  · intro h
    exact ⟨h.1,escapeEnvValue_of_unquoted h⟩
  rintro ⟨hne,heq⟩
  refine ⟨hne,?_⟩
  cases hq : v.any needsQuotes with
  | false => rfl
  | true =>
    rw [escapeEnvValue,if_neg hne,if_pos hq] at heq
    have hlen := congrArg List.length heq
    have := length_le_flatMap_escapeChar v
    simp only [List.length_cons,List.length_append,List.length_nil] at hlen
    omega

lemma escapeEnvValue_ne_nil (v : Chars) : escapeEnvValue v ≠ [] := by
  rw [escapeEnvValue]
  split_ifs with h
  · simp
  · simp
  · exact h

variable {c : Char}

lemma last_escapeEnvValue (h : trim v = v) (hc : (escapeEnvValue v).getLast? = some c) :
    Text.isWhitespace c = false ∧ isJsWhitespace c = false := by
  rw [escapeEnvValue] at hc
  split_ifs at hc with hnil hq
  · cases hc
    decide
  · rw [← List.cons_append,List.getLast?_append] at hc
    cases hc
    decide
  · have hplain := List.any_eq_false.mp (by simpa using hq) c (List.mem_of_getLast? hc)
    have hjs : isJsWhitespace c = false := by
      simp only [needsQuotes,Bool.or_eq_true,not_or] at hplain
      simpa using hplain.1.1.1.1
    exact ⟨last_of_trim_eq_self h hc,hjs⟩

lemma mem_escapeEnvValue (hc : c ∈ escapeEnvValue v) : c ∈ v ∨ c = '"' ∨ c = '\\' ∨ c = 'n' := by
  rw [escapeEnvValue] at hc
  split_ifs at hc
  · simp only [List.mem_cons,List.not_mem_nil,or_false,or_self] at hc
    exact .inr (.inl hc)
  · simp only [List.mem_cons,List.mem_append,List.not_mem_nil,or_false,List.mem_flatMap] at hc
    rcases hc with rfl | ⟨d,hd,hc⟩ | rfl
    · exact .inr (.inl rfl)
    · rw [escapeChar] at hc
      split_ifs at hc
      all_goals simp only [List.mem_cons,List.not_mem_nil,or_false] at hc
      · exact .inr (.inr (.inl (hc.elim id id)))
      · rcases hc with rfl | rfl
        · exact .inr (.inr (.inl rfl))
        · exact .inr (.inl rfl)
      · rcases hc with rfl | rfl
        · exact .inr (.inr (.inl rfl))
        · exact .inr (.inr (.inr rfl))
      · subst hc
        exact .inl hd
    · exact .inr (.inl rfl)
  · exact .inl hc

lemma identifierChar_facts (h : isIdentifierChar c = true) :
    c ≠ '=' ∧ c ≠ '\n' ∧ c ≠ '#' ∧ Text.isWhitespace c = false := by
  have hrange : (97 ≤ c.toNat ∧ c.toNat ≤ 122) ∨ (65 ≤ c.toNat ∧ c.toNat ≤ 90) ∨
      (48 ≤ c.toNat ∧ c.toNat ≤ 57) ∨ c.toNat = 95 := by
    simp only [isIdentifierChar,Bool.or_eq_true,Bool.and_eq_true,decide_eq_true_eq] at h
    rcases h with ((⟨h1,h2⟩ | ⟨h1,h2⟩) | ⟨h1,h2⟩) | rfl
    · exact .inl ⟨h1,h2⟩
    · exact .inr (.inl ⟨h1,h2⟩)
    · exact .inr (.inr (.inl ⟨h1,h2⟩))
    · exact .inr (.inr (.inr rfl))
  have hne : ∀ d : Char, d.toNat < 48 ∨ d.toNat = 61 → c ≠ d := by
    rintro d hd rfl
    omega
  refine ⟨hne '=' (by decide),hne '\n' (by decide),hne '#' (by decide),?_⟩
  simp only [Text.isWhitespace,Bool.or_eq_false_iff,Bool.and_eq_false_iff,decide_eq_false_iff_not,
    beq_eq_false_iff_ne]
  omega

namespace EnvMap
variable (m : EnvMap) {e : Entry}

lemma key_facts (he : e ∈ m.entries) :
    '=' ∉ e.1 ∧ '\n' ∉ e.1 ∧ e.1.head? ≠ some '#' ∧ trim e.1 = e.1 := by
  have hall : ∀ c ∈ e.1, isIdentifierChar c = true := all_eq_true.mp (m.keys e he).2
  refine ⟨?_,?_,?_,trim_eq_self ?_ ?_⟩
  · intro h
    exact (identifierChar_facts (hall _ h)).1 rfl
  · intro h
    exact (identifierChar_facts (hall _ h)).2.1 rfl
  · intro h
    exact (identifierChar_facts (hall _ (mem_of_head? h))).2.2.1 rfl
  · intro c hc
    exact (identifierChar_facts (hall _ (mem_of_head? hc))).2.2.2
  · intro c hc
    exact (identifierChar_facts (hall _ (mem_of_getLast? hc))).2.2.2

lemma trim_escapeEnvValue (he : e ∈ m.entries) :
    trim (escapeEnvValue e.2) = escapeEnvValue e.2 := by
  apply trim_eq_self
  · intro c hc
    rw [escapeEnvValue] at hc
    split_ifs at hc with hnil hq
    · cases hc
      decide
    · cases hc
      decide
    · exact head_of_trim_eq_self (m.trimmed e he) hc
  · intro c hc
    exact (last_escapeEnvValue (m.trimmed e he) hc).1

lemma last_entryLine (e : Entry) : (entryLine e).getLast? = (escapeEnvValue e.2).getLast? := by
  obtain ⟨c,hc⟩ := Option.isSome_iff_exists.mp
    (getLast?_isSome.mpr (escapeEnvValue_ne_nil e.2))
  rw [entryLine,getLast?_append,getLast?_cons,hc]
  rfl

lemma trim_entryLine (he : e ∈ m.entries) : trim (entryLine e) = entryLine e := by
  obtain ⟨c,k,hk⟩ := exists_cons_of_ne_nil (m.keys e he).1
  apply trim_eq_self
  · intro d hd
    rw [entryLine,hk] at hd
    cases hd
    exact head_of_trim_eq_self (m.key_facts he).2.2.2 (by rw [hk]; rfl)
  · intro d hd
    rw [last_entryLine] at hd
    exact (last_escapeEnvValue (m.trimmed e he) hd).1

lemma not_skipped_entryLine (he : e ∈ m.entries) : skipped (entryLine e) = false := by
  obtain ⟨c,k,hk⟩ := exists_cons_of_ne_nil (m.keys e he).1
  have hc := (m.key_facts he).2.2.1
  rw [hk] at hc
  simpa [skipped,entryLine,hk] using hc

lemma plain_entryLine (he : e ∈ m.entries) : Plain (entryLine e) := by
  constructor
  · intro h
    rw [entryLine,mem_append,mem_cons] at h
    rcases h with h | h | h
    · exact (m.key_facts he).2.1 h
    · cases h
    · rcases mem_escapeEnvValue h with h | h | h | h
      · exact (m.noBreaks e he).1 h
      · cases h
      · cases h
      · cases h
  · intro h
    rw [last_entryLine] at h
    rcases mem_escapeEnvValue (mem_of_getLast? h) with h | h | h | h
    · exact (m.noBreaks e he).2 h
    · cases h
    · cases h
    · cases h

lemma readLine_entryLine (he : e ∈ m.entries) :
    readLine (entryLine e) = some (e.1,escapeEnvValue e.2) := by
  obtain ⟨heq,-,-,htrim⟩ := m.key_facts he
  rw [readLine,m.trim_entryLine he,m.not_skipped_entryLine he,entryLine,splitOnce_append heq]
  simp only [htrim,m.trim_escapeEnvValue he,if_neg (m.keys e he).1]
  rfl

lemma dashboardLine_entryLine (seen : Seen) (he : e ∈ m.entries) :
    dashboardLine seen (entryLine e) =
      ⟨seen.jwt || e.1 = jwtKey,seen.user || e.1 = userKey,seen.pass || e.1 = passKey⟩ := by
  have heq := (m.key_facts he).1
  have hvalue : (!(trim (escapeEnvValue e.2)).isEmpty) = true := by
    rw [m.trim_escapeEnvValue he]
    simpa using escapeEnvValue_ne_nil e.2
  rw [dashboardLine,m.trim_entryLine he,m.not_skipped_entryLine he,entryLine]
  simp only [stripStart_append (show '=' ∉ jwtKey by decide) heq,
    stripStart_append (show '=' ∉ userKey by decide) heq,
    stripStart_append (show '=' ∉ passKey by decide) heq]
  have hju : jwtKey ≠ userKey := by decide
  have hjp : jwtKey ≠ passKey := by decide
  have hup : userKey ≠ passKey := by decide
  by_cases hj : e.1 = jwtKey
  · simp [hj,hvalue,hju,hjp]
  · by_cases hu : e.1 = userKey
    · simp [hu,hvalue,hju.symm,hup]
    · by_cases hp : e.1 = passKey
      · simp [hp,hvalue,hjp.symm,hup.symm]
      · simp [hj,hu,hp]

end EnvMap

def written (flat : List Chars) (m : List Entry) : List Entry :=
  knownEntries flat m ++ unknownEntries flat m

namespace EnvMap
variable (m : EnvMap)

lemma lookup_eq_some_iff {k : Chars} : m.entries.lookup k = some v ↔ (k,v) ∈ m.entries :=
  lookup_iff_mem_of_nodup m.nodup

lemma mem_written_iff (flat : List Chars) {e : Entry} :
    e ∈ written flat m.entries ↔ e ∈ m.entries := by
  obtain ⟨k,v⟩ := e
  rw [written,mem_append,knownEntries,mem_filterMap,unknownEntries,
    mem_insertionSort,mem_filter]
  constructor
  · rintro (⟨k',-,h⟩ | ⟨h,-⟩)
    · obtain ⟨v',hv',heq⟩ := Option.map_eq_some_iff.mp h
      cases heq
      exact m.lookup_eq_some_iff.mp hv'
    · exact h
  · intro h
    by_cases hk : k ∈ flat
    · refine .inl ⟨k,hk,?_⟩
      rw [m.lookup_eq_some_iff.mpr h]
      rfl
    · exact .inr ⟨h,by simpa using hk⟩

lemma written_eq_nil_iff (flat : List Chars) : written flat m.entries = [] ↔ m.entries = [] := by
  rw [eq_nil_iff_forall_not_mem,eq_nil_iff_forall_not_mem]
  simp only [m.mem_written_iff]

end EnvMap

variable {σ : Type} {f : σ → Chars → σ}

lemma foldl_envLines (flat : List Chars) (m : List Entry) (hnil : ∀ s, f s [] = s)
    (htitle : ∀ s, f s titleLine = s) (hextra : ∀ s, f s extraLine = s) (s : σ) :
    (envLines flat m).foldl f s = ((written flat m).map entryLine).foldl f s := by
  rw [envLines,written]
  cases hu : unknownEntries flat m with
  | nil => simp [hnil,htitle]
  | cons e rest => simp [hnil,htitle,hextra,foldl_append]

lemma exists_envLines_concat {flat : List Chars} {m : List Entry} (h : written flat m ≠ []) :
    ∃ front, ∃ e ∈ written flat m, envLines flat m = front ++ [entryLine e] := by
  rw [written] at h ⊢
  rw [envLines]
  cases hu : unknownEntries flat m using reverseRecOn with
  | nil =>
    cases hk : knownEntries flat m using reverseRecOn with
    | nil => exact absurd (by rw [hk,hu]; rfl) h
    | append_singleton front e =>
      exact ⟨[titleLine,[]] ++ front.map entryLine,e,by simp,by simp⟩
  | append_singleton front e =>
    exact ⟨[titleLine,[]] ++ (knownEntries flat m).map entryLine ++
      ([[],extraLine] ++ front.map entryLine),e,by simp,by simp⟩

lemma plain_comments : Plain titleLine ∧ Plain extraLine ∧ Plain [] := by
  refine ⟨⟨?_,?_⟩,⟨?_,?_⟩,⟨?_,?_⟩⟩
  all_goals decide +kernel

lemma plain_envLines (flat : List Chars) (m : EnvMap) : ∀ l ∈ envLines flat m.entries, Plain l := by
  have hentry : ∀ e ∈ written flat m.entries, Plain (entryLine e) :=
    fun e he => m.plain_entryLine ((m.mem_written_iff flat).mp he)
  obtain ⟨htitle,hextra,hnil⟩ := plain_comments
  intro l hl
  simp only [envLines,mem_append,mem_cons,not_mem_nil,or_false,mem_map] at hl
  rcases hl with ((hl | hl) | ⟨e,he,rfl⟩) | hl
  · rw [hl]
    exact htitle
  · rw [hl]
    exact hnil
  · exact hentry e (mem_append_left _ he)
  split_ifs at hl
  · cases hl
  simp only [mem_append,mem_cons,not_mem_nil,or_false,mem_map] at hl
  rcases hl with (hl | hl) | ⟨e,he,rfl⟩
  · rw [hl]
    exact hnil
  · rw [hl]
    exact hextra
  · exact hentry e (mem_append_right _ he)

lemma foldl_lines_serialize (m : EnvMap) (hnil : ∀ s, f s [] = s)
    (htitle : ∀ s, f s titleLine = s) (hextra : ∀ s, f s extraLine = s) (s : σ) :
    (lines (serializeDotEnv m.entries)).foldl f s =
      ((written (serverDeployEnvFlatKeys.map String.toList) m.entries).map
        entryLine).foldl f s := by
  rw [serializeDotEnv]
  generalize serverDeployEnvFlatKeys.map String.toList = flat
  rw [← foldl_envLines flat m.entries hnil htitle hextra]
  by_cases hm : m.entries = []
  · -- without entries the trimming removes the empty line after the title
    have hlines : envLines flat m.entries = [titleLine,[]] := by
      have hw := append_eq_nil_iff.mp ((m.written_eq_nil_iff flat).mpr hm)
      rw [envLines,hw.1,hw.2]
      rfl
    have htrim : trimEnd isJsWhitespace (joinLines [titleLine,[]]) = joinLines [titleLine] := by
      decide +kernel
    rw [hlines,htrim,lines_joinLines (by simp) (by simpa using plain_comments.1)]
    simp [htitle,hnil]
  · have hw : written flat m.entries ≠ [] := fun h => hm ((m.written_eq_nil_iff flat).mp h)
    obtain ⟨front,e,he,hlines⟩ := exists_envLines_concat hw
    have hmem := (m.mem_written_iff flat).mp he
    have hne : entryLine e ≠ [] := by simp [entryLine]
    obtain ⟨c,hc⟩ := Option.isSome_iff_exists.mp
      (getLast?_isSome.mpr (escapeEnvValue_ne_nil e.2))
    have hlast : (joinLines (envLines flat m.entries)).getLast? = some c := by
      rw [hlines,getLast?_joinLines_concat front hne,EnvMap.last_entryLine,hc]
    rw [trimEnd_eq_self hlast (last_escapeEnvValue (m.trimmed e hmem) hc).2,
      lines_joinLines (by rw [hlines]; simp) (plain_envLines flat m)]

lemma lookup_foldl_insert (g : Chars → Option Chars) (ws : List Entry) (t : Table Chars Chars)
    (h : ∀ e ∈ ws, g e.1 = some e.2) (k : Chars) :
    (ws.foldl (fun m e => m.insert e.1 e.2) t).lookup k =
      if k ∈ ws.map Prod.fst then g k else t.lookup k := by
  induction ws generalizing t with
  | nil => simp
  | cons e rest ih =>
    rw [foldl_cons,ih _ (fun e' he' => h e' (mem_cons_of_mem e he'))]
    simp only [map_cons,mem_cons]
    by_cases hrest : k ∈ rest.map Prod.fst
    · rw [if_pos hrest,if_pos (.inr hrest)]
    · rw [if_neg hrest]
      by_cases hke : k = e.1
      · rw [if_pos (.inl hke),hke,AList.lookup_insert,h e mem_cons_self]
      · rw [if_neg (by tauto),AList.lookup_insert_ne hke]

variable (m : EnvMap)

lemma envGet_serializeDotEnv (k : Chars) : envGet (readHostEnvFile (serializeDotEnv m.entries)) k =
      (m.entries.lookup k).map escapeEnvValue := by
  have hskip : readLine [] = none ∧ readLine titleLine = none ∧ readLine extraLine = none := by
    decide +kernel
  set ws := written (serverDeployEnvFlatKeys.map String.toList) m.entries with hws
  have hread : readHostEnvFile (serializeDotEnv m.entries) =
      (ws.map (fun e => (e.1,escapeEnvValue e.2))).foldl (fun t e => t.insert e.1 e.2) ∅ := by
    rw [readHostEnvFile,foldl_lines_serialize m (by simp [hskip.1]) (by simp [hskip.2.1])
      (by simp [hskip.2.2]),foldl_map,foldl_map]
    apply foldl_ext
    intro t e he
    rw [m.readLine_entryLine ((m.mem_written_iff _).mp he)]
  have hagree : ∀ e ∈ ws.map (fun e => (e.1,escapeEnvValue e.2)),
      (m.entries.lookup e.1).map escapeEnvValue = some e.2 := by
    intro e he
    obtain ⟨⟨a,v⟩,hmem,rfl⟩ := mem_map.mp he
    rw [m.lookup_eq_some_iff.mpr ((m.mem_written_iff _).mp hmem)]
    rfl
  rw [envGet,hread,lookup_foldl_insert
    (fun k => (m.entries.lookup k).map escapeEnvValue) _ _ hagree k]
  cases hk : m.entries.lookup k with
  | none => simp
  | some v =>
    have hmem := m.lookup_eq_some_iff.mp hk
    have hin : k ∈ (ws.map (fun e => (e.1,escapeEnvValue e.2))).map Prod.fst := by
      simp only [map_map,mem_map]
      exact ⟨(k,v),(m.mem_written_iff _).mpr hmem,rfl⟩
    rw [if_pos hin]
    have htrim : trim (escapeEnvValue v) = escapeEnvValue v := m.trim_escapeEnvValue hmem
    simp [htrim,escapeEnvValue_ne_nil]

lemma foldl_dashboardLine {ws : List Entry} (h : ∀ e ∈ ws, e ∈ m.entries) (seen : Seen) :
    (ws.map entryLine).foldl dashboardLine seen = ⟨seen.jwt || (ws.map Prod.fst).contains jwtKey,
        seen.user || (ws.map Prod.fst).contains userKey,
        seen.pass || (ws.map Prod.fst).contains passKey⟩ := by
  induction ws generalizing seen with
  | nil => simp
  | cons e rest ih =>
    rw [map_cons,foldl_cons,m.dashboardLine_entryLine seen (h e mem_cons_self),
      ih (fun e' he' => h e' (mem_cons_of_mem e he'))]
    simp [Bool.or_assoc,eq_comm,Bool.beq_eq_decide_eq]

lemma dashboardEnabled_serializeDotEnv :
    pirateDeployEnvDashboardEnabled (serializeDotEnv m.entries) =
      ((m.entries.lookup jwtKey).isSome && (m.entries.lookup userKey).isSome &&
        (m.entries.lookup passKey).isSome) := by
  have hskip : ∀ s, dashboardLine s [] = s ∧ dashboardLine s titleLine = s ∧
      dashboardLine s extraLine = s := by
    have hlines : skipped (trim []) = true ∧ skipped (trim titleLine) = true ∧
        skipped (trim extraLine) = true := by decide +kernel
    intro s
    simp [dashboardLine,hlines]
  have hkey : ∀ k, ((written (serverDeployEnvFlatKeys.map String.toList) m.entries).map
      Prod.fst).contains k = (m.entries.lookup k).isSome := by
    intro k
    rw [Bool.eq_iff_iff,contains_iff_mem,mem_map,Option.isSome_iff_exists]
    constructor
    · rintro ⟨⟨a,v⟩,he,rfl⟩
      exact ⟨v,m.lookup_eq_some_iff.mpr ((m.mem_written_iff _).mp he)⟩
    · rintro ⟨v,hv⟩
      exact ⟨(k,v),(m.mem_written_iff _).mpr (m.lookup_eq_some_iff.mp hv),rfl⟩
  rw [pirateDeployEnvDashboardEnabled,foldl_lines_serialize m (fun s => (hskip s).1)
    (fun s => (hskip s).2.1) (fun s => (hskip s).2.2),
    foldl_dashboardLine m (fun e he => (m.mem_written_iff _).mp he)]
  simp only [hkey,Bool.false_or]

def EnvMap.value (k : Chars) : Option Chars := (m.entries.lookup k).filter (fun v => !v.isEmpty)

/-- The server sees the map that the desktop client wrote exactly when every value is written
without quotes. -/
theorem env_readers_agree_iff :
    ((∀ k, envGet (readHostEnvFile (serializeDotEnv m.entries)) k = m.value k) ∧
      (pirateDeployEnvDashboardEnabled (serializeDotEnv m.entries) =
        ((m.value jwtKey).isSome && (m.value userKey).isSome && (m.value passKey).isSome))) ↔
      ∀ e ∈ m.entries, Unquoted e.2 := by
  simp only [envGet_serializeDotEnv,dashboardEnabled_serializeDotEnv]
  constructor
  · rintro ⟨hget,-⟩ ⟨k,v⟩ he
    have hk := hget k
    rw [EnvMap.value,m.lookup_eq_some_iff.mpr he] at hk
    rw [unquoted_iff]
    cases v with
    | nil => cases hk
    | cons c v => exact ⟨by simp,by simpa [Option.filter] using hk⟩
  · intro hall
    have hvalue : ∀ k, m.value k = m.entries.lookup k := by
      intro k
      rw [EnvMap.value]
      cases hk : m.entries.lookup k with
      | none => rfl
      | some v =>
        have hne : v ≠ [] := (hall _ (m.lookup_eq_some_iff.mp hk)).1
        simp [hne]
    refine ⟨?_,by simp only [hvalue]⟩
    intro k
    rw [hvalue]
    cases hk : m.entries.lookup k with
    | none => rfl
    | some v =>
      rw [Option.map_some,escapeEnvValue_of_unquoted (hall _ (m.lookup_eq_some_iff.mp hk))]

def singleEntry (key value : String)
    (h : (key.toList ≠ [] ∧ key.toList.all isIdentifierChar = true) ∧
      ('\n' ∉ value.toList ∧ '\r' ∉ value.toList) ∧ trim value.toList = value.toList) : EnvMap where
  entries := [(key.toList,value.toList)]
  nodup := by simp
  keys := by simpa using h.1
  noBreaks := by simpa using h.2.1
  trimmed := by simpa using h.2.2

def plainMap : EnvMap := singleEntry "CONTROL_API_BIND" "127.0.0.1" (by decide +kernel)

def quotedMap : EnvMap := singleEntry "CONTROL_UI_ADMIN_PASSWORD" "a#b" (by decide +kernel)

theorem env_readers_agree_plain_value :
    envGet (readHostEnvFile (serializeDotEnv plainMap.entries)) "CONTROL_API_BIND".toList =
      some "127.0.0.1".toList := by
  have hunquoted : ∀ e ∈ plainMap.entries, Unquoted e.2 := by
    intro e he
    rw [mem_singleton.mp he]
    constructor
    all_goals decide +kernel
  rw [((env_readers_agree_iff plainMap).mpr hunquoted).1]
  decide +kernel

theorem env_readers_keep_quotes :
    quotedMap.value "CONTROL_UI_ADMIN_PASSWORD".toList = some "a#b".toList ∧
      envGet (readHostEnvFile (serializeDotEnv quotedMap.entries))
        "CONTROL_UI_ADMIN_PASSWORD".toList = some "\"a#b\"".toList := by
  rw [envGet_serializeDotEnv]
  decide +kernel

end PirateServer.HostEnv
