import PirateServer.Client.Rules
import PirateServer.Lib.Run

/-! Reloading the settings while connections are handled: the watcher thread installs a new
snapshot, and each connection reads the installed one twice. -/
namespace PirateServer.Client
open Lib Lines

structure RoutingRule where
  suffix : Chars
  board : Chars
  deriving DecidableEq, Repr

structure SettingsFile where
  global : GlobalSettings
  routing : List RoutingRule
  defaultBoard : Chars
  boards : List (Chars × BoardConfig)
  deriving DecidableEq, Repr

def GlobalSettings.default : GlobalSettings := ⟨[],[],⟨none,none,none⟩⟩

def SettingsFile.default : SettingsFile := ⟨.default,[],[],[]⟩

/-- `BoardConfig::default()`: without serde, the board is not enabled. -/
def BoardConfig.default : BoardConfig := ⟨false,[]⟩

/-- What a read of a file finds. -/
inductive Content
  | missing
  | unreadable (error : String)
  | text (raw : String)
  deriving DecidableEq, Repr

/-- The settings file and the rule files, by their resolved paths, as one reload reads them. -/
structure Disk where
  settings : Content
  rules : Chars → Content

def isBlank (p : Option Chars) : Bool := (p.map (fun s => (trim s).isEmpty)).getD true

def migrateTrafficRuleSettings (data : SettingsFile) : SettingsFile :=
  let paths := data.global.defaultRules
  if trim data.global.trafficRuleSource ≠ [] then data
  else if isBlank paths.blockJson && isBlank paths.passJson && isBlank paths.ourJson then data
  else
    let bundled : SettingsFile :=
      { data with global := { data.global with trafficRuleSource := "bundles".toList } }
    let key := if trim data.defaultBoard = [] then "default".toList else data.defaultBoard
    match data.boards.lookup key with
    | none => bundled
    | some board =>
      if board.bypass = [] then
        { bundled with
          boards := data.boards.map (fun e =>
            if e.1 = key then (key,{ e.2 with enabled := true }) else e) }
      else data

inductive RuleKind
  | block
  | pass
  | our
  deriving DecidableEq, Repr

def RuleKind.keys : RuleKind → List String
  | .block => ["domains_block","domain_patterns_block","ips_block"]
  | .pass => ["domains_pass","domain_patterns_pass","ips_pass"]
  | .our => ["domains_our","domain_patterns_our","ips_our","categories_our"]

mutual
/-- `flatten_json_values`: the texts of a value, in order. -/
def flattenJsonValues : Json → List String
  | .string s => [s]
  | .array items => flattenItems items
  | .object fields => flattenFields fields
  | .null | .bool _ | .number _ => []

def flattenItems : List Json → List String
  | [] => []
  | v :: rest => flattenJsonValues v ++ flattenItems rest

def flattenFields : List (String × Json) → List String
  | [] => []
  | (_,v) :: rest => flattenJsonValues v ++ flattenFields rest
end

/-- The parsers that the client uses. -/
structure Parsers where
  net : Net
  json : Json.Reader
  settings : String → Except String SettingsFile

variable (ps : Parsers)

def collectRuleLines (raw : String) (kind : RuleKind) : Except String (List Chars) :=
  match ps.json.fromStr raw with
  | .error e => .error ("JSON: " ++ e)
  | .ok v => match v.asObject with
    | none => .error "rule JSON must be an object"
    | some obj => .ok ((kind.keys.flatMap (fun k =>
        ((obj.lookup k).map flattenJsonValues).getD [])).map String.toList)

def resolvePath (baseDir p : Chars) : Chars :=
  let p := trim p
  if p.head? = some '/' then p else baseDir ++ '/' :: p

def compileRuleFile (disk : Disk) (parent : Chars) (kind : RuleKind) (path : Option Chars) :
    Except String (HostRuleSet ps.net) :=
  match path with
  | none => .ok (.empty ps.net)
  | some p =>
    let path := resolvePath parent p
    match disk.rules path with
    | .missing => .ok (.empty ps.net)
    | .unreadable e => .error ("read " ++ String.ofList path ++ ": " ++ e)
    | .text raw => do
      let lines ← collectRuleLines ps raw kind
      HostRuleSet.compileFromStrings ps.net lines

def compileDefaultRules (disk : Disk) (parent : Chars) (paths : DefaultRulesPaths) :
    Except String (Option (CompiledDefaultRules ps.net)) :=
  if paths.blockJson.isNone && paths.passJson.isNone && paths.ourJson.isNone then .ok none
  else do
    let block ← compileRuleFile ps disk parent .block paths.blockJson
    let pass ← compileRuleFile ps disk parent .pass paths.passJson
    let our ← compileRuleFile ps disk parent .our paths.ourJson
    return some ⟨block,pass,our⟩

def loadSettingsFromPath (disk : Disk) : Except String SettingsFile :=
  match disk.settings with
  | .missing => .ok .default
  | .unreadable e => .error e
  | .text raw => (ps.settings raw).map migrateTrafficRuleSettings

structure SettingsSnapshot where
  data : SettingsFile
  compiledDefaultRules : Option (CompiledDefaultRules ps.net)

variable (parent : Chars)

def compileRulesForPath (disk : Disk) (data : SettingsFile) :
    Except String (Option (CompiledDefaultRules ps.net)) :=
  compileDefaultRules ps disk parent data.global.defaultRules

/-- The snapshot of start-up: an error in the settings or in a rule file ends the program. -/
def initGlobalSettings (disk : Disk) : Except String (SettingsSnapshot ps) := do
  let data ← loadSettingsFromPath ps disk
  let rules ← compileRulesForPath ps parent disk data
  return ⟨data,rules⟩

/-- One event of the watcher: settings that cannot be read are dropped, rules that cannot be
compiled are replaced by none. -/
def reloaded (disk : Disk) (snap : SettingsSnapshot ps) : SettingsSnapshot ps :=
  match loadSettingsFromPath ps disk with
  | .error _ => snap
  | .ok data => match compileRulesForPath ps parent disk data with
    | .error _ => ⟨data,none⟩
    | .ok rules => ⟨data,rules⟩

def resolveBoardForHost (host : Chars) (rules : List RoutingRule) (defaultBoard : Chars) : Chars :=
  let h := lower (trim host)
  match rules.find? (fun r =>
      let suf := lower (trim r.suffix)
      !suf.isEmpty && (h = suf || ('.' :: suf) <:+ h)) with
  | some r => r.board
  | none => defaultBoard

def boardConfig (snap : SettingsSnapshot ps) (boardId : Chars) : BoardConfig :=
  let def_ := trim snap.data.defaultBoard
  let id := if boardId = [] then if def_ = [] then "default".toList else def_ else boardId
  (snap.data.boards.lookup id).getD .default

/-- A connection: the number of the snapshot it has read, and what it has of it. -/
inductive Conn
  | accepted (host : Chars)
  | refused
  | boarded (host : Chars) (board : BoardConfig) (seen : ℕ)
  | decided (host : Chars) (decision : Except String TunnelDecision) (seen seen' : ℕ)

def Conn.between : Conn → Bool
  | .boarded .. => true
  | .accepted _ | .refused | .decided .. => false

structure Sys where
  snap : SettingsSnapshot ps
  installed : ℕ
  conns : List Conn

inductive Label
  | reload (disk : Disk)
  | connect (host : Chars)
  | readBoard (i : ℕ)
  | decide (i : ℕ)

variable (boardId : Chars)

def chosenBoard (snap : SettingsSnapshot ps) (host : Chars) : BoardConfig :=
  boardConfig ps snap (if boardId ≠ [] then boardId
    else resolveBoardForHost host snap.data.routing snap.data.defaultBoard)

def step (s : Sys ps) : Label → Option (Sys ps)
  | .reload disk =>
    match loadSettingsFromPath ps disk with
    | .error _ => some s
    | .ok _ =>
      some { s with snap := reloaded ps parent disk s.snap, installed := s.installed+1 }
  | .connect host => some { s with conns := s.conns ++ [.accepted host] }
  | .readBoard i =>
    match s.conns[i]? with
    | some (.accepted host) =>
      let board := chosenBoard ps boardId s.snap host
      some { s with
        conns := s.conns.set i (if board.enabled then .boarded host board
          s.installed else .refused) }
    | _ => none
  | .decide i =>
    match s.conns[i]? with
    | some (.boarded host board seen) =>
      some { s with
        conns := s.conns.set i (.decided host
          (tunnelDecision ps.net host board s.snap.data.global s.snap.compiledDefaultRules)
          seen s.installed) }
    | _ => none

def reloadsWhole (s : Sys ps) : Label → Prop
  | .reload disk => ∀ data, loadSettingsFromPath ps disk = .ok data →
      (∃ rules, compileRulesForPath ps parent disk data = .ok rules) ∧
        ∀ c ∈ s.conns, c.between = false
  | _ => True

def Whole (disk : Disk) (snap : SettingsSnapshot ps) : Prop :=
  ∃ data rules, loadSettingsFromPath ps disk = .ok data ∧
    compileRulesForPath ps parent disk data = .ok rules ∧ snap = ⟨data,rules⟩

def Conn.Single (installed : ℕ) : Conn → Prop
  | .boarded _ _ seen => seen = installed
  | .decided _ _ seen seen' => seen = seen'
  | .accepted _ | .refused => True

structure Settled (s : Sys ps) : Prop where
  whole : ∃ disk, Whole ps parent disk s.snap
  single : ∀ c ∈ s.conns, c.Single s.installed

variable {ps parent boardId} {s s' : Sys ps}

lemma reload_whole {disk : Disk} (hok : reloadsWhole ps parent s (.reload disk))
    (hs : step ps parent boardId s (.reload disk) = some s') :
    s' = s ∨ (Whole ps parent disk s'.snap ∧ s'.conns = s.conns ∧
      ∀ c ∈ s.conns, c.between = false) := by
  simp only [step] at hs
  cases hload : loadSettingsFromPath ps disk with
  | error e =>
    rw [hload] at hs
    exact .inl (Option.some.inj hs).symm
  | ok data =>
    obtain ⟨⟨rules,hrules⟩,hbetween⟩ := hok data hload
    rw [hload] at hs
    have heq := Option.some.inj hs
    subst heq
    refine .inr ⟨⟨data,rules,hload,hrules,?_⟩,rfl,hbetween⟩
    simp only [reloaded,hload,hrules]

lemma Conn.single_of_not_between {c : Conn} {n m : ℕ} (h : c.Single n) (hb : c.between = false) :
    c.Single m := by
  cases c with
  | boarded host board seen => cases hb
  | accepted _ => trivial
  | refused => trivial
  | decided host d seen seen' => exact h

lemma Settled.step {a : Label} (h : Settled ps parent s) (hok : reloadsWhole ps parent s a)
    (hs : step ps parent boardId s a = some s') : Settled ps parent s' := by
  cases a with
  | reload disk =>
    rcases reload_whole hok hs with rfl | ⟨hwhole,hconns,hbetween⟩
    · exact h
    · refine ⟨⟨disk,hwhole⟩,?_⟩
      intro c hc
      rw [hconns] at hc
      exact Conn.single_of_not_between (h.single c hc) (hbetween c hc)
  | connect host =>
    cases hs
    refine ⟨h.whole,?_⟩
    intro c hc
    rcases List.mem_append.mp hc with hc | hc
    · exact h.single c hc
    · rw [List.mem_singleton.mp hc]
      trivial
  | readBoard i =>
    simp only [Client.step] at hs
    split at hs
    swap
    · cases hs
    cases hs
    refine ⟨h.whole,?_⟩
    intro c hc
    rcases List.mem_or_eq_of_mem_set hc with hc | rfl
    · exact h.single c hc
    · split_ifs
      · rfl
      · trivial
  | decide i =>
    simp only [Client.step] at hs
    split at hs
    swap
    · cases hs
    rename_i host board seen hi
    cases hs
    refine ⟨h.whole,?_⟩
    intro c hc
    rcases List.mem_or_eq_of_mem_set hc with hc | rfl
    · exact h.single c hc
    · -- the board was read from the snapshot that is still installed
      have hseen : Conn.Single s.installed (.boarded host board seen) :=
        h.single _ (List.mem_of_getElem? hi)
      exact hseen

/-- As long as every reload compiles its rules and waits for the connections that are between
their two reads, each event leaves the old snapshot or a whole new one, and every connection is
decided from one snapshot. -/
theorem reload_all_or_nothing {disk₀ : Disk} {snap₀ : SettingsSnapshot ps}
    (hinit : initGlobalSettings ps parent disk₀ = .ok snap₀)
    (hr : Run (step ps parent boardId) (reloadsWhole ps parent) ⟨snap₀,0,[]⟩ s) :
    (∃ disk, Whole ps parent disk s.snap) ∧ (∀ disk s', reloadsWhole ps parent s (.reload disk) →
        step ps parent boardId s (.reload disk) = some s' →
          s'.snap = s.snap ∨ Whole ps parent disk s'.snap) ∧
      ∀ host d seen seen', Conn.decided host d seen seen' ∈ s.conns → seen = seen' := by
  have hstart : Settled ps parent (⟨snap₀,0,[]⟩ : Sys ps) := by
    obtain ⟨data,hdata,hrest⟩ := bind_eq_ok hinit
    obtain ⟨rules,hrules,hsnap⟩ := bind_eq_ok hrest
    cases hsnap
    exact ⟨⟨disk₀,data,rules,hdata,hrules,rfl⟩,by simp⟩
  have hsettled : Settled ps parent s :=
    hr.invariant (fun _ _ _ hi hok hs => hi.step hok hs) hstart
  refine ⟨hsettled.whole,?_,?_⟩
  · intro disk s' hok hs
    rcases reload_whole hok hs with rfl | ⟨hwhole,-,-⟩
    · exact .inl rfl
    · exact .inr hwhole
  · intro host d seen seen' hmem
    exact hsettled.single _ hmem

def sampleSettings : SettingsFile where
  global := ⟨[],"bundles".toList,⟨some "block.json".toList,none,none⟩⟩
  routing := []
  defaultBoard := "default".toList
  boards := [("default".toList,⟨true,[]⟩)]

def settingsText : String :=
  "\x7b\"global\":\x7b\"traffic_rule_source\":\"bundles\"," ++
    "\"default_rules\":\x7b\"block_json\":\"block.json\"\x7d\x7d,\"default_board\":\"default\"," ++
    "\"boards\":\x7b\"default\":\x7b\"enabled\":true\x7d\x7d\x7d"

def blockText : String := "\x7b\"domains_block\":[\"ads.example\"]\x7d"

def sampleParsers : Parsers where
  net := plainNet
  json := .ofList [(blockText,.object [("domains_block",.array [.string "ads.example"])])]
    "expected value at line 1 column 1" (by decide +kernel)
  settings raw := if raw = settingsText then .ok sampleSettings else .error "expected value"

def goodDisk : Disk := ⟨.text settingsText,fun _ => .text blockText⟩

/-- The rule file is half written. -/
def badDisk : Disk := ⟨.text settingsText,fun _ => .text "\x7b"⟩

def sampleDir : Chars := "/etc/pirate".toList

def adsHost : Chars := "ads.example".toList

def handled (i : ℕ) : List Label := [.connect adsHost,.readBoard i,.decide i]

def Conn.verdict : Conn → Option TunnelDecision
  | .decided _ d _ _ => d.toOption
  | _ => none

instance (s : Sys sampleParsers) (a : Label) :
    Decidable ((anyStep : Sys sampleParsers → Label → Prop) s a) := isTrue trivial

set_option maxRecDepth 4000 in
theorem reload_all_or_nothing_settings_lost : ∃ snap₀,
    initGlobalSettings sampleParsers sampleDir goodDisk = .ok snap₀ ∧
    ∃ s, Run (step sampleParsers sampleDir []) (reloadsWhole sampleParsers sampleDir)
        ⟨snap₀,0,[]⟩ s ∧ ∃ disk, Whole sampleParsers sampleDir disk s.snap := by
  obtain ⟨snap₀,hinit⟩ : ∃ snap₀, initGlobalSettings sampleParsers sampleDir goodDisk = .ok snap₀ :=
    ⟨_,rfl⟩
  have hok : reloadsWhole sampleParsers sampleDir ⟨snap₀,0,[]⟩
      (.reload ⟨.unreadable "permission denied",fun _ => .missing⟩) := by
    intro data hdata
    cases hdata
  have hrun : Run (step sampleParsers sampleDir []) (reloadsWhole sampleParsers sampleDir)
      ⟨snap₀,0,[]⟩ ⟨snap₀,0,[]⟩ := .tail (.refl _) hok rfl
  exact ⟨snap₀,hinit,_,hrun,(reload_all_or_nothing hinit hrun).1⟩

set_option maxRecDepth 4000 in
theorem reload_drops_block_list : ∃ snap₀,
    initGlobalSettings sampleParsers sampleDir goodDisk = .ok snap₀ ∧
    ∃ s, Run (step sampleParsers sampleDir []) anyStep ⟨snap₀,0,[]⟩ s ∧
      s.conns.map Conn.verdict = [some .block,some .tunnel] := by
  refine ⟨_,rfl,?_⟩
  exact exists_run (handled 0 ++ [.reload badDisk] ++ handled 1) (by decide +kernel)

end PirateServer.Client
