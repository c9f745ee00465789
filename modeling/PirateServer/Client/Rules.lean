import PirateServer.Lib.Fallible
import PirateServer.Lib.Json
import PirateServer.Lib.Lines

/-! How the client decides for a host: the bypass lists, the rule bundles and the order in which
they are asked. Addresses, networks and regular expressions come from other packages. -/
namespace PirateServer.Client
open Lib Lines

def lower (l : Chars) : Chars := l.map Char.toLower

/-- A compiled pattern with the flag `(?i)`: it does not see ASCII case. -/
abbrev Matcher := { m : Chars → Bool // ∀ s t, lower s = lower t → m s = m t }

/-- The parsers of other packages. An address is read without regard to case. -/
structure Net where
  Addr : Type
  parseIp : Chars → Option Addr
  parseNet : Chars → Option (Addr → Bool)
  text : Addr → Chars
  regexNew : Chars → Except String Matcher
  parseIp_lower : ∀ s, parseIp (lower s) = parseIp s

def plainNet : Net where
  Addr := Unit
  parseIp _ := none
  parseNet _ := none
  text _ := []
  regexNew _ := .error "unsupported"
  parseIp_lower _ := rfl

variable (net : Net)

structure BypassMatcher where
  exact : List Chars
  suffixes : List Chars
  cidrs : List (net.Addr → Bool)

/-- One turn of the loop in `from_rules`. -/
def BypassMatcher.addRule (m : BypassMatcher net) (raw : Chars) :
    Except String (BypassMatcher net) :=
  let r := trim raw
  if r = [] then .ok m
  else match net.parseNet r with
    | some n => .ok { m with cidrs := m.cidrs ++ [n] }
    | none =>
      if '/' ∈ r then .error ("invalid CIDR: " ++ String.ofList r)
      else match net.parseIp r with
        | some ip => .ok { m with exact := lower (net.text ip) :: m.exact }
        | none =>
          let lc := lower r
          match stripStart ['*','.'] lc with
          | some rest =>
            if rest = [] then .error "invalid bypass *. pattern"
            else .ok { m with suffixes := m.suffixes ++ ['.' :: rest], exact := rest :: m.exact }
          | none => .ok { m with exact := lc :: m.exact }

def BypassMatcher.fromRules (rules : List Chars) : Except String (BypassMatcher net) :=
  rules.foldlM (BypassMatcher.addRule net) ⟨[],[],[]⟩

def BypassMatcher.matchesHost (m : BypassMatcher net) (host : Chars) : Bool :=
  let h := lower (trim host)
  m.exact.contains h || m.suffixes.any (fun suf => suf <:+ h) ||
    (net.parseIp h).any (fun ip => m.cidrs.any (fun c => c ip))

structure HostRuleSet where
  bypass : BypassMatcher net
  globRegex : List Matcher
  hasRules : Bool

def HostRuleSet.matchesHost (rs : HostRuleSet net) (host : Chars) : Bool :=
  rs.bypass.matchesHost net host || rs.globRegex.any (fun re => re.1 (trim host))

def needsGlobRegex (s : Chars) : Bool :=
  let c := s.count '*'
  1 < c || (c = 1 && s.head? ≠ some '*')

def expandSimpleRule (raw : Chars) : List Chars :=
  let r := trim raw
  if r = [] then []
  else if '/' ∈ r ∧ '*' ∉ r then [r]
  else if (net.parseIp r).isSome then [r]
  else if r.head? = some '*' ∧ ¬ ['*','.'] <+: r then
    let rest := r.drop 1
    if rest ≠ [] ∧ '.' ∈ rest ∧ '*' ∉ rest then [['*','.'] ++ rest,rest] else [r]
  else [r]

def globChar (c : Char) : Chars :=
  if c = '*' then ['.','*'] else if c = '.' then ['\\','.'] else if c = '?' then ['.'] else [c]

def globText (p : Chars) : Chars := "(?i)^".toList ++ p.flatMap globChar ++ ['$']

def globPatternToRegex (pattern : Chars) : Except String Matcher :=
  let p := trim pattern
  match net.regexNew (globText p) with
  | .ok m => .ok m
  | .error e => .error ("regex " ++ String.ofList p ++ ": " ++ e)

/-- One turn of the loop in `compile_from_strings`: simple rules and compiled patterns. -/
def sortRule (acc : List Chars × List Matcher) (raw : Chars) :
    Except String (List Chars × List Matcher) :=
  let r := trim raw
  if r = [] then .ok acc
  else if needsGlobRegex r then do
    let m ← globPatternToRegex net r
    return (acc.1,acc.2 ++ [m])
  else .ok (acc.1 ++ expandSimpleRule net r,acc.2)

def HostRuleSet.compileFromStrings (lines : List Chars) : Except String (HostRuleSet net) := do
  let sorted ← lines.foldlM (sortRule net) ([],[])
  let bypass ← BypassMatcher.fromRules net sorted.1
  return ⟨bypass,sorted.2,!sorted.1.isEmpty || !sorted.2.isEmpty⟩

def HostRuleSet.empty : HostRuleSet net := ⟨⟨[],[],[]⟩,[],false⟩

structure CompiledDefaultRules where
  block : HostRuleSet net
  pass : HostRuleSet net
  our : HostRuleSet net

inductive TunnelDecision
  | tunnel
  | direct
  | block
  deriving DecidableEq, Repr

inductive TrafficRuleSource
  | merged
  | bundles
  | board
  deriving DecidableEq, Repr

def TrafficRuleSource.parse (s : Chars) : TrafficRuleSource :=
  let t := lower (trim s)
  if t = "bundles".toList then .bundles
  else if t = "board".toList then .board
  else .merged

structure DefaultRulesPaths where
  blockJson : Option Chars
  passJson : Option Chars
  ourJson : Option Chars
  deriving DecidableEq, Repr

structure GlobalSettings where
  bypass : List Chars
  trafficRuleSource : Chars
  defaultRules : DefaultRulesPaths
  deriving DecidableEq, Repr

/-- The fields of a board that the decision and its gate read. -/
structure BoardConfig where
  enabled : Bool
  bypass : List Chars
  deriving DecidableEq, Repr

variable (host : Chars) (rules : Option (CompiledDefaultRules net))

/-- The bundles' own answer: the block list, then the split-tunnel list. -/
def bundlesFirst :
    Option TunnelDecision :=
  match rules with
  | none => none
  | some r =>
    if r.block.matchesHost net host then some .block
    else if r.our.hasRules && !r.our.matchesHost net host then some .direct
    else none

def passMatches : Bool :=
  match rules with
  | none => false
  | some r => r.pass.matchesHost net host

variable (host : Chars) (board : BoardConfig) (global : GlobalSettings)

def tunnelDecisionMerged (rules : Option (CompiledDefaultRules net)) :
    Except String TunnelDecision :=
  match bundlesFirst net host rules with
  | some d => .ok d
  | none => do
    let g ← BypassMatcher.fromRules net global.bypass
    let b ← BypassMatcher.fromRules net board.bypass
    if g.matchesHost net host || b.matchesHost net host then return .direct
    else if passMatches net host rules then return .direct
    else return .tunnel

def tunnelDecisionBundles (host : Chars) (global : GlobalSettings)
    (rules : Option (CompiledDefaultRules net)) : Except String TunnelDecision :=
  match bundlesFirst net host rules with
  | some d => .ok d
  | none => do
    let g ← BypassMatcher.fromRules net global.bypass
    if g.matchesHost net host then return .direct
    else if passMatches net host rules then return .direct
    else return .tunnel

def tunnelDecisionBoard :
    Except String TunnelDecision := do
  let g ← BypassMatcher.fromRules net global.bypass
  let b ← BypassMatcher.fromRules net board.bypass
  if g.matchesHost net host || b.matchesHost net host then return .direct
  else return .tunnel

def tunnelDecision (rules : Option (CompiledDefaultRules net)) : Except String TunnelDecision :=
  match TrafficRuleSource.parse global.trafficRuleSource with
  | .merged => tunnelDecisionMerged net host board global rules
  | .bundles => tunnelDecisionBundles net host global rules
  | .board => tunnelDecisionBoard net host board global

def normal (host : Chars) : Chars := lower (trim host)

variable {net} {h h' : Chars}

lemma BypassMatcher.matchesHost_congr (m : BypassMatcher net) (hn : normal h = normal h') :
    m.matchesHost net h = m.matchesHost net h' := by
  rw [normal,normal] at hn
  simp only [BypassMatcher.matchesHost,hn]

lemma HostRuleSet.matchesHost_congr (rs : HostRuleSet net) (hn : normal h = normal h') :
    rs.matchesHost net h = rs.matchesHost net h' := by
  have hglob : (fun re : Matcher => re.1 (trim h)) = fun re => re.1 (trim h') := by
    funext re
    exact re.2 _ _ hn
  rw [HostRuleSet.matchesHost,HostRuleSet.matchesHost,rs.bypass.matchesHost_congr hn,hglob]

lemma tunnelDecision_congr (board : BoardConfig) (global : GlobalSettings)
    (rules : Option (CompiledDefaultRules net)) (hn : normal h = normal h') :
    tunnelDecision net h board global rules = tunnelDecision net h' board global rules := by
  have hbypass : ∀ m : BypassMatcher net, m.matchesHost net h = m.matchesHost net h' :=
    fun m => m.matchesHost_congr hn
  have hfirst : bundlesFirst net h rules = bundlesFirst net h' rules := by
    cases rules with
    | none => rfl
    | some r => simp only [bundlesFirst,r.block.matchesHost_congr hn,r.our.matchesHost_congr hn]
  have hpass : passMatches net h rules = passMatches net h' rules := by
    cases rules with
    | none => rfl
    | some r => exact r.pass.matchesHost_congr hn
  simp only [tunnelDecision,tunnelDecisionMerged,tunnelDecisionBundles,tunnelDecisionBoard,hfirst,
    hpass,hbypass]

end PirateServer.Client
