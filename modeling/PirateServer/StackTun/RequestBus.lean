import PirateServer.Lib.Ranking
import PirateServer.StackTun.Types

/-! The request bus: the order in which route rules are tried, the decision that
`execute_bus_request` takes for a request, and the address to which it sends the request. Rules
are matched against the trimmed host and path, and the address is normalised afterwards. -/
namespace PirateServer.StackTun
open Lib List
open Text (trim startsWith)

/-- The parts of a request that routing looks at. -/
structure BusRequest where
  method : String
  scheme : String
  host : String
  path : String
  deriving DecidableEq

/-- The comparison of `sorted_rules`: highest priority first, then by id. -/
def StackTunRouteRule.le (a b : StackTunRouteRule) : Prop :=
  b.priority < a.priority ∨ (b.priority = a.priority ∧ a.id ≤ b.id)

instance : DecidableRel StackTunRouteRule.le := fun _ _ => inferInstanceAs (Decidable (_ ∨ _ ∧ _))

def sortedRules (rules : List StackTunRouteRule) : List StackTunRouteRule :=
  rules.insertionSort StackTunRouteRule.le

def condition (holds : String → Bool) (o : Option String) : Bool :=
  o.all (fun s => s = "" || holds s)

def ruleMatches (host path method : String) (rule : StackTunRouteRule) : Bool :=
  condition (Text.contains host) rule.hostContains &&
  condition (Text.startsWith path) rule.pathPrefix &&
  condition (Text.eqIgnoreAsciiCase method) (rule.method.map Text.trim)

def matchingRule (sorted : List StackTunRouteRule) (host path method : String) :
    Option StackTunRouteRule :=
  sorted.find? (ruleMatches host path method)

def slashed (path : String) : String :=
  if Text.startsWith path "/" then path else "/" ++ path

/-- The scheme of a request; `http` when it names none. -/
def schemeOf (scheme : String) : String :=
  if Text.trim scheme = "" then "http" else Text.trim scheme

/-- `build_url`, which does not look at the method and never fails. -/
def buildUrl (scheme host path : String) : String :=
  schemeOf scheme ++ "://" ++ Text.trimStartMatches '/' (Text.trim host) ++ slashed (Text.trim path)

def fallbackConnectorPort (root : PersistRoot) (listenProfileId : String) : UInt16 :=
  ((root.profiles.find? (fun c =>
    c.role = .connector && c.listenProfileId = some listenProfileId)).map
      TunnelProfile.targetPort).getD 8080

/-- What is done without a matching rule. -/
def defaultFallback (root : PersistRoot) (profileId : String) : BusRouteDecisionKind :=
  ((root.profiles.find? (fun p =>
    p.id = profileId && p.role = .listen && p.mode = .requestBus)).bind
      TunnelProfile.defaultBusDecision).getD .allow

/-- The rule that `execute_bus_request` goes by. -/
def matched (rules : List StackTunRouteRule) (r : BusRequest) : Option StackTunRouteRule :=
  matchingRule (sortedRules rules) (Text.trim r.host) (Text.trim r.path) (Text.trim r.method)

variable (root : PersistRoot) (rules : List StackTunRouteRule) (profileId : String) (r : BusRequest)

/-- `raw_decision` of `execute_bus_request`. -/
def routeDecision : BusRouteDecisionKind :=
  ((matched rules r).map StackTunRouteRule.decision).getD (defaultFallback root profileId)

/-- What becomes of a request: an answer without any upstream, a request to an address, or a
task for the queue of the profile. -/
inductive Route
  | answer (status : ℕ) (body : String)
  | send (url : String)
  | task
  deriving DecidableEq

/-- `execute_bus_request` up to the point where it sends the request. -/
def executeBusRequest : Except String Route :=
  match routeDecision root rules profileId r with
  | .deny => .ok (.answer 403 "Forbidden by route policy")
  | .allow => .ok (.send (buildUrl r.scheme (Text.trim r.host) (Text.trim r.path)))
  | .forward =>
    let url := Text.trim (((matched rules r).bind StackTunRouteRule.forwardUrl).getD "")
    if url = "" then .error "forwardUrl missing on matching rule" else .ok (.send url)
  | .localHandle =>
    let host := Text.trim (((matched rules r).bind StackTunRouteRule.localHost).getD "127.0.0.1")
    let port := ((matched rules r).bind StackTunRouteRule.localPort).getD
      (fallbackConnectorPort root profileId)
    .ok (.send (schemeOf r.scheme ++ "://" ++ host ++ ":" ++ port.toNat.repr ++
      slashed (Text.trim r.path)))
  | .queue => .ok .task

/-! Addresses that differ only in the case of scheme and host. -/

def lowerAuthority (cs : List Char) : List Char :=
  (cs.takeWhile (fun c => c ∉ ['/','?','#'])).map Char.toLower ++
    cs.dropWhile (fun c => c ∉ ['/','?','#'])

def lowerUrl : List Char → List Char
  | ':' :: '/' :: '/' :: rest => ':' :: '/' :: '/' :: lowerAuthority rest
  | c::rest => c.toLower::lowerUrl rest
  | [] => []

def sameUrl (u v : String) : Prop := lowerUrl u.toList = lowerUrl v.toList

instance (u v : String) : Decidable (sameUrl u v) :=
  inferInstanceAs (Decidable (lowerUrl u.toList = lowerUrl v.toList))

/-- Two requests that ask for the same thing of the same address. -/
structure Reworded (a b : BusRequest) : Prop where
  url : sameUrl (buildUrl a.scheme a.host a.path) (buildUrl b.scheme b.host b.path)
  method : Text.eqIgnoreAsciiCase a.method b.method = true

section

lemma StackTunRouteRule.le_total (a b : StackTunRouteRule) : a.le b ∨ b.le a := by
  rcases lt_trichotomy a.priority b.priority with h | h | h
  · exact Or.inr (Or.inl h)
  · rcases Std.Total.total (r := (· ≤ ·)) a.id b.id with hid | hid
    · exact Or.inl (Or.inr ⟨h.symm,hid⟩)
    · exact Or.inr (Or.inr ⟨h,hid⟩)
  · exact Or.inl (Or.inl h)

lemma StackTunRouteRule.le_trans {a b c : StackTunRouteRule} (hab : a.le b) (hbc : b.le c) :
    a.le c := by
  rcases hab with hab | ⟨hab,hid⟩
  · rcases hbc with hbc | ⟨hbc,_⟩
    · exact Or.inl (hbc.trans hab)
    · exact Or.inl (hbc ▸ hab)
  · rcases hbc with hbc | ⟨hbc,hid'⟩
    · exact Or.inl (hab ▸ hbc)
    · exact Or.inr ⟨hbc.trans hab,hid.trans hid'⟩

instance : Std.Total StackTunRouteRule.le := ⟨StackTunRouteRule.le_total⟩

instance : IsTrans StackTunRouteRule StackTunRouteRule.le :=
    ⟨fun _ _ _ => StackTunRouteRule.le_trans⟩

variable {rules : List StackTunRouteRule}

/-- Rules with distinct ids never tie. -/
lemma eq_of_le_of_le (hids : (rules.map StackTunRouteRule.id).Nodup)
    {a b : StackTunRouteRule} (ha : a ∈ rules) (hb : b ∈ rules) (hab : a.le b) (hba : b.le a) :
    a = b := by
  have hid : a.id = b.id := by
    rcases hab with hab | ⟨hp,hab⟩
    · rcases hba with hba | ⟨hp,_⟩ <;> omega
    · rcases hba with hba | ⟨_,hba⟩
      · omega
      · exact le_antisymm hab hba
  exact inj_on_of_nodup_map hids ha hb hid

lemma routeDecision_best
    (hids : (rules.map StackTunRouteRule.id).Nodup) (root : PersistRoot) (profileId : String)
    (r : BusRequest) :
    ((∀ rule ∈ rules, ruleMatches (trim r.host) (trim r.path) (trim r.method) rule =
        false) ∧ routeDecision root rules profileId r = defaultFallback root profileId) ∨
    ∃ rule ∈ rules, ruleMatches (trim r.host) (trim r.path) (trim r.method) rule =
        true ∧
      (∀ other ∈ rules, ruleMatches (trim r.host) (trim r.path) (trim r.method) other =
          true → other ≠ rule → other.priority < rule.priority ∨
            (other.priority = rule.priority ∧ rule.id < other.id)) ∧
      routeDecision root rules profileId r = rule.decision := by
  cases hm : matched rules r with
  | none =>
    refine Or.inl ⟨Ranking.firstMatch_eq_none.mp hm,?_⟩
    rw [routeDecision,hm]
    rfl
  | some rule =>
    obtain ⟨hmem,happlies,hbest⟩ := Ranking.firstMatch_spec hm
    refine Or.inr ⟨rule,hmem,happlies,?_,by rw [routeDecision,hm]; rfl⟩
    intro other hother hp hne
    rcases hbest other hother hp with heq | hlt | ⟨hprio,hid⟩
    · exact absurd heq hne
    · exact Or.inl hlt
    · refine Or.inr ⟨hprio,lt_of_le_of_ne hid ?_⟩
      intro hsame
      exact hne (inj_on_of_nodup_map hids hother hmem hsame.symm)

lemma routeDecision_perm {rules' : List StackTunRouteRule}
    (hids : (rules.map StackTunRouteRule.id).Nodup) (hperm : rules.Perm rules')
    (root : PersistRoot) (profileId : String) (r : BusRequest) :
    routeDecision root rules profileId r = routeDecision root rules' profileId r := by
  have hm : matched rules r = matched rules' r := by
    apply Ranking.firstMatch_perm hperm
    intro a ha b hb hab hba
    exact eq_of_le_of_le hids ha hb hab hba
  rw [routeDecision,routeDecision,hm]

end

section
variable {a b : BusRequest}

def denyRule (hostContains pathPrefix : Option String) : StackTunRouteRule :=
  ⟨"deny",0,hostContains,pathPrefix,none,.deny,none,none,none⟩

lemma matched_singleton (rule : StackTunRouteRule) (r : BusRequest) : matched [rule] r =
      if ruleMatches (trim r.host) (trim r.path) (trim r.method) rule = true then
        some rule else none := by
  simp only [matched,matchingRule,sortedRules,insertionSort_cons,insertionSort_nil,
    orderedInsert_nil,find?_singleton]

lemma routeDecision_denyRule (hostContains pathPrefix : Option String) (r : BusRequest) :
    routeDecision .default [denyRule hostContains pathPrefix] "p" r =
      if condition (Text.contains (trim r.host)) hostContains = true ∧
        condition (startsWith (trim r.path)) pathPrefix = true then .deny else .allow := by
  have hm : ruleMatches (trim r.host) (trim r.path) (trim r.method)
      (denyRule hostContains pathPrefix) = true ↔
        condition (Text.contains (trim r.host)) hostContains = true ∧
          condition (startsWith (trim r.path)) pathPrefix = true := by
    have hmethod : condition (Text.eqIgnoreAsciiCase (trim r.method)) none = true := rfl
    simp [ruleMatches,denyRule,hmethod]
  simp only [routeDecision,matched_singleton,hm]
  split <;> rfl

lemma condition_contains (host s : String) :
    condition (Text.contains host) (some s) = Text.contains host s := by
  by_cases h : s = ""
  · subst h
    simp [condition,Text.contains_empty]
  · simp [condition,h]

lemma condition_startsWith (path s : String) :
    condition (startsWith path) (some s) = startsWith path s := by
  by_cases h : s = ""
  · subst h
    simp [condition,Text.startsWith_empty]
  · simp [condition,h]

lemma iff_of_denied {p q : Prop} [Decidable p] [Decidable q]
    (h : (if p then BusRouteDecisionKind.deny else .allow) =
      if q then .deny else .allow) : p ↔ q := by
  by_cases hp : p
  · by_cases hq : q
    · exact iff_of_true hp hq
    · simp [hp,hq] at h
  · by_cases hq : q
    · simp [hp,hq] at h
    · exact iff_of_false hp hq

section
variable (h : ∀ rule, routeDecision .default [rule] "p" a = routeDecision .default [rule] "p" b)
include h

lemma host_eq_of_same : trim a.host = trim b.host := by
  have hcond : ∀ s, Text.contains (trim a.host) s = Text.contains (trim b.host) s := by
    intro s
    have hs := h (denyRule (some s) none)
    have hnone : ∀ path, condition (startsWith path) none = true := fun _ => rfl
    simp only [routeDecision_denyRule,condition_contains,hnone,and_true] at hs
    exact Bool.eq_iff_iff.mpr (iff_of_denied hs)
  apply Text.eq_of_contains
  · rw [hcond]
    exact Text.contains_self _
  · rw [← hcond]
    exact Text.contains_self _

lemma path_eq_of_same : trim a.path = trim b.path := by
  have hcond : ∀ s, startsWith (trim a.path) s = startsWith (trim b.path) s := by
    intro s
    have hs := h (denyRule none (some s))
    have hnone : ∀ host, condition (Text.contains host) none = true := fun _ => rfl
    simp only [routeDecision_denyRule,condition_startsWith,hnone,true_and] at hs
    exact Bool.eq_iff_iff.mpr (iff_of_denied hs)
  apply Text.eq_of_startsWith
  · rw [hcond]
    exact Text.startsWith_self _
  · rw [← hcond]
    exact Text.startsWith_self _

end

lemma matched_congr (hhost : trim a.host = trim b.host)
    (hpath : trim a.path = trim b.path)
    (hmethod : Text.eqIgnoreAsciiCase a.method b.method = true) (rules : List StackTunRouteRule) :
    matched rules a = matched rules b := by
  have hm : ruleMatches (trim a.host) (trim a.path) (trim a.method) =
      ruleMatches (trim b.host) (trim b.path) (trim b.method) := by
    have hcase : Text.eqIgnoreAsciiCase (trim a.method) =
        Text.eqIgnoreAsciiCase (trim b.method) := by
      funext s
      exact Text.eqIgnoreAsciiCase_congr (Text.eqIgnoreAsciiCase_trim hmethod) s
    funext rule
    simp only [ruleMatches,hhost,hpath,hcase]
  simp only [matched,matchingRule,hm]

end

/-- Two wordings of a request to one address get the same decision under all rule lists if and
only if they agree in host and path up to surrounding whitespace. The decision is that of the
matching rule of highest priority, and of smallest id among these, in whatever order the rules
are listed. -/
theorem decision_by_wording (a b : BusRequest) : (Reworded a b →
      ((∀ root rules profileId, (rules.map StackTunRouteRule.id).Nodup →
          routeDecision root rules profileId a = routeDecision root rules profileId b) ↔
        trim a.host = trim b.host ∧ trim a.path = trim b.path)) ∧
    ∀ root rules profileId, (rules.map StackTunRouteRule.id).Nodup →
      (((∀ rule ∈ rules, ruleMatches (trim a.host) (trim a.path) (trim a.method) rule =
            false) ∧ routeDecision root rules profileId a = defaultFallback root profileId) ∨
        ∃ rule ∈ rules, ruleMatches (trim a.host) (trim a.path) (trim a.method) rule =
            true ∧ (∀ other ∈ rules,
            ruleMatches (trim a.host) (trim a.path) (trim a.method) other = true →
            other ≠ rule → other.priority < rule.priority ∨
              (other.priority = rule.priority ∧ rule.id < other.id)) ∧
          routeDecision root rules profileId a = rule.decision) ∧ ∀ rules', rules.Perm rules' →
        routeDecision root rules profileId a = routeDecision root rules' profileId a := by
  constructor
  · intro hab
    constructor
    · intro h
      have hone : ∀ rule, routeDecision .default [rule] "p" a = routeDecision .default
          [rule] "p" b :=
        fun rule => h .default [rule] "p" (nodup_singleton _)
      exact ⟨host_eq_of_same hone,path_eq_of_same hone⟩
    · rintro ⟨hhost,hpath⟩ root rules profileId _
      rw [routeDecision,routeDecision,matched_congr hhost hpath hab.method]
  · intro root rules profileId hids
    exact ⟨routeDecision_best hids root profileId a,
      fun rules' hperm => routeDecision_perm hids hperm root profileId a⟩

def denyAdmin : StackTunRouteRule := denyRule (some "example.org") (some "/admin")

/-- A request for `/admin`, worded with the given host and path. -/
def adminRequest (host path : String) : BusRequest := ⟨"GET","http",host,path⟩

instance (a b : BusRequest) : Decidable (Reworded a b) :=
  decidable_of_iff (sameUrl (buildUrl a.scheme a.host a.path) (buildUrl b.scheme b.host b.path) ∧
    Text.eqIgnoreAsciiCase a.method b.method = true)
    ⟨fun h => ⟨h.1,h.2⟩,fun h => ⟨h.url,h.method⟩⟩

theorem decision_by_wording_blanks :
    Reworded (adminRequest "example.org" "/admin") (adminRequest " example.org" "/admin ") ∧
    routeDecision .default [denyAdmin] "p" (adminRequest " example.org" "/admin ") = .deny ∧
    routeDecision .default [denyAdmin] "p" (adminRequest "example.org" "/admin") =
      routeDecision .default [denyAdmin] "p" (adminRequest " example.org" "/admin ") ∧
    routeDecision .default [denyAdmin] "p" (adminRequest "example.org" "/admin") =
      denyAdmin.decision := by
  have hr : Reworded (adminRequest "example.org" "/admin")
      (adminRequest " example.org" "/admin ") := by
    decide +kernel
  have hids : ([denyAdmin].map StackTunRouteRule.id).Nodup := by decide
  refine ⟨hr,by decide +kernel,?_,?_⟩
  · exact ((decision_by_wording _ _).1 hr).mpr ⟨by decide +kernel,by decide +kernel⟩ _ _ _ hids
  · obtain ⟨hbest,_⟩ := (decision_by_wording (adminRequest "example.org" "/admin")
      (adminRequest " example.org" "/admin ")).2 .default [denyAdmin] "p" hids
    rcases hbest with ⟨hnone,_⟩ | ⟨rule,hmem,_,_,hdec⟩
    · exact absurd (hnone denyAdmin (mem_singleton_self _)) (by decide +kernel)
    · rw [hdec,List.mem_singleton.mp hmem]

theorem denied_request_reworded :
    executeBusRequest .default [denyAdmin] "p" (adminRequest "example.org" "/admin/users") =
      .ok (.answer 403 "Forbidden by route policy") ∧
    (Reworded (adminRequest "example.org" "/admin/users")
      (adminRequest "example.org" "admin/users") ∧
      executeBusRequest .default [denyAdmin] "p" (adminRequest "example.org" "admin/users") =
        .ok (.send "http://example.org/admin/users")) ∧
    (Reworded (adminRequest "example.org" "/admin/users")
      (adminRequest "EXAMPLE.org" "/admin/users") ∧
      executeBusRequest .default [denyAdmin] "p" (adminRequest "EXAMPLE.org" "/admin/users") =
        .ok (.send "http://EXAMPLE.org/admin/users")) ∧
    Reworded (adminRequest "example.org" "/admin/users")
      (adminRequest "example.org/admin" "/users") ∧
      executeBusRequest .default [denyAdmin] "p" (adminRequest "example.org/admin" "/users") =
        .ok (.send "http://example.org/admin/users") := by
  decide +kernel

end PirateServer.StackTun
