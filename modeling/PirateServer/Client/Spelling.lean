import PirateServer.Client.Rules

/-! Which spellings of a destination the routing decision takes for the same. -/
namespace PirateServer.Client
open Lib Lines List

def dropDot (l : Chars) : Chars := if l.getLast? = some '.' then l.dropLast else l

/-- The texts are literals of one address, or names that differ in case, surrounding white
space and one trailing dot. -/
def SameDestination (net : Net) (h h' : Chars) : Prop :=
  (∃ a, net.parseIp (trim h) = some a ∧ net.parseIp (trim h') = some a) ∨
    dropDot (normal h) = dropDot (normal h')

/-- A step of a glob pattern. -/
inductive GlobItem
  | lit (c : Char)
  | any
  | star
  deriving DecidableEq, Repr

def globItem (c : Char) : GlobItem :=
  if c = '*' then .star else if c = '?' then .any else .lit c

def restsInLine : Chars → List Chars
  | [] => [[]]
  | c :: s => (c :: s) :: if c = '\n' then [] else restsInLine s

def globMatch : List GlobItem → Chars → Bool
  | [], s => s.isEmpty
  | .lit c :: p, s => match s with
    | [] => false
    | d :: s => c.toLower = d && globMatch p s
  | .any :: p, s => match s with
    | [] => false
    | d :: s => d ≠ '\n' && globMatch p s
  | .star :: p, s => (restsInLine s).any (globMatch p)

def isGlobSafe (c : Char) : Bool :=
  ('a' ≤ c && c ≤ 'f') || ('0' ≤ c && c ≤ '9') || c = ':' || c = '.' || c = '\n' || c = '*' ||
    c = '?'

/-- Patterns of safe characters match as globs, and address literals consist of digits, the
letters a to f, colons and dots. -/
structure Net.Lawful (net : Net) : Prop where
  glob : ∀ w, (∀ c ∈ w, isGlobSafe c = true) →
    ∃ m, net.regexNew (globText w) = .ok m ∧ ∀ s, m.1 s = globMatch (w.map globItem) (lower s)
  ipChars : ∀ s a, net.parseIp s = some a →
    ∀ c ∈ lower s, isGlobSafe c = true ∧ c ≠ '*' ∧ c ≠ '?' ∧ c ≠ '\n'

variable {s n w r : Chars}

lemma restsInLine_of_noBreak (h : '\n' ∉ s) : [] ∈ restsInLine s := by
  induction s with
  | nil => simp [restsInLine]
  | cons c s ih =>
    rw [mem_cons,not_or] at h
    rw [restsInLine,if_neg (Ne.symm h.1)]
    exact mem_cons_of_mem _ (ih h.2)

lemma globMatch_star (s : Chars) : globMatch [.star] s = true ↔ [] ∈ restsInLine s := by
  simp only [globMatch,List.any_eq_true]
  constructor
  · rintro ⟨r,hr,he⟩
    rw [List.isEmpty_iff.mp he] at hr
    exact hr
  · intro h
    exact ⟨[],h,rfl⟩

lemma globMatch_literals (hn : ∀ c ∈ n, c.toLower = c) (hs : '\n' ∉ s) :
    globMatch (n.map .lit ++ [.star]) s = true ↔ n <+: s := by
  induction n generalizing s with
  | nil =>
    rw [map_nil,nil_append,globMatch_star]
    simp [restsInLine_of_noBreak hs]
  | cons c n ih =>
    rw [map_cons,cons_append]
    cases s with
    | nil => simp [globMatch]
    | cons d s =>
      rw [mem_cons,not_or] at hs
      have hc := hn c mem_cons_self
      have hrest := ih (fun x hx => hn x (mem_cons_of_mem c hx)) hs.2
      simp only [globMatch,hc,Bool.and_eq_true,decide_eq_true_eq,hrest,cons_prefix_cons]

/-- The pattern with the same line feeds and as many other characters. -/
def maskChar (c : Char) : Char := if c = '\n' then '\n' else '?'

lemma globMatch_mask (n : Chars) : globMatch ((n.map maskChar).map globItem ++
    [.star]) n = true := by
  induction n with
  | nil => rfl
  | cons c n ih =>
    rw [map_cons,map_cons,cons_append]
    by_cases hc : c = '\n'
    · subst hc
      simpa [maskChar,globItem,globMatch] using ih
    · simpa [maskChar,globItem,globMatch,hc] using ih

lemma length_le_of_globMatch_mask
    (h : globMatch ((n.map maskChar).map globItem ++ [.star]) s = true) : n.length ≤ s.length := by
  induction n generalizing s with
  | nil => exact Nat.zero_le _
  | cons c n ih =>
    rw [map_cons,map_cons,cons_append] at h
    cases s with
    | nil =>
      by_cases hc : c = '\n'
      all_goals simp [maskChar,globItem,globMatch,hc] at h
    | cons d s =>
      have hrest : globMatch ((n.map maskChar).map globItem ++ [.star]) s = true := by
        by_cases hc : c = '\n'
        · have hitem : globItem (maskChar c) = .lit '\n' := by rw [hc]; rfl
          rw [hitem,globMatch,Bool.and_eq_true] at h
          exact h.2
        · have hitem : globItem (maskChar c) = .any := by rw [maskChar,if_neg hc]; rfl
          rw [hitem,globMatch,Bool.and_eq_true] at h
          exact h.2
      exact Nat.succ_le_succ (ih hrest)

variable {net : Net} {h h' : Chars}

structure IsProbe (w : Chars) : Prop where
  ne_nil : w ≠ []
  safe : ∀ c ∈ w, isGlobSafe c = true
  noStar : '*' ∉ w
  noBlank : ∀ c, w.head? = some c → Text.isWhitespace c = false

lemma IsProbe.trim (hw : IsProbe w) : Lines.trim (w ++ ['*']) = w ++ ['*'] := by
  apply trim_eq_self
  · intro c hc
    apply hw.noBlank c
    obtain ⟨d,w',rfl⟩ := exists_cons_of_ne_nil hw.ne_nil
    exact hc
  · intro c hc
    rw [getLast?_append] at hc
    cases hc
    decide

lemma IsProbe.needsGlobRegex (hw : IsProbe w) : needsGlobRegex (w ++ ['*']) = true := by
  obtain ⟨d,w',rfl⟩ := exists_cons_of_ne_nil hw.ne_nil
  have hcount : ((d :: w') ++ ['*']).count '*' = 1 := by
    rw [count_append,List.count_eq_zero.mpr hw.noStar]
    rfl
  have hd : d ≠ '*' := by
    rintro rfl
    exact hw.noStar mem_cons_self
  simp only [Client.needsGlobRegex,hcount]
  simp [hd]

lemma IsProbe.compile (hw : IsProbe w) (hlaw : net.Lawful) :
    ∃ rs : HostRuleSet net, HostRuleSet.compileFromStrings net [w ++ ['*']] = .ok rs ∧
      ∀ x, rs.matchesHost net x = globMatch (w.map globItem ++ [.star]) (normal x) := by
  have hsafe : ∀ c ∈ w ++ ['*'], isGlobSafe c = true := by
    intro c hc
    rcases List.mem_append.mp hc with hc | hc
    · exact hw.safe c hc
    · rw [List.mem_singleton.mp hc]
      decide
  obtain ⟨m,hm,hmatch⟩ := hlaw.glob (w ++ ['*']) hsafe
  have hne : w ++ ['*'] ≠ [] := by simp
  have hsort : sortRule net ([],[]) (w ++ ['*']) = .ok ([],[m]) := by
    simp only [sortRule,hw.trim,if_neg hne,hw.needsGlobRegex,if_true,globPatternToRegex,hm]
    rfl
  refine ⟨⟨⟨[],[],[]⟩,[m],true⟩,?_,?_⟩
  · simp only [HostRuleSet.compileFromStrings,foldlM_cons,foldlM_nil,hsort]
    rfl
  intro x
  have hitems : (w ++ ['*']).map globItem = w.map globItem ++ [.star] := by
    rw [map_append]
    rfl
  have hbypass : BypassMatcher.matchesHost net ⟨[],[],[]⟩ x = false := by
    simp [BypassMatcher.matchesHost]
  simp only [HostRuleSet.matchesHost,hbypass,Bool.false_or,any_cons,any_nil,
    Bool.or_false,hmatch,hitems,normal]

def CompiledDefaultRules.FromLines (rules : CompiledDefaultRules net) : Prop :=
  (∃ ls, HostRuleSet.compileFromStrings net ls = .ok rules.block) ∧
    (∃ ls, HostRuleSet.compileFromStrings net ls = .ok rules.pass) ∧
    ∃ ls, HostRuleSet.compileFromStrings net ls = .ok rules.our

def DecidedAlike (net : Net) (h h' : Chars) : Prop :=
  ∀ (board : BoardConfig) (global : GlobalSettings) (rules : Option (CompiledDefaultRules net)),
    (∀ r, rules = some r → r.FromLines) →
      tunnelDecision net h board global rules = tunnelDecision net h' board global rules

lemma not_decidedAlike_of_probe (hw : IsProbe w) (hlaw : net.Lawful)
    (hh : globMatch (w.map globItem ++ [.star]) (normal h) = true)
    (hh' : globMatch (w.map globItem ++ [.star]) (normal h') = false) :
      ¬ DecidedAlike net h h' := by
  obtain ⟨rs,hrs,hmatch⟩ := hw.compile hlaw
  intro hall
  let rules : CompiledDefaultRules net := ⟨rs,.empty net,.empty net⟩
  have hempty : HostRuleSet.compileFromStrings net [] = .ok (.empty net) := rfl
  have hfrom : rules.FromLines := ⟨⟨_,hrs⟩,⟨_,hempty⟩,⟨_,hempty⟩⟩
  have heq := hall ⟨true,[]⟩ ⟨[],[],⟨none,none,none⟩⟩ (some rules) (by rintro r ⟨⟩; exact hfrom)
  have hblock : rs.matchesHost net h = true := by rw [hmatch,hh]
  have hpass : rs.matchesHost net h' = false := by rw [hmatch,hh']
  have hnone : ∀ x, BypassMatcher.matchesHost net ⟨[],[],[]⟩ x = false := by
    intro x
    simp [BypassMatcher.matchesHost]
  have hd : tunnelDecision net h ⟨true,[]⟩ ⟨[],[],⟨none,none,none⟩⟩ (some rules) = .ok .block := by
    change tunnelDecisionMerged net h _ _ _ = _
    simp [tunnelDecisionMerged,bundlesFirst,rules,hblock]
  have hd' : tunnelDecision net h' ⟨true,[]⟩ ⟨[],[],⟨none,none,none⟩⟩ (some rules) =
      .ok .tunnel := by
    have hfirst : bundlesFirst net h' (some rules) = none := by
      simp [bundlesFirst,rules,hpass,HostRuleSet.empty]
    have hrest : passMatches net h' (some rules) = false := by
      simp [passMatches,rules,HostRuleSet.empty,HostRuleSet.matchesHost,hnone]
    change tunnelDecisionMerged net h' _ _ _ = _
    simp only [tunnelDecisionMerged,hfirst,BypassMatcher.fromRules,foldlM_nil]
    change (if BypassMatcher.matchesHost net ⟨[],[],[]⟩ h' ||
      BypassMatcher.matchesHost net ⟨[],[],[]⟩ h' then _ else _) = _
    rw [hnone,hrest]
    rfl
  rw [hd,hd'] at heq
  cases heq

lemma DecidedAlike.symm (hall : DecidedAlike net h h') : DecidedAlike net h' h :=
  fun board global rules hfrom => (hall board global rules hfrom).symm

variable {c : Char}

lemma toLower_of_mem_normal (hc : c ∈ normal h) : c.toLower = c := by
  obtain ⟨d,-,rfl⟩ := List.mem_map.mp hc
  exact Char.toLower_toLower_eq_toLower d

lemma head_normal (hc : (normal h).head? = some c) : Text.isWhitespace c = false := by
  have htrim : Lines.trim (Lines.trim h) = Lines.trim h := by
    have ht := congrArg String.toList (Text.trim_trim (String.ofList h))
    simpa [Text.trim,Lines.trim] using ht
  rw [normal,lower,head?_map] at hc
  obtain ⟨d,hd,rfl⟩ := Option.map_eq_some_iff.mp hc
  rw [Text.isWhitespace_toLower]
  exact head_of_trim_eq_self htrim hd

lemma not_decidedAlike_of_literals (hlaw : net.Lawful) {a a' : net.Addr}
    (ha : net.parseIp (Lines.trim h) = some a) (ha' : net.parseIp (Lines.trim h') = some a')
    (hpre : ¬ normal h <+: normal h') : ¬ DecidedAlike net h h' := by
  have hchars := hlaw.ipChars _ _ ha
  have hchars' := hlaw.ipChars _ _ ha'
  have hitems : (normal h).map globItem = (normal h).map .lit := by
    apply map_congr_left
    intro c hc
    obtain ⟨-,hstar,hany,-⟩ := hchars c hc
    rw [globItem,if_neg hstar,if_neg hany]
  have hbreak : '\n' ∉ normal h := fun hc => (hchars _ hc).2.2.2 rfl
  have hbreak' : '\n' ∉ normal h' := fun hc => (hchars' _ hc).2.2.2 rfl
  have hlower : ∀ c ∈ normal h, c.toLower = c := fun c hc => toLower_of_mem_normal hc
  have hw : IsProbe (normal h) := by
    refine ⟨?_,fun c hc => (hchars c hc).1,fun hc => (hchars _ hc).2.1 rfl,fun c hc =>
      head_normal hc⟩
    intro hnil
    exact hpre (by rw [hnil]; exact List.nil_prefix)
  apply not_decidedAlike_of_probe hw hlaw
  · rw [hitems,globMatch_literals hlower hbreak]
  · rw [hitems,← Bool.not_eq_true,globMatch_literals hlower hbreak']
    exact hpre

lemma not_decidedAlike_of_dot (hlaw : net.Lawful) (hdot : normal h = normal h' ++ ['.']) :
    ¬ DecidedAlike net h h' := by
  have hw : IsProbe ((normal h).map maskChar) := by
    refine ⟨by rw [hdot]; simp,?_,?_,?_⟩
    · intro c hc
      obtain ⟨d,-,rfl⟩ := List.mem_map.mp hc
      rw [maskChar]
      split_ifs
      · decide
      · decide
    · intro hc
      obtain ⟨d,-,hd⟩ := List.mem_map.mp hc
      rw [maskChar] at hd
      split_ifs at hd
      · cases hd
      · cases hd
    · intro c hc
      rw [head?_map] at hc
      obtain ⟨d,hd,rfl⟩ := Option.map_eq_some_iff.mp hc
      have hne : d ≠ '\n' := by
        rintro rfl
        exact absurd (head_normal hd) (by decide)
      rw [maskChar,if_neg hne]
      decide
  apply not_decidedAlike_of_probe hw hlaw
  · exact globMatch_mask (normal h)
  · rw [← Bool.not_eq_true]
    intro hmatch
    have hlen := length_le_of_globMatch_mask hmatch
    rw [hdot,length_append,length_singleton] at hlen
    omega

lemma dropDot_cases {n' : Chars} (hd : dropDot n = dropDot n') :
    n = n' ∨ n = n' ++ ['.'] ∨ n' = n ++ ['.'] := by
  have hback : ∀ {l : Chars}, l.getLast? = some '.' → l = l.dropLast ++ ['.'] := by
    intro l hl
    obtain ⟨init,rfl⟩ := List.getLast?_eq_some_iff.mp hl
    simp
  rw [dropDot,dropDot] at hd
  split_ifs at hd with h1 h2 h2
  · left
    rw [hback h1,hback h2,hd]
  · right
    left
    rw [← hd]
    exact hback h1
  · right
    right
    rw [hd]
    exact hback h2
  · exact .inl hd

/-- Two spellings of one destination are decided alike under every configuration exactly when
their trimmed texts agree up to case. -/
theorem respelling_decided_alike_iff (hlaw : net.Lawful) (hsame : SameDestination net h h') :
    DecidedAlike net h h' ↔ normal h = normal h' := by
  constructor
  · intro hall
    by_contra hne
    rcases hsame with ⟨a,ha,ha'⟩ | hdot
    · by_cases hpre : normal h <+: normal h'
      · have hpre' : ¬ normal h' <+: normal h := by
          intro hback
          exact hne (hpre.eq_of_length_le hback.length_le)
        exact not_decidedAlike_of_literals hlaw ha' ha hpre' hall.symm
      · exact not_decidedAlike_of_literals hlaw ha ha' hpre hall
    · rcases dropDot_cases hdot with heq | hlong | hlong
      · exact hne heq
      · exact not_decidedAlike_of_dot hlaw hlong hall
      · exact not_decidedAlike_of_dot hlaw hlong hall.symm
  · intro hn board global rules _
    exact tunnelDecision_congr board global rules hn

def readGlob : Chars → List GlobItem
  | [] => []
  | '\\' :: c :: r => .lit c :: readGlob r
  | '.' :: '*' :: r => .star :: readGlob r
  | '.' :: r => .any :: readGlob r
  | c :: r => .lit c :: readGlob r

lemma head_flatMap_globChar (w : Chars) : (w.flatMap globChar).head? ≠ some '*' := by
  cases w with
  | nil => simp
  | cons c w =>
    rw [flatMap_cons,globChar]
    split_ifs with h1 h2 h3
    · simp
    · simp
    · simp
    · simpa using h1

lemma readGlob_any (h : r.head? ≠ some '*') : readGlob ('.' :: r) = .any :: readGlob r := by
  cases r with
  | nil => rfl
  | cons d r =>
    have hd : d ≠ '*' := by simpa using h
    rw [readGlob]
    rintro r' heq
    exact hd (List.cons.inj heq).1

lemma readGlob_lit (hb : c ≠ '\\') (hd : c ≠ '.') : readGlob (c :: r) = .lit c :: readGlob r := by
  rw [readGlob]
  · rintro d r' heq
    exact absurd heq hb
  · intro r' heq
    exact absurd heq hd
  · intro heq
    exact absurd heq hd

lemma readGlob_flatMap (h : ∀ c ∈ w, isGlobSafe c = true) :
    readGlob (w.flatMap globChar) = w.map globItem := by
  induction w with
  | nil => rfl
  | cons c w ih =>
    have hrest := ih (fun d hd => h d (mem_cons_of_mem c hd))
    rw [flatMap_cons,map_cons,globChar,globItem]
    split_ifs with h1 h2 h3 h4
    · change GlobItem.star :: readGlob (w.flatMap globChar) = _
      rw [hrest]
    · subst h2
      exact absurd h3 (by decide)
    · subst h2
      change GlobItem.lit '.' :: readGlob (w.flatMap globChar) = _
      rw [hrest]
    · change readGlob ('.' :: w.flatMap globChar) = _
      rw [readGlob_any (head_flatMap_globChar w),hrest]
    · have hb : c ≠ '\\' := by
        rintro rfl
        exact absurd (h _ mem_cons_self) (by decide)
      change readGlob (c :: w.flatMap globChar) = _
      rw [readGlob_lit hb h2,hrest]

def globNet : Net :=
  { plainNet with
    regexNew := fun t => .ok ⟨fun s => globMatch (readGlob ((t.drop 5).dropLast)) (lower s),
      fun s u hst => by simp only [hst]⟩ }

lemma globNet_lawful : globNet.Lawful where
  glob w hw := by
    refine ⟨_,rfl,?_⟩
    intro s
    have htext : ((globText w).drop 5).dropLast = w.flatMap globChar := by
      have hdrop : (globText w).drop 5 = w.flatMap globChar ++ ['$'] := by
        rw [globText,append_assoc,List.drop_append]
        rfl
      rw [hdrop,dropLast_concat]
    change globMatch (readGlob _) _ = _
    rw [htext,readGlob_flatMap hw]
  ipChars s a hs := by cases hs

def adsName : Chars := "ads.example".toList

def adsNameDot : Chars := "ads.example.".toList

theorem respelling_decided_alike_case : SameDestination globNet adsName " ADS.example ".toList ∧
      DecidedAlike globNet adsName " ADS.example ".toList := by
  have hnormal : normal adsName = normal " ADS.example ".toList := by decide +kernel
  have hsame : SameDestination globNet adsName " ADS.example ".toList :=
    .inr (by rw [hnormal])
  exact ⟨hsame,(respelling_decided_alike_iff globNet_lawful hsame).mpr hnormal⟩

theorem respelling_avoids_block : SameDestination globNet adsName adsNameDot ∧
      ∃ rs : HostRuleSet globNet, HostRuleSet.compileFromStrings globNet [adsName] = .ok rs ∧
        tunnelDecision globNet adsName ⟨true,[]⟩ ⟨[],[],⟨none,none,none⟩⟩
          (some ⟨rs,.empty globNet,.empty globNet⟩) = .ok .block ∧
        tunnelDecision globNet adsNameDot ⟨true,[]⟩ ⟨[],[],⟨none,none,none⟩⟩
          (some ⟨rs,.empty globNet,.empty globNet⟩) = .ok .tunnel := by
  refine ⟨.inr (by decide +kernel),_,rfl,rfl,rfl⟩

end PirateServer.Client
