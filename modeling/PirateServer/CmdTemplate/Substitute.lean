import PirateServer.Lib.Lines
import PirateServer.Lib.Utf8
import PirateServer.Lib.Fallible

/-! Placeholders in command texts. One scanner runs over bytes and collects the first placeholder of
each name, against which the values are tested; another runs over characters and puts in the values.
Both find the same placeholders, but only the options of the first of a name are enforced. -/
namespace PirateServer.CmdTemplate
open Lib Lib.Lines Lib.Bytes List Option

structure CmdPlaceholder where
  name : Chars
  options : Option (List Chars)
  deriving DecidableEq, Repr

def validPlaceholderName : Chars → Bool
  | [] => false
  | first::chars =>
    (first.isAlpha || first = '_') && chars.all (fun c => c.isAlphanum || c = '_')

def nameAndOptions (inner : Chars) : Chars × Option (List Chars) :=
  match splitOnce '=' inner with
  | some (n,opts) =>
    let list := ((opts.splitOn '|').map trim).filter (fun o => o ≠ [])
    (trim n,if list = [] then none else some list)
  | none => (inner,none)

/-- On the text after `$` and the opening brace. The number is a number of bytes. -/
def parsePlaceholderInner (rest : Chars) : Option (CmdPlaceholder × ℕ) :=
  if '}' ∈ rest then
    let before := rest.takeWhile (fun c => c ≠ '}')
    let inner := trim before
    if inner = [] then none
    else
      let (name,options) := nameAndOptions inner
      if validPlaceholderName name = false then none
      else some (⟨name,options⟩,(encodeChars before).length+1)
  else none

def addFirst (out : List CmdPlaceholder) (ph : CmdPlaceholder) : List CmdPlaceholder :=
  if out.any (fun p => p.name = ph.name) then out else out++[ph]

/-- The loop of `parse_cmd_placeholders` on the bytes that are left; the number counts the bytes
that the offset has jumped over. -/
def parseFrom : ℕ → List UInt8 → List CmdPlaceholder → List CmdPlaceholder
  | _,[],out => out
  | skip+1,_::b,out => parseFrom skip b out
  | 0,x::b,out =>
    if b.length < 2 then out
    else if x = 0x24 ∧ byteAt b 0 = 0x7B then
      match (fromUtf8 (b.drop 1)).bind (fun rest => parsePlaceholderInner rest.toList) with
      | some (ph,consumed) => parseFrom (1+consumed) b (addFirst out ph)
      | none => parseFrom 0 b out
    else parseFrom 0 b out

def parseCmdPlaceholders (cmd : Chars) : List CmdPlaceholder := parseFrom 0 (encodeChars cmd) []

variable (values : Chars → Option Chars)

def checkValue (p : CmdPlaceholder) : Except String Unit :=
  match values p.name with
  | none => .error ("missing value for parameter `"++String.ofList p.name++"`")
  | some raw =>
    let v := trim raw
    if v = [] then .error ("empty value for parameter `"++String.ofList p.name++"`")
    else
      match p.options with
      | none => .ok ()
      | some opts =>
        if opts.any (fun o => o = v) then .ok ()
        else .error ("invalid value for `"++String.ofList p.name++"`: expected one of "++
          String.ofList ((opts.intersperse [',',' ']).flatten))

def valueOf (ph : CmdPlaceholder) : Chars := ((values ph.name).map trim).getD []

/-- The second loop of `substitute_cmd`. The offset stands in bytes. -/
def substituteFrom : ℕ → Chars → Chars
  | _,[] => []
  | skip+1,c::cs => substituteFrom (skip+1-(String.utf8EncodeChar c).length) cs
  | 0,c::cs =>
    match (stripStart ['$','{'] (c::cs)).bind parsePlaceholderInner with
    | some (ph,consumed) => valueOf values ph++substituteFrom (1+consumed) cs
    | none => c::substituteFrom 0 cs

def checkAll : List CmdPlaceholder → Except String Unit
  | [] => .ok ()
  | p::ps =>
    match checkValue values p with
    | .error e => .error e
    | .ok () => checkAll ps

def substituteCmd (cmd : Chars) : Except String Chars :=
  (checkAll values (parseCmdPlaceholders cmd)).map (fun _ => substituteFrom values 0 cmd)

def missingPlaceholdersMessage (placeholders : List CmdPlaceholder) : String :=
  "command requires parameters: "++
    String.ofList (((placeholders.map CmdPlaceholder.name).intersperse [',',' ']).flatten)++
    " (set via desktop UI or pass values)"

def resolveCmdTemplate (cmd : Chars) (values : Option (Chars → Option Chars)) :
    Except String Chars :=
  let placeholders := parseCmdPlaceholders cmd
  if placeholders = [] then .ok cmd
  else
    match values with
    | none => .error (missingPlaceholdersMessage placeholders)
    | some map => substituteCmd map cmd

/-! The cut of a command into characters and placeholders. -/

inductive Piece
  | char (c : Char)
  | hole (ph : CmdPlaceholder)
  deriving DecidableEq, Repr

def placeholderAt (cs : Chars) : Option CmdPlaceholder :=
  ((stripStart ['$','{'] cs).bind parsePlaceholderInner).map Prod.fst

/-- From left to right; a placeholder ends with the next closing brace. -/
def piecesFrom : ℕ → Chars → List Piece
  | _,[] => []
  | skip+1,_::cs => piecesFrom skip cs
  | 0,c::cs =>
    match placeholderAt (c::cs) with
    | some ph => .hole ph::piecesFrom ((cs.takeWhile (fun c => c ≠ '}')).length+1) cs
    | none => .char c::piecesFrom 0 cs

def pieces (cmd : Chars) : List Piece := piecesFrom 0 cmd

def Piece.placeholder : Piece → Option CmdPlaceholder
  | .char _ => none
  | .hole ph => some ph

def occurrences (cmd : Chars) : List CmdPlaceholder := (pieces cmd).filterMap Piece.placeholder

def render (values : Chars → Option Chars) : Piece → Chars
  | .char c => [c]
  | .hole ph => valueOf values ph

def Allowed (values : Chars → Option Chars) (ph : CmdPlaceholder) : Prop :=
  ∃ raw, values ph.name = some raw ∧ trim raw ≠ [] ∧ ∀ opts, ph.options = some opts →
    trim raw ∈ opts

def IsFirst (phs : List CmdPlaceholder) (ph : CmdPlaceholder) : Prop :=
  ∃ before after, phs = before++ph::after ∧ ∀ q ∈ before, q.name ≠ ph.name

/-! What the parser of a placeholder reads. -/

lemma takeWhile_close {before : Chars} (hfree : '}' ∉ before) (after : Chars) :
    (before++ '}'::after).takeWhile (fun c => c ≠ '}') = before := by
  rw [takeWhile_append_of_pos (by simpa using fun c hc (h : c = '}') => hfree (h ▸ hc))]
  simp

lemma parsePlaceholderInner_eq_some {rest : Chars} {ph : CmdPlaceholder} {n : ℕ}
    (h : parsePlaceholderInner rest = some (ph,n)) :
    ∃ before after, rest = before++ '}'::after ∧ '}' ∉ before ∧
      n = (encodeChars before).length+1 := by
  unfold parsePlaceholderInner at h
  dsimp only at h
  split_ifs at h with hmem
  obtain ⟨before,after,rfl,hfree⟩ := eq_append_cons_of_mem hmem
  refine ⟨before,after,rfl,hfree,?_⟩
  cases h
  rw [takeWhile_close hfree]

lemma stripStart_open {c : Char} {cs rest : Chars} (h : stripStart ['$','{'] (c::cs) = some rest) :
    c = '$' ∧ cs = '{'::rest := by
  unfold stripStart at h
  split_ifs at h with hstart
  obtain ⟨t,ht⟩ := hstart
  cases h
  rw [← ht]
  exact ⟨(List.cons.inj ht).1.symm,(List.cons.inj ht).2.symm⟩

@[simp] lemma stripStart_open_cons (rest : Chars) :
    stripStart ['$','{'] ('$':: '{'::rest) = some rest := by
  simp [stripStart]

/-- A text as the scanners see it: a placeholder, or a character that begins none. -/
inductive Scans : Chars → List Piece → Prop
  | nil : Scans [] []
  | char {c : Char} {cs : Chars} {ps : List Piece}
      (none : (stripStart ['$','{'] (c::cs)).bind parsePlaceholderInner = none)
      (tail : Scans cs ps) : Scans (c::cs) (.char c::ps)
  | hole {before after : Chars} {ph : CmdPlaceholder} {ps : List Piece} (free : '}' ∉ before)
      (some : parsePlaceholderInner (before++ '}'::after) =
        some (ph,(encodeChars before).length+1))
      (tail : Scans after ps) : Scans ('$':: '{'::(before++ '}'::after)) (.hole ph::ps)

lemma piecesFrom_skip (l cs : Chars) : piecesFrom l.length (l++cs) = piecesFrom 0 cs := by
  induction l with
  | nil => rfl
  | cons c l ih => exact ih

lemma scans_pieces (cmd : Chars) : Scans cmd (pieces cmd) := by
  induction hn : cmd.length using Nat.strong_induction_on generalizing cmd with
  | _ n ih =>
    cases cmd with
    | nil => exact .nil
    | cons c cs =>
      subst hn
      unfold pieces piecesFrom placeholderAt
      cases hat : (stripStart ['$','{'] (c::cs)).bind parsePlaceholderInner with
      | none => exact .char hat (ih _ (Nat.lt_succ_self _) cs rfl)
      | some r =>
        obtain ⟨ph,n⟩ := r
        obtain ⟨rest,hstrip,hinner⟩ := Option.bind_eq_some_iff.mp hat
        obtain ⟨rfl,rfl⟩ := stripStart_open hstrip
        obtain ⟨before,after,rfl,hfree,rfl⟩ := parsePlaceholderInner_eq_some hinner
        have htail := ih after.length (by simp; omega) after rfl
        have hskip := piecesFrom_skip ('{'::before++['}']) after
        have hclose := @takeWhile_close ('{'::before)
          (by rw [mem_cons,not_or]; exact ⟨by decide,hfree⟩) after
        rw [cons_append] at hclose
        simp only [map_some,hclose]
        rw [show ('{'::before).length+1 = ('{'::before++['}']).length by simp,
          show '{'::(before++ '}'::after) = '{'::before++['}']++after by simp,hskip]
        have hscans := Scans.hole hfree hinner htail
        simpa [pieces] using hscans

/-! The scanner over bytes. -/

variable {out : List CmdPlaceholder}

lemma parseFrom_skip (l b : List UInt8) : parseFrom l.length (l++b) out = parseFrom 0 b out := by
  induction l with
  | nil => rfl
  | cons x l ih => exact ih

lemma parseFrom_short {b : List UInt8} (h : b.length ≤ 2) : parseFrom 0 b out = out := by
  cases b with
  | nil => rfl
  | cons x b =>
    rw [parseFrom,if_pos]
    simpa using h

lemma parseFrom_pass {x : UInt8} {b : List UInt8} (h : x = 0x24 → byteAt b 0 = 0x7B →
      (fromUtf8 (b.drop 1)).bind (fun rest => parsePlaceholderInner rest.toList) = none) :
    parseFrom 0 (x::b) out = parseFrom 0 b out := by
  rw [parseFrom]
  by_cases hshort : b.length < 2
  · rw [if_pos hshort,parseFrom_short (by omega)]
  · rw [if_neg hshort]
    by_cases hopen : x = 0x24 ∧ byteAt b 0 = 0x7B
    · rw [if_pos hopen,h hopen.1 hopen.2]
    · rw [if_neg hopen]

lemma parseFrom_pass_all {l : List UInt8} (h : ∀ x ∈ l, x ≠ 0x24) (b : List UInt8) :
    parseFrom 0 (l++b) out = parseFrom 0 b out := by
  induction l with
  | nil => rfl
  | cons x l ih =>
    rw [cons_append,parseFrom_pass (fun hx => absurd hx (h x mem_cons_self))]
    exact ih (fun y hy => h y (mem_cons_of_mem _ hy))

lemma encodeChars_cons (c : Char) (cs : Chars) :
    encodeChars (c::cs) = String.utf8EncodeChar c++encodeChars cs := flatMap_cons

lemma encodeChars_append (cs ds : Chars) : encodeChars (cs++ds) = encodeChars cs++encodeChars ds :=
  flatMap_append

lemma fromUtf8_encodeChars (cs : Chars) : fromUtf8 (encodeChars cs) = some (String.ofList cs) := by
  have h := fromUtf8_ofText (String.ofList cs)
  rwa [ofText_eq,String.toList_ofList] at h

variable {cs : Chars}

lemma eq_open_of_byteAt (h : byteAt (encodeChars cs) 0 = 0x7B) : ∃ rest, cs = '{'::rest := by
  cases cs with
  | nil => exact absurd h (by decide)
  | cons c cs =>
    have hmem : (0x7B : UInt8) ∈ String.utf8EncodeChar c := by
      rw [← h,encodeChars_cons,byteAt_append (length_encodeChar_pos c),byteAt,
        getD_eq_getElem _ _ (length_encodeChar_pos c)]
      exact getElem_mem _
    have hc := eq_of_mem_encodeChar hmem (by decide)
    refine ⟨cs,?_⟩
    rw [show c = '{' from Char.toNat_inj.mp hc]

lemma parseFrom_char {c : Char}
    (hnone : (stripStart ['$','{'] (c::cs)).bind parsePlaceholderInner = none) :
    parseFrom 0 (encodeChars (c::cs)) out = parseFrom 0 (encodeChars cs) out := by
  rw [encodeChars_cons]
  by_cases hc : c = '$'
  · subst hc
    have hdollar : String.utf8EncodeChar '$' = [0x24] := rfl
    rw [hdollar,singleton_append]
    refine parseFrom_pass (fun _ hopen => ?_)
    obtain ⟨rest,rfl⟩ := eq_open_of_byteAt hopen
    rw [stripStart_open_cons,bind_some] at hnone
    have hdrop : (encodeChars ('{'::rest)).drop 1 = encodeChars rest := rfl
    rw [hdrop,fromUtf8_encodeChars,bind_some,String.toList_ofList]
    exact hnone
  · refine parseFrom_pass_all (fun x hx h => hc ?_) _
    have := eq_of_mem_encodeChar hx (by rw [h]; decide)
    exact Char.toNat_inj.mp (this.trans (by rw [h]; rfl))

lemma parseFrom_hole {before after : Chars} {ph : CmdPlaceholder}
    (hsome : parsePlaceholderInner (before++ '}'::after) = some
      (ph,(encodeChars before).length+1)) :
    parseFrom 0 (encodeChars ('$':: '{'::(before++ '}'::after))) out =
      parseFrom 0 (encodeChars after) (addFirst out ph) := by
  have hbytes : encodeChars ('$':: '{'::(before++ '}'::after)) =
      0x24::0x7B::(encodeChars before++0x7D::encodeChars after) := by
    rw [encodeChars_cons,encodeChars_cons,encodeChars_append,encodeChars_cons]
    rfl
  have htext : encodeChars before++0x7D::encodeChars after = encodeChars (before++ '}'::after) := by
    rw [encodeChars_append,encodeChars_cons]
    rfl
  have hlong : ¬(0x7B::(encodeChars before++0x7D::encodeChars after)).length < 2 := by
    simp only [length_cons,length_append]
    omega
  have hskip := @parseFrom_skip (addFirst out ph) (0x7B::encodeChars before++[0x7D])
    (encodeChars after)
  rw [hbytes,parseFrom,if_neg hlong,if_pos ⟨rfl,rfl⟩,drop_one,tail_cons,htext,fromUtf8_encodeChars]
  simp only [bind_some,String.toList_ofList,hsome]
  rw [← htext,← hskip]
  congr 1
  · simp only [length_cons,length_append,length_nil]
    omega
  · simp

lemma parseFrom_scans {ps : List Piece} (h : Scans cs ps) :
    parseFrom 0 (encodeChars cs) out = (ps.filterMap Piece.placeholder).foldl addFirst out := by
  induction h generalizing out with
  | nil => rfl
  | char hnone _ ih => rw [parseFrom_char hnone,ih]; rfl
  | hole _ hsome _ ih => rw [parseFrom_hole hsome,ih]; rfl

lemma parseCmdPlaceholders_eq (cmd : Chars) :
    parseCmdPlaceholders cmd = (occurrences cmd).foldl addFirst [] :=
  parseFrom_scans (scans_pieces cmd)

/-! The scanner over characters. -/

variable {values : Chars → Option Chars}

lemma substituteFrom_skip (l cs : Chars) :
    substituteFrom values (encodeChars l).length (l++cs) = substituteFrom values 0 cs := by
  induction l with
  | nil => rfl
  | cons c l ih =>
    have hpos := length_encodeChar_pos c
    rw [encodeChars_cons,length_append,cons_append]
    obtain ⟨n,hn⟩ : ∃ n, (String.utf8EncodeChar c).length+(encodeChars l).length = n+1 :=
      ⟨(String.utf8EncodeChar c).length+(encodeChars l).length-1,by omega⟩
    rw [hn,substituteFrom,← hn,Nat.add_sub_cancel_left,ih]

lemma substituteFrom_scans {cs : Chars} {ps : List Piece} (h : Scans cs ps) :
    substituteFrom values 0 cs = ps.flatMap (render values) := by
  induction h with
  | nil => rfl
  | @char c cs ps hnone _ ih =>
    rw [substituteFrom,hnone,flatMap_cons,← ih]
    rfl
  | @hole before after ph ps _ hsome _ ih =>
    have hskip := @substituteFrom_skip values ('{'::before++['}']) after
    have hlen : (encodeChars ('{'::before++['}'])).length = 1+((encodeChars before).length+1) := by
      rw [cons_append,encodeChars_cons,encodeChars_append,length_append,length_append]
      rfl
    rw [substituteFrom,stripStart_open_cons,bind_some,hsome,flatMap_cons,← ih,← hskip,hlen]
    simp [render]

/-! The placeholders that are tested. -/

lemma isFirst_cons {p ph : CmdPlaceholder} {phs : List CmdPlaceholder} :
    IsFirst (p::phs) ph ↔ p = ph ∨ (p.name ≠ ph.name ∧ IsFirst phs ph) := by
  constructor
  · rintro ⟨before,after,heq,hbefore⟩
    cases before with
    | nil => exact .inl (List.cons.inj heq).1
    | cons q before =>
      obtain ⟨rfl,rfl⟩ := List.cons.inj heq
      exact .inr ⟨hbefore p mem_cons_self,before,after,rfl,
        fun q hq => hbefore q (mem_cons_of_mem _ hq)⟩
  · rintro (rfl | ⟨hne,before,after,rfl,hbefore⟩)
    · exact ⟨[],phs,rfl,fun q hq => absurd hq not_mem_nil⟩
    · exact ⟨p::before,after,rfl,List.forall_mem_cons.mpr ⟨hne,hbefore⟩⟩

lemma mem_foldl_addFirst {ph : CmdPlaceholder} (phs out : List CmdPlaceholder) :
    ph ∈ phs.foldl addFirst out ↔ ph ∈ out ∨ (IsFirst phs ph ∧ ∀ q ∈ out, q.name ≠ ph.name) := by
  induction phs generalizing out with
  | nil => simp [IsFirst]
  | cons p phs ih =>
    rw [foldl_cons,ih,isFirst_cons,addFirst]
    by_cases hany : out.any (fun q => q.name = p.name) = true
    · rw [if_pos hany]
      obtain ⟨q,hq,hname⟩ := List.any_eq_true.mp hany
      have hother : (∀ q ∈ out, q.name ≠ ph.name) → p.name ≠ ph.name := by
        intro hout hp
        exact hout q hq ((of_decide_eq_true hname).trans hp)
      constructor
      · rintro (hmem | ⟨hfirst,hout⟩)
        · exact .inl hmem
        · exact .inr ⟨.inr ⟨hother hout,hfirst⟩,hout⟩
      · rintro (hmem | ⟨rfl | ⟨_,hfirst⟩,hout⟩)
        · exact .inl hmem
        · exact absurd rfl (hother hout)
        · exact .inr ⟨hfirst,hout⟩
    · rw [if_neg hany]
      have hnew : ∀ q ∈ out, q.name ≠ p.name := by
        intro q hq hname
        exact hany (List.any_eq_true.mpr ⟨q,hq,decide_eq_true hname⟩)
      rw [forall_mem_append,forall_mem_singleton,mem_append,mem_singleton]
      constructor
      · rintro ((hmem | rfl) | ⟨hfirst,hout,hp⟩)
        · exact .inl hmem
        · exact .inr ⟨.inl rfl,hnew⟩
        · exact .inr ⟨.inr ⟨hp,hfirst⟩,hout⟩
      · rintro (hmem | ⟨rfl | ⟨hp,hfirst⟩,hout⟩)
        · exact .inl (.inl hmem)
        · exact .inl (.inr rfl)
        · exact .inr ⟨hfirst,hout,hp⟩

variable {values : Chars → Option Chars}

lemma checkValue_eq_ok (p : CmdPlaceholder) : checkValue values p = .ok () ↔ Allowed values p := by
  unfold checkValue Allowed
  cases hv : values p.name with
  | none => simp
  | some raw =>
    cases ho : p.options with
    | none => by_cases hb : trim raw = [] <;> simp [hb]
    | some opts =>
      by_cases hb : trim raw = []
      · simp [hb]
      · by_cases hmem : trim raw ∈ opts <;> simp [hb,hmem]

lemma checkAll_eq_ok (ps : List CmdPlaceholder) :
    checkAll values ps = .ok () ↔ ∀ p ∈ ps, Allowed values p := by
  induction ps with
  | nil => simp [checkAll]
  | cons p ps ih =>
    rw [forall_mem_cons,← checkValue_eq_ok,← ih,checkAll]
    cases hp : checkValue values p with
    | error e => simp
    | ok u => simp

lemma substituteCmd_eq_ok (cmd out : Chars) : substituteCmd values cmd = .ok out ↔
      (∀ ph, IsFirst (occurrences cmd) ph → Allowed values ph) ∧
        out = (pieces cmd).flatMap (render values) := by
  have hfirst : checkAll values (parseCmdPlaceholders cmd) = .ok () ↔
      ∀ ph, IsFirst (occurrences cmd) ph → Allowed values ph := by
    rw [checkAll_eq_ok,parseCmdPlaceholders_eq]
    simp only [mem_foldl_addFirst,not_mem_nil,false_or,IsEmpty.forall_iff,implies_true,and_true]
  rw [← hfirst,← substituteFrom_scans (scans_pieces cmd),substituteCmd]
  cases hcheck : checkAll values (parseCmdPlaceholders cmd) with
  | error e => simp [Except.map]
  | ok u => simp [Except.map,eq_comm]

lemma render_of_empty {cs : Chars} {ps : List Piece} (h : Scans cs ps)
    (hempty : ps.filterMap Piece.placeholder = []) : ps.flatMap (render values) = cs := by
  induction h with
  | nil => rfl
  | @char c cs ps _ _ ih => rw [flatMap_cons,ih hempty]; rfl
  | hole _ _ _ _ => cases hempty

/-- A command without placeholders is returned as it is; with values given, it makes no difference
that it is not substituted. -/
theorem resolveCmdTemplate_some (cmd : Chars) :
    resolveCmdTemplate cmd (some values) = substituteCmd values cmd := by
  unfold resolveCmdTemplate
  by_cases hnone : parseCmdPlaceholders cmd = []
  swap
  · rw [if_neg hnone]
  have hempty : occurrences cmd = [] := by
    rw [parseCmdPlaceholders_eq] at hnone
    cases hocc : occurrences cmd with
    | nil => rfl
    | cons ph phs =>
      have hmem := (@mem_foldl_addFirst ph (ph::phs) []).mpr
        (.inr ⟨isFirst_cons.mpr (.inl rfl),fun q hq => absurd hq not_mem_nil⟩)
      rw [← hocc,hnone] at hmem
      exact absurd hmem not_mem_nil
  have hsame := @render_of_empty values _ _ (scans_pieces cmd) hempty
  rw [if_pos hnone,substituteCmd,hnone,checkAll,substituteFrom_scans (scans_pieces cmd),hsame]
  rfl

/-- The result is as specified exactly when no later placeholder of a name has options that its
first one does not enforce. -/
theorem substitute_cmd_iff (values : Chars → Option Chars) (cmd : Chars) :
    ((∀ out, substituteCmd values cmd = .ok out →
        out = (pieces cmd).flatMap (render values) ∧ ∀ ph ∈ occurrences cmd, Allowed values ph) ∧
      ((∃ out, substituteCmd values cmd = .ok out) ↔ ∀ ph ∈ occurrences cmd, Allowed values ph)) ↔
    ((∀ ph, IsFirst (occurrences cmd) ph → Allowed values ph) →
      ∀ ph ∈ occurrences cmd, Allowed values ph) := by
  constructor
  · rintro ⟨hsound,_⟩ hfirst
    exact (hsound _ ((substituteCmd_eq_ok cmd _).mpr ⟨hfirst,rfl⟩)).2
  intro hcond
  refine ⟨fun out hout => ?_,fun ⟨out,hout⟩ => ?_,fun hall => ?_⟩
  · obtain ⟨hfirst,rfl⟩ := (substituteCmd_eq_ok cmd out).mp hout
    exact ⟨rfl,hcond hfirst⟩
  · exact hcond ((substituteCmd_eq_ok cmd out).mp hout).1
  · refine ⟨_,(substituteCmd_eq_ok cmd _).mpr ⟨fun ph hfirst => hall ph ?_,rfl⟩⟩
    obtain ⟨before,after,heq,_⟩ := hfirst
    rw [heq]
    exact mem_append_right _ mem_cons_self

theorem second_options_ignored :
    substituteCmd (fun _ => some ['a']) "$\x7bX=a\x7d $\x7bX=b\x7d".toList = .ok "a a".toList ∧
      occurrences "$\x7bX=a\x7d $\x7bX=b\x7d".toList = [⟨['X'],some [['a']]⟩,⟨['X'],some [['b']]⟩] ∧
      ¬Allowed (fun _ => some ['a']) ⟨['X'],some [['b']]⟩ := by
  refine ⟨by decide +kernel,by decide +kernel,?_⟩
  rintro ⟨raw,hraw,_,hopts⟩
  cases hraw
  exact absurd (hopts _ rfl) (by decide)

end PirateServer.CmdTemplate
