import PirateServer.Lib.Lines

/-! The read-only policy for SQL that users type. The filter looks at the text; what a text does
is read off its tokens. -/
namespace PirateServer.HostDb
open Lib Lines List

/-- `str::to_uppercase`, character by character; ASCII characters have their ASCII capitals. -/
structure Uppercase where
  map : Char → Chars
  ascii : ∀ c : Char, c.toNat < 128 → map c = [c.toUpper]

def allowedWords : List Chars :=
  ["SELECT","SHOW","EXPLAIN","DESCRIBE","DESC","WITH","HELP","TABLES"].map String.toList

def deniedWords : List Chars :=
  ["INSERT","UPDATE","DELETE","MERGE","REPLACE","ALTER","DROP","CREATE","TRUNCATE","GRANT",
    "REVOKE","CALL","DO","SET","USE","START","BEGIN","COMMIT","ROLLBACK","LOCK","UNLOCK","LOAD",
    "COPY"].map String.toList

def firstWord (l : Chars) : Chars :=
  (l.dropWhile Text.isWhitespace).takeWhile (fun c => !Text.isWhitespace c)

variable (upper : Uppercase) (sql : Chars)

/-- The policy with the text of its error. The text is trimmed once: the two tests for a
semicolon that the source nests before the last one follow from it. -/
def readonlyPolicy : Except String Unit :=
  let t := trim sql
  if t = [] then .error "empty SQL"
  else if ';' ∈ trimEnd (· = ';') t then .error "multiple statements are not allowed"
  else
    let first := firstWord (t.flatMap upper.map)
    if first ∈ allowedWords then .ok ()
    else if first ∈ deniedWords then
      .error ("write / DDL / session control not allowed: " ++ String.ofList first)
    else .error ("only read-only SQL is allowed (got: " ++ String.ofList first ++ ")")

inductive DbHostError
  | sqlPolicy (message : String)
  deriving DecidableEq, Repr

structure ReadonlySqlError where
  message : String
  deriving DecidableEq, Repr

/-- `is_readonly_sql` of the server. -/
def isReadonlySql : Except DbHostError Unit :=
  (readonlyPolicy upper sql).mapError .sqlPolicy

/-- `is_readonly_sql` of the desktop client. -/
def desktopIsReadonlySql : Except ReadonlySqlError Unit :=
  (readonlyPolicy upper sql).mapError .mk

inductive Token
  | space (c : Char)
  | literal (body : Chars)
  | quoted (body : Chars)
  | lineComment (body : Chars)
  | blockComment (body : Chars)
  | word (text : Chars)
  | punct (c : Char)
  deriving DecidableEq, Repr

namespace Token

def render : Token → Chars
  | .space c => [c]
  | .literal body => '\'' :: (body ++ ['\''])
  | .quoted body => '"' :: (body ++ ['"'])
  | .lineComment body => '-' :: '-' :: body
  | .blockComment body => '/' :: '*' :: (body ++ ['*','/'])
  | .word text => text
  | .punct c => [c]

def WellFormed : Token → Prop
  | .space c => Text.isWhitespace c = true
  | .word text => text ≠ [] ∧ ∀ c ∈ text, Text.isWhitespace c = false ∧ c ≠ ';'
  | .punct c => Text.isWhitespace c = false
  | _ => True

def significant : Token → Bool
  | .space _ | .lineComment _ | .blockComment _ => false
  | _ => true

def keyword : Token → Option Chars
  | .word text => some (text.map Char.toUpper)
  | _ => none

def isSpace : Token → Bool
  | .space _ => true
  | _ => false

end Token

abbrev semicolon : Token := .punct ';'

def renderAll (ts : List Token) : Chars := ts.flatMap Token.render

def pieces : List Token → List (List Token)
  | [] => [[]]
  | x :: rest =>
    if x = semicolon then [] :: pieces rest
    else match pieces rest with
      | [] => [[x]]
      | p :: ps => (x :: p) :: ps

/-- The statements of a text: what stands between semicolons, without space and comments. -/
def statements (ts : List Token) : List (List Token) :=
  (pieces (ts.filter Token.significant)).filter (fun p => !p.isEmpty)

def isKeyword (k : String) (x : Token) : Bool := x.keyword = some k.toList

abbrev openParen : Token := .punct '('

abbrev closeParen : Token := .punct ')'

abbrev comma : Token := .punct ','

/-- Tokens whose parentheses match. -/
inductive Balanced : List Token → Prop
  | nil : Balanced []
  | token {x : Token} {l : List Token} (hopen : x ≠ openParen) (hclose : x ≠ closeParen)
    (rest : Balanced l) : Balanced (x::l)
  | group {l r : List Token} (inside : Balanced l) (rest : Balanced r) :
    Balanced (openParen::(l++closeParen::r))

/-- The options of `EXPLAIN`: words, lists in parentheses, and formats. -/
inductive ExplainOptions : List Token → Prop
  | nil : ExplainOptions []
  | word {x : Token} {l : List Token}
    (keyword : ["ANALYZE","VERBOSE","EXTENDED","PARTITIONS"].any (isKeyword · x) = true)
    (rest : ExplainOptions l) : ExplainOptions (x::l)
  | list {l r : List Token} (inside : Balanced l) (rest : ExplainOptions r) :
    ExplainOptions (openParen::(l++closeParen::r))
  | format {x name : Token} {l : List Token} (keyword : isKeyword "FORMAT" x = true)
    (rest : ExplainOptions l) : ExplainOptions (x::.punct '='::name::l)

/-- The name of an item of a `WITH` list with its columns, up to the parenthesis. -/
def ItemHead (l : List Token) : Prop :=
  ∃ name columns as mode, l = name::(columns++as::mode) ∧ isKeyword "AS" as = true ∧
    (columns = [] ∨ ∃ inside, Balanced inside ∧ columns = openParen::(inside++[closeParen])) ∧
    (mode = [] ∨ (∃ m, mode = [m] ∧ isKeyword "MATERIALIZED" m = true) ∨
      ∃ n m, mode = [n,m] ∧ isKeyword "NOT" n = true ∧ isKeyword "MATERIALIZED" m = true)

/-- Clauses `SEARCH .. SET column` and `CYCLE .. SET column .. USING column` after an item. -/
inductive ItemClauses : List Token → Prop
  | nil : ItemClauses []
  | search {x y column : Token} {l r : List Token} (first : isKeyword "SEARCH" x = true)
    (last : isKeyword "SET" y = true) (inside : ∀ z ∈ l, isKeyword "SET" z = false)
    (rest : ItemClauses r) : ItemClauses (x::(l++y::column::r))
  | cycle {x y column : Token} {l r : List Token} (first : isKeyword "CYCLE" x = true)
    (last : isKeyword "USING" y = true) (inside : ∀ z ∈ l, isKeyword "USING" z = false)
    (rest : ItemClauses r) : ItemClauses (x::(l++y::column::r))

/-- What follows `WITH`, its items in parentheses, and the main query. -/
inductive WithList : List Token → List (List Token) → List Token → Prop
  | last {head body clauses main : List Token} (head_ok : ItemHead head) (inside : Balanced body)
    (after : ItemClauses clauses) :
    WithList (head++openParen::(body++closeParen::(clauses++main))) [body] main
  | more {head body clauses rest main : List Token} {bodies : List (List Token)}
    (head_ok : ItemHead head) (inside : Balanced body) (after : ItemClauses clauses)
    (others : WithList rest bodies main) :
    WithList (head++openParen::(body++closeParen::(clauses++comma::rest))) (body::bodies) main

/-- A token that a statement starts with, or the statement that it explains, an item of its `WITH`
list or its main query. -/
inductive Leads (x : Token) : List Token → Prop
  | first {rest : List Token} : Leads x (x::rest)
  | explain {k : Token} {options st : List Token} (keyword : isKeyword "EXPLAIN" k = true)
    (skipped : ExplainOptions options) (inner : Leads x st) : Leads x (k::(options++st))
  | item {k : Token} {recursive list main body : List Token} {bodies : List (List Token)}
    (keyword : isKeyword "WITH" k = true)
    (mode : ∀ r ∈ recursive, isKeyword "RECURSIVE" r = true) (items : WithList list bodies main)
    (mem : body ∈ bodies) (inner : Leads x body) : Leads x (k::(recursive++list))
  | main {k : Token} {recursive list main : List Token} {bodies : List (List Token)}
    (keyword : isKeyword "WITH" k = true)
    (mode : ∀ r ∈ recursive, isKeyword "RECURSIVE" r = true) (items : WithList list bodies main)
    (inner : Leads x main) : Leads x (k::(recursive++list))

def writeWords : List Chars :=
  ["INSERT","UPDATE","DELETE","MERGE","TRUNCATE","CREATE","ALTER","DROP"].map String.toList

def isWrite (x : Token) : Bool := x.keyword.any (fun k => writeWords.contains k)

def ReadOnly (ts : List Token) : Prop :=
  (statements ts).length ≤ 1 ∧ ∀ st ∈ statements ts, ∀ x, Leads x st → isWrite x = false

def startsWith (k : String) (st : List Token) : Bool := st.head?.any (isKeyword k)

/-- The server or the desktop client accepts the text. -/
def Accepted (ts : List Token) : Prop :=
  isReadonlySql upper (renderAll ts) = .ok () ∨ desktopIsReadonlySql upper (renderAll ts) = .ok ()

variable {a b : Char}

lemma filter_trim (l : Chars) :
    (trim l).filter (fun c => !Text.isWhitespace c) = l.filter (fun c => !Text.isWhitespace c) := by
  have hdrop : ∀ r : Chars, (r.dropWhile Text.isWhitespace).filter (fun c => !Text.isWhitespace c) =
      r.filter (fun c => !Text.isWhitespace c) := by
    intro r
    induction r with
    | nil => rfl
    | cons c r ih =>
      by_cases hc : Text.isWhitespace c = true
      · rw [dropWhile_cons_of_pos hc,ih,filter_cons_of_neg (by simp [hc])]
      · rw [dropWhile_cons_of_neg hc]
  rw [trim,filter_reverse,hdrop,filter_reverse,hdrop,reverse_reverse]

lemma pair_sublist_trim {l : Chars} (ha : Text.isWhitespace a = false)
    (hb : Text.isWhitespace b = false) (h : [a,b].Sublist l) : [a,b].Sublist (trim l) := by
  have hfilter := h.filter (fun c => !Text.isWhitespace c)
  rw [← filter_trim l] at hfilter
  have hself : [a,b].filter (fun c => !Text.isWhitespace c) = [a,b] := by simp [ha,hb]
  rw [hself] at hfilter
  exact hfilter.trans filter_sublist

lemma semicolon_mem_trimEnd {l : Chars} (hb : b ≠ ';') (h : [';',b].Sublist l) :
    ';' ∈ trimEnd (· = ';') l := by
  have hsplit : l = trimEnd (· = ';') l ++ (l.reverse.takeWhile (· = ';')).reverse := by
    rw [trimEnd,← reverse_append,takeWhile_append_dropWhile,reverse_reverse]
  have htail : ∀ c ∈ (l.reverse.takeWhile (· = ';')).reverse, c = ';' := by
    intro c hc
    simpa using mem_takeWhile_imp (List.mem_reverse.mp hc)
  rw [hsplit] at h
  obtain ⟨l₁,l₂,heq,h₁,h₂⟩ := List.sublist_append_iff.mp h
  cases l₂ with
  | nil =>
    rw [append_nil] at heq
    subst heq
    exact h₁.subset (by simp)
  | cons c rest =>
    -- the last character of the pair would be a trailing semicolon
    have hlast : b ∈ c :: rest := by
      have hb' := congrArg List.getLast? heq
      rw [getLast?_append] at hb'
      have hsome : (c :: rest).getLast? = some b := by
        cases hl : (c :: rest).getLast? with
        | none => simp at hl
        | some d =>
          rw [hl] at hb'
          simpa using hb'.symm
      exact mem_of_getLast? hsome
    exact absurd (htail b (h₂.subset hlast)) hb

lemma pair_sublist_render {ts : List Token} {x y : Token} (h : [x,y].Sublist ts)
    (ha : a ∈ x.render) (hb : b ∈ y.render) : [a,b].Sublist (renderAll ts) := by
  have hpair : [a,b].Sublist ([x,y].flatMap Token.render) := by
    simpa using (List.singleton_sublist.mpr ha).append (List.singleton_sublist.mpr hb)
  exact hpair.trans (h.flatMap Token.render)

section
variable {upper : Uppercase} {ts : List Token}

lemma pieces_of_semicolons {us : List Token} (h : ∀ x ∈ us, x = semicolon) :
    ∀ p ∈ pieces us, p = [] := by
  induction us with
  | nil => simp [pieces]
  | cons x rest ih =>
    rw [pieces,if_pos (h x mem_cons_self)]
    intro p hp
    rcases List.mem_cons.mp hp with rfl | hp
    · rfl
    · exact ih (fun y hy => h y (mem_cons_of_mem x hy)) p hp

lemma statements_append {us vs : List Token} (hus : semicolon ∉ us)
    (hvs : ∀ x ∈ vs, x = semicolon) :
    (pieces (us ++ vs)).filter (fun p => !p.isEmpty) = if us = [] then [] else [us] := by
  have hempty : ∀ ws : List (List Token), (∀ p ∈ ws, p = []) →
      ws.filter (fun p => !p.isEmpty) = [] := by
    intro ws hws
    rw [filter_eq_nil_iff]
    intro p hp
    simp [hws p hp]
  -- the first piece is `us`, the others are empty
  have hpieces : ∃ ps, pieces (us ++ vs) = us :: ps ∧ ∀ p ∈ ps, p = [] := by
    induction us with
    | nil =>
      rw [nil_append]
      have hall := pieces_of_semicolons hvs
      cases hp : pieces vs with
      | nil =>
        cases vs with
        | nil => cases hp
        | cons x rest =>
          rw [pieces,if_pos (hvs x mem_cons_self)] at hp
          cases hp
      | cons p ps =>
        rw [hp] at hall
        exact ⟨ps,by rw [hall p mem_cons_self],fun q hq => hall q (mem_cons_of_mem p hq)⟩
    | cons x us ih =>
      rw [mem_cons,not_or] at hus
      obtain ⟨ps,hps,hall⟩ := ih hus.2
      exact ⟨ps,by rw [cons_append,pieces,if_neg (Ne.symm hus.1),hps],hall⟩
  obtain ⟨ps,hps,hall⟩ := hpieces
  rw [hps,filter_cons,hempty ps hall]
  cases us with
  | nil => rfl
  | cons x us => rfl

variable {x : Token}

lemma exists_visible (hx : x.WellFormed) (hsig : x.significant = true)
    (hne : x ≠ semicolon) : ∃ c ∈ x.render, Text.isWhitespace c = false ∧ c ≠ ';' := by
  cases x with
  | space c | lineComment body | blockComment body => cases hsig
  | literal body => exact ⟨'\'',by simp [Token.render],by decide⟩
  | quoted body => exact ⟨'"',by simp [Token.render],by decide⟩
  | word text =>
    obtain ⟨c,rest,rfl⟩ := exists_cons_of_ne_nil hx.1
    exact ⟨c,mem_cons_self,hx.2 c mem_cons_self⟩
  | punct c =>
    refine ⟨c,by simp [Token.render],hx,?_⟩
    rintro rfl
    exact hne rfl

def firstPiece (ts : List Token) : List Token :=
  (ts.filter Token.significant).takeWhile (· ≠ semicolon)

lemma statements_eq (hwf : ∀ x ∈ ts, x.WellFormed)
    (h : ';' ∉ trimEnd (· = ';') (trim (renderAll ts))) :
    statements ts = if firstPiece ts = [] then [] else [firstPiece ts] := by
  set sig := ts.filter Token.significant with hsig
  have hafter : ∀ x ∈ sig.dropWhile (· ≠ semicolon), x = semicolon := by
    intro x hx
    by_contra hne
    cases hd : sig.dropWhile (· ≠ semicolon) with
    | nil => rw [hd] at hx; cases hx
    | cons y rest =>
      have hy : y = semicolon := by
        have hnot := head?_dropWhile_not (fun z : Token => decide (z ≠ semicolon)) sig
        rw [hd] at hnot
        simpa using hnot
      rw [hd] at hx
      have hrest : x ∈ rest := (List.mem_cons.mp hx).resolve_left (fun h => hne (h.trans hy))
      have hpair : [semicolon,x].Sublist ts := by
        have hsub : [y,x].Sublist (y :: rest) := (List.singleton_sublist.mpr hrest).cons_cons y
        rw [← hd,hy] at hsub
        exact (hsub.trans (dropWhile_sublist _)).trans filter_sublist
      have hmem := List.mem_filter.mp ((dropWhile_sublist _).subset (hd ▸ hx))
      obtain ⟨c,hc,hws,hsemi⟩ := exists_visible (hwf x hmem.1) hmem.2 hne
      have htext := pair_sublist_render hpair (a := ';') (by simp [Token.render]) hc
      exact h (semicolon_mem_trimEnd hsemi (pair_sublist_trim (by decide) hws htext))
  have hbefore : semicolon ∉ sig.takeWhile (· ≠ semicolon) := by
    intro hmem
    simpa using mem_takeWhile_imp hmem
  have hall := statements_append hbefore hafter
  rw [takeWhile_append_dropWhile] at hall
  rw [statements,← hsig,hall]
  rfl

variable {l w r : Chars}

lemma flatMap_ascii (h : ∀ c ∈ w, c.toNat < 128) : w.flatMap upper.map = w.map Char.toUpper := by
  induction w with
  | nil => rfl
  | cons c w ih =>
    rw [flatMap_cons,upper.ascii c (h c mem_cons_self),ih (fun d hd => h d (mem_cons_of_mem c hd))]
    rfl

section
variable (hl : l.dropWhile Text.isWhitespace = w ++ r) (hne : w ≠ [])
    (hw : ∀ c ∈ w, Text.isWhitespace c = false)
include hl hne hw

lemma trim_append : ∃ r', trim l = w ++ r' := by
  obtain ⟨init,c,rfl⟩ := (eq_nil_or_concat w).resolve_left hne
  have hc : Text.isWhitespace c = false := hw c (by simp)
  refine ⟨(r.reverse.dropWhile Text.isWhitespace).reverse,?_⟩
  rw [trim,hl,reverse_append,dropWhile_append]
  split_ifs with hempty
  · rw [List.isEmpty_iff.mp hempty]
    simp [hc]
  · simp

lemma firstWord_of_front (hascii : ∀ c ∈ w, c.toNat < 128)
    (hup : ∀ c ∈ w.map Char.toUpper, Text.isWhitespace c = false) :
    w.map Char.toUpper <+: firstWord ((trim l).flatMap upper.map) := by
  obtain ⟨r',hr'⟩ := trim_append hl hne hw
  rw [hr',flatMap_append,flatMap_ascii hascii,firstWord]
  obtain ⟨c,w',hcw⟩ := exists_cons_of_ne_nil hne
  have hdrop : (w.map Char.toUpper ++ r'.flatMap upper.map).dropWhile Text.isWhitespace =
      w.map Char.toUpper ++ r'.flatMap upper.map := by
    rw [hcw] at hup ⊢
    rw [map_cons,cons_append,dropWhile_cons_of_neg]
    simp [hup c.toUpper (by simp)]
  rw [hdrop,takeWhile_append_of_pos]
  · exact prefix_append _ _
  · intro c hc
    simp [hup c hc]

end

lemma toNat_lt_of_toUpper {c : Char} (h : c.toUpper.toNat < 128) : c.toNat < 128 := by
  rw [Char.toUpper] at h
  split_ifs at h with hc
  · have hle : c.val.toNat ≤ 122 := by
      have := hc.2
      exact this
    have : c.toNat = c.val.toNat := rfl
    omega
  · exact h

lemma accepted_front (h : readonlyPolicy upper l = .ok ())
    (hl : l.dropWhile Text.isWhitespace = w ++ r)
    (hw : w.map Char.toUpper ∈ writeWords ∨ w = ['-'] ∨ w = ['/'])
    (hws : ∀ c ∈ w, Text.isWhitespace c = false) : False := by
  set up := w.map Char.toUpper with hup
  have hmem : up ∈ writeWords ++ [['-'],['/']] := by
    rw [mem_append]
    rcases hw with hw | hw | hw
    · exact .inl hw
    · exact .inr (by rw [hup,hw]; decide)
    · exact .inr (by rw [hup,hw]; decide)
  have hfacts : (writeWords ++ [['-'],['/']]).all (fun u => !u.isEmpty &&
      u.all (fun c => !Text.isWhitespace c && c.toNat < 128) &&
      allowedWords.all (fun a => ¬ u <+: a)) = true := by decide +kernel
  have hthis := List.all_eq_true.mp hfacts up hmem
  simp only [Bool.and_eq_true,Bool.not_eq_true',List.all_eq_true,decide_eq_true_eq] at hthis
  obtain ⟨⟨hnonempty,hchars⟩,hnot⟩ := hthis
  have hne : up ≠ [] := by simpa using hnonempty
  have hwne : w ≠ [] := by
    rintro rfl
    exact hne rfl
  have hascii : ∀ c ∈ w, c.toNat < 128 := by
    intro c hc
    exact toNat_lt_of_toUpper (hchars c.toUpper (List.mem_map_of_mem hc)).2
  have hpre : up <+: firstWord ((trim l).flatMap upper.map) :=
    firstWord_of_front hl hwne hws hascii (fun c hc => (hchars c hc).1)
  rw [readonlyPolicy] at h
  simp only at h
  split_ifs at h with h1 h2 h3 h4
  exact hnot _ h3 hpre

lemma dropWhile_renderAll (hwf : ∀ x ∈ ts, x.WellFormed) :
    ts.dropWhile Token.isSpace = [] ∧ (renderAll ts).dropWhile Text.isWhitespace = [] ∨
      ∃ x rest, ts.dropWhile Token.isSpace = x :: rest ∧ x.isSpace = false ∧ x ∈ ts ∧
        (renderAll ts).dropWhile Text.isWhitespace = x.render ++ renderAll rest := by
  induction ts with
  | nil => exact .inl ⟨rfl,rfl⟩
  | cons y ys ih =>
    have hy := hwf y mem_cons_self
    have hfixed : y.isSpace = false → ∀ c, y.render.head? = some c → Text.isWhitespace c = false →
        ∃ x rest, (y :: ys).dropWhile Token.isSpace = x :: rest ∧ x.isSpace = false ∧ x ∈ y :: ys ∧
          (renderAll (y :: ys)).dropWhile Text.isWhitespace = x.render ++ renderAll rest := by
      intro hns c hc hws
      refine ⟨y,ys,by rw [dropWhile_cons_of_neg (by simp [hns])],hns,mem_cons_self,?_⟩
      obtain ⟨r,hr⟩ : ∃ r, y.render = c :: r := by
        cases hrender : y.render with
        | nil => rw [hrender] at hc; cases hc
        | cons d r =>
          rw [hrender] at hc
          cases hc
          exact ⟨r,rfl⟩
      rw [renderAll,flatMap_cons,hr,cons_append,dropWhile_cons_of_neg (by simp [hws])]
      rfl
    cases y with
    | space c =>
      have hc : Text.isWhitespace c = true := hy
      have hrender : (renderAll (.space c :: ys)).dropWhile Text.isWhitespace =
          (renderAll ys).dropWhile Text.isWhitespace := by
        rw [renderAll,flatMap_cons]
        simp [Token.render,hc,renderAll]
      have hspace : (Token.space c :: ys).dropWhile Token.isSpace = ys.dropWhile Token.isSpace :=
        dropWhile_cons_of_pos rfl
      rw [hrender,hspace]
      rcases ih (fun x hx => hwf x (mem_cons_of_mem _ hx)) with hnil | ⟨x,rest,h1,h2,h3,h4⟩
      · exact .inl hnil
      · exact .inr ⟨x,rest,h1,h2,mem_cons_of_mem _ h3,h4⟩
    | word text =>
      obtain ⟨c,r,hr⟩ := exists_cons_of_ne_nil hy.1
      exact .inr (hfixed rfl c (by rw [Token.render,hr]; rfl) (hy.2 c (by rw [hr]; simp)).1)
    | punct c => exact .inr (hfixed rfl c rfl hy)
    | literal body => exact .inr (hfixed rfl '\'' rfl (by decide))
    | quoted body => exact .inr (hfixed rfl '"' rfl (by decide))
    | lineComment body => exact .inr (hfixed rfl '-' rfl (by decide))
    | blockComment body => exact .inr (hfixed rfl '/' rfl (by decide))

lemma filter_significant_dropWhile (ts : List Token) :
    (ts.dropWhile Token.isSpace).filter Token.significant = ts.filter Token.significant := by
  induction ts with
  | nil => rfl
  | cons x rest ih =>
    cases x with
    | space c => rw [dropWhile_cons_of_pos rfl,ih,filter_cons_of_neg (by simp [Token.significant])]
    | literal _ | quoted _ | lineComment _ | blockComment _ | word _ | punct _ => rfl

lemma accepted_first (hwf : ∀ x ∈ ts, x.WellFormed)
    (h : readonlyPolicy upper (renderAll ts) = .ok ()) {rest : List Token}
    (hsig : ts.filter Token.significant = x :: rest) : isWrite x = false := by
  rcases dropWhile_renderAll hwf with ⟨hnil,-⟩ | ⟨y,ys,hy,hns,hmem,htext⟩
  · rw [← filter_significant_dropWhile,hnil] at hsig
    cases hsig
  have hdash : ∀ c ∈ ['-'], Text.isWhitespace c = false := by
    simp only [mem_singleton,forall_eq]
    decide
  have hslash : ∀ c ∈ ['/'], Text.isWhitespace c = false := by
    simp only [mem_singleton,forall_eq]
    decide
  have hys : y.significant = true := by
    cases y with
    | space c => cases hns
    | lineComment body =>
      exact (accepted_front h (w := ['-']) htext (.inr (.inl rfl)) hdash).elim
    | blockComment body =>
      exact (accepted_front h (w := ['/']) htext (.inr (.inr rfl)) hslash).elim
    | literal _ | quoted _ | word _ | punct _ => rfl
  rw [← filter_significant_dropWhile,hy,filter_cons_of_pos hys] at hsig
  obtain ⟨rfl,-⟩ := List.cons_eq_cons.mp hsig
  cases hw : isWrite y with
  | false => rfl
  | true =>
    cases y with
    | word text =>
      have hkey : text.map Char.toUpper ∈ writeWords := by simpa [isWrite,Token.keyword] using hw
      exact (accepted_front h htext (.inl hkey) (fun c hc => ((hwf _ hmem).2 c hc).1)).elim
    | space _ | literal _ | quoted _ | lineComment _ | blockComment _ | punct _ => cases hw

lemma no_semicolon_of_accepted (h : readonlyPolicy upper l = .ok ()) :
    ';' ∉ trimEnd (· = ';') (trim l) := by
  rw [readonlyPolicy] at h
  simp only at h
  split_ifs at h with h1 h2 h3
  exact h2

lemma head_of_firstPiece (h : firstPiece ts ≠ []) :
    ∃ x rest, (firstPiece ts).head? = some x ∧ ts.filter Token.significant = x :: rest := by
  rw [firstPiece] at h ⊢
  cases hsig : ts.filter Token.significant with
  | nil => simp [hsig] at h
  | cons x rest =>
    rw [hsig] at h
    refine ⟨x,rest,?_,rfl⟩
    by_cases hx : x = semicolon
    · simp [hx] at h
    · simp [hx]

lemma leads_of_plain {st : List Token} (hexplain : startsWith "EXPLAIN" st = false)
    (hwith : startsWith "WITH" st = false) (h : Leads x st) : st.head? = some x := by
  cases h with
  | first => rfl
  | explain hk _ _ => exact absurd (hexplain.symm.trans hk) Bool.false_ne_true
  | item hk _ _ _ _ => exact absurd (hwith.symm.trans hk) Bool.false_ne_true
  | main hk _ _ _ => exact absurd (hwith.symm.trans hk) Bool.false_ne_true

/-- An accepted text has one statement at most, and this does not start with a write. -/
lemma readOnly_of_plain (hwf : ∀ x ∈ ts, x.WellFormed)
    (h : readonlyPolicy upper (renderAll ts) = .ok ())
    (hplain : ∀ st ∈ statements ts, startsWith "EXPLAIN" st = false ∧
      startsWith "WITH" st = false) :
    ReadOnly ts := by
  have hst := statements_eq hwf (no_semicolon_of_accepted h)
  constructor
  · rw [hst]
    split_ifs
    · exact Nat.zero_le 1
    · exact le_rfl
  · intro st hmem y hy
    have hhead := leads_of_plain (hplain st hmem).1 (hplain st hmem).2 hy
    rw [hst] at hmem
    split_ifs at hmem with hempty
    · cases hmem
    rw [List.mem_singleton.mp hmem] at hhead
    obtain ⟨x,rest,hx,hsig⟩ := head_of_firstPiece hempty
    cases hx.symm.trans hhead
    exact accepted_first hwf h hsig

lemma policy_of_mapError {ε : Type} {f : String → ε}
    (h : (readonlyPolicy upper l).mapError f = .ok ()) : readonlyPolicy upper l = .ok () := by
  cases hp : readonlyPolicy upper l with
  | ok u => rfl
  | error e => rw [hp] at h; cases h

lemma policy_of_accepted (h : Accepted upper ts) :
    readonlyPolicy upper (renderAll ts) = .ok () := by
  rcases h with h | h
  all_goals exact policy_of_mapError h

end

def asciiUppercase : Uppercase := ⟨fun c => [c.toUpper],fun _ _ => rfl⟩

/-- The policy does not depend on the capitals of other characters. -/
lemma policy_of_ascii {l : Chars} (upper : Uppercase) (hascii : l.all (·.toNat < 128) = true)
    (h : readonlyPolicy asciiUppercase l = .ok ()) : readonlyPolicy upper l = .ok () := by
  have htrim : ∀ c ∈ trim l, c.toNat < 128 := by
    intro c hc
    have hmem : c ∈ l := by
      rw [trim,List.mem_reverse] at hc
      have hback := (dropWhile_sublist _).subset hc
      rw [List.mem_reverse] at hback
      exact (dropWhile_sublist _).subset hback
    exact of_decide_eq_true (List.all_eq_true.mp hascii c hmem)
  rw [readonlyPolicy,flatMap_ascii htrim] at h ⊢
  exact h

def sampleTokens (words : List String) : List Token :=
  words.map (fun w => if w = "(" then openParen else if w = ")" then closeParen
    else if w = "*" then .punct '*' else .word w.toList)

def spaced (words : List String) : List Token := (sampleTokens words).intersperse (.space ' ')

def deleteWords : List String := ["DELETE","FROM","t","RETURNING","*"]

/-- A write inside a `WITH` list. -/
def sampleWithDelete : List Token :=
  spaced (["WITH","x","AS","("]++deleteWords++[")","SELECT","*","FROM","x"])

def sampleExplainDelete : List Token := spaced (["EXPLAIN","ANALYZE"]++deleteWords)

def sampleSelect : List Token := spaced ["SELECT","*","FROM","t"]

lemma wellFormed_spaced {words : List String} (h : ((spaced words).all fun x => match x with
      | .space c => Text.isWhitespace c
      | .word text => !text.isEmpty && text.all (fun c => !Text.isWhitespace c && c ≠ ';')
      | .punct c => !Text.isWhitespace c
      | _ => true) = true) : ∀ x ∈ spaced words, x.WellFormed := by
  intro x hx
  have hthis := List.all_eq_true.mp h x hx
  cases x with
  | word text =>
    simp only [Bool.and_eq_true,Bool.not_eq_true',List.all_eq_true,decide_eq_true_eq] at hthis
    exact ⟨by simpa using hthis.1,hthis.2⟩
  | space c => exact hthis
  | punct c => simpa [Token.WellFormed] using hthis
  | _ => trivial

lemma balanced_delete : Balanced (sampleTokens deleteWords) := by
  refine .token ?_ ?_ (.token ?_ ?_ (.token ?_ ?_ (.token ?_ ?_ (.token ?_ ?_ .nil))))
  all_goals decide

lemma withDelete_writes : ¬ReadOnly sampleWithDelete := by
  intro h
  have hlead : Leads (.word "DELETE".toList) (.word "WITH".toList::([]++
      (sampleTokens ["x","AS"]++openParen::(sampleTokens deleteWords++closeParen::([]++
        sampleTokens ["SELECT","*","FROM","x"]))))) := by
    refine .item (by decide +kernel) (by simp) (.last ?_ balanced_delete .nil)
      (mem_singleton.mpr rfl)
      .first
    exact ⟨_,[],_,[],rfl,by decide +kernel,.inl rfl,.inl rfl⟩
  exact absurd (h.2 _ (by decide +kernel) _ hlead) (by decide +kernel)

lemma explainDelete_writes : ¬ReadOnly sampleExplainDelete := by
  intro h
  have hlead : Leads (.word "DELETE".toList) (.word "EXPLAIN".toList::(sampleTokens ["ANALYZE"]++
      sampleTokens deleteWords)) :=
    .explain (by decide +kernel) (.word (by decide +kernel) .nil) .first
  exact absurd (h.2 _ (by decide +kernel) _ hlead) (by decide +kernel)

lemma accepted_of_ascii {ts : List Token} (upper : Uppercase)
    (hascii : (renderAll ts).all (·.toNat < 128) = true)
    (h : readonlyPolicy asciiUppercase (renderAll ts) = .ok ()) : Accepted upper ts := by
  refine .inl ?_
  rw [isReadonlySql,policy_of_ascii upper hascii h]
  rfl

end PirateServer.HostDb
