import PirateServer.Lib.Lines

/-! The start script of a release. Values, the path of the dotenv file and the start command are
quoted; the names of the variables are not. -/
namespace PirateServer.Deploy.RunScript
open Lib Lib.Lines List

/-- What the script is made of. -/
structure Manifest where
  envPath : Chars
  env : List (Chars × Chars)
  startCmd : Chars
  proxyType : Chars

variable (m : Manifest)

def effectiveEnvPathRel : Chars :=
  if trim m.envPath = [] then ".env".toList else trim m.envPath

def isStaticNginxProxy : Bool :=
  let t := (trim m.proxyType).map Char.toLower
  t = "nginx-front".toList || t = "nginx-static".toList

def quoteChar (c : Char) : Chars := if c = '\'' then ['\'','"','\'','"','\''] else [c]

def shellEscapeSingle (s : Chars) : Chars := '\''::(s.flatMap quoteChar++['\''])

def start (m : Manifest) : Chars :=
  if m.startCmd = [] then
    if isStaticNginxProxy m then "while true; do sleep 3600; done".toList
    else "echo \"pirate: no [start].cmd\"; exit 1".toList
  else m.startCmd

def prologue : Chars := "#!/bin/sh\nset -e\ncd \"$(dirname \"$0\")\"\n".toList

def dotenvBlock : Chars :=
  let p := shellEscapeSingle (effectiveEnvPathRel m)
  "if [ -f ".toList++p++" ]; then\n  set -a\n  . ".toList++p++"\n  set +a\nfi\n".toList

def exports : Chars :=
  m.env.flatMap (fun e => "export ".toList++e.1++ '='::shellEscapeSingle e.2++['\n'])

def generateRunSh : Chars :=
  prologue++dotenvBlock m++exports m++"exec sh -c ".toList++shellEscapeSingle (start m)++['\n']

inductive Quote
  | bare
  | single
  | double

/-- Characters that are not a part of a word by themselves; with those that are neither blanks,
separators nor quotes the reader gives up. -/
def stops : Chars :=
  [' ','\t','\n',';','\'','"','$','\\','&','|','<','>','(',')','#','*','?','~',Char.ofNat 96]

/-- The commands of a text, each with its words, for the word and the words read before. -/
def shell : Quote → Option Chars → List Chars → Chars → Option (List (List Chars))
  | .bare,w,ws,[] => some (if ws++w.toList = [] then [] else [ws++w.toList])
  | .bare,w,ws,c::t =>
    if c ∉ stops then shell .bare (some (w.getD []++[c])) ws t
    else if c = '\'' then shell .single (some (w.getD [])) ws t
    else if c = '"' then shell .double (some (w.getD [])) ws t
    else if c = ' ' ∨ c = '\t' then shell .bare none (ws++w.toList) t
    else if c = '\n' ∨ c = ';' then
      (shell .bare none [] t).map (fun cs => if ws++w.toList = [] then cs else (ws++w.toList)::cs)
    else none
  | .single,w,ws,c::t =>
    if c = '\'' then shell .bare w ws t else shell .single (some (w.getD []++[c])) ws t
  | .double,w,ws,c::t =>
    if c = '"' then shell .bare w ws t
    else if c = '$' ∨ c = '\\' ∨ c = Char.ofNat 96 then none
    else shell .double (some (w.getD []++[c])) ws t
  | _,_,_,[] => none

def dotenvCommands (path : Chars) : List (List Chars) :=
  [["if".toList,"[".toList,"-f".toList,path,"]".toList],["then".toList],
    ["set".toList,"-a".toList],[".".toList,path],["set".toList,"+a".toList],["fi".toList]]

/-- A name of the shell. -/
def IsName (k : Chars) : Prop :=
  k ≠ [] ∧ (∀ c ∈ k, c.isAlphanum = true ∨ c = '_') ∧ ∀ c, k.head? = some c → c.isDigit = false

/-- What an `export` assigns: a name of the shell, up to the first `=`, and the value after it. With
anything else for a name the shell refuses the command. -/
inductive Assigns : List Chars → Chars × Chars → Prop
  | value {k : Chars} (name : IsName k) (v : Chars) :
      Assigns ["export".toList,k++ '='::v] (k,v)

/-- The commands after the prologue: the dotenv block, an assignment for each variable, the start.
-/
def HasCommands (body : Chars) : Prop :=
  ∃ assignments, Forall₂ Assigns assignments m.env ∧
    shell .bare none [] body = some (dotenvCommands (effectiveEnvPathRel m)++assignments++
      [["exec".toList,"sh".toList,"-c".toList,start m]])

variable {w : Option Chars} {ws : List Chars} {t : Chars}

lemma shell_single (s u : Chars) : shell .single (some u) ws (s.flatMap quoteChar++ '\''::t) =
    shell .bare (some (u++s)) ws t := by
  induction s generalizing u with
  | nil => simp [shell]
  | cons c s ih =>
    rw [flatMap_cons,append_assoc]
    by_cases hc : c = '\''
    · -- the quote is closed, the character stands in double quotes, and a quote is opened again
      have hstep : ∀ r, shell .single (some u) ws (quoteChar c++r) =
          shell .single (some (u++[c])) ws r := by
        intro r
        rw [hc]
        rfl
      rw [hstep,ih,append_assoc]
      rfl
    · rw [quoteChar,if_neg hc,singleton_append,shell,if_neg hc,Option.getD_some,ih,
        append_assoc]
      rfl

lemma shell_escape (s : Chars) : shell .bare w ws (shellEscapeSingle s++t) =
    shell .bare (some (w.getD []++s)) ws t := by
  have hopen : shell .bare w ws (shellEscapeSingle s++t) =
      shell .single (some (w.getD [])) ws (s.flatMap quoteChar++ '\''::t) := by
    rw [shellEscapeSingle,cons_append,append_assoc]
    rfl
  rw [hopen,shell_single]

variable {k : Chars}

lemma shell_plain (hk : ∀ c ∈ k, c ∉ stops) (u : Chars) :
    shell .bare (some u) ws (k++t) = shell .bare (some (u++k)) ws t := by
  induction k generalizing u with
  | nil => rw [nil_append,append_nil]
  | cons c k ih =>
    rw [cons_append,shell,if_pos (hk c mem_cons_self),
      ih (fun d hd => hk d (mem_cons_of_mem c hd)),Option.getD_some,append_assoc]
    rfl

lemma name_plain (hk : IsName k) : ∀ c ∈ k, c ∉ stops := by
  intro c hc hstop
  have hall : stops.all (fun d => !(d.isAlphanum || d = '_')) = true := by decide +kernel
  have hnot := List.all_eq_true.mp hall c hstop
  rcases hk.2.1 c hc with h | h <;> simp [h] at hnot

lemma shell_export (hk : IsName k) (v : Chars) :
    shell .bare none [] ("export ".toList++k++ '='::shellEscapeSingle v++['\n']++t) =
      (shell .bare none [] t).map (["export".toList,k++ '='::v]::·) := by
  have hword : ∀ r, shell .bare none [] ("export ".toList++k++r) =
      shell .bare (some k) ["export".toList] r := by
    intro r
    obtain ⟨c,k,rfl⟩ := exists_cons_of_ne_nil hk.1
    have hplain := name_plain hk
    have hfirst : shell .bare none [] ("export ".toList++c::k++r) =
        shell .bare (some [c]) ["export".toList] (k++r) := by
      change shell .bare none ["export".toList] (c::(k++r)) = _
      rw [shell,if_pos (hplain c mem_cons_self)]
      rfl
    rw [hfirst,shell_plain (fun d hd => hplain d (mem_cons_of_mem c hd))]
    rfl
  have heq : ∀ r, shell .bare (some k) ["export".toList] ('='::r) =
      shell .bare (some (k++['='])) ["export".toList] r := fun r => rfl
  rw [append_assoc,append_assoc,hword,cons_append,heq,shell_escape,Option.getD_some,append_assoc]
  rfl

lemma shell_exports {es : List (Chars × Chars)} (h : ∀ e ∈ es, IsName e.1) (pe sc pt : Chars) :
    shell .bare none [] (exports ⟨pe,es,sc,pt⟩++t) = (shell .bare none [] t).map
      (es.map (fun e => ["export".toList,e.1++ '='::e.2])++·) := by
  induction es with
  | nil => simp [exports]
  | cons e es ih =>
    have hrest := ih (fun e he => h e (mem_cons_of_mem _ he))
    rw [exports] at hrest ⊢
    rw [flatMap_cons,append_assoc,shell_export (h e mem_cons_self),hrest,Option.map_map]
    rfl

lemma shell_dotenv (m : Manifest) : shell .bare none [] (dotenvBlock m++t) =
    (shell .bare none [] t).map (dotenvCommands (effectiveEnvPathRel m)++·) := by
  have htest : ∀ r, shell .bare none [] ("if [ -f ".toList++r) =
      shell .bare none ["if".toList,"[".toList,"-f".toList] r := fun r => rfl
  have hbody : ∀ p r, shell .bare (some p) ["if".toList,"[".toList,"-f".toList]
      (" ]; then\n  set -a\n  . ".toList++r) = (shell .bare none [".".toList] r).map
        (([["if".toList,"[".toList,"-f".toList,p,"]".toList],["then".toList],
          ["set".toList,"-a".toList]] : List (List Chars))++·) := by
    intro p r
    cases hr : shell .bare none [".".toList] r
    all_goals simpa [shell,stops] using hr
  have hend : ∀ p, shell .bare (some p) [".".toList] ("\n  set +a\nfi\n".toList++t) =
      (shell .bare none [] t).map
        (([[".".toList,p],["set".toList,"+a".toList],["fi".toList]] : List (List Chars))++·) := by
    intro p
    cases ht : shell .bare none [] t
    all_goals simp [shell,stops,ht]
  dsimp only [dotenvBlock]
  rw [append_assoc,append_assoc,append_assoc,append_assoc,htest,shell_escape,hbody,shell_escape,
    hend,Option.map_map]
  simp [dotenvCommands,Function.comp_def]

lemma isName_of_assigns {cmds : List (List Chars)} {es : List (Chars × Chars)}
    (h : Forall₂ Assigns cmds es) : ∀ e ∈ es, IsName e.1 := by
  induction h with
  | nil => exact fun e he => absurd he not_mem_nil
  | cons hassign _ ih =>
    cases hassign with
    | value hname v => exact forall_mem_cons.mpr ⟨hname,ih⟩

/-- A quoted text is one word, and the script has the commands that are meant, and no others,
exactly if the keys are names of the shell. -/
theorem run_sh_commands_iff (m : Manifest) :
    (∀ s, shell .bare none [] (shellEscapeSingle s) = some [[s]]) ∧
    ((∃ body, generateRunSh m = prologue++body ∧ HasCommands m body) ↔
      ∀ e ∈ m.env, IsName e.1) := by
  refine ⟨fun s => ?_,?_,fun h => ?_⟩
  · have hs : shell .bare none [] (shellEscapeSingle s++[]) = _ := shell_escape s
    rw [append_nil] at hs
    rw [hs]
    rfl
  · rintro ⟨_,_,_,hassign,_⟩
    exact isName_of_assigns hassign
  · have hexports : ∀ r, shell .bare none [] (exports m++r) = _ := fun r =>
      shell_exports h m.envPath m.startCmd m.proxyType
    have hexec : ∀ r, shell .bare none [] ("exec sh -c ".toList++r) =
        shell .bare none ["exec".toList,"sh".toList,"-c".toList] r := fun r => rfl
    refine ⟨dotenvBlock m++(exports m++("exec sh -c ".toList++
      (shellEscapeSingle (start m)++['\n']))),by simp [generateRunSh],
      m.env.map (fun e => ["export".toList,e.1++ '='::e.2]),?_,?_⟩
    · rw [forall₂_map_left_iff,forall₂_same]
      exact fun e he => .value (h e he) e.2
    · rw [shell_dotenv,hexports,hexec,shell_escape]
      simp [shell,stops]

theorem key_adds_command : shell .bare none [] (exports ⟨[],[("A;b;C".toList,['v'])],[],[]⟩) =
    some [["export".toList,['A']],[['b']],["C=v".toList]] := by
  decide +kernel

end PirateServer.Deploy.RunScript
