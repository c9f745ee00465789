import PirateServer.Lib.Text

/-! Files of lines, as lists of characters: cutting a text into its lines, joining lines, and
the first separator of a line. -/
namespace PirateServer.Lib.Lines
open List

abbrev Chars := List Char

/-- `str::trim`. -/
def trim (l : Chars) : Chars :=
  ((l.dropWhile Text.isWhitespace).reverse.dropWhile Text.isWhitespace).reverse

/-- Remove the characters at the end that satisfy `blank`. -/
def trimEnd (blank : Char → Bool) (l : Chars) : Chars := (l.reverse.dropWhile blank).reverse

def joinLines : List Chars → Chars
  | [] => []
  | [l] => l
  | l :: ls => l ++ '\n' :: joinLines ls

def dropReturn (l : Chars) : Chars := if l.getLast? = some '\r' then l.dropLast else l

def linesFrom (acc : Chars) : Chars → List Chars
  | [] => if acc = [] then [] else [acc.reverse]
  | c :: rest => if c = '\n' then acc.reverse :: linesFrom [] rest else linesFrom (c::acc) rest

/-- `str::lines`. -/
def lines (text : Chars) : List Chars := (linesFrom [] text).map dropReturn

/-- `str::split_once`. -/
def splitOnce (sep : Char) (l : Chars) : Option (Chars × Chars) :=
  if sep ∈ l then some (l.takeWhile (· ≠ sep),(l.dropWhile (· ≠ sep)).drop 1) else none

/-- `str::rsplit_once`. -/
def rsplitOnce (sep : Char) (l : Chars) : Option (Chars × Chars) :=
  (splitOnce sep l.reverse).map (fun r => (r.2.reverse,r.1.reverse))

/-- `str::strip_prefix`. -/
def stripStart (start l : Chars) : Option Chars :=
  if start <+: l then some (l.drop start.length) else none

variable {l : Chars}

lemma linesFrom_append (hl : '\n' ∉ l) (acc rest : Chars) :
    linesFrom acc (l ++ '\n' :: rest) = (acc.reverse ++ l) :: linesFrom [] rest := by
  induction l generalizing acc with
  | nil => simp [linesFrom]
  | cons c l ih =>
    rw [mem_cons,not_or] at hl
    rw [cons_append,linesFrom,if_neg (Ne.symm hl.1),ih hl.2]
    simp

/-- A line that stays as it is in a file of lines. -/
structure Plain (l : Chars) : Prop where
  noBreak : '\n' ∉ l
  noReturn : l.getLast? ≠ some '\r'

lemma lines_joinLines {ls : List Chars} (hne : ls ≠ []) (h : ∀ l ∈ ls, Plain l) :
    lines (joinLines ls ++ ['\n']) = ls := by
  rw [lines]
  induction ls with
  | nil => exact absurd rfl hne
  | cons l ls ih =>
    have hl := h l mem_cons_self
    have hdrop : dropReturn l = l := by rw [dropReturn,if_neg hl.noReturn]
    cases ls with
    | nil =>
      rw [joinLines,linesFrom_append hl.noBreak]
      simp [linesFrom,hdrop]
    | cons l' ls' =>
      have hrest := ih (by simp) (fun x hx => h x (mem_cons_of_mem l hx))
      rw [joinLines,append_assoc,cons_append,linesFrom_append hl.noBreak,map_cons,hrest]
      · simp [hdrop]
      · simp

variable {blank : Char → Bool}

variable {c : Char}

lemma trimEnd_eq_self (hc : l.getLast? = some c)
    (hblank : blank c = false) : trimEnd blank l = l := by
  obtain ⟨init,rfl⟩ := List.getLast?_eq_some_iff.mp hc
  simp [trimEnd,hblank]

lemma getLast?_joinLines_concat (ls : List Chars) (hl : l ≠ []) :
    (joinLines (ls ++ [l])).getLast? = l.getLast? := by
  induction ls with
  | nil => rfl
  | cons x ls ih =>
    cases hls : ls ++ [l] with
    | nil => simp at hls
    | cons y ys =>
      rw [cons_append,hls,joinLines,← hls,getLast?_append,getLast?_cons,ih]
      · obtain ⟨c,hc⟩ := Option.isSome_iff_exists.mp (List.getLast?_isSome.mpr hl)
        simp [hc]
      · simp

variable {sep : Char}

lemma splitOnce_append {k : Chars} (hk : sep ∉ k) (v : Chars) :
    splitOnce sep (k ++ sep :: v) = some (k,v) := by
  have htake : (k ++ sep :: v).takeWhile (· ≠ sep) = k := by
    rw [takeWhile_append_of_pos]
    · simp
    · intro c hc
      simp only [decide_eq_true_eq]
      rintro rfl
      exact hk hc
  have hdrop : (k ++ sep :: v).dropWhile (· ≠ sep) = sep :: v := by
    rw [dropWhile_append_of_pos]
    · simp
    · intro c hc
      simp only [decide_eq_true_eq]
      rintro rfl
      exact hk hc
  rw [splitOnce,if_pos (by simp),htake,hdrop]
  rfl

lemma rsplitOnce_append {v : Chars} (hv : sep ∉ v) (k : Chars) :
    rsplitOnce sep (k++sep::v) = some (k,v) := by
  have hrev : (k++sep::v).reverse = v.reverse++sep::k.reverse := by simp
  rw [rsplitOnce,hrev,splitOnce_append (by simpa using hv)]
  simp

/-- A key is found at the start of a line exactly when it is the line's own key. -/
lemma stripStart_append {key k : Chars} (hkey : sep ∉ key) (hk : sep ∉ k) (v : Chars) :
    stripStart (key ++ [sep]) (k ++ sep :: v) = if k = key then some v else none := by
  rw [stripStart]
  by_cases h : k = key
  · subst h
    have hpre : k ++ [sep] <+: k ++ sep :: v := ⟨v,by simp⟩
    rw [if_pos hpre,if_pos rfl]
    congr 1
    have hlen : (k ++ [sep]).length = k.length+1 := by simp
    rw [hlen]
    simp [List.drop_append]
  · rw [if_neg h,if_neg]
    rintro ⟨t,ht⟩
    have hone := splitOnce_append hkey t
    have htwo := splitOnce_append hk v
    rw [append_assoc,singleton_append] at ht
    rw [ht,htwo,Option.some.injEq,Prod.mk.injEq] at hone
    exact h hone.1

lemma trim_eq_self (hhead : ∀ c, l.head? = some c → Text.isWhitespace c = false)
    (hlast : ∀ c, l.getLast? = some c → Text.isWhitespace c = false) : trim l = l := by
  have hdrop : l.dropWhile Text.isWhitespace = l := by
    cases l with
    | nil => rfl
    | cons c l => simp [hhead c rfl]
  have hrev : l.reverse.dropWhile Text.isWhitespace = l.reverse := by
    cases hr : l.reverse with
    | nil => rfl
    | cons c r =>
      have hc : l.getLast? = some c := by rw [← head?_reverse,hr,head?_cons]
      simp [hlast c hc]
  rw [trim,hdrop,hrev,reverse_reverse]

lemma last_of_trim_eq_self (h : trim l = l) (hc : l.getLast? = some c) :
    Text.isWhitespace c = false := by
  rw [trim] at h
  have hrev := congrArg List.reverse h
  rw [reverse_reverse] at hrev
  rw [← head?_reverse,← hrev] at hc
  have hnot := head?_dropWhile_not Text.isWhitespace (l.dropWhile Text.isWhitespace).reverse
  rw [hc] at hnot
  exact hnot

lemma head_of_trim_eq_self (h : trim l = l) (hc : l.head? = some c) :
    Text.isWhitespace c = false := by
  have hlen : (trim l).length ≤ (l.dropWhile Text.isWhitespace).length := by
    rw [trim,length_reverse]
    have hsub : ∀ r : Chars, (r.dropWhile Text.isWhitespace).length ≤ r.length :=
      fun r => (dropWhile_sublist Text.isWhitespace).length_le
    simpa using hsub (l.dropWhile Text.isWhitespace).reverse
  rw [h] at hlen
  have hdrop : l.dropWhile Text.isWhitespace = l :=
    (dropWhile_sublist Text.isWhitespace).eq_of_length_le hlen
  have hnot := head?_dropWhile_not Text.isWhitespace l
  rw [hdrop,hc] at hnot
  exact hnot

end PirateServer.Lib.Lines
