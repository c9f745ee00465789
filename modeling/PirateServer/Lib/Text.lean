import Mathlib

/-! Text as the standard library of the source handles it: trimming, ASCII case, decimal
and hexadecimal numerals, and texts joined by a separator. -/
namespace PirateServer.Lib.Text
open List Option

/-- `char::is_whitespace`: the Unicode property `White_Space`. -/
def isWhitespace (c : Char) : Bool :=
  let n := c.toNat
  (9 ≤ n && n ≤ 13) || n == 0x20 || n == 0x85 || n == 0xA0 || n == 0x1680 ||
    (0x2000 ≤ n && n ≤ 0x200A) || n == 0x2028 || n == 0x2029 || n == 0x202F ||
    n == 0x205F || n == 0x3000

/-- `str::trim`. -/
def trim (s : String) : String :=
  String.ofList ((s.toList.dropWhile isWhitespace).reverse.dropWhile isWhitespace).reverse

/-- `str::eq_ignore_ascii_case`; `Char.toLower` changes ASCII letters only. -/
def eqIgnoreAsciiCase (s t : String) : Bool :=
  s.toList.map Char.toLower == t.toList.map Char.toLower

/-- `str::contains` with a text. -/
def contains (s part : String) : Bool := part.toList <:+: s.toList

/-- `str::starts_with` with a text. -/
def startsWith (s start : String) : Bool := start.toList <+: s.toList

/-- `str::trim_start_matches` with a character. -/
def trimStartMatches (c : Char) (s : String) : String := String.ofList (s.toList.dropWhile (· = c))

/-- `{:016x}`: lower-case hexadecimal, padded to sixteen digits. -/
def hex16 (n : UInt64) : String := String.ofList ((Nat.toDigits 16 n.toNat).leftpad 16 '0')

/-- `i64` as `Display` prints it. -/
def decimal (i : Int64) : String := i.toInt.repr

def parseDigits (ds : List Char) : Option ℕ :=
  if ds ≠ [] ∧ ds.all Char.isDigit = true then some (Nat.ofDigitChars 10 ds 0) else none

/-- The conversion to `i64` fails outside the range of the type. -/
def toI64 (i : ℤ) : Option Int64 :=
  if -2^63 ≤ i ∧ i < 2^63 then some (Int64.ofInt i) else none

/-- `str::parse::<i64>`: one optional sign, then digits only. -/
def parseI64 (s : String) : Option Int64 :=
  match s.toList with
  | '-'::ds => (parseDigits ds).bind (fun n => toI64 (-(n : ℤ)))
  | '+'::ds => (parseDigits ds).bind (fun n => toI64 n)
  | ds => (parseDigits ds).bind (fun n => toI64 n)

/-- `str::parse` for an unsigned type of `bits` bits: an optional plus sign, then digits only. -/
def parseUnsigned (bits : ℕ) (s : String) : Option ℕ :=
  let digits := match s.toList with
    | '+'::ds => ds
    | ds => ds
  (parseDigits digits).filter (fun n => n < 2^bits)

/-- `str::split` at a character. -/
def split (sep : Char) (s : String) : List String := (s.toList.splitOn sep).map String.ofList

/-- `str::to_ascii_lowercase`. -/
def toAsciiLowercase (s : String) : String := String.ofList (s.toList.map Char.toLower)

/-- `str::ends_with` with a text. -/
def endsWith (s tail : String) : Bool := tail.toList <:+ s.toList

/-- The first half of `str::rsplit_once`: the text before the last separator. -/
def beforeLast (sep : Char) (s : String) : String :=
  String.ofList ((s.toList.reverse.dropWhile (· ≠ sep)).drop 1).reverse

/-- The separator does not occur in the text. -/
def Free (sep : Char) (s : String) : Prop := sep ∉ s.toList

instance (sep : Char) (s : String) : Decidable (Free sep s) :=
  inferInstanceAs (Decidable (sep ∉ s.toList))

lemma trim_trim (s : String) : trim (trim s) = trim s := by
  have h : ∀ l : List Char, (((l.dropWhile isWhitespace).rdropWhile isWhitespace).dropWhile
      isWhitespace).rdropWhile isWhitespace =
        (l.dropWhile isWhitespace).rdropWhile isWhitespace := by
    intro l
    have hpre := rdropWhile_prefix isWhitespace (l.dropWhile isWhitespace)
    have hfirst : ((l.dropWhile isWhitespace).rdropWhile isWhitespace).dropWhile isWhitespace =
        (l.dropWhile isWhitespace).rdropWhile isWhitespace := by
      rw [dropWhile_eq_self_iff]
      intro hl
      have hlen := hpre.length_le
      rw [hpre.getElem hl]
      exact dropWhile_get_zero_not _ _ (by omega)
    rw [hfirst,rdropWhile_idempotent]
  unfold trim
  rw [String.toList_ofList]
  exact congrArg String.ofList (h s.toList)

lemma isWhitespace_toLower (c : Char) : isWhitespace c.toLower = isWhitespace c := by
  by_cases h : 65 ≤ c.toNat ∧ c.toNat ≤ 90
  · obtain ⟨hA,hZ⟩ := h
    rw [← Char.ofNat_toNat c]
    interval_cases c.toNat <;> decide
  · have hl : c.toLower = c := dif_neg h
    rw [hl]

lemma map_toLower_trim (s : String) : (trim s).toList.map Char.toLower =
      (((s.toList.map Char.toLower).dropWhile isWhitespace).reverse.dropWhile
        isWhitespace).reverse := by
  have hcomp : isWhitespace ∘ Char.toLower = isWhitespace := by
    funext c
    exact isWhitespace_toLower c
  simp only [trim,String.toList_ofList,map_reverse,dropWhile_map,hcomp]
  simp [dropWhile_map,hcomp,← map_reverse]

variable {s t : String}

lemma eqIgnoreAsciiCase_iff :
    eqIgnoreAsciiCase s t = true ↔ s.toList.map Char.toLower = t.toList.map Char.toLower := by
  simp [eqIgnoreAsciiCase]

lemma eqIgnoreAsciiCase_trim (h : eqIgnoreAsciiCase s t = true) :
    eqIgnoreAsciiCase (trim s) (trim t) = true := by
  rw [eqIgnoreAsciiCase_iff] at h ⊢
  rw [map_toLower_trim,map_toLower_trim,h]

lemma eqIgnoreAsciiCase_congr (h : eqIgnoreAsciiCase s t = true) (u : String) :
    eqIgnoreAsciiCase s u = eqIgnoreAsciiCase t u := by
  rw [eqIgnoreAsciiCase_iff] at h
  rw [eqIgnoreAsciiCase,eqIgnoreAsciiCase,h]

lemma beforeLast_append {sep : Char} (ht : Free sep t) (s : String) :
    beforeLast sep (s++String.singleton sep++t) = s := by
  have hdrop : (t.toList.reverse++sep::s.toList.reverse).dropWhile (fun c => !decide (c = sep)) =
      sep::s.toList.reverse := by
    rw [dropWhile_append_of_pos]
    · simp
    · intro c hc
      have hne : c ≠ sep := fun h => ht (by simpa [h] using hc)
      simpa using hne
  unfold beforeLast
  simp [hdrop]

lemma append_of_endsWith {tail : String} (h : endsWith s tail = true) : ∃ t, s = t++tail := by
  obtain ⟨l,hl⟩ : tail.toList <:+ s.toList := of_decide_eq_true h
  refine ⟨String.ofList l,String.toList_injective ?_⟩
  rw [String.toList_append,String.toList_ofList,hl]

lemma eq_of_contains (h : contains s t = true) (h' : contains t s = true) : s = t := by
  have hst : t.toList <:+: s.toList := by simpa [contains] using h
  have hts : s.toList <:+: t.toList := by simpa [contains] using h'
  exact String.toList_injective (hts.eq_of_length_le hst.length_le)

lemma eq_of_startsWith (h : startsWith s t = true) (h' : startsWith t s = true) : s = t := by
  have hst : t.toList <+: s.toList := by simpa [startsWith] using h
  have hts : s.toList <+: t.toList := by simpa [startsWith] using h'
  exact String.toList_injective (hts.eq_of_length_le hst.length_le)

lemma contains_self (s : String) : contains s s = true := by simp [contains]

lemma contains_empty (s : String) : contains s "" = true := by simp [contains]

lemma startsWith_self (s : String) : startsWith s s = true := by simp [startsWith]

lemma startsWith_empty (s : String) : startsWith s "" = true := by simp [startsWith]

lemma digitChar_ne_bar {d : ℕ} (h : d < 16) : Nat.digitChar d ≠ '|' := by
  interval_cases d <;> decide

lemma mem_toDigits {b n : ℕ} (hb : 1 < b) {c : Char} (hc : c ∈ Nat.toDigits b n) :
    ∃ d < b, c = Nat.digitChar d := by
  induction n using Nat.strong_induction_on with
  | _ n ih =>
    rw [Nat.toDigits_eq_if hb] at hc
    split_ifs at hc with hn
    · exact ⟨n,hn,List.mem_singleton.mp hc⟩
    · rcases List.mem_append.mp hc with hc | hc
      · exact ih (n/b) (Nat.div_lt_self (by omega) hb) hc
      · exact ⟨n%b,Nat.mod_lt _ (by omega),List.mem_singleton.mp hc⟩

lemma bar_notMem_toDigits {b n : ℕ} (hb : 1 < b) (hb' : b ≤ 16) : '|' ∉ Nat.toDigits b n := by
  intro hc
  obtain ⟨d,hd,he⟩ := mem_toDigits hb hc
  exact digitChar_ne_bar (by omega) he.symm

lemma free_hex16 (n : UInt64) : Free '|' (hex16 n) := by
  unfold Free hex16
  rw [String.toList_ofList,List.leftpad]
  intro hc
  rcases List.mem_append.mp hc with hc | hc
  · exact absurd (eq_of_mem_replicate hc) (by decide)
  · exact bar_notMem_toDigits (by decide) (by decide) hc

lemma toDigits_ten_injective {m n : ℕ} (h : Nat.toDigits 10 m = Nat.toDigits 10 n) : m = n := by
  have hm := congrArg (fun ds => Nat.ofDigitChars 10 ds 0) h
  simpa only [Nat.ofDigitChars_ten_toDigits] using hm

lemma toList_repr_of_nonneg {i : ℤ} (h : 0 ≤ i) : i.repr.toList = Nat.toDigits 10 i.toNat := by
  rw [Int.repr_eq_if,if_pos h,Nat.toList_repr]

lemma toList_repr_of_neg {i : ℤ} (h : i < 0) : i.repr.toList = '-'::Nat.toDigits 10 (-i).toNat := by
  rw [Int.repr_eq_if,if_neg (by omega),String.toList_append,Nat.toList_repr]
  rfl

lemma minus_notMem_toDigits (n : ℕ) : '-' ∉ Nat.toDigits 10 n := by
  intro hc
  have h := Nat.isDigit_of_mem_toDigits (by decide) (by decide) hc
  simp at h

lemma free_decimal (i : Int64) : Free '|' (decimal i) := by
  unfold Free decimal
  rcases lt_or_ge i.toInt 0 with h | h
  · rw [toList_repr_of_neg h]
    intro hc
    rcases List.mem_cons.mp hc with hc | hc
    · exact absurd hc (by decide)
    · exact bar_notMem_toDigits (by decide) (by decide) hc
  · rw [toList_repr_of_nonneg h]
    exact bar_notMem_toDigits (by decide) (by decide)

lemma decimal_injective {i j : Int64} (h : decimal i = decimal j) : i = j := by
  have hl : i.toInt.repr.toList = j.toInt.repr.toList := congrArg String.toList h
  apply Int64.toInt_inj.mp
  rcases lt_or_ge i.toInt 0 with hi | hi <;> rcases lt_or_ge j.toInt 0 with hj | hj
  · rw [toList_repr_of_neg hi,toList_repr_of_neg hj] at hl
    have hd := toDigits_ten_injective (List.cons.inj hl).2
    omega
  · rw [toList_repr_of_neg hi,toList_repr_of_nonneg hj] at hl
    exact absurd (hl ▸ mem_cons_self) (minus_notMem_toDigits _)
  · rw [toList_repr_of_nonneg hi,toList_repr_of_neg hj] at hl
    exact absurd (hl ▸ mem_cons_self) (minus_notMem_toDigits _)
  · rw [toList_repr_of_nonneg hi,toList_repr_of_nonneg hj] at hl
    have hd := toDigits_ten_injective hl
    omega

lemma parseDigits_toDigits (n : ℕ) : parseDigits (Nat.toDigits 10 n) = some n := by
  have hne : Nat.toDigits 10 n ≠ [] := List.length_pos_iff.mp Nat.length_toDigits_pos
  have hall : (Nat.toDigits 10 n).all Char.isDigit = true := by
    rw [List.all_eq_true]
    intro c hc
    exact Nat.isDigit_of_mem_toDigits (by decide) (by decide) hc
  rw [parseDigits,if_pos ⟨hne,hall⟩,Nat.ofDigitChars_ten_toDigits]

lemma plus_notMem_toDigits (n : ℕ) : '+' ∉ Nat.toDigits 10 n := by
  intro hc
  have hd := Nat.isDigit_of_mem_toDigits (by decide) (by decide) hc
  simp at hd

lemma parseUnsigned_repr {n : ℕ} (bits : ℕ) (h : n < 2^bits) :
    parseUnsigned bits n.repr = some n := by
  have hl : n.repr.toList = Nat.toDigits 10 n := by simp [Nat.repr]
  have hdigits : (match Nat.toDigits 10 n with
      | '+'::ds => ds
      | ds => ds) = Nat.toDigits 10 n := by
    split
    · rename_i ds hds
      exact absurd (hds ▸ mem_cons_self) (plus_notMem_toDigits n)
    · rfl
  simp only [parseUnsigned,hl]
  rw [hdigits,parseDigits_toDigits]
  simp [h]

lemma cons_inj_of_free {sep : Char} {a b c d : List Char} (ha : sep ∉ a) (hc : sep ∉ c)
    (h : a ++ sep::b = c ++ sep::d) : a = c ∧ b = d := by
  induction a generalizing c with
  | nil =>
    cases c with
    | nil => exact ⟨rfl,(List.cons.inj h).2⟩
    | cons x c =>
      have hx := (List.cons.inj h).1
      exact absurd (hx ▸ mem_cons_self) hc
  | cons x a ih =>
    cases c with
    | nil =>
      have hx := (List.cons.inj h).1
      exact absurd (hx ▸ mem_cons_self) ha
    | cons y c =>
      obtain ⟨rfl,ht⟩ := List.cons.inj h
      obtain ⟨rfl,hb⟩ := ih (fun hm => ha (mem_cons_of_mem _ hm))
        (fun hm => hc (mem_cons_of_mem _ hm)) ht
      exact ⟨rfl,hb⟩

lemma join_inj_of_free {a b c d : String} (ha : Free '|' a) (hc : Free '|' c)
    (h : a ++ "|" ++ b = c ++ "|" ++ d) : a = c ∧ b = d := by
  have hl := congrArg String.toList h
  simp only [String.toList_append,append_assoc] at hl
  obtain ⟨hac,hbd⟩ := cons_inj_of_free ha hc hl
  exact ⟨String.toList_inj.mp hac,String.toList_inj.mp hbd⟩

/-- A text with the separator in it is never one without. -/
lemma join_ne_of_free {a b c : String} (hc : Free '|' c) : a ++ "|" ++ b ≠ c := by
  rintro rfl
  apply hc
  simp

/-! Bytes in hexadecimal. -/

/-- `hex::encode`. -/
def hexEncode (b : List UInt8) : String :=
  String.ofList (b.flatMap (fun x => [Nat.digitChar (x.toNat/16),Nat.digitChar (x.toNat%16)]))

def hexDigitValue (c : Char) : Option ℕ :=
  if '0' ≤ c ∧ c ≤ '9' then some (c.toNat-48)
  else if 'a' ≤ c ∧ c ≤ 'f' then some (c.toNat-87)
  else if 'A' ≤ c ∧ c ≤ 'F' then some (c.toNat-55)
  else none

def hexBytes : List Char → Option (List UInt8)
  | [] => some []
  | c::d::cs => do
    let hi ← hexDigitValue c
    let lo ← hexDigitValue d
    let bs ← hexBytes cs
    pure (UInt8.ofNat (16*hi+lo)::bs)
  | _ => none

/-- `hex::decode`. -/
def hexDecode (s : String) : Option (List UInt8) := hexBytes s.toList

lemma hexDigitValue_digitChar : ∀ n < 16, hexDigitValue (Nat.digitChar n) = some n := by decide

lemma isWhitespace_digitChar : ∀ n < 16, isWhitespace (Nat.digitChar n) = false := by decide

lemma hexDecode_hexEncode (b : List UInt8) : hexDecode (hexEncode b) = some b := by
  unfold hexDecode hexEncode
  rw [String.toList_ofList]
  induction b with
  | nil => rfl
  | cons x b ih =>
    have hx := x.toNat_lt
    have hback : UInt8.ofNat (16*(x.toNat/16)+x.toNat%16) = x := by
      rw [Nat.div_add_mod]
      exact UInt8.ofNat_toNat
    simp only [flatMap_cons,cons_append,nil_append,hexBytes]
    rw [hexDigitValue_digitChar _ (by omega),hexDigitValue_digitChar _ (by omega),ih]
    simp only [bind_eq_bind,bind_some,hback]
    rfl

lemma trim_eq_self (h : ∀ c ∈ s.toList, isWhitespace c = false) : trim s = s := by
  have hkeep : ∀ l : List Char, (∀ c ∈ l, isWhitespace c = false) →
      l.dropWhile isWhitespace = l := by
    intro l hl
    cases l with
    | nil => rfl
    | cons c l => simp [hl c mem_cons_self]
  rw [trim,hkeep _ h,hkeep _ (fun c hc => h c (List.mem_reverse.mp hc)),reverse_reverse,
    String.ofList_toList]

lemma trim_hexEncode (b : List UInt8) : trim (hexEncode b) = hexEncode b := by
  apply trim_eq_self
  intro c hc
  rw [hexEncode,String.toList_ofList] at hc
  obtain ⟨x,_,hc⟩ := List.mem_flatMap.mp hc
  have hx := x.toNat_lt
  rcases List.mem_cons.mp hc with rfl | hc
  · exact isWhitespace_digitChar _ (by omega)
  · rw [List.mem_singleton.mp hc]
    exact isWhitespace_digitChar _ (by omega)

lemma hexEncode_ne_empty {b : List UInt8} (h : b ≠ []) : hexEncode b ≠ "" := by
  intro hempty
  have hsome := hexDecode_hexEncode b
  rw [hempty] at hsome
  cases hsome
  exact h rfl

end PirateServer.Lib.Text
