import PirateServer.Lib.Text

/-! JSON values as trees. An object is the list of its fields in the order of their keys, as
an ordered map is walked through; the text of a value is read by a function from outside. -/
namespace PirateServer.Lib
open List

/-- A number of JSON; a float is given by its bits. -/
inductive JsonNumber
  | posInt (n : ℕ)
  | negInt (n : ℤ)
  | float (bits : ℕ)
  deriving DecidableEq, Repr

inductive Json
  | null
  | bool (b : Bool)
  | number (n : JsonNumber)
  | string (s : String)
  | array (items : List Json)
  | object (fields : List (String × Json))
  deriving Repr

namespace Json

def asStr : Json → Option String
  | .string s => some s
  | _ => none

def asBool : Json → Option Bool
  | .bool b => some b
  | _ => none

def asArray : Json → Option (List Json)
  | .array items => some items
  | _ => none

def asObject : Json → Option (List (String × Json))
  | .object fields => some fields
  | _ => none

def asU64 : Json → Option ℕ
  | .number (.posInt n) => some n
  | _ => none

/-- The value of a field; nothing when the value is not an object. -/
def get (v : Json) (k : String) : Option Json := v.asObject.bind (·.lookup k)

def getStr (v : Json) (k : String) : Option String := (v.get k).bind asStr

def int (z : ℤ) : Json := if 0 ≤ z then .number (.posInt z.toNat) else .number (.negInt z)

/-- Give the fields with key `k` the value `v`. -/
def replaceField (k : String) (v : Json) (fields : List (String × Json)) : List (String × Json) :=
  fields.map (fun e => if e.1 = k then (k,v) else e)

def addField (k : String) (v : Json) : List (String × Json) → List (String × Json)
  | [] => [(k,v)]
  | e :: rest => if k < e.1 then (k,v) :: e :: rest else e :: addField k v rest

def hasField (k : String) (fields : List (String × Json)) : Bool := fields.any (·.1 = k)

def insertField (k : String) (v : Json) (fields : List (String × Json)) : List (String × Json) :=
  if hasField k fields then replaceField k v fields else addField k v fields

variable {fields : List (String × Json)} {v : Json} {k : String}

lemma replaceField_of_not_hasField
    (h : hasField k fields = false) : replaceField k v fields = fields := by
  rw [hasField,List.any_eq_false] at h
  conv_rhs => rw [← List.map_id fields]
  apply map_congr_left
  intro e he
  have hk := h e he
  simp only [decide_eq_true_eq] at hk
  rw [if_neg hk,id]

lemma lookup_replaceField_self
    (h : hasField k fields = true) : (replaceField k v fields).lookup k = some v := by
  induction fields with
  | nil => cases h
  | cons e rest ih =>
    obtain ⟨a,w⟩ := e
    by_cases ha : a = k
    · simp [replaceField,ha]
    · have hrest : hasField k rest = true := by simpa [hasField,ha] using h
      have hk : (k == a) = false := by simpa using Ne.symm ha
      simpa [replaceField,lookup_cons,ha,hk] using ih hrest

variable {j : String}

lemma lookup_replaceField_ne
    (h : j ≠ k) : (replaceField k v fields).lookup j = fields.lookup j := by
  have hk : (j == k) = false := by simpa using h
  induction fields with
  | nil => rfl
  | cons e rest ih =>
    obtain ⟨a,w⟩ := e
    simp only [replaceField,map_cons] at ih ⊢
    by_cases ha : a = k
    · simp [lookup_cons,ha,hk,ih]
    · simp [lookup_cons,ha,ih]

lemma lookup_addField_self
    (h : hasField k fields = false) : (addField k v fields).lookup k = some v := by
  induction fields with
  | nil => simp [addField]
  | cons e rest ih =>
    obtain ⟨a,w⟩ := e
    have hcons : a ≠ k ∧ hasField k rest = false := by simpa [hasField] using h
    have hk : (k == a) = false := by simpa using Ne.symm hcons.1
    rw [addField]
    split_ifs
    · simp
    · simpa [lookup_cons,hk] using ih hcons.2

lemma lookup_addField_ne (h : j ≠ k) : (addField k v fields).lookup j = fields.lookup j := by
  have hk : (j == k) = false := by simpa using h
  induction fields with
  | nil => simp [addField,lookup_cons,hk]
  | cons e rest ih =>
    obtain ⟨a,w⟩ := e
    rw [addField]
    split_ifs
    · rw [lookup_cons,hk]
    · rw [lookup_cons,lookup_cons,ih]

@[simp] lemma lookup_insertField_self (k : String) (v : Json) (fields : List (String × Json)) :
    (insertField k v fields).lookup k = some v := by
  rw [insertField]
  split_ifs with h
  · exact lookup_replaceField_self h
  · exact lookup_addField_self (by simpa using h)

lemma lookup_insertField_ne (v : Json) (fields : List (String × Json))
    (h : j ≠ k) : (insertField k v fields).lookup j = fields.lookup j := by
  rw [insertField]
  split_ifs
  · exact lookup_replaceField_ne h
  · exact lookup_addField_ne h

/-- Insert the fields of `fixed` one after the other. -/
def insertFields (fixed fields : List (String × Json)) : List (String × Json) :=
  fixed.foldl (fun acc e => insertField e.1 e.2 acc) fields

lemma insertFields_concat (fixed fields : List (String × Json)) (e : String × Json) :
    insertFields (fixed ++ [e]) fields = insertField e.1 e.2 (insertFields fixed fields) := by
  simp [insertFields]

variable {fixed : List (String × Json)}

lemma lookup_insertFields_of_notMem (fields : List (String × Json)) (h : k ∉ fixed.map Prod.fst) :
    (insertFields fixed fields).lookup k = fields.lookup k := by
  induction fixed using List.reverseRecOn with
  | nil => rfl
  | append_singleton rest e ih =>
    simp only [map_append,map_cons,map_nil,mem_append,mem_singleton,not_or] at h
    rw [insertFields_concat,lookup_insertField_ne e.2 _ h.2,ih h.1]

lemma lookup_insertFields_of_mem
    (fields : List (String × Json)) (hk : (fixed.map Prod.fst).Nodup) (hv : (k,v) ∈ fixed) :
    (insertFields fixed fields).lookup k = some v := by
  induction fixed using List.reverseRecOn with
  | nil => cases hv
  | append_singleton rest e ih =>
    rw [insertFields_concat]
    rw [map_append,nodup_append] at hk
    rcases List.mem_append.mp hv with hrest | he
    · have hne : k ≠ e.1 := hk.2.2 k (List.mem_map_of_mem hrest) e.1 (by simp)
      rw [lookup_insertField_ne e.2 _ hne]
      exact ih hk.1 hrest
    · cases List.mem_singleton.mp he
      rw [lookup_insertField_self]

variable (hidden : String → Bool)

mutual
/-- Every text that stands under a hidden key, at any depth, becomes the same text. -/
def redact : Json → Json
  | .array items => .array (redactItems items)
  | .object fields => .object (redactFields fields)
  | .null => .null
  | .bool b => .bool b
  | .number n => .number n
  | .string s => .string s

def redactItems : List Json → List Json
  | [] => []
  | v :: rest => redact v :: redactItems rest

def redactFields : List (String × Json) → List (String × Json)
  | [] => []
  | (k,.string s) :: rest => (k,.string (if hidden k then "" else s)) :: redactFields rest
  | (k,v) :: rest => (k,redact v) :: redactFields rest
end

lemma keys_redactFields (fields : List (String × Json)) :
    (redactFields hidden fields).map Prod.fst = fields.map Prod.fst := by
  induction fields with
  | nil => simp [redactFields]
  | cons e rest ih =>
    obtain ⟨k,v⟩ := e
    cases v with
    | null | bool _ | number _ | string _ | array _ | object _ =>
      simp [redactFields,ih]

def Alike (v w : Json) : Prop := redact hidden v = redact hidden w

lemma keys_of_alike {others : List (String × Json)}
    (h : Alike hidden (.object fields) (.object others)) :
    fields.map Prod.fst = others.map Prod.fst := by
  have hf : redactFields hidden fields = redactFields hidden others := by
    simpa [Alike,redact] using h
  rw [← keys_redactFields hidden fields,hf,keys_redactFields]

structure Reader where
  fromStr : String → Except String Json
  blank : ∀ s, Text.trim s = "" → ∃ e, fromStr s = .error e

def Reader.ofList (known : List (String × Json)) (error : String)
    (h : ∀ e ∈ known, Text.trim e.1 ≠ "") : Reader where
  fromStr s := match known.lookup s with
    | some v => .ok v
    | none => .error error
  blank s hs := by
    refine ⟨error,?_⟩
    have hnone : known.lookup s = none := by
      rw [lookup_eq_none_iff]
      intro e he
      simp only [bne_iff_ne]
      rintro rfl
      exact h e he hs
    rw [hnone]

end Json
end PirateServer.Lib
