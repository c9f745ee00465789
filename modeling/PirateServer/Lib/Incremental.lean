import Mathlib

/-! Parsers that are run again on all bytes received so far. Such a parser asks for more bytes,
refuses, or is ready; it is stable if what it has once decided stays decided when more bytes
arrive. The loop that feeds a stable parser chunk by chunk then decides as the parser does on
the whole stream, wherever the chunks are cut. -/
namespace PirateServer.Lib

/-- What a parser says about the bytes received so far. `needMore` carries its hint. -/
inductive Verdict (ε ρ : Type)
  | needMore (hint : ℕ)
  | invalid (error : ε)
  | ready (result : ρ)
  deriving DecidableEq, Repr

namespace Verdict
variable {ε ρ τ : Type}

def map (f : ρ → τ) : Verdict ε ρ → Verdict ε τ
  | needMore n => needMore n
  | invalid e => invalid e
  | ready r => ready (f r)

def waits : Verdict ε ρ → Bool
  | needMore _ => true
  | _ => false

@[simp] lemma waits_map (v : Verdict ε ρ) (f : ρ → τ) : (v.map f).waits = v.waits := by
  cases v <;> rfl

/-- The flat order: a parser that waits may still say anything, a decision stands. -/
def Le (v w : Verdict ε ρ) : Prop := v.waits = true ∨ v = w

lemma Le.refl (v : Verdict ε ρ) : Le v v := .inr rfl

lemma Le.needMore (n : ℕ) (w : Verdict ε ρ) : Le (needMore n) w := .inl rfl

lemma Le.ready {w : Verdict ε ρ} {r : ρ} (h : Le (ready r) w) : w = ready r := by
  rcases h with h | h
  · cases h
  · exact h.symm

lemma Le.invalid {w : Verdict ε ρ} {e : ε} (h : Le (invalid e) w) : w = invalid e := by
  rcases h with h | h
  · cases h
  · exact h.symm

/-- Go on with the result of a parser, in the words of the caller. -/
def andThen {ε' : Type} (v : Verdict ε ρ) (onInvalid : ε → ε') (f : ρ → Verdict ε' τ) :
    Verdict ε' τ :=
  match v with
  | needMore n => needMore n
  | invalid e => invalid (onInvalid e)
  | ready r => f r

variable {ε' : Type}

lemma Le.andThen {v w : Verdict ε ρ} (h : Le v w) {onInvalid : ε → ε'}
    {f : ρ → Verdict ε' τ} : Le (v.andThen onInvalid f) (w.andThen onInvalid f) := by
  rcases h with h | rfl
  · left
    cases v with
    | needMore n => rfl
    | invalid e => cases h
    | ready r => cases h
  · exact .refl _

lemma waits_andThen {v : Verdict ε ρ} {onInvalid : ε → ε'} {f : ρ → Verdict ε' τ}
    (hf : ∀ r, (f r).waits = false) : (v.andThen onInvalid f).waits = v.waits := by
  cases v with
  | needMore n => rfl
  | invalid e => rfl
  | ready r => exact hf r

lemma andThen_eq_ready {v : Verdict ε ρ} {onInvalid : ε → ε'} {f : ρ → Verdict ε' τ}
    {t : τ} (h : v.andThen onInvalid f = ready t) : ∃ r, v = ready r ∧ f r = ready t := by
  cases v with
  | needMore n => cases h
  | invalid e => cases h
  | ready r => exact ⟨r,rfl,h⟩

lemma Le.ite {p q : Prop} [Decidable p] [Decidable q] {v w v' w' : Verdict ε ρ} (h : p ↔ q)
    (ht : p → Le v w) (hf : ¬p → Le v' w') : Le (if p then v else v') (if q then w else w') := by
  by_cases hp : p
  · rw [if_pos hp,if_pos (h.mp hp)]
    exact ht hp
  · rw [if_neg hp,if_neg (fun hq => hp (h.mpr hq))]
    exact hf hp

lemma Le.option {α : Type} {a a' : Option α} {m m' : ℕ} {f g : α → Verdict ε ρ}
    (h : ∀ r, a = some r → a' = some r) (hfg : ∀ r, a = some r → Le (f r) (g r)) :
    Le (a.elim (.needMore m) f) (a'.elim (.needMore m') g) := by
  cases a with
  | none => exact .needMore _ _
  | some r =>
    rw [h r rfl]
    exact hfg r rfl

end Verdict

variable {β ε ρ : Type}

/-- What the parser has decided on some bytes it says on every extension of them. -/
def Stable (p : List β → Verdict ε ρ) : Prop := ∀ b x, (p b).Le (p (b++x))

lemma Verdict.Le.short {b x : List β} {n m : ℕ} {v w : Verdict ε ρ} (h : n ≤ b.length → Le v w) :
    Le (if b.length < n then .needMore m else v)
      (if (b++x).length < n then .needMore m else w) := by
  by_cases hb : b.length < n
  · rw [if_pos hb]
    exact .needMore _ _
  · have hx : ¬(b++x).length < n := by
      rw [List.length_append]
      omega
    rw [if_neg hb,if_neg hx]
    exact h (by omega)

/-- How a loop ends that parses all it has after each chunk: with a decision, the bytes it was
made on and the chunks not read, or waiting. -/
inductive Fed (β ε ρ : Type)
  | waiting (buf : List β)
  | refused (error : ε)
  | accepted (result : ρ) (buf : List β) (rest : List (List β))
  deriving DecidableEq, Repr

/-- Accumulate and retry. -/
def feed (p : List β → Verdict ε ρ) (buf : List β) : List (List β) → Fed β ε ρ
  | [] => .waiting buf
  | c::cs =>
    match p (buf++c) with
    | .needMore _ => feed p (buf++c) cs
    | .invalid e => .refused e
    | .ready r => .accepted r (buf++c) cs

variable {p : List β → Verdict ε ρ}

/-- The loop decides what the parser decides on the whole stream, as soon as it has looked. -/
theorem feed_spec (hp : Stable p) (buf : List β) (cs : List (List β))
    (hbuf : cs = [] → (p buf).waits = true) : match feed p buf cs with
    | .waiting b => b = buf++cs.flatten ∧ (p b).waits = true
    | .refused e => p (buf++cs.flatten) = .invalid e
    | .accepted r b rest =>
      p (buf++cs.flatten) = .ready r ∧ p b = .ready r ∧ b++rest.flatten = buf++cs.flatten := by
  induction cs generalizing buf with
  | nil => simp [feed,hbuf rfl]
  | cons c cs ih =>
    have hwhole : buf++(c::cs).flatten = (buf++c)++cs.flatten := by simp
    have hle := hp (buf++c) cs.flatten
    rw [hwhole,feed]
    cases hv : p (buf++c) with
    | needMore n => exact ih _ (fun _ => by rw [hv]; rfl)
    | invalid e =>
      rw [hv] at hle
      exact hle.invalid
    | ready r =>
      rw [hv] at hle
      exact ⟨hle.ready,hv,rfl⟩

variable {β α ε : Type} (dec : List β → Except ε (Option (α × ℕ)))

/-- A decoder of the frame at the beginning of a buffer, applied again to what it leaves until it
finds no frame: the frames with their lengths, and the rest. -/
def decodeFrames : ℕ → List β → Except ε (List (α × ℕ) × List β)
  | 0,buf => .ok ([],buf)
  | fuel+1,buf =>
    match dec buf with
    | .error e => .error e
    | .ok none => .ok ([],buf)
    | .ok (some (a,n)) => (decodeFrames fuel (buf.drop n)).map (fun r => ((a,n)::r.1,r.2))

/-- The decoder finds the frame whatever follows it. -/
def IsFrame (a : α) (e : List β) : Prop := ∀ tail, dec (e++tail) = .ok (some (a,e.length))

variable {dec}

theorem decodeFrames_flatten {as : List α} {es : List (List β)}
    (h : List.Forall₂ (IsFrame dec) as es) {rest : List β} (hrest : dec rest = .ok none) {fuel : ℕ}
    (hfuel : as.length < fuel) :
    decodeFrames dec fuel (es.flatten++rest) = .ok (as.zip (es.map List.length),rest) := by
  induction h generalizing fuel with
  | nil =>
    cases fuel with
    | zero => cases hfuel
    | succ fuel => simp [decodeFrames,hrest]
  | @cons a e as es hframe _ ih =>
    cases fuel with
    | zero => cases hfuel
    | succ fuel =>
      have htail := ih (Nat.lt_of_succ_lt_succ hfuel)
      simp [decodeFrames,hframe (es.flatten++rest),htail,Except.map]

end PirateServer.Lib
