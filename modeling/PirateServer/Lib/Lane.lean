import Mathlib

/-! A lane: bytes that a sender reads in numbered cycles travel over a first-in-first-out wire to a
receiver that writes them out. The wire does not carry the numbers, only a cut where the next
cycle begins; each end counts the cuts by itself. -/
namespace PirateServer.Lib
open List
variable {β : Type}

inductive Packet (β : Type)
  | cut
  | data (chunk : List β)

namespace Packet

def cuts : List (Packet β) → ℕ
  | [] => 0
  | cut::w => cuts w + 1
  | data _::w => cuts w

/-- The bytes of cycle `c` on a wire whose head belongs to cycle `r`. -/
def bytesOf (c : ℕ) : ℕ → List (Packet β) → List β
  | _,[] => []
  | r,cut::w => bytesOf c (r + 1) w
  | r,data d::w => (if c = r then d else []) ++ bytesOf c r w

lemma cuts_append (w w' : List (Packet β)) : cuts (w ++ w') = cuts w + cuts w' := by
  induction w with
  | nil => simp [cuts]
  | cons p w ih =>
    cases p with
    | cut => simp only [cons_append,cuts,ih]; omega
    | data d => exact ih

lemma bytesOf_append (c r : ℕ) (w w' : List (Packet β)) :
    bytesOf c r (w ++ w') = bytesOf c r w ++ bytesOf c (r + cuts w) w' := by
  induction w generalizing r with
  | nil => rfl
  | cons p w ih =>
    cases p with
    | cut =>
      have hr : r + 1 + cuts w = r + (cuts w + 1) := by omega
      simp only [cons_append,bytesOf,cuts,ih,hr]
    | data d => simp only [cons_append,bytesOf,cuts,ih,append_assoc]

end Packet

open Packet

/-- `out` has been read and is still to be sent, `inp` has been received and is still to be
written. `read`, `lost` and `written` are logs for each cycle: what the sender has read, what it
has read and given up, and what the receiver has written. -/
structure Lane (β : Type) where
  sent : ℕ
  sending : Bool
  out : List β
  wire : List (Packet β)
  rcvd : ℕ
  receiving : Bool
  inp : List β
  read : ℕ → List β
  lost : ℕ → List β
  written : ℕ → List β

namespace Lane

/-- Where the bytes that were read in cycle `c` are, in their order. -/
def carried (l : Lane β) (c : ℕ) : List β :=
  l.written c ++ (if c = l.rcvd then l.inp else []) ++ bytesOf c l.rcvd l.wire ++
    (if c = l.sent then l.out else []) ++ l.lost c

/-- The receiver is in cycle `c` or has yet to come to it. -/
def Expects (l : Lane β) (c : ℕ) : Prop := l.rcvd < c ∨ c = l.rcvd ∧ l.receiving = true

/-- What the two ends of a lane do. -/
inductive Step : Lane β → Lane β → Prop
  | cut {l} (b : Bool) (idle : l.out = []) :
      Step l { l with sent := l.sent + 1, sending := b, wire := l.wire ++ [.cut] }
  | take {l} (chunk : List β) (sending : l.sending = true) (idle : l.out = []) :
      Step l { l with
        out := chunk
        read := Function.update l.read l.sent (l.read l.sent ++ chunk) }
  | push {l} : Step l { l with out := [], wire := l.wire ++ [.data l.out] }
  | stop {l} (sending : l.sending = true) :
      Step l { l with
        sending := false
        out := []
        lost := Function.update l.lost l.sent (l.lost l.sent ++ l.out) }
  | accept {l w} (b : Bool) (head : l.wire = .cut::w) (idle : l.inp = []) :
      Step l { l with wire := w, rcvd := l.rcvd + 1, receiving := b }
  | load {l d w} (head : l.wire = .data d::w) (idle : l.inp = []) :
      Step l { l with wire := w, inp := d }
  | skip {l d w} (head : l.wire = .data d::w) (closed : l.receiving = false) :
      Step l { l with wire := w }
  | put {l} (k : ℕ) (receiving : l.receiving = true) :
      Step l { l with
        inp := l.inp.drop k
        written := Function.update l.written l.rcvd (l.written l.rcvd ++ l.inp.take k) }
  | close {l} : Step l { l with receiving := false, inp := [] }

/-- Both ends agree on the number of the cycle that each byte belongs to, and what has been read
in a cycle that the receiver has not left is accounted for. -/
structure Sound (l : Lane β) : Prop where
  counts : l.rcvd + cuts l.wire = l.sent
  fresh : ∀ c, l.sent < c → l.read c = []
  whole : l.sending = true → l.lost l.sent = []
  delivered : ∀ c, l.written c <+: l.read c
  conserved : ∀ c, l.Expects c → l.carried c = l.read c

namespace Sound
variable {l l' : Lane β}

lemma rcvd_le (h : l.Sound) : l.rcvd ≤ l.sent := by
  have := h.counts
  omega

lemma cut (h : l.Sound) (b : Bool) (idle : l.out = []) :
    Sound { l with sent := l.sent + 1, sending := b, wire := l.wire ++ [.cut] } where
  counts := by
    have := h.counts
    simp only [cuts_append,cuts]
    omega
  fresh c hc := h.fresh c (by simp only at hc; omega)
  whole _ := by
    -- nothing has been read yet in the cycle that begins
    have hr := h.rcvd_le
    have hcons := h.conserved (l.sent + 1) (.inl (by omega))
    rw [h.fresh (l.sent + 1) (by omega)] at hcons
    exact (List.append_eq_nil_iff.mp hcons).2
  delivered := h.delivered
  conserved c hc := by
    have hcons := h.conserved c hc
    simpa only [carried,idle,ite_self,bytesOf_append,bytesOf,append_nil] using hcons

lemma take (h : l.Sound) (chunk : List β) (hs : l.sending = true) (idle : l.out = []) :
    Sound { l with
      out := chunk
      read := Function.update l.read l.sent (l.read l.sent ++ chunk) } where
  counts := h.counts
  fresh c hc := by
    dsimp only at hc ⊢
    rw [Function.update_of_ne (by omega)]
    exact h.fresh c hc
  whole := h.whole
  delivered c := by
    dsimp only
    by_cases hcs : c = l.sent
    · subst hcs
      simp only [Function.update_self]
      exact (h.delivered l.sent).trans (prefix_append _ _)
    · rw [Function.update_of_ne hcs]
      exact h.delivered c
  conserved c hc := by
    have hcons := h.conserved c hc
    by_cases hcs : c = l.sent
    · subst hcs
      simp only [carried,idle,if_true,h.whole hs,append_nil] at hcons
      simp only [carried,if_true,h.whole hs,append_nil,Function.update_self,hcons]
    · simpa only [carried,hcs,if_false,Function.update_of_ne hcs] using hcons

lemma push (h : l.Sound) : Sound { l with out := [], wire := l.wire ++ [.data l.out] } where
  counts := by
    have := h.counts
    simpa only [cuts_append,cuts,Nat.add_zero] using this
  fresh := h.fresh
  whole := h.whole
  delivered := h.delivered
  conserved c hc := by
    have hcons := h.conserved c hc
    -- the packet goes to the end of the wire, which belongs to the cycle of the sender
    simpa only [carried,bytesOf_append,h.counts,bytesOf,ite_self,append_nil,append_assoc,
      nil_append] using hcons

lemma stop (h : l.Sound) (hs : l.sending = true) : Sound { l with
      sending := false
      out := []
      lost := Function.update l.lost l.sent (l.lost l.sent ++ l.out) } where
  counts := h.counts
  fresh := h.fresh
  whole hf := by cases hf
  delivered := h.delivered
  conserved c hc := by
    have hcons := h.conserved c hc
    by_cases hcs : c = l.sent
    · subst hcs
      simp only [carried,if_true,h.whole hs,append_nil] at hcons
      simp only [carried,if_true,h.whole hs,append_nil,nil_append,Function.update_self,hcons]
    · simpa only [carried,hcs,if_false,Function.update_of_ne hcs] using hcons

lemma accept {w : List (Packet β)} (h : l.Sound) (b : Bool) (head : l.wire = .cut::w)
    (idle : l.inp = []) : Sound { l with wire := w, rcvd := l.rcvd + 1, receiving := b } where
  counts := by
    have hcounts := h.counts
    simp only [head,cuts] at hcounts
    simp only
    omega
  fresh := h.fresh
  whole := h.whole
  delivered := h.delivered
  conserved c hc := by
    have hlt : l.rcvd < c := by
      rcases hc with hc | ⟨hc,_⟩ <;> simp only at hc <;> omega
    have hcons := h.conserved c (.inl hlt)
    simpa only [carried,idle,ite_self,head,bytesOf] using hcons

lemma load {d : List β} {w : List (Packet β)} (h : l.Sound) (head : l.wire = .data d::w)
    (idle : l.inp = []) : Sound { l with wire := w, inp := d } where
  counts := by
    have hcounts := h.counts
    rwa [head] at hcounts
  fresh := h.fresh
  whole := h.whole
  delivered := h.delivered
  conserved c hc := by
    have hcons := h.conserved c hc
    simpa only [carried,idle,ite_self,head,bytesOf,append_nil,append_assoc] using hcons

lemma skip {d : List β} {w : List (Packet β)} (h : l.Sound) (head : l.wire = .data d::w)
    (closed : l.receiving = false) : Sound { l with wire := w } where
  counts := by
    have hcounts := h.counts
    rwa [head] at hcounts
  fresh := h.fresh
  whole := h.whole
  delivered := h.delivered
  conserved c hc := by
    have hcons := h.conserved c hc
    have hne : c ≠ l.rcvd := by
      rcases hc with hc | ⟨_,hc⟩
      · exact Nat.ne_of_gt hc
      · rw [closed] at hc; cases hc
    simpa only [carried,head,bytesOf,hne,if_false,nil_append] using hcons

lemma put (h : l.Sound) (k : ℕ) (hr : l.receiving = true) : Sound { l with
      inp := l.inp.drop k
      written := Function.update l.written l.rcvd (l.written l.rcvd ++ l.inp.take k) } where
  counts := h.counts
  fresh := h.fresh
  whole := h.whole
  delivered c := by
    dsimp only
    by_cases hcr : c = l.rcvd
    · subst hcr
      have hcons := h.conserved l.rcvd (.inr ⟨rfl,hr⟩)
      simp only [carried,if_true,append_assoc] at hcons
      rw [Function.update_self,← hcons,prefix_append_right_inj]
      exact (List.take_prefix k l.inp).trans (prefix_append _ _)
    · rw [Function.update_of_ne hcr]
      exact h.delivered c
  conserved c hc := by
    have hcons := h.conserved c hc
    by_cases hcr : c = l.rcvd
    · subst hcr
      have htd (x : List β) : l.inp.take k ++ (l.inp.drop k ++ x) = l.inp ++ x := by
        rw [← append_assoc,take_append_drop]
      simpa only [carried,if_true,Function.update_self,append_assoc,htd] using hcons
    · simpa only [carried,hcr,if_false,Function.update_of_ne hcr] using hcons

lemma close (h : l.Sound) : Sound { l with receiving := false, inp := [] } where
  counts := h.counts
  fresh := h.fresh
  whole := h.whole
  delivered := h.delivered
  conserved c hc := by
    rcases hc with hc | ⟨_,hc⟩
    · have hcons := h.conserved c (.inl hc)
      have hne : c ≠ l.rcvd := Nat.ne_of_gt hc
      simpa only [carried,hne,if_false] using hcons
    · cases hc

theorem step (h : l.Sound) (hs : Step l l') : l'.Sound := by
  cases hs with
  | cut b idle => exact h.cut b idle
  | take chunk sending idle => exact h.take chunk sending idle
  | push => exact h.push
  | stop sending => exact h.stop sending
  | accept b head idle => exact h.accept b head idle
  | load head idle => exact h.load head idle
  | skip head closed => exact h.skip head closed
  | put k receiving => exact h.put k receiving
  | close => exact h.close

theorem run (h : l.Sound) (hs : Relation.ReflTransGen Step l l') : l'.Sound := by
  induction hs with
  | refl => exact h
  | tail _ hstep ih => exact ih.step hstep

end Sound
end Lane
end PirateServer.Lib
