import PirateServer.Auth.Types
import PirateServer.Lib.Table
import PirateServer.Lib.Wrapping

/-! The nonces a server remembers. Every check first forgets the nonces whose timestamps are
more than `WINDOW_MS` away from the incoming one. -/
namespace PirateServer.Auth
open Lib Lib.Wrapping

def windowMs : Int64 := 600000
def maxEntries : ℕ := 50000

def validNonce (nonce : String) : Bool := nonce ≠ "" && nonce.utf8ByteSize ≤ 128

/-- The map behind the mutex, with what every call leaves true of it. -/
structure NonceTracker where
  inner : Table String Int64
  len_le : inner.len ≤ maxEntries
  valid : ∀ nonce tsMs, inner.lookup nonce = some tsMs → validNonce nonce = true

namespace NonceTracker

@[ext] lemma ext {t t' : NonceTracker} (h : t.inner = t'.inner) : t = t' := by
  cases t; cases t'; cases h; rfl

def default : NonceTracker := ⟨∅,by decide,by simp⟩

/-- `retain` alone. -/
def recent (tsMs : Int64) (m : Table String Int64) : Table String Int64 :=
  m.retain (fun _ t => within windowMs tsMs t)

lemma len_recent_le (tsMs : Int64) (m : Table String Int64) : (recent tsMs m).len ≤ m.len :=
  Table.len_retain_le _ _

lemma lookup_recent {tsMs ts : Int64} {m : Table String Int64} {nonce : String} :
    (recent tsMs m).lookup nonce = some ts ↔
      m.lookup nonce = some ts ∧ within windowMs tsMs ts = true :=
  Table.lookup_retain_eq_some

/-- `retain`, then `clear` if too many entries are left. -/
def prune (tsMs : Int64) (t : NonceTracker) : NonceTracker :=
  if maxEntries ≤ (recent tsMs t.inner).len then default
  else ⟨recent tsMs t.inner,(len_recent_le tsMs t.inner).trans t.len_le,
    fun nonce ts h => t.valid nonce ts (lookup_recent.mp h).1⟩

lemma prune_len_lt (tsMs : Int64) (t : NonceTracker) : (t.prune tsMs).inner.len < maxEntries := by
  unfold prune
  split_ifs with h
  · decide
  · exact not_le.mp h

/-- `insert` of a nonce that is not there yet. -/
def record (t : NonceTracker) (nonce : String) (tsMs : Int64) (hlen : t.inner.len < maxEntries)
    (hvalid : validNonce nonce = true) (hnew : t.inner.lookup nonce = none) : NonceTracker :=
  ⟨t.inner.insert nonce tsMs,
    by rw [Table.len_insert_of_lookup_none tsMs hnew]; exact hlen,
    by
      intro n ts h
      rw [Table.lookup_insert_eq] at h
      split_ifs at h with hn
      · exact hn ▸ hvalid
      · exact t.valid n ts h⟩

variable (tsMs : Int64) (nonce : String) (t : NonceTracker)

def checkAndInsert :
    Except AuthError Unit × NonceTracker :=
  if hvalid : validNonce nonce = true then
    if hnew : (t.prune tsMs).inner.lookup nonce = none then
      (.ok (),(t.prune tsMs).record nonce tsMs (t.prune_len_lt tsMs) hvalid hnew)
    else (.error .replayNonce,t.prune tsMs)
  else (.error (.invalidMetadata "nonce"),t)

def inserted : Table String Int64 :=
  (t.prune tsMs).inner.insert nonce tsMs

lemma prune_of_len_lt {tsMs : Int64} {t : NonceTracker} (h : t.inner.len < maxEntries) :
    (t.prune tsMs).inner = recent tsMs t.inner := by
  have hlen := (len_recent_le tsMs t.inner).trans_lt h
  unfold prune
  rw [if_neg (not_le.mpr hlen)]

lemma lookup_of_prune {tsMs ts : Int64} {t : NonceTracker} {nonce : String}
    (h : (t.prune tsMs).inner.lookup nonce = some ts) :
    (t.prune tsMs).inner = recent tsMs t.inner ∧ t.inner.lookup nonce = some ts ∧
      within windowMs tsMs ts = true := by
  unfold prune at h ⊢
  split_ifs at h ⊢
  · simp [default] at h
  · exact ⟨rfl,lookup_recent.mp h⟩

/-- The three ways a check can end. -/
inductive Checked (tsMs : Int64) (nonce : String) (t : NonceTracker) :
    Except AuthError Unit × NonceTracker → Prop
  | invalid (h : validNonce nonce = false) :
      Checked tsMs nonce t (.error (.invalidMetadata "nonce"),t)
  | replay {ts} (valid : validNonce nonce = true)
      (held : (t.prune tsMs).inner.lookup nonce = some ts) :
      Checked tsMs nonce t (.error .replayNonce,t.prune tsMs)
  | admitted {t'} (valid : validNonce nonce = true)
      (new : (t.prune tsMs).inner.lookup nonce = none) (after : t'.inner = t.inserted tsMs nonce) :
      Checked tsMs nonce t (.ok (),t')

lemma checkAndInsert_checked :
    Checked tsMs nonce t (t.checkAndInsert tsMs nonce) := by
  unfold checkAndInsert
  split_ifs with hvalid hnew
  · exact .admitted hvalid hnew rfl
  · obtain ⟨ts,hts⟩ := Option.ne_none_iff_exists'.mp hnew
    exact .replay hvalid hts
  · exact .invalid (by simpa using hvalid)

section
variable {t : NonceTracker} {tsMs : Int64} {nonce : String}

lemma check_new (hvalid : validNonce nonce = true)
    (hnew : (t.prune tsMs).inner.lookup nonce = none) : (t.checkAndInsert tsMs nonce).1 = .ok () ∧
      (t.checkAndInsert tsMs nonce).2.inner = t.inserted tsMs nonce := by
  have hchk := t.checkAndInsert_checked tsMs nonce
  generalize t.checkAndInsert tsMs nonce = x at hchk ⊢
  cases hchk with
  | invalid hinv => simp [hvalid] at hinv
  | replay _ hheld => simp [hnew] at hheld
  | admitted _ _ hafter => exact ⟨rfl,hafter⟩

lemma check_held {ts : Int64} (hvalid : validNonce nonce = true)
    (hheld : (t.prune tsMs).inner.lookup nonce = some ts) :
    (t.checkAndInsert tsMs nonce).1 = .error .replayNonce := by
  have hchk := t.checkAndInsert_checked tsMs nonce
  generalize t.checkAndInsert tsMs nonce = x at hchk ⊢
  cases hchk with
  | invalid hinv => simp [hvalid] at hinv
  | replay => rfl
  | admitted _ hnew _ => simp [hheld] at hnew

end
end NonceTracker
end PirateServer.Auth
