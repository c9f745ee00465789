import PirateServer.Lib.Bytes
import PirateServer.Lib.Fallible
import PirateServer.Lib.Text
import PirateServer.Lib.Wrapping

/-! The proof that a client of the challenge-response server sends: a tag over the nonce, the
timestamp and the session id of its challenge. Hashes and text encodings come from other packages
and are parameters. -/
namespace PirateServer.ChallengeAuth
open Lib List

abbrev Bytes := List UInt8

def NONCE_LEN : ℕ := 16

def MAX_NONCE_BYTES : ℕ := NONCE_LEN

def MAX_SESSION_ID_BYTES : ℕ := 128

/-- `b"HCR1-v1\0"`. -/
def DOMAIN_V1 : Bytes := [0x48,0x43,0x52,0x31,0x2D,0x76,0x31,0x00]

inductive CanonicalError
  | sessionIdTooLong (max : ℕ)
  | nonceTooLong (max : ℕ)
  deriving DecidableEq, Repr

inductive AuthError
  | sessionIdTooLong (max : ℕ)
  | nonceLength (expected got : ℕ)
  | invalidSignatureHex (text : String)
  | signatureLength (expected got : ℕ)
  | invalidNonceB64 (text : String)
  deriving DecidableEq, Repr

def AuthError.text : AuthError → String
  | sessionIdTooLong max => "session id length invalid (max "++max.repr++" bytes)"
  | nonceLength expected got =>
    "nonce length invalid (expected "++expected.repr++" bytes, got "++got.repr++")"
  | invalidSignatureHex text => "invalid hex signature: "++text
  | signatureLength expected got =>
    "signature must be "++expected.repr++" bytes after decode, got "++got.repr
  | invalidNonceB64 text => "invalid base64 nonce: "++text

/-- `[u8; 32]`. -/
abbrev Tag := { bytes : Bytes // bytes.length = 32 }

/-- `[u8; NONCE_LEN]`. -/
abbrev Nonce := { bytes : Bytes // bytes.length = NONCE_LEN }

/-- `u16::to_le_bytes` of a length. -/
def u16Le (n : ℕ) : Bytes := (Bytes.toBe 2 n).reverse

/-- `i64::to_be_bytes`. -/
def i64Be (x : Int64) : Bytes := Bytes.toBe 8 x.toUInt64.toNat

def canonicalHmacMessage (nonce : Bytes) (timestampMs : Int64) (sessionId : String) :
    Except CanonicalError Bytes :=
  if MAX_NONCE_BYTES < nonce.length then .error (.nonceTooLong MAX_NONCE_BYTES)
  else
    let sid := Bytes.ofText sessionId
    if MAX_SESSION_ID_BYTES < sid.length then .error (.sessionIdTooLong MAX_SESSION_ID_BYTES)
    else
      .ok (DOMAIN_V1++(u16Le nonce.length++(nonce++(i64Be timestampMs++(u16Le sid.length++sid)))))

lemma u16Le_inj {n m : ℕ} (hn : n < 65536) (hm : m < 65536) (h : u16Le n = u16Le m) : n = m :=
  Bytes.toBe_inj (k := 2) hn hm (reverse_injective h)

lemma i64Be_inj {x y : Int64} (h : i64Be x = i64Be y) : x = y := by
  have hnat := Bytes.toBe_inj (k := 8) x.toUInt64.toNat_lt y.toUInt64.toNat_lt h
  cases x
  cases y
  exact congrArg Int64.ofUInt64 (UInt64.toNat_inj.mp hnat)

@[simp] lemma length_u16Le (n : ℕ) : (u16Le n).length = 2 := by simp [u16Le]

@[simp] lemma length_i64Be (x : Int64) : (i64Be x).length = 8 := by simp [i64Be]

lemma canonicalHmacMessage_eq_ok {nonce msg : Bytes} {ts : Int64} {sid : String}
    (h : canonicalHmacMessage nonce ts sid = .ok msg) :
    nonce.length ≤ MAX_NONCE_BYTES ∧ (Bytes.ofText sid).length ≤ MAX_SESSION_ID_BYTES ∧
      msg = DOMAIN_V1++(u16Le nonce.length++(nonce++(i64Be ts++
        (u16Le (Bytes.ofText sid).length++Bytes.ofText sid)))) := by
  simp only [canonicalHmacMessage] at h
  split_ifs at h with hnonce hsid
  cases h
  exact ⟨by omega,by omega,rfl⟩

/-- A message has one reading: its fields are cancelled from the left, each of a length that is
fixed or has just been read. -/
lemma canonicalHmacMessage_inj {nonce nonce' msg : Bytes} {ts ts' : Int64} {sid sid' : String}
    (h : canonicalHmacMessage nonce ts sid = .ok msg)
    (h' : canonicalHmacMessage nonce' ts' sid' = .ok msg) : nonce = nonce' ∧ ts = ts' ∧
      sid = sid' := by
  obtain ⟨hn,hs,hmsg⟩ := canonicalHmacMessage_eq_ok h
  obtain ⟨hn',hs',hmsg'⟩ := canonicalHmacMessage_eq_ok h'
  have hfields := append_cancel_left (hmsg.symm.trans hmsg')
  obtain ⟨hlen,hnonce⟩ := append_inj hfields (by simp)
  have hlen : nonce.length = nonce'.length := by
    unfold MAX_NONCE_BYTES NONCE_LEN at hn hn'
    exact u16Le_inj (by omega) (by omega) hlen
  obtain ⟨hnonce,hrest⟩ := append_inj hnonce hlen
  obtain ⟨hts,hrest⟩ := append_inj hrest (by simp)
  obtain ⟨_,hsid⟩ := append_inj hrest (by simp)
  exact ⟨hnonce,i64Be_inj hts,Bytes.ofText_inj hsid⟩

/-- What other packages compute: HMAC-SHA256 for a key, hexadecimal and base64 with their error
texts, and the reading and printing of session ids. -/
structure Crypto (Uuid : Type) where
  hmac : Bytes → Bytes → Tag
  hexDecode : String → Except String Bytes
  b64Decode : String → Except String Bytes
  parseUuid : String → Option Uuid
  uuidText : Uuid → String

variable {Uuid : Type} (c : Crypto Uuid)

def hmacSha256Sign (secret nonce : Bytes) (timestampMs : Int64) (sessionId : String) :
    Except AuthError Tag := do
  let msg ← (canonicalHmacMessage nonce timestampMs sessionId).mapError (fun
    | .sessionIdTooLong _ => AuthError.sessionIdTooLong MAX_SESSION_ID_BYTES
    | .nonceTooLong _ => AuthError.nonceLength MAX_NONCE_BYTES nonce.length)
  .ok (c.hmac secret msg)

def hmacSha256VerifyHex (secret nonce : Bytes) (timestampMs : Int64)
    (sessionId signatureHex : String) :
    Except AuthError Bool := do
  let decoded ← (c.hexDecode signatureHex).mapError .invalidSignatureHex
  if decoded.length ≠ 32 then .error (.signatureLength 32 decoded.length)
  else do
    let expected ← hmacSha256Sign c secret nonce timestampMs sessionId
    .ok (decoded = expected.1)

def nonceFromBase64Fixed (s : String) : Except AuthError Nonce := do
  let decoded ← (c.b64Decode (Text.trim s)).mapError .invalidNonceB64
  if h : decoded.length = NONCE_LEN then .ok ⟨decoded,h⟩
  else .error (.nonceLength NONCE_LEN decoded.length)

variable {c}

lemma message_of_verify {secret nonce : Bytes} {ts : Int64} {sid hex : String}
    (h : hmacSha256VerifyHex c secret nonce ts sid hex = .ok true) :
    ∃ msg, canonicalHmacMessage nonce ts sid = .ok msg ∧
      c.hexDecode hex = .ok (c.hmac secret msg).1 := by
  obtain ⟨decoded,hdecoded,h⟩ := bind_eq_ok h
  split at h
  · cases h
  obtain ⟨expected,hsign,h⟩ := bind_eq_ok h
  obtain ⟨msg,hmsg,hexpected⟩ := bind_eq_ok hsign
  refine ⟨msg,mapError_eq_ok hmsg,?_⟩
  have heq : decoded = expected.1 := by simpa using h
  cases hexpected
  rw [mapError_eq_ok hdecoded,heq]

end PirateServer.ChallengeAuth
