import PirateServer.Auth.Canonical
import PirateServer.Auth.Nonce
import PirateServer.Lib.Fallible

/-! The server's check of a signed request, and what an accepted request has passed. -/
namespace PirateServer.Auth
open Lib Lib.Text Lib.Wrapping

def parseVerifyingKeyB64 (c : Crypto) (b64 : String) : Except AuthError PubKey :=
  match c.decodeUrlSafeNoPad (trim b64) with
  | .error e => .error (.invalidBase64 e)
  | .ok bytes =>
    if h : bytes.length = 32 then
      if c.isPoint ⟨bytes,h⟩ = true then .ok ⟨bytes,h⟩ else .error .invalidKeyLength
    else .error .invalidKeyLength

def verifySig (c : Crypto) (vk : PubKey) (msg sigB64 : String) : Except AuthError Unit :=
  match c.decodeStandard (trim sigB64) with
  | .error e => .error (.invalidBase64 e)
  | .ok raw =>
    if h : raw.length = 64 then
      if c.verify vk msg ⟨raw,h⟩ = true then .ok () else .error .badSignature
    else .error .badSignature

/-- The four values that every signed request carries. -/
structure Fields where
  pk : String
  tsMs : Int64
  nonce : String
  sig : String
  deriving DecidableEq,Repr

def Metadata.require (md : Metadata) (key : String) : Except AuthError String :=
  match md key with
  | none => .error (.missingMetadata key)
  | some v => .ok v

def readFields (md : Metadata) : Except AuthError Fields := do
  let pk ← Metadata.require md metaPubkey
  let tsS ← Metadata.require md metaTs
  let nonce ← Metadata.require md metaNonce
  let sig ← Metadata.require md metaSig
  match parseI64 tsS with
  | none => .error (.invalidMetadata "timestamp")
  | some tsMs => .ok ⟨pk,tsMs,nonce,sig⟩

/-- The part of `verify_rpc_metadata` before the nonce: the fields and the clock skew. -/
def screen (now : Int64) (md : Metadata) (config : AuthConfig) : Except AuthError Fields := do
  let f ← readFields md
  if within config.maxClockSkewMs now f.tsMs = true then .ok f else .error .timestampSkew

/-- The part of `verify_rpc_metadata` after the nonce: the key and the signature. -/
def authenticate (c : Crypto) (peers : Finset PubKey) (method payload : String) (f : Fields) :
    Except AuthError Unit := do
  let vk ← parseVerifyingKeyB64 c f.pk
  if vk ∈ peers then verifySig c vk (rpcCanonical method f.tsMs f.nonce payload) f.sig
  else .error .unknownPeer

section
variable (c : Crypto) (now : Int64) (md : Metadata) (peers : Finset PubKey)

def verifyRpcMetadata (method payload : String) (config : AuthConfig) (t : NonceTracker) :
    Except AuthError Unit × NonceTracker :=
  if config.allowUnauthenticated = true then (.ok (),t)
  else match screen now md config with
    | .error e => (.error e,t)
    | .ok f =>
      match t.checkAndInsert f.tsMs f.nonce with
      | (.error e,t') => (.error e,t')
      | (.ok (),t') => (authenticate c peers method payload f,t')

def verifyUploadMetadata (config : AuthConfig) (t : NonceTracker) :
    Except AuthError Unit × NonceTracker :=
  match Metadata.require md metaVersion with
  | .error e => (.error e,t)
  | .ok ver =>
    let proj := (md metaProject).getD "default"
    verifyRpcMetadata c now md peers "Upload" (signingPayload "Upload" proj ver) config t

def verifyUploadServerStackMetadata (config : AuthConfig) (t : NonceTracker) :
    Except AuthError Unit × NonceTracker :=
  match Metadata.require md metaVersion with
  | .error e => (.error e,t)
  | .ok ver =>
    let payload := signingPayloadUploadServerStack ver (md metaStackApplySha256)
    verifyRpcMetadata c now md peers "UploadServerStack" payload config t

end

lemma eq_ok_of_toOption {α : Type} {x : Except AuthError α} {a : α}
    (h : x.toOption = some a) : x = .ok a := by
  cases x with
  | error e => cases h
  | ok b => exact congrArg Except.ok (Option.some.inj h)

variable {c : Crypto} {u : Unit}

lemma verifySig_ok {vk : PubKey} {msg sigB64 : String}
    (h : verifySig c vk msg sigB64 = .ok u) : ∃ sig, c.verify vk msg sig = true := by
  unfold verifySig at h
  split at h
  · cases h
  · split_ifs at h with hlen hv
    exact ⟨_,hv⟩

variable {method payload : String} {peers : Finset PubKey}

lemma authenticate_ok {f : Fields} (h : authenticate c peers method payload f = .ok u) :
    ∃ vk ∈ peers, ∃ sig, c.verify vk (rpcCanonical method f.tsMs f.nonce payload) sig = true := by
  obtain ⟨vk,_,h⟩ := bind_eq_ok h
  split_ifs at h with hpeer
  exact ⟨vk,hpeer,verifySig_ok h⟩

variable {config : AuthConfig}

lemma screen_ok {now : Int64} {md : Metadata} {f : Fields} (h : screen now md config = .ok f) :
    readFields md = .ok f ∧ within config.maxClockSkewMs now f.tsMs = true := by
  obtain ⟨f',hf,h⟩ := bind_eq_ok h
  split_ifs at h with hskew
  cases h
  exact ⟨hf,hskew⟩

/-- The ways `verify_rpc_metadata` can end, with the tracker that it leaves behind. -/
inductive Verified (c : Crypto) (now : Int64) (md : Metadata) (peers : Finset PubKey)
    (method payload : String) (config : AuthConfig) (t : NonceTracker) :
    Except AuthError Unit × NonceTracker → Prop
  | unauthenticated (h : config.allowUnauthenticated = true) :
      Verified c now md peers method payload config t (.ok (),t)
  | refused {e} (auth : config.allowUnauthenticated = false)
      (screened : screen now md config = .error e) :
      Verified c now md peers method payload config t (.error e,t)
  | nonceRefused {f e t'} (auth : config.allowUnauthenticated = false)
      (screened : screen now md config = .ok f)
      (checked : t.checkAndInsert f.tsMs f.nonce = (.error e,t')) :
      Verified c now md peers method payload config t (.error e,t')
  | nonceSpent {f t'} (auth : config.allowUnauthenticated = false)
      (screened : screen now md config = .ok f)
      (checked : t.checkAndInsert f.tsMs f.nonce = (.ok (),t')) :
      Verified c now md peers method payload config t
        (authenticate c peers method payload f,t')

lemma verifyRpcMetadata_verified (c : Crypto) (now : Int64) (md : Metadata)
    (peers : Finset PubKey) (method payload : String) (config : AuthConfig) (t : NonceTracker) :
    Verified c now md peers method payload config t
      (verifyRpcMetadata c now md peers method payload config t) := by
  unfold verifyRpcMetadata
  split_ifs with hallow
  · exact .unauthenticated hallow
  have hauth : config.allowUnauthenticated = false := by simpa using hallow
  split
  · rename_i hs
    exact .refused hauth hs
  rename_i hs
  split
  · rename_i hc
    exact .nonceRefused hauth hs hc
  · rename_i hc
    exact .nonceSpent hauth hs hc

lemma verifyRpcMetadata_ok {now : Int64} {md : Metadata} {t : NonceTracker}
    (hauth : config.allowUnauthenticated = false)
    (h : (verifyRpcMetadata c now md peers method payload config t).1 = .ok u) :
    ∃ f, readFields md = .ok f ∧ ∃ vk ∈ peers, ∃ sig,
      c.verify vk (rpcCanonical method f.tsMs f.nonce payload) sig = true := by
  have hv := verifyRpcMetadata_verified c now md peers method payload config t
  generalize verifyRpcMetadata c now md peers method payload config t = r at h hv
  cases hv with
  | unauthenticated hallow => simp [hauth] at hallow
  | refused | nonceRefused => cases h
  | nonceSpent _ hs _ => exact ⟨_,(screen_ok hs).1,authenticate_ok h⟩

end PirateServer.Auth
