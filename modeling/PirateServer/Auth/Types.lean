import Mathlib

/-! What a signed request carries and what the checks on it can answer. -/
namespace PirateServer

abbrev PubKey := List.Vector UInt8 32

namespace Auth

/-- The errors of the request checks. -/
inductive AuthError
  | invalidBase64 (text : String)
  | invalidKeyLength
  | badSignature
  | unknownPeer
  | missingMetadata (key : String)
  | invalidMetadata (what : String)
  | timestampSkew
  | replayNonce
  deriving DecidableEq,Repr

def metaPubkey : String := "x-deploy-pubkey"
def metaTs : String := "x-deploy-ts"
def metaNonce : String := "x-deploy-nonce"
def metaSig : String := "x-deploy-sig"
def metaVersion : String := "x-deploy-version"
def metaStackApplySha256 : String := "x-deploy-stack-apply-sha256"
def metaProject : String := "x-deploy-project"

/-- The value under each key, as far as `to_str` can read it. -/
abbrev Metadata := String → Option String

structure AuthConfig where
  allowUnauthenticated : Bool := false
  maxClockSkewMs : Int64 := 5*60*1000

/-- The libraries below the checks: Base64 with its error texts, the test that 32 bytes are a
point of the curve, and Ed25519. A signed message is named by the text whose bytes it is. -/
structure Crypto where
  decodeUrlSafeNoPad : String → Except String (List UInt8)
  decodeStandard : String → Except String (List UInt8)
  isPoint : PubKey → Bool
  verify : PubKey → String → List.Vector UInt8 64 → Bool

end Auth
end PirateServer
