import PirateServer.Auth.Verify

/-! The client's side: the calls that sign something, and the metadata of a signed request. -/
namespace PirateServer.Auth
open Lib.Text

/-- What a signed request is about. -/
inductive Subject
  | rpc (method : {m : String // m ∈ rpcMethods}) (projectId secondary : String)
  | serverStack (version : String) (stackApplySha256Hex : Option String)

namespace Subject

def method : Subject → String
  | .rpc m _ _ => m.1
  | .serverStack _ _ => "UploadServerStack"

def payload : Subject → String
  | .rpc m projectId secondary => signingPayload m.1 projectId secondary
  | .serverStack version digest => signingPayloadUploadServerStack version digest

lemma method_mem (S : Subject) : S.method ∈ rpcMethods := by
  cases S with
  | rpc m _ _ => exact m.2
  | serverStack _ _ => exact (by decide +kernel : "UploadServerStack" ∈ rpcMethods)

end Subject

/-- A call that signs: for a request at an instant with 64 random bits, or while pairing. -/
inductive SigningCall
  | attach (key : PubKey) (tsMs : Int64) (random : UInt64) (subject : Subject)
  | pairRequest (key : PubKey) (clientPubkeyB64 serverPubkeyB64 : String) (tsMs : Int64)
      (nonce pairingCode : String)
  | pairResponse (key : PubKey) (serverPubkeyB64 clientPubkeyB64 : String) (tsMs : Int64)
      (nonce : String)

namespace SigningCall

def key : SigningCall → PubKey
  | .attach k _ _ _ | .pairRequest k _ _ _ _ _ | .pairResponse k _ _ _ _ => k

def message : SigningCall → String
  | .attach _ tsMs random S => rpcCanonical S.method tsMs (hex16 random) S.payload
  | .pairRequest _ client server tsMs nonce code =>
      pairRequestCanonical client server tsMs nonce code
  | .pairResponse _ server client tsMs nonce => pairResponseCanonical server client tsMs nonce

end SigningCall

/-- A signing key as the client uses it: the text of its public half, and its signatures. -/
structure SigningKey where
  pubkeyB64Url : String
  signBytes : String → String

/-- What `HeaderValue::from_str` takes: no control characters but tabs. Other characters than those
of ASCII are taken as well, but `to_str` does not give them back. -/
def isHeaderChar (c : Char) : Bool := (32 ≤ c.toNat && c.toNat ≠ 127) || c == '\t'

def insertAscii (md : Metadata) (key val : String) : Except AuthError Metadata :=
  if val.toList.all isHeaderChar = true then .ok (Function.update md key (some val))
  else .error (.invalidMetadata (key ++ " value"))

section
variable (sk : SigningKey) (tsMs : Int64)

def insertSigned (nonce msg : String) (md : Metadata) :
    Except AuthError Metadata := do
  let md ← insertAscii md metaPubkey sk.pubkeyB64Url
  let md ← insertAscii md metaTs (decimal tsMs)
  let md ← insertAscii md metaNonce nonce
  insertAscii md metaSig (sk.signBytes msg)

def attachAuthMetadata (random : UInt64)
    (method projectId secondary : String) (md : Metadata) : Except AuthError Metadata := do
  let nonce := hex16 random
  let payload := signingPayload method projectId secondary
  let md ← insertSigned sk tsMs nonce (rpcCanonical method tsMs nonce payload) md
  if (method = "Upload" ∨ method = "UploadServerStack") ∧ secondary ≠ "" then
    let md ← insertAscii md metaVersion secondary
    let p := normalizeProjectForSigning projectId
    if p ≠ "default" ∧ method = "Upload" then insertAscii md metaProject p else .ok md
  else .ok md

end

def sampleKey : PubKey :=
  ⟨[215,90,152,1,130,177,10,183,213,75,254,211,201,100,7,58,14,225,114,243,218,166,35,37,175,2,26,
    104,247,7,81,26],rfl⟩

def uploadSig : List.Vector UInt8 64 :=
  ⟨[80,235,43,47,34,153,170,135,230,101,0,8,1,99,26,48,81,183,240,192,235,81,78,137,88,67,93,127,
    24,62,48,210,234,78,87,101,4,3,107,174,61,173,145,241,124,26,34,186,233,34,235,199,61,219,189,
    195,246,185,167,173,244,4,85,12],rfl⟩

def statusSig : List.Vector UInt8 64 :=
  ⟨[253,227,159,148,44,6,47,58,27,128,210,161,55,141,5,168,125,112,103,192,78,14,211,15,28,114,
    235,170,171,217,56,148,58,192,101,224,83,205,159,170,20,1,208,181,196,139,133,122,171,89,88,
    80,240,190,205,183,7,221,249,135,92,168,125,5],rfl⟩

def uploadMessage : String := "v1|Upload|1700000000000|00000000000000ff|a|b"
def statusMessage : String := "v1|GetStatus|1700000000000|0000000000000100|"

def sampleSk : SigningKey where
  pubkeyB64Url := "11qYAYKxCrfVS_7TyWQHOg7hcvPapiMlrwIaaPcHURo"
  signBytes msg :=
    if msg = uploadMessage then
      "UOsrLyKZqofmZQAIAWMaMFG38MDrUU6JWENdfxg+MNLqTldlBANrrj2tkfF8GiK66SLrxz3bvcP2uaet9ARVDA=="
    else
      "/eOflCwGLzobgNKhN40FqH1wZ8BODtMPHHLrqqvZOJQ6wGXgU82fqhQB0LXEi4V6q1lYUPC+zbcH3fmHXKh9BQ=="

def sampleCrypto : Crypto where
  decodeUrlSafeNoPad b64 :=
    if b64 = sampleSk.pubkeyB64Url then .ok sampleKey.toList else .error "Invalid padding"
  decodeStandard b64 :=
    if b64 = sampleSk.signBytes uploadMessage then .ok uploadSig.toList
    else if b64 = sampleSk.signBytes statusMessage then .ok statusSig.toList
    else .error "Invalid padding"
  isPoint key := key = sampleKey
  verify key msg sig := key = sampleKey ∧
    ((msg = uploadMessage ∧ sig = uploadSig) ∨ (msg = statusMessage ∧ sig = statusSig))

def statusRequest : Metadata
  | "x-deploy-pubkey" => some sampleSk.pubkeyB64Url
  | "x-deploy-ts" => some "1700000000000"
  | "x-deploy-nonce" => some "0000000000000100"
  | "x-deploy-sig" => some (sampleSk.signBytes statusMessage)
  | _ => none

lemma readFields_statusRequest : readFields statusRequest =
    .ok ⟨sampleSk.pubkeyB64Url,1700000000000,"0000000000000100",
      sampleSk.signBytes statusMessage⟩ := by
  decide +kernel

end PirateServer.Auth
