import PirateServer.Auth.Signing

/-! The tests of the clock skew and of the age of nonces, which subtract in 64 bits, and the pairing
of a new client, which has the same test. -/
namespace PirateServer.Auth
open Lib Lib.Wrapping

def AuthError.text : AuthError → String
  | invalidBase64 text => "invalid base64: "++text
  | invalidKeyLength => "invalid key length"
  | badSignature => "signature verification failed"
  | unknownPeer => "unknown client public key"
  | missingMetadata key => "missing metadata: "++key
  | invalidMetadata what => "invalid metadata: "++what
  | timestampSkew => "timestamp skew too large"
  | replayNonce => "replay: nonce reused"

inductive Status
  | failedPrecondition (text : String)
  | internal (text : String)
  | invalidArgument (text : String)
  | deadlineExceeded (text : String)
  | permissionDenied (text : String)
  deriving DecidableEq,Repr

structure PairRequest where
  clientPublicKeyB64 : String
  timestampMs : Int64
  nonce : String
  pairingCode : String
  clientSignatureB64 : String
  deriving DecidableEq,Repr

structure PairResponse where
  serverPublicKeyB64 : String
  serverSignatureB64 : String
  status : String
  deriving DecidableEq,Repr

/-- `ServerAuth`, without the nonces, which pairing does not use. -/
structure ServerAuth where
  signingKey : SigningKey
  peers : Finset PubKey
  pairingCode : String
  config : AuthConfig

/-- The file with the pairing code, if it is there, and whether the list of peers can be saved. -/
structure PairingFiles where
  code : Except String (Option String)
  save : Except String Unit

def verifyPairing (expected code : String) : Except Status Unit :=
  if expected = "" then .error (.permissionDenied "pairing code not configured")
  else if code ≠ expected then .error (.permissionDenied "invalid pairing code")
  else .ok ()

def verifyPairSignature (c : Crypto) (serverPubB64 : String) (r : PairRequest) :
    Except Status Unit :=
  match parseVerifyingKeyB64 c r.clientPublicKeyB64 with
  | .error e => .error (.invalidArgument e.text)
  | .ok vk =>
    (verifySig c vk (pairRequestCanonical r.clientPublicKeyB64 serverPubB64 r.timestampMs r.nonce
      r.pairingCode) r.clientSignatureB64).mapError (fun e => .permissionDenied e.text)

/-- `add_peer`: the peer is known even if the list cannot be saved. -/
def addPeer (c : Crypto) (save : Except String Unit) (auth : ServerAuth) (vkB64 : String) :
    Except Status Unit × ServerAuth :=
  match parseVerifyingKeyB64 c vkB64 with
  | .error e => (.error (.invalidArgument e.text),auth)
  | .ok vk => (save.mapError .internal,{ auth with peers := insert vk auth.peers })

def signPairResponse (key : SigningKey) (r : PairRequest) : String :=
  key.signBytes (pairResponseCanonical key.pubkeyB64Url r.clientPublicKeyB64 r.timestampMs r.nonce)

/-- The part of `pair` after the clock skew. -/
def completePair (c : Crypto) (files : PairingFiles) (auth : ServerAuth) (r : PairRequest) :
    Except Status PairResponse × ServerAuth :=
  match verifyPairing auth.pairingCode r.pairingCode with
  | .error e => (.error e,auth)
  | .ok () =>
    match verifyPairSignature c auth.signingKey.pubkeyB64Url r with
    | .error e => (.error e,auth)
    | .ok () =>
      match addPeer c files.save auth r.clientPublicKeyB64 with
      | (.error e,auth') => (.error e,auth')
      | (.ok (),auth') =>
        (.ok ⟨auth.signingKey.pubkeyB64Url,signPairResponse auth.signingKey r,"paired"⟩,auth')

/-- `DeployServiceImpl::pair`; the server has no `ServerAuth` if authentication is disabled. -/
def pair (c : Crypto) (now : Int64) (files : PairingFiles) (auth : Option ServerAuth)
    (r : PairRequest) :
    Except Status PairResponse × Option ServerAuth :=
  match auth,files.code with
  | none,_ => (.error (.failedPrecondition "authentication disabled; pairing unavailable"),none)
  | some auth,.error e => (.error (.internal e),some auth)
  | some auth,.ok code =>
    let auth := { auth with pairingCode := (code.map Text.trim).getD auth.pairingCode }
    if r.clientPublicKeyB64 = "" ∨ r.nonce = "" ∨ r.clientSignatureB64 = "" then
      (.error (.invalidArgument "missing pair fields"),some auth)
    else if !within auth.config.maxClockSkewMs now r.timestampMs then
      (.error (.deadlineExceeded "timestamp skew"),some auth)
    else
      let (result,auth) := completePair c files auth r
      (result,some auth)

variable {c : Crypto} {now : Int64} {config : AuthConfig}

lemma verifySig_ne_skew {vk : PubKey} {msg sig : String} :
    verifySig c vk msg sig ≠ .error .timestampSkew := by
  unfold verifySig
  split
  · simp
  · split_ifs <;> simp

variable {method payload : String} {peers : Finset PubKey}

lemma authenticate_ne_skew {f : Fields} :
    authenticate c peers method payload f ≠ .error .timestampSkew := by
  intro h
  unfold authenticate parseVerifyingKeyB64 at h
  split at h
  · cases h
  split_ifs at h
  · simp only [bind,Except.bind] at h
    split_ifs at h
    · exact verifySig_ne_skew h
    · cases h
  · cases h
  · cases h

/-- `verify_rpc_metadata` complains about the timestamp exactly if the test fails. -/
lemma verifyRpcMetadata_skew {md : Metadata} {f : Fields}
    {t : NonceTracker} (hauth : config.allowUnauthenticated = false) (hf : readFields md = .ok f) :
    (verifyRpcMetadata c now md peers method payload config t).1 ≠ .error .timestampSkew ↔
      within config.maxClockSkewMs now f.tsMs = true := by
  cases hw : within config.maxClockSkewMs now f.tsMs with
  | false =>
    have hs : screen now md config = .error .timestampSkew := by
      simp [screen,hf,hw,bind,Except.bind]
    simp [verifyRpcMetadata,hauth,hs]
  | true =>
    have hs : screen now md config = .ok f := by
      simp [screen,hf,hw,bind,Except.bind]
    simp only [verifyRpcMetadata,hauth,hs,iff_true,Bool.false_eq_true,if_false]
    have hchecked := NonceTracker.checkAndInsert_checked f.tsMs f.nonce t
    split
    · rename_i hc
      rw [hc] at hchecked
      cases hchecked <;> simp
    · exact authenticate_ne_skew

variable {files : PairingFiles} {auth : ServerAuth}

lemma completePair_ne_skew {r : PairRequest} :
    (completePair c files auth r).1 ≠ .error (.deadlineExceeded "timestamp skew") := by
  have hsig : verifyPairSignature c auth.signingKey.pubkeyB64Url r ≠
      .error (.deadlineExceeded "timestamp skew") := by
    unfold verifyPairSignature
    split
    · simp
    · cases verifySig c _ _ _ <;> simp [Except.mapError]
  have hpairing : verifyPairing auth.pairingCode r.pairingCode ≠
      .error (.deadlineExceeded "timestamp skew") := by
    unfold verifyPairing
    split_ifs <;> simp
  have hadd : (addPeer c files.save auth r.clientPublicKeyB64).1 ≠
      .error (.deadlineExceeded "timestamp skew") := by
    unfold addPeer
    split
    · simp
    · cases files.save <;> simp [Except.mapError]
  unfold completePair
  split
  · rename_i he
    intro h
    cases h
    exact hpairing he
  split
  · rename_i he
    intro h
    cases h
    exact hsig he
  split
  · rename_i he
    intro h
    cases h
    exact hadd (by rw [he])
  · simp

lemma pair_skew {code : Option String} {r : PairRequest} (hcode : files.code = .ok code)
    (hfields : ¬(r.clientPublicKeyB64 = "" ∨ r.nonce = "" ∨ r.clientSignatureB64 = "")) :
    (pair c now files (some auth) r).1 ≠ .error (.deadlineExceeded "timestamp skew") ↔
      within auth.config.maxClockSkewMs now r.timestampMs = true := by
  cases hw : within auth.config.maxClockSkewMs now r.timestampMs with
  | false => simp [pair,hcode,hfields,hw]
  | true =>
    simp only [pair,hcode,if_neg hfields,hw,iff_true,Bool.not_true,Bool.false_eq_true,if_false]
    exact completePair_ne_skew

/-- The skew tests of `verify_rpc_metadata` and of `pair`, and the pruning of the nonces, agree with
the true distance of the instants exactly when this distance is not `2^63` and is not one that wraps
to something within the bound. -/
theorem skew_tests_exact (c : Crypto) (now : Int64) :
    (∀ config md f peers method payload t, config.allowUnauthenticated = false →
      readFields md = .ok f →
      (((verifyRpcMetadata c now md peers method payload config t).1 ≠ .error .timestampSkew ↔
        |now.toInt - f.tsMs.toInt| ≤ config.maxClockSkewMs.toInt) ↔
        Measured config.maxClockSkewMs now f.tsMs)) ∧
    (∀ files auth code r, files.code = .ok code →
      ¬(r.clientPublicKeyB64 = "" ∨ r.nonce = "" ∨ r.clientSignatureB64 = "") →
      (((pair c now files (some auth) r).1 ≠ .error (.deadlineExceeded "timestamp skew") ↔
        |now.toInt - r.timestampMs.toInt| ≤ auth.config.maxClockSkewMs.toInt) ↔
        Measured auth.config.maxClockSkewMs now r.timestampMs)) ∧
    ∀ tsMs m nonce ts, m.lookup nonce = some ts →
      (((NonceTracker.recent tsMs m).lookup nonce = some ts ↔
        |tsMs.toInt - ts.toInt| ≤ windowMs.toInt) ↔ Measured windowMs tsMs ts) := by
  refine ⟨?_,?_,?_⟩
  · intro config md f peers method payload t hauth hf
    rw [verifyRpcMetadata_skew hauth hf]
    exact within_exact_iff _ _ _
  · intro files auth code r hcode hfields
    rw [pair_skew hcode hfields]
    exact within_exact_iff _ _ _
  · intro tsMs m nonce ts hts
    rw [NonceTracker.lookup_recent,and_iff_right hts]
    exact within_exact_iff _ _ _

def sampleFields (tsMs : String) : Metadata := fun key =>
  if key = metaTs then some tsMs else if key = metaNonce then some "n" else some "AA"

def samplePair (tsMs : Int64) : PairRequest := ⟨"AA",tsMs,"n","code","AA"⟩

def sampleAuth : ServerAuth := ⟨⟨"AA",id⟩,∅,"code",{}⟩

def sampleFiles : PairingFiles := ⟨.ok none,.ok ()⟩

theorem skew_tests_exact_one_second :
    (verifyRpcMetadata sampleCrypto 1700000001000 (sampleFields "1700000000000") ∅ "GetStatus" "" {}
        .default).1 ≠ .error .timestampSkew ∧
      (pair sampleCrypto 1700000001000 sampleFiles (some sampleAuth) (samplePair 1700000000000)).1 ≠
        .error (.deadlineExceeded "timestamp skew") ∧
      (NonceTracker.recent 1700000001000 ((∅ : Table String Int64).insert "n"
        1700000000000)).lookup "n" =
        some 1700000000000 := by
  obtain ⟨hverify,hpair,hprune⟩ := skew_tests_exact sampleCrypto 1700000001000
  refine ⟨?_,?_,?_⟩
  · exact ((hverify {} (sampleFields "1700000000000") ⟨"AA",1700000000000,"n","AA"⟩ ∅ "GetStatus" ""
      .default rfl (by decide +kernel)).mpr (by decide)).mpr (by decide)
  · exact ((hpair sampleFiles sampleAuth none (samplePair 1700000000000) rfl (by decide)).mpr
      (by decide)).mpr (by decide)
  · exact ((hprune 1700000001000 ((∅ : Table String Int64).insert "n" 1700000000000) "n"
      1700000000000
      (by decide +kernel)).mpr (by decide)).mpr (by decide)

theorem skew_tests_pass_far_past :
    ((verifyRpcMetadata sampleCrypto 1700000000000
      (sampleFields "-9223370336854775808") ∅ "GetStatus" ""
        {} .default).1 ≠ .error .timestampSkew ∧
      (pair sampleCrypto 1700000000000 sampleFiles (some sampleAuth)
        (samplePair (-9223370336854775808))).1 ≠ .error (.deadlineExceeded "timestamp skew") ∧
      ¬|(1700000000000 : ℤ)-(-9223370336854775808)| ≤ 300000) ∧
    (NonceTracker.recent 0 ((∅ : Table String Int64).insert "n"
      (-9223372036854775808))).lookup "n" =
      some (-9223372036854775808) ∧ ¬|(0 : ℤ)-(-9223372036854775808)| ≤ 600000 := by
  refine ⟨⟨by decide +kernel,by decide +kernel,by decide⟩,by decide +kernel,by decide⟩

end PirateServer.Auth
