import PirateServer.Auth.Signing

/-! Which fields of an accepted request its signature vouches for. -/
namespace PirateServer.Auth
open Lib.Text

def Crypto.Unforgeable (c : Crypto) (log : Set SigningCall) : Prop :=
  ∀ key msg sig, c.verify key msg sig = true → ∃ call ∈ log, call.key = key ∧ call.message = msg

def PayloadShape.Agrees (p s p' s' : String) : PayloadShape → Prop
  | .project => normalizeProjectForSigning p = normalizeProjectForSigning p'
  | .profile => trim s = trim s'
  | .versioned => Free '|' (normalizeProjectForSigning p) →
      Free '|' (normalizeProjectForSigning p') → Free '|' s → Free '|' s' →
      normalizeProjectForSigning p = normalizeProjectForSigning p' ∧ s = s'

lemma agrees_of_signingPayload {method p s p' s' : String}
    (h : signingPayload method p s = signingPayload method p' s') :
    (payloadShape method).Agrees p s p' s' := by
  cases hshape : payloadShape method with
  | project => exact project_of_signingPayload hshape h
  | profile => exact profile_of_signingPayload hshape h
  | versioned =>
    intro hp hp' hs hs'
    exact version_of_signingPayload hshape hp hp' hs hs' h

namespace Subject

def Agrees : Subject → Subject → Prop
  | .rpc m p s,.rpc _ p' s' => (payloadShape m.1).Agrees p s p' s'
  | .serverStack v d,.serverStack v' d' =>
    Free '|' v → Free '|' v' → v = v' ∧ trimDigest d = trimDigest d'
  | _,_ => True

lemma agrees_of_payload {S S' : Subject} (hm : S.method = S'.method)
    (h : S.payload = S'.payload) : S.Agrees S' := by
  cases S with
  | rpc m p s =>
    cases S' with
    | rpc m' p' s' =>
      change m.1 = m'.1 at hm
      simp only [payload,← hm] at h
      exact agrees_of_signingPayload h
    | serverStack v' d' => trivial
  | serverStack v d =>
    cases S' with
    | rpc m' p' s' => trivial
    | serverStack v' d' =>
      intro hv hv'
      exact version_of_signingPayloadUploadServerStack hv hv' h

end Subject

/-- Some call signed for the same method at the same instant. Its nonce and payload are those of
the request up to the place of the separator, and exactly those if the nonce has no bar. -/
def Vouched (log : Set SigningCall) (key : PubKey) (tsMs : Int64) (nonce : String)
    (S : Subject) : Prop :=
  ∃ random S',.attach key tsMs random S' ∈ log ∧ S'.method = S.method ∧
    hex16 random ++ "|" ++ S'.payload = nonce ++ "|" ++ S.payload ∧
    (Free '|' nonce → hex16 random = nonce ∧ S'.payload = S.payload ∧ S'.Agrees S)

lemma Vouched.of_message {log : Set SigningCall} {call : SigningCall} {tsMs : Int64}
    {nonce : String} {S : Subject} (hcall : call ∈ log)
    (h : call.message = rpcCanonical S.method tsMs nonce S.payload) :
    Vouched log call.key tsMs nonce S := by
  cases call with
  | attach k ts random S' =>
    obtain ⟨hm,rfl,htext⟩ := rpcCanonical_inj (free_of_mem_rpcMethods S'.method_mem)
      (free_of_mem_rpcMethods S.method_mem) h
    refine ⟨random,S',hcall,hm,htext,?_⟩
    intro hfree
    obtain ⟨hn,hp⟩ := join_inj_of_free (free_hex16 random) hfree htext
    exact ⟨hn,hp,Subject.agrees_of_payload hm hp⟩
  | pairRequest k client server ts n code => exact absurd h (pairRequestCanonical_ne S.method_mem)
  | pairResponse k server client ts n => exact absurd h (pairResponseCanonical_ne S.method_mem)

variable {c : Crypto} {log : Set SigningCall} {config : AuthConfig} {now : Int64} {md : Metadata}
  {peers : Finset PubKey} {t : NonceTracker}

lemma verifyRpcMetadata_vouched (hsig : c.Unforgeable log)
    (hauth : config.allowUnauthenticated = false) {S : Subject}
    (h : (verifyRpcMetadata c now md peers S.method S.payload config t).1 = .ok ()) :
    ∃ f, readFields md = .ok f ∧ ∃ key ∈ peers, Vouched log key f.tsMs f.nonce S := by
  obtain ⟨f,hf,key,hkey,sig,hv⟩ := verifyRpcMetadata_ok hauth h
  obtain ⟨call,hcall,rfl,hmsg⟩ := hsig key _ sig hv
  exact ⟨f,hf,call.key,hkey,.of_message hcall hmsg⟩

def uploadSubject (projectId version : String) : Subject :=
  .rpc ⟨"Upload",by decide +kernel⟩ projectId version

/-- While authentication is on, every accepted request is vouched for by the call that signed
it, whichever of the three checks accepts it. -/
theorem accepted_request_vouched (hsig : c.Unforgeable log)
    (hauth : config.allowUnauthenticated = false) :
    (∀ S : Subject, (verifyRpcMetadata c now md peers S.method S.payload config t).1 = .ok () →
      ∃ f, readFields md = .ok f ∧ ∃ key ∈ peers, Vouched log key f.tsMs f.nonce S) ∧
    ((verifyUploadMetadata c now md peers config t).1 = .ok () →
      ∃ f ver, readFields md = .ok f ∧ md metaVersion = some ver ∧ ∃ key ∈ peers,
        Vouched log key f.tsMs f.nonce (uploadSubject ((md metaProject).getD "default") ver)) ∧
    ((verifyUploadServerStackMetadata c now md peers config t).1 = .ok () →
      ∃ f ver, readFields md = .ok f ∧ md metaVersion = some ver ∧ ∃ key ∈ peers,
        Vouched log key f.tsMs f.nonce (.serverStack ver (md metaStackApplySha256))) := by
  refine ⟨fun S => verifyRpcMetadata_vouched hsig hauth,?_,?_⟩
  · intro h
    unfold verifyUploadMetadata Metadata.require at h
    cases hver : md metaVersion with
    | none => simp [hver] at h
    | some ver =>
      simp only [hver] at h
      obtain ⟨f,hf,hv⟩ := verifyRpcMetadata_vouched
        (S := uploadSubject ((md metaProject).getD "default") ver) hsig hauth h
      exact ⟨f,ver,hf,rfl,hv⟩
  · intro h
    unfold verifyUploadServerStackMetadata Metadata.require at h
    cases hver : md metaVersion with
    | none => simp [hver] at h
    | some ver =>
      simp only [hver] at h
      obtain ⟨f,hf,hv⟩ := verifyRpcMetadata_vouched
        (S := .serverStack ver (md metaStackApplySha256)) hsig hauth h
      exact ⟨f,ver,hf,rfl,hv⟩

def uploadCall : SigningCall := .attach sampleKey 1700000000000 255 (uploadSubject "a" "b")

def statusCall : SigningCall :=
  .attach sampleKey 1700000000000 256 (.rpc ⟨"GetStatus",by decide +kernel⟩ "" "x")

lemma sampleCrypto_unforgeable : sampleCrypto.Unforgeable {uploadCall,statusCall} := by
  intro key msg sig h
  obtain ⟨rfl,⟨rfl,-⟩ | ⟨rfl,-⟩⟩ := of_decide_eq_true h
  · exact ⟨uploadCall,Or.inl rfl,rfl,by decide +kernel⟩
  · exact ⟨statusCall,Or.inr rfl,rfl,by decide +kernel⟩

theorem accepted_request_vouched_upload : ∃ md f ver,
    attachAuthMetadata sampleSk 1700000000000 255 "Upload" "a" "b" (fun _ => none) = .ok md ∧
    (verifyUploadMetadata sampleCrypto 1700000000001 md {sampleKey} {} .default).1 = .ok () ∧
    readFields md = .ok f ∧ md metaVersion = some ver ∧ ∃ key ∈ ({sampleKey} : Finset PubKey),
      Vouched {uploadCall,statusCall} key f.tsMs f.nonce
        (uploadSubject ((md metaProject).getD "default") ver) := by
  obtain ⟨md,hmd,hok⟩ := (Option.any_eq_true _ _).mp
    (by decide +kernel : (attachAuthMetadata sampleSk 1700000000000 255 "Upload" "a" "b"
      (fun _ => none)).toOption.any (fun md => (verifyUploadMetadata sampleCrypto 1700000000001 md
        {sampleKey} {} .default).1 = .ok ()) = true)
  have hacc := of_decide_eq_true hok
  obtain ⟨f,ver,hv⟩ := (accepted_request_vouched sampleCrypto_unforgeable rfl).2.1 hacc
  exact ⟨md,f,ver,eq_ok_of_toOption hmd,hacc,hv⟩

/-- The request of `uploadCall` with the separator moved: `a` is now part of the nonce. -/
def movedUpload : Metadata
  | "x-deploy-pubkey" => some sampleSk.pubkeyB64Url
  | "x-deploy-ts" => some "1700000000000"
  | "x-deploy-nonce" => some "00000000000000ff|a"
  | "x-deploy-sig" => some (sampleSk.signBytes uploadMessage)
  | "x-deploy-version" => some "b"
  | _ => none

theorem signed_text_ambiguous : sampleCrypto.Unforgeable {uploadCall,statusCall} ∧
    ((verifyUploadMetadata sampleCrypto 1700000000001 movedUpload {sampleKey} {} .default).1 =
        .ok () ∧
      movedUpload metaNonce = some "00000000000000ff|a" ∧ movedUpload metaProject = none ∧
      ∀ key tsMs random S,.attach key tsMs random S ∈ ({uploadCall,statusCall} : Set _) →
        hex16 random ≠ "00000000000000ff|a") ∧
    ∃ md, attachAuthMetadata sampleSk 1700000000000 256 "GetStatus" "" "x" (fun _ => none) =
        .ok md ∧ (verifyRpcMetadata sampleCrypto 1700000000001 md {sampleKey} "GetStatus"
        (signingPayload "GetStatus" "" "y") {} .default).1 = .ok () ∧
      ∀ key tsMs random m p s,.attach key tsMs random (.rpc m p s) ∈
        ({uploadCall,statusCall} : Set _) → s ≠ "y" := by
  refine ⟨sampleCrypto_unforgeable,⟨by decide +kernel,rfl,rfl,?_⟩,?_⟩
  · intro key tsMs random S h
    simp only [Set.mem_insert_iff,Set.mem_singleton_iff,uploadCall,statusCall,
      SigningCall.attach.injEq] at h
    rcases h with ⟨-,-,rfl,-⟩ | ⟨-,-,rfl,-⟩ <;> decide +kernel
  · obtain ⟨md,hmd,hok⟩ := (Option.any_eq_true _ _).mp
      (by decide +kernel : (attachAuthMetadata sampleSk 1700000000000 256 "GetStatus" "" "x"
        (fun _ => none)).toOption.any (fun md => (verifyRpcMetadata sampleCrypto 1700000000001 md
          {sampleKey} "GetStatus" (signingPayload "GetStatus" "" "y") {} .default).1 = .ok ()) =
        true)
    refine ⟨md,eq_ok_of_toOption hmd,of_decide_eq_true hok,?_⟩
    intro key tsMs random m p s h
    simp only [Set.mem_insert_iff,Set.mem_singleton_iff,uploadCall,statusCall,uploadSubject,
      SigningCall.attach.injEq,Subject.rpc.injEq] at h
    rcases h with ⟨-,-,-,-,-,rfl⟩ | ⟨-,-,-,-,-,rfl⟩ <;> decide

end PirateServer.Auth
