import PirateServer.Auth.Types
import PirateServer.Lib.Text

/-! The texts that are signed, and how far they determine the fields they are made of. -/
namespace PirateServer.Auth
open Lib.Text

def rpcCanonical (method : String) (tsMs : Int64) (nonce payload : String) : String :=
  "v1|" ++ method ++ "|" ++ decimal tsMs ++ "|" ++ nonce ++ "|" ++ payload

def pairRequestCanonical (clientPubkeyB64 serverPubkeyB64 : String) (tsMs : Int64)
    (nonce pairingCode : String) : String :=
  "v1|PAIR" ++ "|" ++ clientPubkeyB64 ++ "|" ++ serverPubkeyB64 ++ "|" ++ decimal tsMs ++ "|" ++
    nonce ++ "|" ++ pairingCode

def pairResponseCanonical (serverPubkeyB64 clientPubkeyB64 : String) (tsMs : Int64)
    (nonce : String) : String :=
  "v1|PAIR_RESP" ++ "|" ++ serverPubkeyB64 ++ "|" ++ clientPubkeyB64 ++ "|" ++ decimal tsMs ++
    "|" ++ nonce

def normalizeProjectForSigning (s : String) : String :=
  let t := trim s
  if t = "" ∨ eqIgnoreAsciiCase t "default" = true then "default" else t

/-- The three arms of `signing_payload`; the listed unary methods and the default arm agree. -/
inductive PayloadShape
  | versioned
  | profile
  | project
  deriving DecidableEq,Repr

def payloadShape : String → PayloadShape
  | "Upload" | "UploadServerStack" | "Rollback" => .versioned
  | "StackTunTunnel" | "StackTunRequestBus" | "StackTunTaskQueue" => .profile
  | _ => .project

def signingPayload (method projectId secondary : String) : String :=
  let p := normalizeProjectForSigning projectId
  match payloadShape method with
  | .versioned => if p = "default" then secondary else p ++ "|" ++ secondary
  | .profile => trim secondary
  | .project => if p = "default" then "" else p

/-- The digest as both sides use it: trimmed, and dropped when nothing is left. -/
def trimDigest (stackApplySha256Hex : Option String) : Option String :=
  (stackApplySha256Hex.map trim).filter (· ≠ "")

def signingPayloadUploadServerStack (version : String) (stackApplySha256Hex : Option String) :
    String :=
  match trimDigest stackApplySha256Hex with
  | none => version
  | some hex => version ++ "|" ++ hex

def rpcMethods : List String :=
  ["Upload","UploadServerStack","Rollback","ProxyTunnel","GetStatus","StopProcess",
    "RestartProcess","GetHostStats","GetHostStatsDetail","GetServerStackInfo","ListSessions",
    "QuerySessionLogs","UpdateConnectionProfile","ReportResourceUsage","ReportDisplayTopology",
    "ConnectionProbe","CreateConnection","CloseConnection","GetStats","UpdateSettings",
    "SslCreate","SslStatus","SslUpdate","SslCheckAndRenew","ValidateDeploy","RemoveProject",
    "StackTunTunnel","StackTunRequestBus","StackTunTaskQueue"]

lemma free_of_mem_rpcMethods {method : String} (h : method ∈ rpcMethods) : Free '|' method := by
  revert method
  decide +kernel

lemma rpcCanonical_eq_join (method : String) (tsMs : Int64) (nonce payload : String) :
    rpcCanonical method tsMs nonce payload =
      "v1" ++ "|" ++ (method ++ "|" ++ (decimal tsMs ++ "|" ++ (nonce ++ "|" ++ payload))) := by
  have hv : "v1|" = "v1" ++ "|" := by decide
  simp only [rpcCanonical,hv,String.append_assoc]

variable {tsMs tsMs' : Int64} {nonce nonce' payload client server : String}

lemma rpcCanonical_inj {method method' payload' : String}
    (hm : Free '|' method) (hm' : Free '|' method')
    (h : rpcCanonical method tsMs nonce payload = rpcCanonical method' tsMs' nonce' payload') :
    method = method' ∧ tsMs = tsMs' ∧ nonce ++ "|" ++ payload = nonce' ++ "|" ++ payload' := by
  have hv : Free '|' "v1" := by decide
  rw [rpcCanonical_eq_join,rpcCanonical_eq_join] at h
  have hrest := (join_inj_of_free hv hv h).2
  obtain ⟨hmethod,hrest⟩ := join_inj_of_free hm hm' hrest
  obtain ⟨hts,hrest⟩ := join_inj_of_free (free_decimal tsMs) (free_decimal tsMs') hrest
  exact ⟨hmethod,decimal_injective hts,hrest⟩

/-- A signed request never starts like a message of another kind. -/
lemma rpcCanonical_ne_tagged {method tag rest : String}
    (hm : method ∈ rpcMethods) (hfree : Free '|' tag) (htag : tag ∉ rpcMethods) :
    "v1|" ++ tag ++ "|" ++ rest ≠ rpcCanonical method tsMs nonce payload := by
  have hv : Free '|' "v1" := by decide
  have hjoin : "v1|" ++ tag ++ "|" ++ rest = "v1" ++ "|" ++ (tag ++ "|" ++ rest) := by
    have hbar : "v1|" = "v1" ++ "|" := by decide
    simp only [hbar,String.append_assoc]
  intro h
  rw [rpcCanonical_eq_join,hjoin] at h
  have hrest := (join_inj_of_free hv hv h).2
  obtain ⟨rfl,-⟩ := join_inj_of_free hfree (free_of_mem_rpcMethods hm) hrest
  exact htag hm

lemma pairRequestCanonical_ne {method code : String}
    (hm : method ∈ rpcMethods) : pairRequestCanonical client server tsMs' nonce' code ≠
      rpcCanonical method tsMs nonce payload := by
  have hne : "PAIR" ∉ rpcMethods := by decide +kernel
  have heq : pairRequestCanonical client server tsMs' nonce' code = "v1|" ++ "PAIR" ++ "|" ++
      (client ++ "|" ++ server ++ "|" ++ decimal tsMs' ++ "|" ++ nonce' ++ "|" ++ code) := by
    unfold pairRequestCanonical
    simp only [String.reduceAppend]
    simp only [String.append_assoc]
  rw [heq]
  exact rpcCanonical_ne_tagged hm (by decide) hne

lemma pairResponseCanonical_ne {method : String}
    (hm : method ∈ rpcMethods) : pairResponseCanonical server client tsMs' nonce' ≠
      rpcCanonical method tsMs nonce payload := by
  have hne : "PAIR_RESP" ∉ rpcMethods := by decide +kernel
  have heq : pairResponseCanonical server client tsMs' nonce' = "v1|" ++ "PAIR_RESP" ++ "|" ++
      (server ++ "|" ++ client ++ "|" ++ decimal tsMs' ++ "|" ++ nonce') := by
    unfold pairResponseCanonical
    simp only [String.reduceAppend]
    simp only [String.append_assoc]
  rw [heq]
  exact rpcCanonical_ne_tagged hm (by decide) hne

lemma normalizeProjectForSigning_ne_empty (s : String) : normalizeProjectForSigning s ≠ "" := by
  unfold normalizeProjectForSigning
  dsimp only
  split_ifs with h
  · decide
  · exact fun he => h (Or.inl he)

variable {method p p' s s' : String}

lemma project_of_signingPayload (hm : payloadShape method = .project)
    (h : signingPayload method p s = signingPayload method p' s') :
    normalizeProjectForSigning p = normalizeProjectForSigning p' := by
  have hp := normalizeProjectForSigning_ne_empty p
  have hp' := normalizeProjectForSigning_ne_empty p'
  simp only [signingPayload,hm] at h
  split_ifs at h with hd hd'
  · rw [hd,hd']
  · exact absurd h.symm hp'
  · exact absurd h hp
  · exact h

lemma profile_of_signingPayload (hm : payloadShape method = .profile)
    (h : signingPayload method p s = signingPayload method p' s') : trim s = trim s' := by
  simpa only [signingPayload,hm] using h

lemma version_of_signingPayload (hm : payloadShape method = .versioned)
    (hp : Free '|' (normalizeProjectForSigning p)) (hp' : Free '|' (normalizeProjectForSigning p'))
    (hs : Free '|' s) (hs' : Free '|' s')
    (h : signingPayload method p s = signingPayload method p' s') :
    normalizeProjectForSigning p = normalizeProjectForSigning p' ∧ s = s' := by
  simp only [signingPayload,hm] at h
  split_ifs at h with hd hd'
  · exact ⟨hd.trans hd'.symm,h⟩
  · exact absurd h.symm (join_ne_of_free hs)
  · exact absurd h (join_ne_of_free hs')
  · exact join_inj_of_free hp hp' h

lemma version_of_signingPayloadUploadServerStack {v v' : String} {d d' : Option String}
    (hv : Free '|' v) (hv' : Free '|' v')
    (h : signingPayloadUploadServerStack v d = signingPayloadUploadServerStack v' d') :
    v = v' ∧ trimDigest d = trimDigest d' := by
  unfold signingPayloadUploadServerStack at h
  cases hd : trimDigest d with
  | none =>
    cases hd' : trimDigest d' with
    | none =>
      simp only [hd,hd'] at h
      exact ⟨h,rfl⟩
    | some x =>
      simp only [hd,hd'] at h
      exact absurd h.symm (join_ne_of_free hv)
  | some x =>
    cases hd' : trimDigest d' with
    | none =>
      simp only [hd,hd'] at h
      exact absurd h (join_ne_of_free hv')
    | some y =>
      simp only [hd,hd'] at h
      obtain ⟨rfl,rfl⟩ := join_inj_of_free hv hv' h
      exact ⟨rfl,rfl⟩

end PirateServer.Auth
