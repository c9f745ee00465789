import PirateServer.Wire.Allowlist
import PirateServer.Wire.TrojanRoundTrip

/-! Whose secrets a tunnel of a managed session is checked against: those of the session row, as
long as the row holds the secrets of the mode that the client asks for. -/
namespace PirateServer.Wire
open Lib Lib.Bytes ProxySession Option

def SessionRow.secrets (s : Server) (row : SessionRow) : WireParams :=
  match row.wireConfigJson with
  | none => noParams
  | some json => (WireParams.fromJson s (Text.trim json)).toOption.getD noParams

def ProxyOpen.given (s : Server) (o : ProxyOpen) : WireParams :=
  (WireParams.fromJson s (Text.trim (o.wireConfigJson.getD ""))).toOption.getD noParams

lemma mergeSecrets_noParams (m : ℤ) (p : WireParams) : mergeSecrets m noParams p = p := by
  unfold mergeSecrets
  split <;> rfl

lemma applyManagedWireSecrets_eq (s : Server) (p : WireParams) (m : ℤ) (row : SessionRow)
    (policy : StoredPolicy) :
    applyManagedWireSecrets s p m (some (row,policy)) = mergeSecrets m (row.secrets s) p := by
  unfold applyManagedWireSecrets SessionRow.secrets
  dsimp only
  cases row.wireConfigJson with
  | none => exact (mergeSecrets_noParams m p).symm
  | some json =>
    dsimp only
    split_ifs with hj
    · -- a blank configuration reads as one without fields
      have hblank : WireParams.fromJson s "" = .ok noParams := by
        rw [WireParams.fromJson,if_pos (by decide)]
        rfl
      rw [hj,hblank]
      exact (mergeSecrets_noParams m p).symm
    · cases hp : WireParams.fromJson s (Text.trim json) with
      | error e => exact (mergeSecrets_noParams m p).symm
      | ok session => rfl

/-- A text of the client, empty if it is no text. -/
def clientText (b : Bytes) : String := (fromUtf8 b).getD ""

/-- Where the client goes on after its SOCKS5 greeting. -/
def afterGreeting (b : Bytes) : ℕ := 2+(byteAt b 1).toNat

/-- After the greeting stand a user name and a password, in the form of RFC 1929. -/
def Credentials (b : Bytes) (user pass : String) : Prop :=
  byteAt b (afterGreeting b) = 1 ∧
  ∃ ulen plen, (byteAt b (afterGreeting b+1)).toNat = ulen ∧
    (byteAt b (afterGreeting b+2+ulen)).toNat = plen ∧
    Text.trim (clientText (slice b (afterGreeting b+2) ulen)) = Text.trim user ∧
    Text.trim (clientText (slice b (afterGreeting b+3+ulen) plen)) = Text.trim pass

/-- The bytes of the client carry the secret of the row: the UUID after the version of VLESS; the
hash of the password and the end of the line for Trojan; a header that opens under the hash of the
UUID for VMess; a length and a payload that open under the key of the password for Shadowsocks; user
name and password for SOCKS5, or nothing after the greeting but the request if the row has neither.
-/
def StoredVerified (c : Crypto) (m : ℤ) (stored : WireParams) (b : Bytes) : Prop :=
  match m with
  | 1 => ∃ u id, trimmed stored.uuid = some u ∧ c.parseUuid u = .ok id ∧ slice b 1 16 = id.toList
  | 2 => ∃ p, nonempty stored.password = some p ∧
      b.take 56 = (trojanHash c p++[13,10]).take 56 ∧ slice b 56 2 = [13,10]
  | 3 => ∃ u id plain, trimmed stored.uuid = some u ∧ c.parseUuid u = .ok id ∧
      c.aes128GcmDecrypt (c.md5 id.toList) (b.take 12) (slice b 14 (wordAt b 12)) = .ok plain
  | 4 => ∃ p method kind len pay, nonempty stored.password = some p ∧
      trimmed stored.method = some method ∧ c.cipherKind method = some kind ∧
      c.decryptPacket kind (c.opensslBytesToKey (textBytes p) kind.keyLen) (b.take kind.saltLen) 0
        (slice b kind.saltLen (2+kind.tagLen)) = some len ∧
      c.decryptPacket kind (c.opensslBytesToKey (textBytes p) kind.keyLen) (b.take kind.saltLen) 1
        (slice b (kind.saltLen+(2+kind.tagLen)) (wordAt len 0+kind.tagLen)) = some pay
  | 5 =>
    (∃ u p, trimmed stored.username = some u ∧ nonempty stored.password = some p ∧
      Credentials b u p) ∨
    (trimmed stored.username = none ∧ nonempty stored.password = none ∧
      byteAt b (afterGreeting b) = 5)
  | _ => True

/-- The row holds the secrets of the mode; with SOCKS5 it may hold none if the open brings none. -/
def Covers (m : ℤ) (stored given : WireParams) : Prop :=
  match m with
  | 1 | 3 => (trimmed stored.uuid).isSome
  | 2 => (nonempty stored.password).isSome
  | 4 => (nonempty stored.password).isSome ∧ (trimmed stored.method).isSome
  | 5 =>
    ((trimmed stored.username).isSome ∧ (nonempty stored.password).isSome) ∨
      (trimmed stored.username = none ∧ nonempty stored.password = none ∧
        ¬(given.username.isSome ∧ given.password.isSome))
  | _ => True

def received : List Item → Bytes
  | [] => []
  | .msg (.data d)::rest => d++received rest
  | _::rest => received rest

lemma parse_of_connects {hs : Handshake} {net : Net} {items : List Item} {buf : Bytes}
    (h : (hs.run net buf items).addresses ≠ []) :
    ∃ o, hs.parse (buf++received items) = .ready o := by
  fun_induction Handshake.run hs net buf items with
  | case6 buf rest ih => exact ih h
  | case8 buf d rest hd n hp ih =>
    obtain ⟨o,ho⟩ := ih h
    exact ⟨o,by rw [received,← List.append_assoc,ho]⟩
  | case10 buf d rest hd o hp =>
    have hle := hs.stable (buf++d) (received rest)
    rw [hp] at hle
    exact ⟨o,by rw [received,← List.append_assoc,hle.ready]⟩
  | _ => exact absurd rfl h

variable {b : Bytes} {r : Socks5Ready}

lemma socks5Request_version {off : ℕ} (h : socks5Request b off = .ready r) : byteAt b off = 5 := by
  unfold socks5Request at h
  split_ifs at h with h1 h2 h3
  exact not_not.mp h2

lemma socks5Auth_version {off : ℕ} {user pass : Option String}
    (h : socks5Auth b off user pass = .ready r) : byteAt b off = 1 := by
  unfold socks5Auth at h
  dsimp only at h
  split_ifs at h with h1 h2
  exact not_not.mp h2

lemma credentials_of_auth {user pass : String}
    (h : socks5Auth b (afterGreeting b) (some user) (some pass) = .ready r) :
    Credentials b user pass := by
  have hversion := socks5Auth_version h
  unfold socks5Auth at h
  dsimp only at h
  split_ifs at h with h1 h2 h3 h4 h5
  simp only [Option.map_some,ne_eq,Option.some.injEq,not_or,not_not] at h5
  exact ⟨hversion,_,_,rfl,rfl,h5.1.symm,h5.2.symm⟩

lemma socks5Auth_of_ready {user pass : Option String}
    (h : socks5ServerParse b true user pass = .ready r) :
    socks5Auth b (afterGreeting b) user pass = .ready r := by
  unfold socks5ServerParse at h
  simp only [reduceIte] at h
  split_ifs at h
  exact h

lemma socks5Request_of_ready {user pass : Option String}
    (h : socks5ServerParse b false user pass = .ready r) :
    socks5Request b (afterGreeting b) = .ready r := by
  unfold socks5ServerParse at h
  simp only [reduceIte,Bool.false_eq_true] at h
  split_ifs at h
  exact h

lemma trimmed_some {field : Option String} {u : String} (h : trimmed field = some u) :
    trimmed (some u) = some u := by
  obtain ⟨hmap,hne⟩ := Option.filter_eq_some_iff.mp h
  obtain ⟨v,rfl,rfl⟩ := Option.map_eq_some_iff.mp hmap
  rw [trimmed,Option.map_some,Text.trim_trim]
  exact if_pos hne

lemma trim_of_trimmed {field : Option String} {u : String} (h : trimmed field = some u) :
    Text.trim u = u := by
  obtain ⟨hmap,_⟩ := Option.filter_eq_some_iff.mp h
  obtain ⟨v,rfl,rfl⟩ := Option.map_eq_some_iff.mp hmap
  exact Text.trim_trim v

lemma nonempty_some {field : Option String} {p : String} (h : nonempty field = some p) :
    nonempty (some p) = some p := by
  obtain ⟨rfl,_⟩ := Option.filter_eq_some_iff.mp h
  exact h

variable {s : Server} {vm : VmessMoment} {stored given : WireParams} {items : List Item} {m : ℤ}

lemma vless_verified_iff
    (h : (runWireRelay s.crypto s.net vm 1 (mergeSecrets 1 stored given) items).addresses ≠ []) :
    StoredVerified s.crypto 1 stored (received items) ↔ (trimmed stored.uuid).isSome := by
  refine ⟨fun ⟨u,_,hu,_⟩ => by rw [hu]; rfl,fun hsome => ?_⟩
  obtain ⟨u,hu⟩ := Option.isSome_iff_exists.mp hsome
  simp only [runWireRelay,runVlessRelay,mergeSecrets,hu,Option.some_or,trimmed_some hu] at h
  cases hid : s.crypto.parseUuid u with
  | error e =>
    rw [hid] at h
    exact absurd rfl h
  | ok id =>
    rw [hid] at h
    obtain ⟨o,ho⟩ := parse_of_connects h
    obtain ⟨header,hheader,ho⟩ := Verdict.andThen_eq_ready ho
    refine ⟨u,id,hu,hid,?_⟩
    split_ifs at ho with hok
    rw [List.nil_append] at hheader
    unfold vlessHeader at hheader
    dsimp only at hheader
    split_ifs at hheader
    generalize readAddress _ _ = addr at hheader
    cases addr with
    | none => cases hheader
    | some a =>
      simp only [Option.elim_some] at hheader
      split_ifs at hheader
      cases hheader
      simpa [eq_comm] using hok

lemma vmess_verified_iff
    (h : (runWireRelay s.crypto s.net vm 3 (mergeSecrets 3 stored given) items).addresses ≠ []) :
    StoredVerified s.crypto 3 stored (received items) ↔ (trimmed stored.uuid).isSome := by
  refine ⟨fun ⟨u,_,_,hu,_⟩ => by rw [hu]; rfl,fun hsome => ?_⟩
  obtain ⟨u,hu⟩ := Option.isSome_iff_exists.mp hsome
  simp only [runWireRelay,runVmessRelay,mergeSecrets,hu,Option.some_or,trimmed_some hu] at h
  cases hid : s.crypto.parseUuid u with
  | error e =>
    rw [hid] at h
    exact absurd rfl h
  | ok id =>
    rw [hid] at h
    obtain ⟨o,ho⟩ := parse_of_connects h
    change vmessOpening s.crypto vm.cache vm.clock vm.now id ([]++received items) = _ at ho
    rw [List.nil_append] at ho
    generalize received items = b at ho
    by_cases hshort : b.length < 14
    · rw [vmessOpening,vmessOpenHeaderByteLen,if_pos hshort] at ho
      cases ho
    rw [vmessOpening,vmessOpenHeaderByteLen,if_neg hshort,Option.elim_some] at ho
    split_ifs at ho with hmore hfresh
    -- the header is cut off the buffer, and its parts are those of the buffer
    have hword : wordAt (b.take (14+wordAt b 12)) 12 = wordAt b 12 := by
      have happend := wordAt_append (b := b.take (14+wordAt b 12)) (i := 12)
        (by rw [List.length_take]; omega) (b.drop (14+wordAt b 12))
      rw [List.take_append_drop] at happend
      exact happend.symm
    have hfirst : (b.take (14+wordAt b 12)).take 12 = b.take 12 := by
      rw [List.take_take]
      congr 1
      omega
    have hslice : slice (b.take (14+wordAt b 12)) 14 (wordAt b 12) = slice b 14 (wordAt b 12) := by
      rw [slice,slice,List.drop_take,List.take_take,Nat.add_sub_cancel_left,min_self]
    cases hdec : s.crypto.aes128GcmDecrypt (s.crypto.md5 id.toList) (b.take 12)
        (slice b 14 (wordAt b 12)) with
    | ok plain => exact ⟨u,id,plain,hu,hid,hdec⟩
    | error e =>
      have hlength : (b.take (14+wordAt b 12)).length = 14+wordAt b 12 := by
        rw [List.length_take]
        omega
      have h14 : ¬14+wordAt b 12 < 14 := by omega
      simp only [vmessServerOpenHeader,hlength,hword,hfirst,hslice,vmessKey,hdec,if_neg h14,
        lt_irrefl,if_false] at ho
      cases ho

lemma trojan_verified_iff
    (h : (runWireRelay s.crypto s.net vm 2 (mergeSecrets 2 stored given) items).addresses ≠ []) :
    StoredVerified s.crypto 2 stored (received items) ↔ (nonempty stored.password).isSome := by
  refine ⟨fun ⟨p,hp,_⟩ => by rw [hp]; rfl,fun hsome => ?_⟩
  obtain ⟨p,hp⟩ := Option.isSome_iff_exists.mp hsome
  simp only [runWireRelay,runTrojanRelay,mergeSecrets,hp,Option.some_or,nonempty_some hp] at h
  obtain ⟨o,ho⟩ := parse_of_connects h
  obtain ⟨ready,hready,_⟩ := Verdict.andThen_eq_ready ho
  rw [List.nil_append] at hready
  refine ⟨p,hp,?_⟩
  cases hpos : crlfPosition 0 (received items) with
  | none => simp [trojanServerHandshake,hpos] at hready
  | some pos =>
    obtain ⟨rest,_,hdrop⟩ := drop_crlfPosition hpos
    rw [Nat.sub_zero] at hdrop
    simp only [trojanServerHandshake,hpos,Option.elim_some] at hready
    split_ifs at hready with hshort hline hmore
    rw [not_or,not_not,Bool.not_eq_false] at hline
    have hpos56 : pos = 56 := by
      have hle := hline.1
      rw [List.length_take] at hle
      have hlt : pos < (received items).length := by
        by_contra hge
        rw [List.drop_eq_nil_of_le (by omega)] at hdrop
        cases hdrop
      omega
    subst hpos56
    have hverify := hline.2
    simp only [trojanParseAndVerify,trojanAuthLine_eq,Bool.and_eq_true,decide_eq_true_eq] at hverify
    exact ⟨hverify.2,by rw [slice,hdrop]; rfl⟩

lemma shadowsocks_verified_iff
    (h : (runWireRelay s.crypto s.net vm 4 (mergeSecrets 4 stored given) items).addresses ≠ []) :
    StoredVerified s.crypto 4 stored (received items) ↔
      (nonempty stored.password).isSome ∧ (trimmed stored.method).isSome := by
  refine ⟨fun ⟨p,method,_,_,_,hp,hm,_⟩ => by rw [hp,hm]; exact ⟨rfl,rfl⟩,fun ⟨hp,hm⟩ => ?_⟩
  obtain ⟨p,hp⟩ := Option.isSome_iff_exists.mp hp
  obtain ⟨method,hm⟩ := Option.isSome_iff_exists.mp hm
  simp only [runWireRelay,runShadowsocksRelay,mergeSecrets,hp,hm,Option.some_or,nonempty_some hp,
    trimmed_some hm] at h
  obtain ⟨o,ho⟩ := parse_of_connects h
  obtain ⟨ready,hready,_⟩ := Verdict.andThen_eq_ready ho
  rw [List.nil_append] at hready
  unfold ssTcpServerHandshake at hready
  rw [trim_of_trimmed hm] at hready
  cases hkind : s.crypto.cipherKind method with
  | none => simp [hkind] at hready
  | some kind =>
    simp only [hkind] at hready
    split_ifs at hready with haead hshort
    unfold decryptFirstPayload at hready
    simp only [trim_of_trimmed hm,hkind,if_neg haead] at hready
    split_ifs at hready with hsalt
    cases hlen : s.crypto.decryptPacket kind (s.crypto.opensslBytesToKey (textBytes p) kind.keyLen)
        ((received items).take kind.saltLen) 0
        (slice (received items) kind.saltLen (2+kind.tagLen)) with
    | none => simp [hlen] at hready
    | some len =>
      simp only [hlen] at hready
      split_ifs at hready with htwo hmore
      cases hpay : s.crypto.decryptPacket kind
          (s.crypto.opensslBytesToKey (textBytes p) kind.keyLen)
            ((received items).take kind.saltLen) 1
          (slice (received items) (kind.saltLen+(2+kind.tagLen)) (wordAt len 0+kind.tagLen)) with
      | none => simp [hpay] at hready
      | some pay => exact ⟨p,method,kind,len,pay,hp,hm,hkind,hlen,hpay⟩

/-- With both secrets the greeting is followed by credentials, otherwise by the request. -/
lemma socks5_after_greeting {params : WireParams}
    (h : (runSocks5Relay s.net params items).addresses ≠ []) :
    (∃ u p, params.username = some u ∧ params.password = some p ∧
      Credentials (received items) u p) ∨
    (¬(params.username.isSome ∧ params.password.isSome) ∧
      byteAt (received items) (afterGreeting (received items)) = 5) := by
  unfold runSocks5Relay at h
  obtain ⟨o,ho⟩ := parse_of_connects h
  obtain ⟨ready,hready,_⟩ := Verdict.andThen_eq_ready ho
  rw [List.nil_append] at hready
  cases hauth : params.username.isSome && params.password.isSome with
  | true =>
    rw [hauth] at hready
    obtain ⟨hu,hp⟩ := (Bool.and_eq_true _ _).mp hauth
    obtain ⟨u,hu⟩ := Option.isSome_iff_exists.mp hu
    obtain ⟨p,hp⟩ := Option.isSome_iff_exists.mp hp
    rw [hu,hp] at hready
    exact .inl ⟨u,p,hu,hp,credentials_of_auth (socks5Auth_of_ready hready)⟩
  | false =>
    rw [hauth] at hready
    refine .inr ⟨fun hboth => ?_,socks5Request_version (socks5Request_of_ready hready)⟩
    rw [hboth.1,hboth.2] at hauth
    cases hauth

lemma socks5_verified_iff
    (h : (runWireRelay s.crypto s.net vm 5 (mergeSecrets 5 stored given) items).addresses ≠ []) :
    StoredVerified s.crypto 5 stored (received items) ↔ Covers 5 stored given := by
  have hafter := socks5_after_greeting (s := s) h
  constructor
  · rintro (⟨u,p,hu,hp,_⟩ | ⟨hu,hp,hfive⟩)
    · exact .inl ⟨by rw [hu]; rfl,by rw [hp]; rfl⟩
    · refine .inr ⟨hu,hp,?_⟩
      rcases hafter with ⟨_,_,_,_,hcred⟩ | ⟨hnot,_⟩
      · rw [hcred.1] at hfive
        exact absurd hfive (by decide)
      · simpa [mergeSecrets,hu,hp] using hnot
  · rintro (⟨hu,hp⟩ | ⟨hu,hp,hnot⟩)
    · obtain ⟨u,hu⟩ := Option.isSome_iff_exists.mp hu
      obtain ⟨p,hp⟩ := Option.isSome_iff_exists.mp hp
      simp only [mergeSecrets,hu,hp,Option.some_or] at hafter
      rcases hafter with ⟨_,_,⟨⟩,⟨⟩,hcred⟩ | ⟨hno,_⟩
      · exact .inl ⟨u,p,hu,hp,hcred⟩
      · exact absurd ⟨rfl,rfl⟩ hno
    · simp only [mergeSecrets,hu,hp,Option.none_or] at hafter
      rcases hafter with ⟨_,_,hgu,hgp,_⟩ | ⟨_,hfive⟩
      · exact absurd ⟨by rw [hgu]; rfl,by rw [hgp]; rfl⟩ hnot
      · exact .inr ⟨hu,hp,hfive⟩

lemma storedVerified_iff_covers
    (h : (runWireRelay s.crypto s.net vm m (mergeSecrets m stored given) items).addresses ≠ []) :
    StoredVerified s.crypto m stored (received items) ↔ Covers m stored given := by
  by_cases h1 : m = 1
  · subst h1
    exact vless_verified_iff h
  by_cases h2 : m = 2
  · subst h2
    exact trojan_verified_iff h
  by_cases h3 : m = 3
  · subst h3
    exact vmess_verified_iff h
  by_cases h4 : m = 4
  · subst h4
    exact shadowsocks_verified_iff h
  by_cases h5 : m = 5
  · subst h5
    exact socks5_verified_iff h
  have hclosed : ∀ p, runWireRelay s.crypto s.net vm m p items =
      .closed (refusal "unknown wire_mode") := by
    intro p
    unfold runWireRelay
    split <;> first | contradiction | rfl
  rw [hclosed] at h
  exact absurd rfl h

lemma nonempty_isSome_of_trimmed {field : Option String} (h : (trimmed field).isSome = true) :
    (nonempty field).isSome = true := by
  cases field with
  | none => cases h
  | some v =>
    have hv : v ≠ "" := by
      rintro rfl
      revert h
      decide
    simp [nonempty,Option.filter,hv]

lemma covers_of_requireSecrets {p : WireParams} {u : Unit}
    (h : requireSecrets m p = .ok u) (h5 : m ≠ 5) (given : WireParams) : Covers m p given := by
  unfold requireSecrets at h
  unfold Covers
  split at h
  · exact require_eq_ok.mp h
  · exact require_eq_ok.mp h
  · exact nonempty_isSome_of_trimmed (require_eq_ok.mp h)
  · obtain ⟨_,hp,hm⟩ := bind_eq_ok h
    exact ⟨nonempty_isSome_of_trimmed (require_eq_ok.mp hp),require_eq_ok.mp hm⟩
  · split <;> first | contradiction | trivial

lemma covers_of_validated {row : SessionRow} {mode : Option ℤ} {json : Option String}
    (hvalid : validateInboundWire s mode json = .ok (row.wireMode,row.wireConfigJson))
    (hm : row.wireMode = some m) (h5 : m ≠ 5) (given : WireParams) :
    Covers m (row.secrets s) given := by
  unfold validateInboundWire at hvalid
  split at hvalid
  · have hnone : none = row.wireMode := congrArg Prod.fst (Except.ok.inj hvalid)
    rw [hm] at hnone
    cases hnone
  · rename_i mode' j
    obtain ⟨_,_,hvalid⟩ := bind_eq_ok hvalid
    obtain ⟨_,_,hvalid⟩ := bind_eq_ok hvalid
    obtain ⟨p,hp,hvalid⟩ := bind_eq_ok hvalid
    obtain ⟨_,hsecrets,hvalid⟩ := bind_eq_ok hvalid
    have hpair := Except.ok.inj hvalid
    have hmode : some mode' = row.wireMode := congrArg Prod.fst hpair
    have hjson : some (Text.trim j) = row.wireConfigJson := congrArg Prod.snd hpair
    rw [hm] at hmode
    cases hmode
    -- the row keeps the trimmed text, so it is read back as it was tested
    have hread : row.secrets s = p := by
      rw [SessionRow.secrets,← hjson]
      simp only [Text.trim_trim,mapError_eq_ok hp]
      rfl
    rw [hread]
    exact covers_of_requireSecrets hsecrets h5 given
  · cases hvalid

/-- The client of a tunnel of a managed session that connects has shown the secrets of its row
exactly when the row holds the secrets of the mode that the open asks for; a row whose own mode is
asked for does, SOCKS5 apart. -/
theorem secrets_authoritative_iff_covers (s : Server) (o : ProxyOpen) (row : SessionRow)
    (policy : StoredPolicy) (hsession : openSession s o = .ok (some (row,policy)))
    (mode : Option ℤ) (json : Option String)
    (hvalid : validateInboundWire s mode json = .ok (row.wireMode,row.wireConfigJson))
    (m : ℤ) (params : WireParams) (hstart : proxyTunnel s o = .ok (.wire m params))
    (vm : VmessMoment) (items : List Item)
    (hconnects : (runWireRelay s.crypto s.net vm m params items).addresses ≠ []) :
    (StoredVerified s.crypto m (row.secrets s) (received items) ↔
      Covers m (row.secrets s) (o.given s)) ∧
    (row.wireMode = some m → m ≠ 5 →
      StoredVerified s.crypto m (row.secrets s) (received items)) := by
  obtain ⟨hparams⟩ : params = mergeSecrets m (row.secrets s) (o.given s) := by
    cases proxyTunnel_started hstart with
    | wire hmode hconfig hopen =>
      rw [hsession] at hopen
      cases hopen
      rw [applyManagedWireSecrets_eq,ProxyOpen.given,hconfig]
      rfl
  have hiff := storedVerified_iff_covers hconnects
  exact ⟨hiff,fun hm h5 => hiff.mpr (covers_of_validated hvalid hm h5 (o.given s))⟩

/-! One session row, a client that asks for the mode of the row and one that asks for another. -/

def trojanConfig : String := "\x7b\"password\":\"s3cret\"\x7d"

def vlessConfig : String := "\x7b\"uuid\":\"00000000-0000-0000-0000-000000000000\"\x7d"

def unlimitedPolicy : StoredPolicy := ⟨none,none,none,none,none,none,false,false,none⟩

def sessionServer (row : SessionRow) : Server where
  crypto := sampleCrypto
  net := openNet
  zones := ⟨fun _ => ⟨1,0⟩,fun _ => none⟩
  paramsJson j :=
    if j = trojanConfig then .ok { noParams with password := some "s3cret" }
    else if j = vlessConfig then .ok nilUuidParams
    else .error "expected value at line 1 column 1"
  policyJson _ := .ok unlimitedPolicy
  sha256Hex t := t
  requireSessionToken := none
  fetchByTokenSha256 := some (fun t => .ok (if t = "t" then some row else none))
  pubkey := some "k"
  now := 0
  quicReady := false

def storedRow (mode : ℤ) (json : String) : SessionRow :=
  ⟨"k",3600,"\x7b\x7d",0,0,0,none,false,some mode,some json⟩

def vlessOpen : ProxyOpen := ⟨"",0,"t",some 1,some vlessConfig,none⟩

theorem secrets_authoritative_vless_row :
    (runWireRelay sampleCrypto openNet sampleMoment 1 nilUuidParams
      [.msg (.data vlessHello)]).addresses = ["10.0.0.1:80"] ∧
    StoredVerified sampleCrypto 1
      ((storedRow 1 vlessConfig).secrets (sessionServer (storedRow 1 vlessConfig))) vlessHello := by
  have hrun := vlessHello_ready []
  have hconnects : (runWireRelay sampleCrypto openNet sampleMoment 1 nilUuidParams
      [.msg (.data vlessHello)]).addresses = ["10.0.0.1:80"] := by
    rw [hrun]
    decide +kernel
  have hreceived : received [.msg (.data vlessHello)] = vlessHello := List.append_nil _
  refine ⟨hconnects,?_⟩
  rw [← hreceived]
  refine (secrets_authoritative_iff_covers (sessionServer (storedRow 1 vlessConfig)) vlessOpen
    (storedRow 1 vlessConfig) unlimitedPolicy (by decide +kernel) (some 1) (some vlessConfig)
    (by decide +kernel) 1 nilUuidParams (by decide +kernel) sampleMoment [.msg (.data vlessHello)]
    ?_).2 rfl (by decide)
  exact hconnects ▸ List.cons_ne_nil _ _

theorem trojan_row_vless_open : openSession (sessionServer (storedRow 2 trojanConfig)) vlessOpen =
      .ok (some (storedRow 2 trojanConfig,unlimitedPolicy)) ∧
    validateInboundWire (sessionServer (storedRow 2 trojanConfig)) (some 2) (some trojanConfig) =
      .ok ((storedRow 2 trojanConfig).wireMode,(storedRow 2 trojanConfig).wireConfigJson) ∧
    proxyTunnel (sessionServer (storedRow 2 trojanConfig)) vlessOpen = .ok (.wire 1 nilUuidParams) ∧
    runWireRelay sampleCrypto openNet sampleMoment 1 nilUuidParams [.msg (.data vlessHello)] =
      .bridged "10.0.0.1" 80 [] [] ∧
    ¬StoredVerified sampleCrypto 1
      ((storedRow 2 trojanConfig).secrets (sessionServer (storedRow 2 trojanConfig)))
      vlessHello := by
  have hrun := vlessHello_ready []
  refine ⟨by decide +kernel,by decide +kernel,by decide +kernel,hrun,?_⟩
  rintro ⟨u,_,hu,_⟩
  have hnone : trimmed ((storedRow 2 trojanConfig).secrets
      (sessionServer (storedRow 2 trojanConfig))).uuid = none := by decide +kernel
  rw [hnone] at hu
  cases hu

end PirateServer.Wire
