import PirateServer.Wire.Segmentation

/-! How long a handshake can keep a relay waiting. Each parser has a length beyond which it waits
only for bytes that no longer matter: VLESS and SOCKS5 for an address of an unknown type, VLESS for
a name that is not UTF-8, Trojan for the end of a first line. Shadowsocks always decides. -/
namespace PirateServer.Wire
open Lib Lib.Bytes List Option Verdict

/-! VLESS. -/

/-- The longest header: addons of 255 bytes and a name of 255 bytes. -/
def vlessBound : ℕ := 18+255+4+1+255

/-- The address of the request will never be read. -/
def VlessStuck (b : Bytes) : Prop :=
  let h := 18+(byteAt b 17).toNat
  byteAt b 0 = 0 ∧ byteAt b h = 1 ∧
    (byteAt b (h+3) ∉ [1,2,3] ∨
      byteAt b (h+3) = 2 ∧ fromUtf8 (slice b (h+5) (byteAt b (h+4)).toNat) = none)

lemma readAddress_eq_none {b : Bytes} (hb : 256 ≤ b.length) (atype : UInt8) :
    readAddress b atype = none ↔ atype ∉ [1,2,3] ∨
      atype = 2 ∧ fromUtf8 (slice b 1 (byteAt b 0).toNat) = none := by
  have hne : b ≠ [] := by
    intro h
    rw [h] at hb
    simp at hb
  have hn := byte_lt (byteAt b 0)
  unfold readAddress
  dsimp only
  by_cases h1 : atype = 1
  · rw [if_pos ⟨h1,by omega⟩]
    simp [h1]
  rw [if_neg (fun h => h1 h.1)]
  by_cases h2 : atype = 2
  · rw [if_pos ⟨h2,hne⟩,if_neg (by omega)]
    simp [h2]
  rw [if_neg (fun h => h2 h.1)]
  by_cases h3 : atype = 3
  · rw [if_pos ⟨h3,by omega⟩]
    simp [h3]
  · rw [if_neg (fun h => h3 h.1)]
    simp [h1,h2,h3]

variable {b : Bytes}

theorem vlessHeader_waits_iff (hb : vlessBound < b.length) (e : Option Uuid) :
    (vlessHeader b e).waits = true ↔ VlessStuck b := by
  have h17 := byte_lt (byteAt b 17)
  have hb' : 533 < b.length := hb
  unfold vlessHeader VlessStuck
  dsimp only
  rw [if_neg (by omega)]
  by_cases h0 : byteAt b 0 = 0
  swap
  · rw [if_pos h0]
    simp [h0,waits]
  rw [if_neg (not_not.mpr h0),if_neg (by omega)]
  by_cases hc : byteAt b (18+(byteAt b 17).toNat) = 1
  swap
  · rw [if_pos hc]
    simp [hc,waits]
  rw [if_neg (not_not.mpr hc),if_neg (by omega)]
  have hnone := readAddress_eq_none (b := b.drop (18+(byteAt b 17).toNat+4))
    (by rw [length_drop]; omega) (byteAt b (18+(byteAt b 17).toNat+3))
  rw [slice_drop,byteAt_drop] at hnone
  cases hr : readAddress (b.drop (18+(byteAt b 17).toNat+4))
      (byteAt b (18+(byteAt b 17).toNat+3)) with
  | none =>
    rw [hr] at hnone
    have hs := hnone.mp rfl
    simp only [elim_none,waits,true_iff]
    exact ⟨h0,hc,hs⟩
  | some r =>
    rw [hr] at hnone
    have hle := readAddress_le (hr.trans rfl : _ = some (r.1,r.2))
    rw [length_drop] at hle
    simp only [elim_some]
    rw [if_neg (by omega)]
    simp only [waits,Bool.false_eq_true,false_iff]
    intro hs
    have hcontra := hnone.mpr hs.2.2
    cases hcontra

/-! Trojan. -/

/-- The line, and an address with a name of 255 bytes. -/
def trojanBound : ℕ := 58+2+255+2

/-- No line of the right length will ever end. -/
def TrojanStuck (b : Bytes) : Prop := ∀ pos, crlfPosition 0 b = some pos → pos < 56

lemma trojanParseAddress_ne_none (hb : 259 ≤ b.length) : trojanParseAddress b ≠ .ok none := by
  have hn := byte_lt (byteAt b 1)
  unfold trojanParseAddress
  dsimp only
  rw [if_neg (by omega)]
  split_ifs
  · omega
  · simp
  · omega
  · split <;> simp
  · omega
  · simp
  · simp

theorem trojanServerHandshake_waits_iff (c : Crypto) (hb : trojanBound < b.length)
    (password : String) : (trojanServerHandshake c b password).waits = true ↔ TrojanStuck b := by
  have hb' : 317 < b.length := hb
  unfold trojanServerHandshake TrojanStuck
  cases hp : crlfPosition 0 b with
  | none => simp [waits]
  | some pos =>
    have hpos := (crlfPosition_lt hp).2
    simp only [elim_some,Option.some.injEq,forall_eq']
    by_cases h56 : pos < 56
    · simp [h56,waits]
    rw [if_neg h56]
    simp only [h56,iff_false,Bool.not_eq_true]
    by_cases hline : (b.take pos).length ≠ 56 ∨ trojanParseAndVerify c (b.take pos) password = false
    · rw [if_pos hline]
      rfl
    rw [if_neg hline]
    have hlen : (b.take pos).length = 56 := by
      by_contra hne
      exact hline (.inl hne)
    rw [length_take] at hlen
    rw [if_neg (by omega)]
    have hsome := trojanParseAddress_ne_none (b := b.drop (pos+2)) (by rw [length_drop]; omega)
    split
    · rfl
    · rename_i h
      exact absurd h hsome
    · rfl

/-! Shadowsocks. -/

def ssBound (c : Crypto) (method : String) : ℕ :=
  (c.cipherKind (Text.trim method)).elim 0
    (fun kind => kind.saltLen+(2+kind.tagLen)+(65535+kind.tagLen))

lemma decryptFirstPayload_ne_none (c : Crypto) {method : String}
    (hb : ssBound c method ≤ b.length) (password : String) :
    decryptFirstPayload c b method password ≠ .ok none := by
  unfold decryptFirstPayload
  unfold ssBound at hb
  dsimp only
  cases hk : c.cipherKind (Text.trim method) with
  | none => simp
  | some kind =>
    simp only [hk,elim_some] at hb
    dsimp only
    by_cases ha : kind.isAead = false
    · simp [ha]
    rw [if_neg ha,if_neg (by omega),if_neg (by omega)]
    split
    · simp
    rename_i lenPkt _
    have hw := wordAt_lt lenPkt 0
    split_ifs
    · simp
    · omega
    · split
      · simp
      · split <;> simp

theorem ssTcpServerHandshake_decides (c : Crypto) {method : String}
    (hb : ssBound c method < b.length) (password : String) :
    (ssTcpServerHandshake c b method password).waits = false := by
  have hsome := decryptFirstPayload_ne_none c hb.le password
  unfold ssBound at hb
  unfold ssTcpServerHandshake
  cases hk : c.cipherKind (Text.trim method) with
  | none => rfl
  | some kind =>
    simp only [hk,elim_some] at hb
    dsimp only
    by_cases ha : kind.isAead = false
    · rw [if_pos ha]
      rfl
    rw [if_neg ha,if_neg (by omega)]
    split
    · rename_i h
      exact absurd h hsome
    · rfl
    · rfl

/-! SOCKS5. -/

/-- Greeting, authentication and a request with a name of 255 bytes. -/
def socks5Bound : ℕ := 2+255+(3+255+255)+3+2+255+2

/-- The request at an offset names an address of an unknown type. -/
def Socks5RequestStuck (b : Bytes) (off : ℕ) : Prop :=
  byteAt b off = 5 ∧ byteAt b (off+1) = 1 ∧ byteAt b (off+3) ∉ [1,3,4]

/-- The client has the right name and password at an offset. -/
def Socks5Credentials (b : Bytes) (off : ℕ) (user pass : Option String) : Prop :=
  let ulen := (byteAt b (off+1)).toNat
  let plen := (byteAt b (off+2+ulen)).toNat
  byteAt b off = 1 ∧
    user.map Text.trim = some (Text.trim ((fromUtf8 (slice b (off+2) ulen)).getD "")) ∧
    pass.map Text.trim = some (Text.trim ((fromUtf8 (slice b (off+3+ulen) plen)).getD ""))

/-- The client passes the greeting, and the authentication if there is one, and then asks for an
address of an unknown type. -/
def Socks5Stuck (b : Bytes) (auth : Bool) (user pass : Option String) : Prop :=
  let off := 2+(byteAt b 1).toNat
  let ulen := (byteAt b (off+1)).toNat
  let plen := (byteAt b (off+2+ulen)).toNat
  byteAt b 0 = 5 ∧
    if auth = true then
      2 ∈ slice b 2 (byteAt b 1).toNat ∧ Socks5Credentials b off user pass ∧
        Socks5RequestStuck b (off+3+ulen+plen)
    else 0 ∈ slice b 2 (byteAt b 1).toNat ∧ Socks5RequestStuck b off

variable {off : ℕ}

lemma readAddr_eq_none (hb : off+259 ≤ b.length) :
    readAddr b off = none ↔ byteAt b off ∉ [1,3,4] := by
  have hn := byte_lt (byteAt b (off+1))
  unfold readAddr
  dsimp only
  rw [if_neg (by omega)]
  by_cases h1 : byteAt b off = 1
  · rw [if_pos h1,if_neg (by omega)]
    simp [h1]
  rw [if_neg h1]
  by_cases h3 : byteAt b off = 3
  · rw [if_pos h3,if_neg (by omega),if_neg (by omega)]
    simp [h3]
  rw [if_neg h3]
  by_cases h4 : byteAt b off = 4
  · rw [if_pos h4,if_neg (by omega)]
    simp [h4]
  · rw [if_neg h4]
    simp [h1,h3,h4]

lemma socks5Request_waits_iff (hb : off+262 ≤ b.length) :
    (socks5Request b off).waits = true ↔ Socks5RequestStuck b off := by
  have hnone : readAddr b (off+3) = none ↔ byteAt b (off+3) ∉ [1,3,4] :=
    readAddr_eq_none (by omega)
  unfold socks5Request Socks5RequestStuck
  rw [if_neg (by omega)]
  by_cases h5 : byteAt b off = 5
  swap
  · simp [h5,waits]
  rw [if_neg (not_not.mpr h5)]
  by_cases hc : byteAt b (off+1) = 1
  swap
  · simp [hc,waits]
  rw [if_neg (not_not.mpr hc)]
  cases hr : readAddr b (off+3) with
  | none => simpa [h5,hc,waits] using hnone.mp hr
  | some r =>
    rw [hr] at hnone
    simp only [elim_some,waits,Bool.false_eq_true,false_iff]
    intro h
    have hcontra := hnone.mpr h.2.2
    cases hcontra

lemma socks5Auth_waits_iff (hb : off+(3+255+255)+262 ≤ b.length) (user pass : Option String) :
    (socks5Auth b off user pass).waits = true ↔ Socks5Credentials b off user pass ∧
        Socks5RequestStuck b (off+3+(byteAt b (off+1)).toNat+
          (byteAt b (off+2+(byteAt b (off+1)).toNat)).toNat) := by
  have hu := byte_lt (byteAt b (off+1))
  have hp := byte_lt (byteAt b (off+2+(byteAt b (off+1)).toNat))
  unfold socks5Auth Socks5Credentials
  dsimp only
  rw [if_neg (by omega)]
  by_cases h1 : byteAt b off = 1
  swap
  · simp [h1,waits]
  rw [if_neg (not_not.mpr h1),if_neg (by omega),if_neg (by omega)]
  split_ifs with hcred
  · simp only [waits,Bool.false_eq_true,false_iff]
    rintro ⟨⟨_,hU,hP⟩,_⟩
    rcases hcred with h | h
    · exact h hU
    · exact h hP
  · rw [not_or,not_not,not_not] at hcred
    rw [socks5Request_waits_iff (by omega)]
    exact ⟨fun h => ⟨⟨h1,hcred⟩,h⟩,fun h => h.2⟩

theorem socks5ServerParse_waits_iff (hb : socks5Bound < b.length) (auth : Bool)
    (user pass : Option String) :
    (socks5ServerParse b auth user pass).waits = true ↔ Socks5Stuck b auth user pass := by
  have hb' : 1032 < b.length := hb
  have hm := byte_lt (byteAt b 1)
  unfold socks5ServerParse Socks5Stuck
  dsimp only
  rw [if_neg (by omega)]
  by_cases h5 : byteAt b 0 = 5
  swap
  · simp [h5,waits]
  rw [if_neg (not_not.mpr h5),if_neg (by omega)]
  by_cases ha : auth = true
  · rw [if_pos ha,if_pos ha]
    by_cases h2 : 2 ∈ slice b 2 (byteAt b 1).toNat
    · rw [if_neg (not_not.mpr h2),socks5Auth_waits_iff (by omega)]
      exact ⟨fun h => ⟨h5,h2,h⟩,fun h => h.2.2⟩
    · simp [h2,waits]
  · rw [if_neg ha,if_neg ha]
    by_cases h0 : 0 ∈ slice b 2 (byteAt b 1).toNat
    · rw [if_neg (not_not.mpr h0),socks5Request_waits_iff (by omega)]
      exact ⟨fun h => ⟨h5,h0,h⟩,fun h => h.2.2⟩
    · simp [h0,waits]

/-! The relays. -/

variable {items : List Item}

lemma run_eq_reading {hs : Handshake} {net : Net} {buf : Bytes}
    (h : hs.run net buf items = .reading b) : b = buf ∨ (hs.parse b).waits = true := by
  induction items generalizing buf with
  | nil =>
    cases h
    exact .inl rfl
  | cons item rest ih =>
    unfold Handshake.run at h
    split at h
    · cases h
      exact .inl rfl
    · cases h
    · cases h
    · cases h
    · cases h
    · rename_i hi
      cases hi
      exact ih h
    · rename_i d _ hi
      cases hi
      split_ifs at h
      cases hp : hs.parse (buf++d) with
      | needMore n =>
        simp only [hp] at h
        rcases ih h with hb | hb
        · right
          rw [hb,hp]
          rfl
        · exact .inr hb
      | invalid m =>
        simp only [hp] at h
        cases h
      | ready o =>
        simp only [hp,Opening.dial] at h
        split at h
        · cases h
        · split at h <;> cases h

lemma length_le_of_reading {hs : Handshake} {bound : ℕ} {S : Bytes → Prop}
    (hwait : ∀ b, bound < b.length → (hs.parse b).waits = true → S b) {net : Net}
      (h : hs.run net [] items = .reading b) :
    b.length ≤ bound ∨ S b := by
  by_cases hb : b.length ≤ bound
  · exact .inl hb
  · rcases run_eq_reading h with rfl | hw
    · simp at hb
    · exact .inr (hwait b (by omega) hw)

/-- Beyond its bound a parser waits exactly for bytes that cannot help, Shadowsocks for none; and a
relay that still reads has buffered no more than the bound unless it is stuck. -/
theorem waits_beyond_bound_iff_stuck (c : Crypto) (b : Bytes) (e : Option Uuid)
    (method password : String) (auth : Bool) (user pass : Option String) :
    ((vlessBound < b.length → (vlessParseRequest b e).waits = false) ↔
      ¬(vlessBound < b.length ∧ VlessStuck b)) ∧
    ((trojanBound < b.length → (trojanServerHandshake c b password).waits = false) ↔
      ¬(trojanBound < b.length ∧ TrojanStuck b)) ∧
    ((socks5Bound < b.length → (socks5ServerParse b auth user pass).waits = false) ↔
      ¬(socks5Bound < b.length ∧ Socks5Stuck b auth user pass)) ∧
    (ssBound c method < b.length → (ssTcpServerHandshake c b method password).waits = false) ∧
    (∀ net items expected, (vlessHandshake expected).run net [] items = .reading b →
      b.length ≤ vlessBound ∨ VlessStuck b) ∧
    (∀ net items, (trojanHandshake c password).run net [] items = .reading b →
      b.length ≤ trojanBound ∨ TrojanStuck b) ∧
    (∀ net items, (socks5Handshake auth user pass).run net [] items = .reading b →
      b.length ≤ socks5Bound ∨ Socks5Stuck b auth user pass) ∧
    (∀ net items, (shadowsocksHandshake c method password).run net [] items = .reading b →
      b.length ≤ ssBound c method) := by
  have hiff : ∀ {P W S : Prop} {w : Bool}, (W ↔ w = true) → (P → (W ↔ S)) →
      ((P → w = false) ↔ ¬(P ∧ S)) := by
    intro P W S w hw h
    rw [not_and]
    refine forall_congr' (fun hp => ?_)
    rw [← h hp,hw]
    simp
  refine ⟨?_,?_,?_,?_,?_,?_,?_,?_⟩
  · refine hiff Iff.rfl (fun hb => ?_)
    rw [vlessParseRequest,waits_map]
    exact vlessHeader_waits_iff hb e
  · exact hiff Iff.rfl (fun hb => trojanServerHandshake_waits_iff c hb password)
  · exact hiff Iff.rfl (fun hb => socks5ServerParse_waits_iff hb auth user pass)
  · exact fun hb => ssTcpServerHandshake_decides c hb password
  · intro net items expected h
    refine length_le_of_reading (fun b hb hw => (vlessHeader_waits_iff hb (some expected)).mp ?_) h
    rw [← hw]
    refine (waits_andThen (fun r => ?_)).symm
    split_ifs <;> rfl
  · intro net items h
    refine length_le_of_reading (fun b hb hw =>
      (trojanServerHandshake_waits_iff c hb password).mp ?_) h
    rw [← hw]
    exact (waits_andThen (fun r => rfl)).symm
  · intro net items h
    refine length_le_of_reading
      (fun b hb hw => (socks5ServerParse_waits_iff hb auth user pass).mp ?_) h
    rw [← hw]
    exact (waits_andThen (fun r => rfl)).symm
  · intro net items h
    refine (length_le_of_reading (S := fun _ => False) (fun b hb hw => ?_) h).resolve_right id
    have hd := ssTcpServerHandshake_decides c hb password
    have hs : (ssTcpServerHandshake c b method password).waits = true := by
      rw [← hw]
      exact (waits_andThen (fun r => rfl)).symm
    rw [hd] at hs
    cases hs

/-! Clients that keep a relay waiting. -/

def vlessUnknownType : Bytes := 0::List.replicate 16 0++[0,1,0,80,9]

def socks5UnknownType : Bytes := [5,1,0,5,1,0,9]

lemma vlessUnknownType_stuck (x : Bytes) : VlessStuck (vlessUnknownType++x) := by
  have h : ∀ i < 22, byteAt (vlessUnknownType++x) i = byteAt vlessUnknownType i :=
    fun i hi => byteAt_append hi x
  have h17 : byteAt (vlessUnknownType++x) 17 = 0 := h 17 (by decide)
  unfold VlessStuck
  rw [h17]
  refine ⟨h 0 (by decide),h 18 (by decide),.inl ?_⟩
  rw [show byteAt (vlessUnknownType++x) (18+(0 : UInt8).toNat+3) = 9 from h 21 (by decide)]
  decide

lemma socks5UnknownType_stuck (x : Bytes) : Socks5Stuck (socks5UnknownType++x) false none none := by
  have h : ∀ i < 7, byteAt (socks5UnknownType++x) i = byteAt socks5UnknownType i :=
    fun i hi => byteAt_append hi x
  have h1 : byteAt (socks5UnknownType++x) 1 = 1 := h 1 (by decide)
  unfold Socks5Stuck
  rw [h1]
  refine ⟨h 0 (by decide),?_⟩
  rw [if_neg (by decide)]
  have hm : slice (socks5UnknownType++x) 2 1 = [0] := slice_append (by decide) x
  refine ⟨?_,h 3 (by decide),h 4 (by decide),?_⟩
  · rw [show ((1 : UInt8).toNat) = 1 from rfl,hm]
    decide
  · rw [show byteAt (socks5UnknownType++x) (2+(1 : UInt8).toNat+3) = 9 from h 6 (by decide)]
    decide

lemma crlfPosition_replicate (i n : ℕ) : crlfPosition i (List.replicate n 65) = none := by
  induction n generalizing i with
  | zero => rfl
  | succ n ih =>
    rw [replicate_succ,crlfPosition]
    · exact ih (i+1)
    · intro rest h
      exact absurd h (by decide)

theorem no_bound_on_waiting :
    (¬∃ n, ∀ b : Bytes, n < b.length → (vlessParseRequest b none).waits = false) ∧
    (¬∃ n, ∀ b : Bytes, n < b.length → (trojanServerHandshake sampleCrypto b "abc").waits = false) ∧
    (¬∃ n, ∀ b : Bytes, n < b.length → (socks5ServerParse b false none none).waits = false) := by
  refine ⟨?_,?_,?_⟩
  · rintro ⟨n,h⟩
    have hlen : vlessBound+n < (vlessUnknownType++List.replicate (vlessBound+n) 0).length := by
      rw [length_append,length_replicate]
      exact Nat.lt_add_of_pos_left (by decide)
    have hw := (vlessHeader_waits_iff (by omega) none).mpr
      (vlessUnknownType_stuck (List.replicate (vlessBound+n) 0))
    have hd := h _ (lt_of_le_of_lt (by omega) hlen)
    rw [vlessParseRequest,waits_map,hw] at hd
    cases hd
  · rintro ⟨n,h⟩
    have hd := h (List.replicate (n+1) 65) (by simp)
    rw [trojanServerHandshake,crlfPosition_replicate] at hd
    cases hd
  · rintro ⟨n,h⟩
    have hlen : socks5Bound+n < (socks5UnknownType++List.replicate (socks5Bound+n) 0).length := by
      rw [length_append,length_replicate]
      exact Nat.lt_add_of_pos_left (by decide)
    have hw := (socks5ServerParse_waits_iff (by omega) false none none).mpr
      (socks5UnknownType_stuck (List.replicate (socks5Bound+n) 0))
    have hd := h _ (lt_of_le_of_lt (by omega) hlen)
    rw [hw] at hd
    cases hd

end PirateServer.Wire
