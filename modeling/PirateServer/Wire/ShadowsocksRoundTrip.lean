import PirateServer.Wire.TrojanRoundTrip

/-! The first chunk of a Shadowsocks tunnel. The client encrypts the length of the address and the
tail, cut to sixteen bits, and then these. A packet is encrypted and decrypted in its buffer, and
the server takes the whole buffer, with the room of the tag, for plain text. -/
namespace PirateServer.Wire
open Lib Lib.Bytes List

/-- `Cipher::encrypt_packet` of the cipher made from a kind, a key and a salt, applied to its
`count`-th packet: the plain text with room for the tag. -/
abbrev EncryptPacket : Type := CipherKind → Bytes → Bytes → ℕ → Bytes → Bytes

variable (c : Crypto) (ips : IpLiterals) (encryptPacket : EncryptPacket) (rnd : ℕ → UInt8)

/-- The bytes that `fill_bytes` writes. -/
def saltOf (kind : CipherKind) : Bytes := (List.range kind.saltLen).map rnd

def ssKey (kind : CipherKind) (password : String) : Bytes :=
  c.opensslBytesToKey (textBytes password) kind.keyLen

/-- `Vec::resize` by the length of a tag. -/
def withRoom (kind : CipherKind) (plain : Bytes) : Bytes := plain++List.replicate kind.tagLen 0

def ssClientFirstChunk (method password : String) (target : TrojanAddr) (tail : Bytes) :
    Except WireError Bytes :=
  match c.cipherKind (Text.trim method) with
  | none => .error (.protocol "shadowsocks: bad method")
  | some kind =>
    if kind.isAead = false then .error (.protocol "shadowsocks: only AEAD")
    else
      let key := ssKey c kind password
      let salt := saltOf rnd kind
      match trojanBuildAddress ips target with
      | .error e => .error e
      | .ok a =>
        let plain := a++tail
        let lenPlain := toBe 2 (plain.length%65536)
        .ok (salt++encryptPacket kind key salt 0 (withRoom kind lenPlain)++
          encryptPacket kind key salt 1 (withRoom kind plain))

/-- Decryption undoes encryption, packet by packet; it leaves `left` after the plain text. -/
structure Undoes (c : Crypto) (encryptPacket : EncryptPacket)
    (left : CipherKind → Bytes → Bytes → ℕ → Bytes → Bytes) : Prop where
  length : ∀ kind key salt count buf, (encryptPacket kind key salt count buf).length = buf.length
  undoes : ∀ kind key salt count plain,
    c.decryptPacket kind key salt count (encryptPacket kind key salt count (withRoom kind plain)) =
      some (plain++left kind key salt count plain)

section
variable {c : Crypto} {ips : IpLiterals} {encryptPacket : EncryptPacket}
  {left : CipherKind → Bytes → Bytes → ℕ → Bytes → Bytes} {kind : CipherKind}
  {method password : String}

lemma length_withRoom (plain : Bytes) : (withRoom kind plain).length =
    plain.length+kind.tagLen := by
  simp [withRoom]

variable {salt first rest lenPkt : Bytes}

/-- The beginning of a buffer: a salt, and a first packet that can be decrypted. -/
structure Begins (c : Crypto) (kind : CipherKind) (method password : String)
    (salt first lenPkt : Bytes) : Prop where
  known : c.cipherKind (Text.trim method) = some kind
  isAead : kind.isAead = true
  saltLen : salt.length = kind.saltLen
  firstLen : first.length = 2+kind.tagLen
  decrypts : c.decryptPacket kind (ssKey c kind password) salt 0 first = some lenPkt
  word : 2 ≤ lenPkt.length

section
variable (hb : Begins c kind method password salt first lenPkt) (rest : Bytes)
include hb

lemma length_begins : (salt++first++rest).length = kind.saltLen+(2+kind.tagLen)+rest.length := by
  rw [length_append,length_append,hb.saltLen,hb.firstLen]

lemma take_begins : (salt++first++rest).take kind.saltLen = salt := by
  rw [append_assoc,take_left' hb.saltLen]

lemma slice_begins : slice (salt++first++rest) kind.saltLen (2+kind.tagLen) = first := by
  rw [slice,append_assoc,drop_left' hb.saltLen,take_left' hb.firstLen]

lemma slice_rest (n : ℕ) : slice (salt++first++rest) (kind.saltLen+(2+kind.tagLen)) n =
    rest.take n := by
  rw [slice,drop_left' (by rw [length_append,hb.saltLen,hb.firstLen])]

lemma decryptFirstPayload_ok {pay : Bytes} {addr : TrojanAddr} {n : ℕ}
    (hrest : wordAt lenPkt 0+kind.tagLen ≤ rest.length)
    (hpay : c.decryptPacket kind (ssKey c kind password) salt 1
      (rest.take (wordAt lenPkt 0+kind.tagLen)) = some pay)
    (haddr : trojanParseAddress pay = .ok (some (addr,n))) :
    decryptFirstPayload c (salt++first++rest) method password =
      .ok (some ⟨addr,kind.saltLen+(2+kind.tagLen)+(wordAt lenPkt 0+kind.tagLen),pay.drop n⟩) := by
  have hdec := hb.decrypts
  unfold ssKey at hdec hpay
  have h1 : ¬kind.saltLen+(2+kind.tagLen)+rest.length < kind.saltLen := by omega
  have h2 : ¬kind.saltLen+(2+kind.tagLen)+rest.length < kind.saltLen+(2+kind.tagLen) := by omega
  have h3 : ¬lenPkt.length < 2 := by
    have := hb.word
    omega
  have h4 : ¬kind.saltLen+(2+kind.tagLen)+rest.length <
      kind.saltLen+(2+kind.tagLen)+(wordAt lenPkt 0+kind.tagLen) := by omega
  simp only [decryptFirstPayload,hb.known,hb.isAead,Bool.true_eq_false,if_false,length_begins hb,
    take_begins hb,slice_begins hb,hdec,slice_rest hb,hpay,haddr,if_neg h1,if_neg h2,if_neg h3,
    if_neg h4]

lemma decryptFirstPayload_consumed {r : SsReady}
    (h : decryptFirstPayload c (salt++first++rest) method password = .ok (some r)) :
    r.consumed = kind.saltLen+(2+kind.tagLen)+(wordAt lenPkt 0+kind.tagLen) := by
  have hdec := hb.decrypts
  unfold ssKey at hdec
  simp only [decryptFirstPayload,hb.known,hb.isAead,Bool.true_eq_false,if_false,take_begins hb,
    slice_begins hb,hdec] at h
  split_ifs at h with h1 h2 h3 h4
  all_goals try cases h
  split at h
  · cases h
  · split at h
    · cases h
    · cases h
    · cases h
      rfl

lemma ssTcpServerHandshake_eq : ssTcpServerHandshake c (salt++first++rest) method password =
      match decryptFirstPayload c (salt++first++rest) method password with
      | .ok none => .needMore (max (kind.saltLen+(2+kind.tagLen)+(7+kind.tagLen))
          ((salt++first++rest).length+32))
      | .ok (some r) => .ready r
      | .error _ => .invalid "decrypt" := by
  have hlong : ¬(salt++first++rest).length < kind.saltLen+(2+kind.tagLen) := by
    rw [length_begins hb]
    omega
  cases hfirst : decryptFirstPayload c (salt++first++rest) method password with
  | error e =>
    simp only [ssTcpServerHandshake,hb.known,hb.isAead,Bool.true_eq_false,if_false,
      if_neg hlong,hfirst]
  | ok r =>
    cases r with
    | none | some r =>
      simp only [ssTcpServerHandshake,hb.known,hb.isAead,Bool.true_eq_false,if_false,if_neg hlong,
        hfirst]

end

lemma greeting_iff (hundo : Undoes c encryptPacket left)
    (hkind : c.cipherKind (Text.trim method) = some kind)
      (haead : kind.isAead = true) {host : String}
    {port : UInt16} {rnd : ℕ → UInt8} {a tail h : Bytes}
    (ha : trojanBuildAddress ips ⟨host,port.toNat⟩ = .ok a) (rest : Bytes)
    (hh : saltOf rnd kind++encryptPacket kind (ssKey c kind password) (saltOf rnd kind) 0
        (withRoom kind (toBe 2 ((a++tail).length%65536)))++
      encryptPacket kind (ssKey c kind password) (saltOf rnd kind) 1
        (withRoom kind (a++tail)) = h) :
    ssTcpServerHandshake c (h++rest) method password =
        .ready ⟨⟨hostText ips host,port.toNat⟩,h.length,tail⟩ ↔ a.length+tail.length < 65536 ∧
        left kind (ssKey c kind password) (saltOf rnd kind) 1 (a++tail) = [] := by
  generalize hkey : ssKey c kind password = key at hh ⊢
  generalize hsalt : saltOf rnd kind = salt at hh ⊢
  have hsaltLen : salt.length = kind.saltLen := by
    rw [← hsalt]
    simp [saltOf]
  generalize hfirst : encryptPacket kind key salt 0
    (withRoom kind (toBe 2 ((a++tail).length%65536))) = first at hh
  generalize hsecond : encryptPacket kind key salt 1 (withRoom kind (a++tail)) = second at hh
  have hfirstLen : first.length = 2+kind.tagLen := by
    rw [← hfirst,hundo.length,length_withRoom,length_toBe]
  have hsecondLen : second.length = (a++tail).length+kind.tagLen := by
    rw [← hsecond,hundo.length,length_withRoom]
  have hdecFirst := hundo.undoes kind key salt 0 (toBe 2 ((a++tail).length%65536))
  rw [hfirst] at hdecFirst
  have hdecSecond := hundo.undoes kind key salt 1 (a++tail)
  rw [hsecond] at hdecSecond
  have hb : Begins c kind method password salt first
      (toBe 2 ((a++tail).length%65536)++left kind key salt 0 (toBe 2 ((a++tail).length%65536))) :=
    ⟨hkind,haead,hsaltLen,hfirstLen,by rw [hkey,hdecFirst],by simp⟩
  have hword := wordAt_toBe ((a++tail).length%65536) (Nat.mod_lt _ (by decide))
    (left kind key salt 0 (toBe 2 ((a++tail).length%65536)))
  have hbuf : h++rest = salt++first++(second++rest) := by
    rw [← hh]
    simp only [append_assoc]
  have hlen : h.length = kind.saltLen+(2+kind.tagLen)+((a++tail).length+kind.tagLen) := by
    rw [← hh,length_append,length_append,hsaltLen,hfirstLen,hsecondLen]
  rw [hbuf,ssTcpServerHandshake_eq hb]
  by_cases hfits : a.length+tail.length < 65536
  · have hmod : (a++tail).length%65536 = (a++tail).length := by
      rw [length_append]
      exact Nat.mod_eq_of_lt hfits
    have htake : (second++rest).take ((a++tail).length%65536+kind.tagLen) = second := by
      rw [hmod,take_left' hsecondLen]
    have haddr := trojanParseAddress_build (tail++left kind key salt 1 (a++tail)) port.toNat_lt ha
    rw [← append_assoc] at haddr
    have hroom : (a++tail).length%65536+kind.tagLen ≤ (second++rest).length := by
      rw [hmod,show (second++rest).length = second.length+rest.length from length_append,
        hsecondLen]
      omega
    rw [← htake,← hword,← hkey] at hdecSecond
    rw [← hword] at hroom
    have hok := decryptFirstPayload_ok hb (second++rest) hroom hdecSecond (hkey ▸ haddr)
    rw [hok,hword,hmod,hkey]
    simp only [Verdict.ready.injEq,SsReady.mk.injEq,true_and,hlen,append_assoc,drop_left,
      append_right_eq_self,hfits]
  · have hne : ¬(a++tail).length%65536 = (a++tail).length := by
      rw [length_append]
      omega
    refine iff_of_false (fun hready => ?_) (fun h => hfits h.1)
    split at hready
    · cases hready
    · rename_i r hr
      have hconsumed := decryptFirstPayload_consumed hb (second++rest) hr
      cases hready
      change h.length = _ at hconsumed
      rw [hword,hlen] at hconsumed
      omega
    · cases hready

end

/-- The greeting is read as it was meant exactly when its length fits sixteen bits and decryption
leaves nothing in the room of the tag. -/
theorem shadowsocks_round_trip_iff (c : Crypto) (ips : IpLiterals) (encryptPacket : EncryptPacket)
    (left : CipherKind → Bytes → Bytes → ℕ → Bytes → Bytes) (hundo : Undoes c encryptPacket left)
    (rnd : ℕ → UInt8) (method password host : String) (port : UInt16)
      (tail rest : Bytes) {h : Bytes}
    (hh : ssClientFirstChunk c ips encryptPacket rnd method password
      ⟨host,port.toNat⟩ tail = .ok h) :
    ∃ kind a, c.cipherKind (Text.trim method) = some kind ∧
      trojanBuildAddress ips ⟨host,port.toNat⟩ = .ok a ∧
      (ssTcpServerHandshake c (h++rest) method password =
          .ready ⟨⟨hostText ips host,port.toNat⟩,h.length,tail⟩ ↔ a.length+tail.length < 65536 ∧
          left kind (ssKey c kind password) (saltOf rnd kind) 1 (a++tail) = []) := by
  cases hkind : c.cipherKind (Text.trim method) with
  | none => simp [ssClientFirstChunk,hkind] at hh
  | some kind =>
    cases haead : kind.isAead with
    | false => simp [ssClientFirstChunk,hkind,haead] at hh
    | true =>
      cases ha : trojanBuildAddress ips ⟨host,port.toNat⟩ with
      | error e => simp [ssClientFirstChunk,hkind,haead,ha] at hh
      | ok a =>
        refine ⟨kind,a,rfl,rfl,?_⟩
        simp only [ssClientFirstChunk,hkind,haead,ha,Bool.true_eq_false,if_false,
          Except.ok.injEq] at hh
        exact greeting_iff hundo hkind haead ha rest hh

def clearKind : CipherKind := ⟨"clear",true,16,16,16⟩

/-- A cipher that hides nothing: the tag is zeros. -/
def clearPacket : EncryptPacket := fun _ _ _ _ buf => buf

def shortening : Crypto := { zeroCrypto with
  cipherKind := fun _ => some clearKind
  decryptPacket := fun kind _ _ _ pkt => some (pkt.take (pkt.length-kind.tagLen)) }

/-- Decryption leaves the tag where it is, as `decrypt_packet` of a slice does. -/
def inPlace : Crypto := { zeroCrypto with
  cipherKind := fun _ => some clearKind
  decryptPacket := fun _ _ _ _ pkt => some pkt }

lemma undoes_shortening : Undoes shortening clearPacket fun _ _ _ _ _ => [] := by
  refine ⟨fun _ _ _ _ _ => rfl,fun kind key salt count plain => ?_⟩
  change some ((withRoom kind plain).take ((withRoom kind plain).length-kind.tagLen)) = _
  rw [length_withRoom,Nat.add_sub_cancel,withRoom,take_left,append_nil]

theorem shadowsocks_round_trip_host :
    ∃ h, ssClientFirstChunk shortening namesOnly clearPacket (fun _ => 7) "clear" "pw" ⟨"host",80⟩
        [1,2] = .ok h ∧ ssTcpServerHandshake shortening (h++[3]) "clear" "pw" =
        .ready ⟨⟨"host",80⟩,h.length,[1,2]⟩ := by
  refine ⟨_,rfl,?_⟩
  obtain ⟨kind,a,hkind,ha,hiff⟩ := shadowsocks_round_trip_iff shortening namesOnly clearPacket _
    undoes_shortening (fun _ => 7) "clear" "pw" "host" 80 [1,2] [3] rfl
  refine hiff.mpr ⟨?_,rfl⟩
  cases ha
  decide +kernel

lemma long_tail_lost {tail : Bytes} (htail : 65536 ≤ tail.length) :
    ∃ h, ssClientFirstChunk shortening namesOnly clearPacket (fun _ => 7) "clear" "pw" ⟨"host",80⟩
        tail = .ok h ∧
      ssTcpServerHandshake shortening (h++[3]) "clear" "pw" ≠ .ready
        ⟨⟨"host",80⟩,h.length,tail⟩ := by
  have ha : trojanBuildAddress namesOnly ⟨"host",(80 : UInt16).toNat⟩ =
      .ok (3::UInt8.ofNat (textBytes "host").length::textBytes "host"++toBe 2 80) := rfl
  refine ⟨_,rfl,fun hready => ?_⟩
  have hfits := ((greeting_iff undoes_shortening rfl rfl ha [3] rfl).mp hready).1
  omega

theorem shadowsocks_wrap_and_tag :
    (∃ h, ssClientFirstChunk shortening namesOnly clearPacket (fun _ => 7) "clear" "pw" ⟨"host",80⟩
        (replicate 65536 0) = .ok h ∧ ssTcpServerHandshake shortening (h++[3]) "clear" "pw" ≠
        .ready ⟨⟨"host",80⟩,h.length,replicate 65536 0⟩) ∧
    ∃ h, ssClientFirstChunk inPlace namesOnly clearPacket (fun _ => 7) "clear" "pw" ⟨"host",80⟩
        [1,2] = .ok h ∧ ssTcpServerHandshake inPlace h "clear" "pw" =
        .ready ⟨⟨"host",80⟩,h.length,[1,2]++replicate 16 0⟩ := by
  constructor
  · exact long_tail_lost (by rw [length_replicate])
  · exact ⟨_,rfl,by decide +kernel⟩

end PirateServer.Wire
