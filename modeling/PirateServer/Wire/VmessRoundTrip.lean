import PirateServer.Wire.Socks5RoundTrip

/-! The VMess framings. In the open header the two bytes after the nonce are the length of the
cipher text; in a chunk they are the length of the plain text. -/
namespace PirateServer.Wire
open Lib Lib.Bytes List

/-- `Aes128Gcm::encrypt` with a key and a nonce. -/
abbrev Encrypt : Type := Bytes → Bytes → Bytes → Except String Bytes

/-- A nonce as `fill_bytes` leaves it. -/
abbrev Nonce : Type := List.Vector UInt8 12

/-- `i64::to_be_bytes`. -/
def toBe64 (n : Int64) : Bytes := toBe 8 n.toUInt64.toNat

variable (c : Crypto) (encrypt : Encrypt)

/-- The plain text of an open header at the client time `ts`. The source writes the address as a
VLESS request does. -/
def vmessPlain (ts : Int64) (port : UInt16) (addr : VlessAddress) : Bytes :=
  toBe64 ts++[1]++toBe 2 port.toNat++vlessAddressBytes addr

def vmessClientHeader (ts : Int64) (nonce : Nonce) (uuid : Uuid) (port : UInt16)
    (addr : VlessAddress) : Except WireError Bytes :=
  let plain := vmessPlain ts port addr
  if 256 < plain.length then .error (.protocol "vmess header too large")
  else
    match encrypt (vmessKey c uuid) nonce.toList plain with
    | .error e => .error (.crypto e)
    | .ok ct => .ok (nonce.toList++toBe 2 (ct.length%65536)++ct)

def vmessAeadEncodeChunk (nonce : Nonce) (uuid : Uuid) (plain : Bytes) : Except WireError Bytes :=
  if 65535 < plain.length then .error (.protocol "chunk too large")
  else
    match encrypt (vmessKey c uuid) nonce.toList plain with
    | .error e => .error (.crypto e)
    | .ok ct => .ok (nonce.toList++toBe 2 (plain.length%65536)++ct)

def vmessAeadDecodeChunk (uuid : Uuid) (buf : Bytes) : Except WireError (Option (Bytes × ℕ)) :=
  if buf.length < 14 then .ok none
  else
    let plainLen := wordAt buf 12
    let ctLen := plainLen+16
    if buf.length < 14+ctLen then .ok none
    else
      match c.aes128GcmDecrypt (vmessKey c uuid) (buf.take 12) (slice buf 14 ctLen) with
      | .error e => .error (.crypto e)
      | .ok plain =>
        if plain.length ≠ plainLen then .error (.protocol "vmess chunk len mismatch")
        else .ok (some (plain,14+ctLen))

/-- Encryption succeeds for what the protocol sends, adds a tag, and decryption undoes it. -/
structure Seals : Prop where
  succeeds : ∀ key nonce plain, plain.length ≤ 65535 → ∃ ct, encrypt key nonce plain = .ok ct
  length : ∀ {key nonce plain ct}, encrypt key nonce plain = .ok ct → ct.length = plain.length+16
  undoes : ∀ {key nonce plain ct}, encrypt key nonce plain = .ok ct →
    c.aes128GcmDecrypt key nonce ct = .ok plain

def VlessAddress.Sized : VlessAddress → Prop
  | .ipV4 b => b.length = 4
  | .domain _ => True
  | .ipV6 b => b.length = 16

/-- A beginning of a chunk that is not all of it. -/
def Incomplete (buf : Bytes) : Prop := buf.length < 14 ∨ buf.length < 14+(wordAt buf 12+16)

lemma be64_toBe64 (n : Int64) : be64 (toBe64 n) = n := by
  have hlt : n.toUInt64.toNat < 256^8 := n.toUInt64.toNat_lt
  rw [be64,toBe64,foldl_toBe,Nat.zero_mul,Nat.zero_add,Nat.mod_eq_of_lt hlt]
  apply Int64.toBitVec_inj.mp
  simp

/-! A nonce, two bytes of length, and what follows. -/

variable (nonce : Nonce) {w : ℕ} (body tail : Bytes)

lemma length_framed : (nonce.toList++toBe 2 w++body).length = 14+body.length := by
  simp only [length_append,List.Vector.toList_length,length_toBe]

lemma wordAt_framed (hw : w < 65536) : wordAt (nonce.toList++toBe 2 w++body) 12 = w :=
  wordAt_after body nonce.toList_length hw

lemma take_framed : (nonce.toList++toBe 2 w++body).take 12 = nonce.toList := by
  rw [append_assoc,take_left' nonce.toList_length]

lemma slice_framed : slice (nonce.toList++toBe 2 w++(body++tail)) 14 body.length = body := by
  have hlen : (nonce.toList++toBe 2 w).length = 14 := by
    simp only [length_append,List.Vector.toList_length,length_toBe]
  rw [slice,drop_left' hlen,take_left]

lemma length_vlessAddressBytes_pos (addr : VlessAddress) : 0 < (vlessAddressBytes addr).length := by
  cases addr <;> exact Nat.succ_pos _

lemma readAddress_vlessAddressBytes {addr : VlessAddress} (hsized : addr.Sized)
    (hshort : (vlessAddressBytes addr).length ≤ 245) :
    ∃ n, readAddress ((vlessAddressBytes addr).drop 1) (byteAt (vlessAddressBytes addr) 0) =
      some (addr,n) := by
  cases addr with
  | ipV4 b =>
    have hread := readAddress_ipV4 [] ⟨b,hsized⟩
    rw [append_nil] at hread
    exact ⟨4,hread⟩
  | ipV6 b =>
    have hread := readAddress_ipV6 [] ⟨b,hsized⟩
    rw [append_nil] at hread
    exact ⟨16,hread⟩
  | domain s =>
    have hfits : (textBytes s).length ≤ 255 := by
      by_contra hlong
      simp only [vlessAddressBytes,length_cons,length_take] at hshort
      omega
    refine ⟨1+(textBytes s).length,?_⟩
    have hread := readAddress_name [] hfits
    rw [append_nil,show fromUtf8 (textBytes s) = some s from fromUtf8_ofText s] at hread
    simp only [vlessAddressBytes,Nat.min_eq_left hfits,take_length]
    exact hread

section
variable {c : Crypto} {encrypt : Encrypt}

lemma vmessOpenPlain_vmessPlain {now ts : Int64} {port : UInt16} {addr : VlessAddress}
    (hsized : addr.Sized) (hfits : ¬256 < (vmessPlain ts port addr).length)
    (hnow : |now.toInt-ts.toInt| ≤ 120) :
    vmessOpenPlain now (vmessPlain ts port addr) = .ok ⟨port.toNat,addr,ts⟩ := by
  have hwithin : Wrapping.within 120 now ts = true := by
    rw [Wrapping.within,decide_eq_true_iff,Wrapping.abs_sub_le_iff]
    · exact hnow
    · have := abs_le.mp hnow
      omega
    · have := abs_le.mp hnow
      omega
  have hhead : (toBe64 ts++[1]++toBe 2 port.toNat).length = 11 := by simp [toBe64]
  have hlen : (vmessPlain ts port addr).length = 11+(vlessAddressBytes addr).length := by
    rw [vmessPlain,length_append,hhead]
  have hpos := length_vlessAddressBytes_pos addr
  have hlong : ¬(vmessPlain ts port addr).length < 12 := by omega
  have hts : slice (vmessPlain ts port addr) 0 8 = toBe64 ts := by
    rw [slice,drop_zero,vmessPlain,append_assoc,append_assoc,take_left' (by simp [toBe64])]
  have hcmd : byteAt (vmessPlain ts port addr) 8 = 1 := by
    rw [vmessPlain,append_assoc,append_assoc,← Nat.add_zero 8,← byteAt_drop,
      drop_left' (by simp [toBe64])]
    rfl
  have hport : wordAt (vmessPlain ts port addr) 9 = port.toNat :=
    wordAt_after _ (by simp [toBe64]) port.toNat_lt
  have hdrop : (vmessPlain ts port addr).drop 11 = vlessAddressBytes addr := drop_left' hhead
  have htype : byteAt (vmessPlain ts port addr) 11 = byteAt (vlessAddressBytes addr) 0 := by
    rw [← hdrop,byteAt_drop]
  have haddr : (vmessPlain ts port addr).drop 12 = (vlessAddressBytes addr).drop 1 := by
    rw [← hdrop,drop_drop]
  obtain ⟨n,hread⟩ := readAddress_vlessAddressBytes hsized (by omega)
  simp only [vmessOpenPlain,if_neg hlong,hts,be64_toBe64,hwithin,Bool.true_eq_false,if_false,hcmd,
    ne_eq,not_true,haddr,htype,hread,hport]

variable (hseals : Seals c encrypt)
include hseals

variable {nonce : Nonce} {uuid : Uuid}

lemma vmessClientHeader_opens {ts : Int64} {port : UInt16} {addr : VlessAddress} {h : Bytes}
    (hh : vmessClientHeader c encrypt ts nonce uuid port addr = .ok h) (tail : Bytes) :
    vmessOpenHeaderByteLen (h++tail) = some h.length ∧
      (addr.Sized → ∀ now : Int64, |now.toInt-ts.toInt| ≤ 120 →
        vmessServerOpenHeader c now uuid ((h++tail).take h.length) =
          .ok (some ⟨port.toNat,addr,ts⟩)) := by
  simp only [vmessClientHeader] at hh
  split_ifs at hh with hfits
  split at hh
  · cases hh
  rename_i ct hct
  have hctLen := hseals.length hct
  have hmod : ct.length%65536 = ct.length := Nat.mod_eq_of_lt (by omega)
  rw [hmod] at hh
  have hword := wordAt_framed nonce (ct++tail) (show ct.length < 65536 by omega)
  have hlen := length_framed nonce (w := ct.length) (ct++tail)
  cases hh
  rw [append_assoc _ ct tail,length_framed]
  refine ⟨?_,fun hsized now hnow => ?_⟩
  · rw [vmessOpenHeaderByteLen,hword,if_neg (by omega)]
  have hopen := vmessOpenPlain_vmessPlain hsized hfits hnow
  have htake : (nonce.toList++toBe 2 ct.length++(ct++tail)).take (14+ct.length) =
      nonce.toList++toBe 2 ct.length++ct := by
    rw [← append_assoc,take_left' (length_framed nonce ct)]
  have hslice := slice_framed nonce (w := ct.length) ct []
  rw [append_nil] at hslice
  have hword := wordAt_framed nonce ct (show ct.length < 65536 by omega)
  have hlen := length_framed nonce (w := ct.length) ct
  rw [htake]
  simp only [vmessServerOpenHeader,hlen,hword,take_framed,hslice,hseals.undoes hct,hopen,
    Except.map,if_neg (show ¬14+ct.length < 14 by omega),
    if_neg (show ¬14+ct.length < 14+ct.length by omega)]

lemma vmessAeadEncodeChunk_ok (nonce : Nonce) (uuid : Uuid) {plain : Bytes}
    (hfits : plain.length ≤ 65535) : ∃ e, vmessAeadEncodeChunk c encrypt nonce uuid
      plain = .ok e := by
  obtain ⟨ct,hct⟩ := hseals.succeeds (vmessKey c uuid) nonce.toList plain hfits
  simp only [vmessAeadEncodeChunk,if_neg (show ¬65535 < plain.length by omega),hct]
  exact ⟨_,rfl⟩

variable {plain e : Bytes}

section
variable (he : vmessAeadEncodeChunk c encrypt nonce uuid plain = .ok e)
include he

lemma vmessAeadEncodeChunk_eq :
    ∃ ct, plain.length < 65536 ∧ encrypt (vmessKey c uuid) nonce.toList plain = .ok ct ∧
      ct.length = plain.length+16 ∧ e = nonce.toList++toBe 2 plain.length++ct := by
  simp only [vmessAeadEncodeChunk] at he
  split_ifs at he with hfits
  split at he
  · cases he
  · rename_i ct hct
    cases he
    have hlt : plain.length < 65536 := by omega
    exact ⟨ct,hlt,hct,hseals.length hct,by rw [Nat.mod_eq_of_lt hlt]⟩

lemma isFrame_chunk : IsFrame (vmessAeadDecodeChunk c uuid) plain e := by
  intro tail
  obtain ⟨ct,hlt,hct,hctLen,rfl⟩ := vmessAeadEncodeChunk_eq hseals he
  have hword := wordAt_framed nonce (ct++tail) hlt
  have hlen := length_framed nonce (w := plain.length) (ct++tail)
  have hslice := slice_framed nonce (w := plain.length) ct tail
  rw [append_assoc _ ct tail,length_framed,hctLen]
  have hbody : (ct++tail).length = plain.length+16+tail.length := by
    rw [length_append,hctLen]
  rw [hbody] at hlen
  rw [hctLen] at hslice
  simp only [vmessAeadDecodeChunk,hlen,hword,take_framed,hslice,hseals.undoes hct,ne_eq,not_true,
    if_false,if_neg (show ¬14+(plain.length+16+tail.length) < 14 by omega),
    if_neg (show ¬14+(plain.length+16+tail.length) < 14+(plain.length+16) by omega)]

lemma incomplete_take {k : ℕ} (hk : k < e.length) : Incomplete (e.take k) := by
  obtain ⟨ct,hlt,hct,hctLen,rfl⟩ := vmessAeadEncodeChunk_eq hseals he
  rw [length_framed] at hk
  rw [Incomplete,length_take,length_framed]
  by_cases hshort : k < 14
  · left
    omega
  · right
    have hhead : (nonce.toList++toBe 2 plain.length).length = 14 := by
      simp only [length_append,List.Vector.toList_length,length_toBe]
    rw [take_append,take_of_length_le (by omega),wordAt_framed _ _ hlt]
    omega

end

end

lemma vmessAeadDecodeChunk_incomplete {c : Crypto} {uuid : Uuid} {buf : Bytes}
    (h : Incomplete buf) :
    vmessAeadDecodeChunk c uuid buf = .ok none := by
  unfold vmessAeadDecodeChunk
  by_cases hshort : buf.length < 14
  · rw [if_pos hshort]
  · rw [if_neg hshort]
    exact if_pos (h.resolve_left hshort)

/-- Both framings are read back: a header at any time within the window, and chunks one after the
other, with an incomplete one at the end. -/
theorem vmess_round_trip (c : Crypto) (encrypt : Encrypt) (hseals : Seals c encrypt) (uuid : Uuid) :
    (∀ (ts : Int64) (nonce : Nonce) (port : UInt16) (addr : VlessAddress) (h tail : Bytes),
      vmessClientHeader c encrypt ts nonce uuid port addr = .ok h →
        vmessOpenHeaderByteLen (h++tail) = some h.length ∧
        (addr.Sized → ∀ now : Int64, |now.toInt-ts.toInt| ≤ 120 →
          vmessServerOpenHeader c now uuid ((h++tail).take h.length) =
            .ok (some ⟨port.toNat,addr,ts⟩))) ∧
    (∀ (nonce : Nonce) (plain : Bytes), plain.length ≤ 65535 →
      ∃ e, vmessAeadEncodeChunk c encrypt nonce uuid plain = .ok e ∧
        ∀ k < e.length, Incomplete (e.take k)) ∧ ∀ (plains encoded : List Bytes) (rest : Bytes),
      List.Forall₂ (fun plain e => ∃ nonce, vmessAeadEncodeChunk c encrypt nonce uuid plain = .ok e)
        plains encoded → Incomplete rest → ∀ fuel, plains.length < fuel →
        decodeFrames (vmessAeadDecodeChunk c uuid) fuel (encoded.flatten++rest) =
          .ok (plains.zip (encoded.map List.length),rest) := by
  refine ⟨fun ts nonce port addr h tail hh => vmessClientHeader_opens hseals hh tail,?_,?_⟩
  · intro nonce plain hfits
    obtain ⟨e,he⟩ := vmessAeadEncodeChunk_ok hseals nonce uuid hfits
    exact ⟨e,he,fun k hk => incomplete_take hseals he hk⟩
  · intro plains encoded rest hencoded hrest fuel hfuel
    refine decodeFrames_flatten (hencoded.imp ?_) (vmessAeadDecodeChunk_incomplete hrest) hfuel
    rintro plain e ⟨nonce,he⟩
    exact isFrame_chunk hseals he

/-- A package whose encryption hides nothing. -/
def clearGcm : Crypto := { zeroCrypto with
  aes128GcmDecrypt := fun _ _ ct => .ok (ct.take (ct.length-16)) }

def clearEncrypt : Encrypt := fun _ _ plain => .ok (plain++List.replicate 16 0)

lemma seals_clear : Seals clearGcm clearEncrypt := by
  refine ⟨fun _ _ plain _ => ⟨_,rfl⟩,fun h => ?_,fun h => ?_⟩
  · cases h
    simp
  · cases h
    simp [clearGcm]

theorem vmess_round_trip_host :
    ∃ h, vmessClientHeader clearGcm clearEncrypt 1000 (List.Vector.replicate 12 3)
        (List.Vector.replicate 16 0) 443 (.domain "host") = .ok h ∧
      vmessOpenHeaderByteLen (h++[1,2]) = some h.length ∧
      vmessServerOpenHeader clearGcm 1100 (List.Vector.replicate 16 0) ((h++[1,2]).take h.length) =
        .ok (some ⟨443,.domain "host",1000⟩) := by
  obtain ⟨hheader,_,_⟩ := vmess_round_trip clearGcm clearEncrypt seals_clear
    (List.Vector.replicate 16 0)
  obtain ⟨hlen,hopen⟩ := hheader 1000 (List.Vector.replicate 12 3) 443 (.domain "host") _ [1,2] rfl
  exact ⟨_,rfl,hlen,hopen trivial 1100 (by decide)⟩

end PirateServer.Wire
