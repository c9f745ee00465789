import PirateServer.Wire.VlessRoundTrip

/-! The Trojan greeting: the line with the hash of the password and the address after it, as the
client writes them and the server reads them. Shadowsocks uses the same address. -/
namespace PirateServer.Wire
open Lib Lib.Bytes List

def hostText (ips : IpLiterals) (host : String) : String :=
  match ips.v4 host with
  | some ip => ipv4Text ip.toList
  | none =>
    match ips.v6 host with
    | some ip => ipv6Text ip.toList
    | none => host

def trojanBuildAddress (ips : IpLiterals) (addr : TrojanAddr) : Except WireError Bytes :=
  match ips.v4 addr.host with
  | some ip => .ok (1::ip.toList++toBe 2 addr.port)
  | none =>
    match ips.v6 addr.host with
    | some ip => .ok (4::ip.toList++toBe 2 addr.port)
    | none =>
      let b := textBytes addr.host
      if 255 < b.length then .error (.protocol "domain too long")
      else .ok (3::UInt8.ofNat b.length::b++toBe 2 addr.port)

/-- `wire_tunnel_first_chunk` in the mode `Trojan`. -/
def trojanFirstChunk (c : Crypto) (ips : IpLiterals) (params : WireParams) (host : String)
    (port : UInt16) (tail : Bytes) : Except WireError Bytes :=
  match params.password with
  | none => .error (.protocol "trojan password")
  | some pw =>
    (trojanBuildAddress ips ⟨host,port.toNat⟩).map (fun a => trojanAuthLine c pw++a++tail)

/-! An address is read back, whatever follows it. -/

variable {port : ℕ} (tail : Bytes) {a buf : Bytes} {n : ℕ}

lemma wordAt_after (hn : a.length = n) (hport : port < 65536) :
    wordAt (a++toBe 2 port++tail) n = port := by
  rw [append_assoc,← Nat.add_zero n,← wordAt_drop,drop_left' hn]
  exact wordAt_toBe port hport tail

lemma address_parts (k : UInt8) (ip : List.Vector UInt8 n) (hport : port < 65536) :
    (k::ip.toList++toBe 2 port++tail).length = n+3+tail.length ∧
      slice (k::ip.toList++toBe 2 port++tail) 1 n = ip.toList ∧
      wordAt (k::ip.toList++toBe 2 port++tail) (n+1) = port := by
  refine ⟨?_,?_,wordAt_after tail (by simp) hport⟩
  · simp only [cons_append,length_cons,length_append,length_toBe,List.Vector.toList_length]
    omega
  · rw [slice,cons_append,cons_append,drop_one,tail_cons,append_assoc,take_left' ip.toList_length]

lemma trojanParseAddress_ipV4 (ip : List.Vector UInt8 4) (hport : port < 65536) :
    trojanParseAddress (1::ip.toList++toBe 2 port++tail) =
      .ok (some (⟨ipv4Text ip.toList,port⟩,7)) := by
  obtain ⟨hlen,hslice,hword⟩ := address_parts tail 1 ip hport
  have htype : byteAt (1::ip.toList++toBe 2 port++tail) 0 = 1 := rfl
  have h3 : ¬7+tail.length < 3 := by omega
  have h7 : ¬7+tail.length < 7 := by omega
  simp only [trojanParseAddress,hlen,htype,hslice,hword,if_neg h3,if_neg h7,if_true]

lemma trojanParseAddress_ipV6 (ip : List.Vector UInt8 16) (hport : port < 65536) :
    trojanParseAddress (4::ip.toList++toBe 2 port++tail) =
      .ok (some (⟨ipv6Text ip.toList,port⟩,19)) := by
  obtain ⟨hlen,hslice,hword⟩ := address_parts tail 4 ip hport
  have htype : byteAt (4::ip.toList++toBe 2 port++tail) 0 = 4 := rfl
  have h1 : ¬(4 : UInt8) = 1 := by decide
  have hname : ¬(4 : UInt8) = 3 := by decide
  have h3 : ¬19+tail.length < 3 := by omega
  have h19 : ¬19+tail.length < 19 := by omega
  simp only [trojanParseAddress,hlen,htype,hslice,hword,if_neg h1,if_neg hname,if_neg h3,if_neg h19,
    if_true]

variable {host : String}

lemma trojanParseAddress_name (hhost : (textBytes host).length ≤ 255) (hport : port < 65536) :
    trojanParseAddress (3::UInt8.ofNat (textBytes host).length::textBytes host++toBe 2 port++tail) =
      .ok (some (⟨host,port⟩,2+(textBytes host).length+2)) := by
  have hdec : fromUtf8 (textBytes host) = some host := fromUtf8_ofText host
  generalize textBytes host = b at hhost hdec ⊢
  have hlen : (3::UInt8.ofNat b.length::b++toBe 2 port++tail).length =
      2+b.length+2+tail.length := by
    simp only [cons_append,length_cons,length_append,length_toBe]
    omega
  have hn : (byteAt (3::UInt8.ofNat b.length::b++toBe 2 port++tail) 1).toNat = b.length :=
    toNat_ofNat_byte (by omega)
  have hslice : slice (3::UInt8.ofNat b.length::b++toBe 2 port++tail) 2 b.length = b := by
    simp only [slice,cons_append,drop_succ_cons,drop_zero,append_assoc,take_left]
  have hword : wordAt (3::UInt8.ofNat b.length::b++toBe 2 port++tail) (2+b.length) = port :=
    wordAt_after tail (by simp only [length_cons]; omega) hport
  have htype : byteAt (3::UInt8.ofNat b.length::b++toBe 2 port++tail) 0 = 3 := rfl
  have h1 : ¬(3 : UInt8) = 1 := by decide
  have h3 : ¬2+b.length+2+tail.length < 3 := by omega
  have hfit : ¬2+b.length+2+tail.length < 2+b.length+2 := by omega
  simp only [trojanParseAddress,hlen,htype,hn,hslice,hword,hdec,if_neg h1,if_neg h3,if_neg hfit,
    if_true]

variable {ips : IpLiterals}

lemma trojanParseAddress_build (hport : port < 65536)
    (ha : trojanBuildAddress ips ⟨host,port⟩ = .ok a) :
    trojanParseAddress (a++tail) = .ok (some (⟨hostText ips host,port⟩,a.length)) := by
  cases h4 : ips.v4 host with
  | some ip =>
    simp only [trojanBuildAddress,h4,Except.ok.injEq] at ha
    subst ha
    rw [trojanParseAddress_ipV4 tail ip hport]
    simp [hostText,h4]
  | none =>
    cases h6 : ips.v6 host with
    | some ip =>
      simp only [trojanBuildAddress,h4,h6,Except.ok.injEq] at ha
      subst ha
      rw [trojanParseAddress_ipV6 tail ip hport]
      simp [hostText,h4,h6]
    | none =>
      simp only [trojanBuildAddress,h4,h6] at ha
      split_ifs at ha with hlong
      cases ha
      rw [trojanParseAddress_name tail (by omega) hport]
      have hlen : (3::UInt8.ofNat (textBytes host).length::textBytes host++toBe 2 port).length =
          2+(textBytes host).length+2 := by
        simp only [cons_append,length_cons,length_append,length_toBe]
        omega
      simp only [hostText,h4,h6,hlen]

lemma trojanBuildAddress_ok (port : ℕ) (h : IsIpLiteral ips host ∨ (textBytes host).length ≤ 255) :
    ∃ a, trojanBuildAddress ips ⟨host,port⟩ = .ok a := by
  unfold trojanBuildAddress
  dsimp only
  cases h4 : ips.v4 host with
  | some ip => exact ⟨_,rfl⟩
  | none =>
    cases h6 : ips.v6 host with
    | some ip => exact ⟨_,rfl⟩
    | none =>
      have hshort : ¬255 < (textBytes host).length := by
        rcases h with (h | h) | h
        · simp [h4] at h
        · simp [h6] at h
        · omega
      exact ⟨_,if_neg hshort⟩

/-! What the parser accepts. -/

/-- The bytes of an address, with its type, and what it says. -/
inductive WellFormedAddress : Bytes → TrojanAddr → Prop
  | ipV4 {octets : Bytes} (hi lo : UInt8) (length : octets.length = 4) :
      WellFormedAddress (1::octets++[hi,lo]) ⟨ipv4Text octets,be16 hi lo⟩
  | name {n : UInt8} {b : Bytes} {host : String} (hi lo : UInt8) (length : b.length = n.toNat)
      (text : fromUtf8 b = some host) : WellFormedAddress (3::n::b++[hi,lo]) ⟨host,be16 hi lo⟩
  | ipV6 {octets : Bytes} (hi lo : UInt8) (length : octets.length = 16) :
      WellFormedAddress (4::octets++[hi,lo]) ⟨ipv6Text octets,be16 hi lo⟩

lemma drop_eq_slice_word (buf : Bytes) (i n : ℕ) (h : i+n+2 ≤ buf.length) :
    buf.drop i = slice buf i n++[byteAt buf (i+n),byteAt buf (i+n+1)]++buf.drop (i+n+2) := by
  rw [drop_eq_slice buf i n,drop_eq_byteAt buf (i := i+n) (by omega),
    drop_eq_byteAt buf (i := i+n+1) (by omega),append_assoc]
  rfl

variable {addr : TrojanAddr}

lemma wellFormed_of_parse (h : trojanParseAddress buf = .ok (some (addr,n))) :
    ∃ a rest, buf = a++rest ∧ a.length = n ∧ WellFormedAddress a addr := by
  unfold trojanParseAddress at h
  dsimp only at h
  split_ifs at h with h3 h1 h7 hname hshort h4 h19
  · cases h
  · cases h
  · cases h
    have hhead := drop_eq_byteAt buf (i := 0) (by omega)
    have hsplit := drop_eq_slice_word buf 1 4 (by omega)
    rw [drop_zero,h1,hsplit] at hhead
    exact ⟨_,buf.drop 7,hhead,by simp [length_slice (show 1+4 ≤ buf.length by omega)],
      .ipV4 _ _ (length_slice (by omega))⟩
  · cases h
  · cases hdec : fromUtf8 (slice buf 2 (byteAt buf 1).toNat) with
    | none => simp [hdec] at h
    | some host =>
      simp only [hdec,Except.ok.injEq,Option.some.injEq,Prod.mk.injEq] at h
      obtain ⟨rfl,rfl⟩ := h
      have hhead := drop_eq_byteAt buf (i := 0) (by omega)
      have hsecond := drop_eq_byteAt buf (i := 1) (by omega)
      have hsplit := drop_eq_slice_word buf 2 (byteAt buf 1).toNat (by omega)
      have hlen : (slice buf 2 (byteAt buf 1).toNat).length = (byteAt buf 1).toNat :=
        length_slice (by omega)
      rw [drop_zero,hname,hsecond,hsplit] at hhead
      refine ⟨3::byteAt buf 1::slice buf 2 (byteAt buf 1).toNat++
        [byteAt buf (2+(byteAt buf 1).toNat),byteAt buf (2+(byteAt buf 1).toNat+1)],
        buf.drop (2+(byteAt buf 1).toNat+2),hhead,?_,.name _ _ hlen hdec⟩
      simp only [cons_append,length_cons,length_append,length_nil,hlen]
      omega
  · cases h
  · cases h
    have hhead := drop_eq_byteAt buf (i := 0) (by omega)
    have hsplit := drop_eq_slice_word buf 1 16 (by omega)
    rw [drop_zero,h4,hsplit] at hhead
    exact ⟨_,buf.drop 19,hhead,by simp [length_slice (show 1+16 ≤ buf.length by omega)],
      .ipV6 _ _ (length_slice (by omega))⟩

/-! The line before the address. -/

variable {c : Crypto}

/-- The character for a value below sixteen: `0` to `9` are 48 to 57, `a` to `f` are 97 to 102. -/
def hexCode (n : ℕ) : UInt8 := UInt8.ofNat (if n < 10 then 48+n else 87+n)

/-- The SHA-224 of the password, two hex characters for each byte. -/
def trojanHash (c : Crypto) (password : String) : Bytes :=
  (c.sha224 (textBytes password)).flatMap (fun b => [hexCode (b.toNat/16),hexCode (b.toNat%16)])

lemma hexDigit_eq (b : UInt8) : [hexDigit (b.toNat/16),hexDigit (b.toNat%16)] =
    [hexCode (b.toNat/16),hexCode (b.toNat%16)] := by
  have hall : ∀ n < 16, hexDigit n = hexCode n := by decide +kernel
  have hlt := byte_lt b
  rw [hall _ (by omega),hall _ (by omega)]

lemma trojanAuthLine_eq (password : String) : trojanAuthLine c password =
    trojanHash c password++[13,10] := by
  simp only [trojanAuthLine,trojanHash,hexDigit_eq]

lemma length_trojanHash (hsha : ∀ x, (c.sha224 x).length = 28) (password : String) :
    (trojanHash c password).length = 56 := by
  simp [trojanHash,hsha]

lemma hexCode_ne (hn : n < 16) : hexCode n ≠ 13 := by
  have h : ∀ m < 16, hexCode m ≠ 13 := by decide +kernel
  exact h n hn

lemma notMem_trojanHash (password : String) : 13 ∉ trojanHash c password := by
  intro h
  obtain ⟨b,_,hb⟩ := List.mem_flatMap.mp h
  have hlt := byte_lt b
  simp only [mem_cons,not_mem_nil,or_false] at hb
  rcases hb with hb | hb
  all_goals exact hexCode_ne (by omega) hb.symm

lemma crlfPosition_line {l : Bytes} (h : 13 ∉ l) (rest : Bytes) (i : ℕ) :
    crlfPosition i (l++13::10::rest) = some (i+l.length) := by
  induction l generalizing i with
  | nil => rfl
  | cons b l ih =>
    rw [mem_cons,not_or] at h
    have hskip : crlfPosition i (b::(l++13::10::rest)) = crlfPosition (i+1) (l++13::10::rest) := by
      rw [crlfPosition]
      intro r hr
      exact absurd hr (Ne.symm h.1)
    rw [cons_append,hskip,ih h.2,length_cons]
    congr 1
    omega

lemma drop_crlfPosition {i p : ℕ} (h : crlfPosition i buf = some p) :
    ∃ rest, i ≤ p ∧ buf.drop (p-i) = 13::10::rest := by
  induction buf generalizing i with
  | nil => cases h
  | cons b buf ih =>
    by_cases hline : ∃ rest, b::buf = 13::10::rest
    · obtain ⟨rest,hrest⟩ := hline
      rw [hrest] at h ⊢
      cases h
      exact ⟨rest,le_rfl,by rw [Nat.sub_self]; rfl⟩
    · have hskip : crlfPosition i (b::buf) = crlfPosition (i+1) buf := by
        rw [crlfPosition]
        intro r hr hr'
        exact hline ⟨r,by rw [hr,hr']⟩
      rw [hskip] at h
      obtain ⟨rest,hle,hdrop⟩ := ih h
      refine ⟨rest,by omega,?_⟩
      rw [show p-i = p-(i+1)+1 by omega,drop_succ_cons]
      exact hdrop

lemma trojanServerHandshake_line (hsha : ∀ x, (c.sha224 x).length = 28) (password : String)
    {tail : Bytes}
    (h : trojanParseAddress (a++tail) = .ok (some (addr,a.length))) :
    trojanServerHandshake c (trojanAuthLine c password++a++tail) password =
      .ready ⟨addr,(trojanAuthLine c password++a).length⟩ := by
  have hlen := length_trojanHash hsha password
  have hbuf : trojanAuthLine c password++a++tail = trojanHash c password++13::10::(a++tail) := by
    simp only [trojanAuthLine_eq,append_assoc,cons_append,nil_append]
  have hpos : crlfPosition 0 (trojanHash c password++13::10::(a++tail)) = some 56 := by
    rw [crlfPosition_line (notMem_trojanHash password),hlen]
  have htake : (trojanHash c password++13::10::(a++tail)).take 56 = trojanHash c password :=
    take_left' hlen
  have hverify : trojanParseAndVerify c (trojanHash c password) password = true := by
    simp [trojanParseAndVerify,hlen,trojanAuthLine_eq,take_left' hlen]
  have hdrop : (trojanHash c password++13::10::(a++tail)).drop 58 = a++tail := by
    rw [show 58 = 56+2 by rfl,← drop_drop,drop_left' hlen]
    rfl
  -- an empty buffer holds no address
  have hmore : ¬(trojanHash c password++13::10::(a++tail)).length ≤ 58 := by
    have hne : a++tail ≠ [] := by
      intro hnil
      rw [hnil] at h
      cases h
    have hpos := length_pos_of_ne_nil hne
    simp only [length_append,length_cons,hlen] at hpos ⊢
    omega
  have hauth : (trojanAuthLine c password++a).length = 58+a.length := by
    simp only [trojanAuthLine_eq,length_append,length_cons,length_nil,hlen]
  have hline : ¬((trojanHash c password).length ≠ 56 ∨
      trojanParseAndVerify c (trojanHash c password) password = false) := by
    simp [hlen,hverify]
  rw [hbuf,hauth,trojanServerHandshake,hpos,Option.elim_some]
  simp only [lt_irrefl,if_false,htake,if_neg hline,if_neg hmore,hdrop,h]

lemma trojanServerHandshake_ready (hsha : ∀ x, (c.sha224 x).length = 28) {password : String}
    {r : TrojanReady} (h : trojanServerHandshake c buf password = .ready r) :
    ∃ rest n, buf = trojanHash c password++[13,10]++rest ∧
      trojanParseAddress rest = .ok (some (r.addr,n)) ∧ r.payloadOffset = 58+n := by
  have hlen := length_trojanHash hsha password
  cases hpos : crlfPosition 0 buf with
  | none => simp [trojanServerHandshake,hpos] at h
  | some pos =>
    obtain ⟨rest,_,hdrop⟩ := drop_crlfPosition hpos
    rw [Nat.sub_zero] at hdrop
    simp only [trojanServerHandshake,hpos,Option.elim_some] at h
    split_ifs at h with hshort hline hmore
    rw [not_or,not_not,Bool.not_eq_false] at hline
    have htake : buf.take pos = trojanHash c password := by
      have hverify := hline.2
      simp only [trojanParseAndVerify,trojanAuthLine_eq,take_left' hlen,Bool.and_eq_true,
        decide_eq_true_eq] at hverify
      exact hverify.2
    have hpos56 : pos = 56 := by
      have hle := hline.1
      rw [length_take] at hle
      have hlt : pos < buf.length := by
        by_contra hge
        rw [drop_eq_nil_of_le (by omega)] at hdrop
        cases hdrop
      omega
    have hafter : buf.drop (pos+2) = rest := by
      rw [← drop_drop,hdrop]
      rfl
    have hbuf : buf = trojanHash c password++[13,10]++rest := by
      rw [← htake,append_assoc]
      change buf = buf.take pos++13::10::rest
      rw [← hdrop,take_append_drop]
    rw [hafter] at h
    cases hparse : trojanParseAddress rest with
    | error e => simp [hparse] at h
    | ok o =>
      cases o with
      | none => simp [hparse] at h
      | some p =>
        obtain ⟨addr,n⟩ := p
        simp only [hparse,Verdict.ready.injEq] at h
        subst h
        exact ⟨rest,n,hbuf,hparse,by rw [hpos56]⟩

/-- Every greeting is read back: with the address that the host spells, and up to the tail. And
only a greeting is accepted: the line with the hash of the password, and a well-formed address. -/
theorem trojan_round_trip (c : Crypto) (ips : IpLiterals) (hsha : ∀ x, (c.sha224 x).length = 28) :
    (∀ (password host : String) (port : UInt16) (tail : Bytes),
      IsIpLiteral ips host ∨ (textBytes host).length ≤ 255 →
      ∃ a, trojanBuildAddress ips ⟨host,port.toNat⟩ = .ok a ∧
        (∀ params : WireParams, params.password = some password →
          trojanFirstChunk c ips params host port tail = .ok (trojanAuthLine c password++a++tail)) ∧
        trojanServerHandshake c (trojanAuthLine c password++a++tail) password =
          .ready ⟨⟨hostText ips host,port.toNat⟩,(trojanAuthLine c password++a).length⟩) ∧
    ∀ (password : String) (buf : Bytes) (r : TrojanReady),
      trojanServerHandshake c buf password = .ready r →
      ∃ a rest, buf = trojanHash c password++[13,10]++a++rest ∧
        (trojanHash c password).length = 56 ∧ WellFormedAddress a r.addr ∧
        r.payloadOffset = (trojanHash c password++[13,10]++a).length := by
  constructor
  · intro password host port tail hhost
    obtain ⟨a,ha⟩ := trojanBuildAddress_ok port.toNat hhost
    refine ⟨a,ha,?_,trojanServerHandshake_line hsha password
      (trojanParseAddress_build tail port.toNat_lt ha)⟩
    intro params hpassword
    simp only [trojanFirstChunk,hpassword,ha,Except.map]
  · intro password buf r hready
    have hlen := length_trojanHash hsha password
    obtain ⟨body,n,hbuf,hparse,hoffset⟩ := trojanServerHandshake_ready hsha hready
    obtain ⟨a,rest,hbody,hn,hformed⟩ := wellFormed_of_parse hparse
    refine ⟨a,rest,by rw [hbuf,hbody,append_assoc _ a],hlen,hformed,?_⟩
    simp only [hoffset,length_append,length_cons,length_nil,hlen,hn]

/-- The first bytes of a text in place of its hash: texts that differ there have two hashes. -/
def firstBytes : Crypto :=
  { zeroCrypto with sha224 := fun x => (x++List.replicate 28 0xAB).take 28 }

theorem trojan_round_trip_host : ∃ a, trojanBuildAddress namesOnly ⟨"host",80⟩ = .ok a ∧
      trojanServerHandshake firstBytes (trojanAuthLine firstBytes "pw"++a++[1,2]) "pw" =
        .ready ⟨⟨"host",80⟩,(trojanAuthLine firstBytes "pw"++a).length⟩ ∧
      ∀ buf r, trojanServerHandshake firstBytes buf "pw" = .ready r →
        buf.take 6 = textBytes "7077ab" := by
  have hsha : ∀ x, (firstBytes.sha224 x).length = 28 := fun x => by simp [firstBytes]
  obtain ⟨hsend,hread⟩ := trojan_round_trip firstBytes namesOnly hsha
  obtain ⟨a,ha,_,hready⟩ := hsend "pw" "host" 80 [1,2] (.inr (by decide +kernel))
  refine ⟨a,ha,hready,fun buf r hr => ?_⟩
  obtain ⟨b,rest,rfl,hlen,_⟩ := hread "pw" buf r hr
  rw [append_assoc,append_assoc,take_append_of_le_length (by rw [hlen]; decide)]
  decide +kernel

end PirateServer.Wire
