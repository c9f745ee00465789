import PirateServer.Wire.Parsers

/-! No parser of a wire handshake takes back what it has decided: every byte that it reads lies
below a length that it has tested. -/
namespace PirateServer.Wire
open Lib Lib.Bytes List

variable {b : Bytes}

lemma readAddress_append {atype : UInt8} {r : VlessAddress × ℕ} (h : readAddress b atype = some r)
    (x : Bytes) : readAddress (b++x) atype = some r := by
  unfold readAddress at h ⊢
  dsimp only at h ⊢
  simp only [length_append]
  split_ifs at h with h1 h2 h3 h4
  · rw [if_pos ⟨h1.1,by omega⟩,slice_append (by omega)]
    exact h
  · have hpos : 0 < b.length := List.length_pos_iff.mpr h2.2
    have hx : b++x ≠ [] := by simp [h2.2]
    have hnot : ¬(atype = 1 ∧ 4 ≤ b.length+x.length) := by
      rintro ⟨h,_⟩
      rw [h2.1] at h
      exact absurd h (by decide)
    rw [if_neg hnot,if_pos ⟨h2.1,hx⟩,byteAt_append hpos,if_neg (by omega),slice_append (by omega)]
    exact h
  · have hnot : ¬(atype = 1 ∧ 4 ≤ b.length+x.length) := by
      rintro ⟨h,_⟩
      rw [h4.1] at h
      exact absurd h (by decide)
    have hnot2 : ¬(atype = 2 ∧ b++x ≠ []) := by
      rintro ⟨h,_⟩
      rw [h4.1] at h
      exact absurd h (by decide)
    rw [if_neg hnot,if_neg hnot2,if_pos ⟨h4.1,by omega⟩,slice_append (by omega)]
    exact h

variable {n i p : ℕ}

lemma readAddress_le {atype : UInt8} {addr : VlessAddress}
    (h : readAddress b atype = some (addr,n)) : n ≤ b.length := by
  unfold readAddress at h
  dsimp only at h
  split_ifs at h with h1 h2 h3 h4
  · cases h
    exact h1.2
  · obtain ⟨s,_,hs⟩ := Option.map_eq_some_iff.mp h
    cases hs
    omega
  · cases h
    exact h4.2

lemma readAddr_append {off : ℕ} {r : String × ℕ × ℕ} (h : readAddr b off = some r) (x : Bytes) :
    readAddr (b++x) off = some r := by
  unfold readAddr at h ⊢
  dsimp only at h ⊢
  simp only [length_append]
  have hoff : off < b.length := by
    by_contra hn
    rw [if_pos (by omega)] at h
    cases h
  rw [if_neg (by omega)] at h ⊢
  rw [byteAt_append hoff]
  split_ifs at h with h1 h2 h3 h4 h5 h6 h7
  · rw [if_pos h1,if_neg (by omega),slice_append (by omega),wordAt_append (by omega)]
    exact h
  · rw [if_neg h1,if_pos h3,if_neg (by omega),byteAt_append (by omega),if_neg (by omega),
      slice_append (by omega),wordAt_append (by omega)]
    exact h
  · rw [if_neg h1,if_neg h3,if_pos h6,if_neg (by omega),slice_append (by omega),
      wordAt_append (by omega)]
    exact h

lemma short_or {α : Type} {x : Bytes} {z v w : α} (h : n ≤ b.length → w = v) :
    (if b.length < n then z else v) = z ∨
      (if (b++x).length < n then z else w) = if b.length < n then z else v := by
  by_cases hb : b.length < n
  · exact .inl (if_pos hb)
  · right
    have hx : ¬(b++x).length < n := by
      rw [length_append]
      omega
    rw [if_neg hb,if_neg hx,h (by omega)]

/-- What `trojan_parse_address` finds or finds wrong it keeps; else it waits. -/
lemma trojanParseAddress_append (b x : Bytes) :
    trojanParseAddress b = .ok none ∨ trojanParseAddress (b++x) = trojanParseAddress b := by
  by_cases h3 : b.length < 3
  · left
    unfold trojanParseAddress
    rw [if_pos h3]
  have hx3 : ¬(b++x).length < 3 := by
    rw [length_append]
    omega
  have hb0 : byteAt (b++x) 0 = byteAt b 0 := byteAt_append (by omega) x
  have hb1 : byteAt (b++x) 1 = byteAt b 1 := byteAt_append (by omega) x
  unfold trojanParseAddress
  simp only [if_neg h3,if_neg hx3,hb0,hb1]
  by_cases h1 : byteAt b 0 = 1
  · simp only [if_pos h1]
    exact short_or (fun h => by rw [slice_append (by omega),wordAt_append (by omega)])
  simp only [if_neg h1]
  by_cases hd : byteAt b 0 = 3
  · simp only [if_pos hd]
    exact short_or (fun h => by rw [slice_append (by omega),wordAt_append (by omega)])
  simp only [if_neg hd]
  by_cases h4 : byteAt b 0 = 4
  · simp only [if_pos h4]
    exact short_or (fun h => by rw [slice_append (by omega),wordAt_append (by omega)])
  · right
    simp only [if_neg h4]

variable (c : Crypto)

theorem vlessHeader_stable (expected : Option Uuid) :
    Stable (fun buf => vlessHeader buf expected) := by
  intro b x
  unfold vlessHeader
  dsimp only
  refine .short (fun h22 => ?_)
  rw [byteAt_append (show 0 < b.length by omega),byteAt_append (show 17 < b.length by omega),
    slice_append (show 1+16 ≤ b.length by omega)]
  refine .ite Iff.rfl (fun _ => .refl _) (fun _ => .short (fun hcmd => ?_))
  rw [byteAt_append (show 18+(byteAt b 17).toNat < b.length by omega),
    byteAt_append (show 18+(byteAt b 17).toNat+3 < b.length by omega),
    wordAt_append (show 18+(byteAt b 17).toNat+1+1 < b.length by omega),
    drop_append (show 18+(byteAt b 17).toNat+4 ≤ b.length by omega)]
  refine .ite Iff.rfl (fun _ => .refl _) (fun _ => .short (fun _ => ?_))
  exact .option (fun r hr => readAddress_append hr x) (fun r _ => .short (fun _ => .refl _))

lemma crlfPosition_append (h : crlfPosition i b = some p) (x : Bytes) :
    crlfPosition i (b++x) = some p := by
  fun_induction crlfPosition i b with
  | case1 i bs => exact h
  | case2 i a bs hne ih =>
    rw [cons_append,crlfPosition]
    · exact ih h
    intro rest ha hbs
    cases bs with
    | nil => cases h
    | cons y ys =>
      cases hbs
      exact hne ys ha rfl
  | case3 i => cases h

lemma crlfPosition_lt (h : crlfPosition i b = some p) : i ≤ p ∧ p+2 ≤ i+b.length := by
  fun_induction crlfPosition i b with
  | case1 i bs =>
    cases h
    simp
  | case2 i a bs _ ih =>
    have hp := ih h
    simp only [length_cons]
    omega
  | case3 i => cases h

theorem trojanServerHandshake_stable (password : String) :
    Stable (fun buf => trojanServerHandshake c buf password) := by
  intro b x
  unfold trojanServerHandshake
  dsimp only
  refine .option (fun p hp => crlfPosition_append hp x) (fun p hp => ?_)
  have hlen := (crlfPosition_lt hp).2
  rw [take_append_of_le_length (by omega),drop_append (by omega)]
  refine .ite Iff.rfl (fun _ => .refl _) (fun _ => .ite Iff.rfl (fun _ => .refl _) (fun _ => ?_))
  by_cases hafter : b.length ≤ p+2
  · rw [if_pos hafter]
    exact .needMore _ _
  have hafter' : ¬(b++x).length ≤ p+2 := by
    rw [length_append]
    omega
  rw [if_neg hafter,if_neg hafter']
  rcases trojanParseAddress_append (b.drop (p+2)) x with h | h
  · rw [h]
    exact .needMore _ _
  · rw [h]
    exact .refl _

lemma vmessOpenHeaderByteLen_append (h : vmessOpenHeaderByteLen b = some n)
    (x : Bytes) : vmessOpenHeaderByteLen (b++x) = some n := by
  unfold vmessOpenHeaderByteLen at h ⊢
  split_ifs at h with h14
  rw [if_neg (by rw [length_append]; omega),wordAt_append (by omega)]
  exact h

lemma vmessOpenHeaderByteLen_ge (h : vmessOpenHeaderByteLen b = some n) : 14 ≤ n := by
  unfold vmessOpenHeaderByteLen at h
  split_ifs at h
  cases h
  omega

theorem vmessParse_stable (now : Int64) (uuid : Uuid) : Stable (vmessParse c now uuid) := by
  intro b x
  unfold vmessParse
  refine .option (fun n hn => vmessOpenHeaderByteLen_append hn x)
    (fun n _ => .short (fun hlen => ?_))
  rw [take_append_of_le_length hlen]
  exact .refl _

lemma decryptFirstPayload_append (b x : Bytes) (method password : String) :
    decryptFirstPayload c b method password = .ok none ∨
      decryptFirstPayload c (b++x) method password = decryptFirstPayload c b method password := by
  unfold decryptFirstPayload
  dsimp only
  cases c.cipherKind (Text.trim method) with
  | none => exact .inr rfl
  | some kind =>
    dsimp only
    by_cases hk : kind.isAead = false
    · right
      simp only [if_pos hk]
    simp only [if_neg hk]
    by_cases hs : b.length < kind.saltLen
    · exact .inl (if_pos hs)
    by_cases hl : b.length < kind.saltLen+(2+kind.tagLen)
    · left
      rw [if_neg hs,if_pos hl]
    have hs' : ¬(b++x).length < kind.saltLen := by
      rw [length_append]
      omega
    have hl' : ¬(b++x).length < kind.saltLen+(2+kind.tagLen) := by
      rw [length_append]
      omega
    simp only [if_neg hs,if_neg hl,if_neg hs',if_neg hl']
    rw [take_append_of_le_length (by omega),slice_append (by omega)]
    cases c.decryptPacket kind (c.opensslBytesToKey (textBytes password) kind.keyLen)
        (b.take kind.saltLen) 0 (slice b kind.saltLen (2+kind.tagLen)) with
    | none => exact .inr rfl
    | some lenPkt =>
      dsimp only
      by_cases h2 : lenPkt.length < 2
      · right
        simp only [if_pos h2]
      simp only [if_neg h2]
      exact short_or (fun h => by rw [slice_append h])

theorem ssTcpServerHandshake_stable (method password : String) :
    Stable (fun buf => ssTcpServerHandshake c buf method password) := by
  intro b x
  unfold ssTcpServerHandshake
  cases c.cipherKind (Text.trim method) with
  | none => exact .refl _
  | some kind =>
    refine .ite Iff.rfl (fun _ => .refl _) (fun _ => .short (fun _ => ?_))
    rcases decryptFirstPayload_append c b x method password with h | h
    · rw [h]
      exact .needMore _ _
    rw [h]
    cases decryptFirstPayload c b method password with
    | error e => exact .refl _
    | ok o =>
      cases o with
      | none => exact .needMore _ _
      | some r => exact .refl _

lemma socks5Request_stable (off : ℕ) : Stable (fun buf => socks5Request buf off) := by
  intro b x
  unfold socks5Request
  refine .short (fun h4 => ?_)
  rw [byteAt_append (show off < b.length by omega),byteAt_append (show off+1 < b.length by omega)]
  refine .ite Iff.rfl (fun _ => .refl _) (fun _ => .ite Iff.rfl (fun _ => .refl _) (fun _ => ?_))
  exact .option (fun r hr => readAddr_append hr x) (fun r _ => .refl _)

lemma socks5Auth_stable (off : ℕ) (user pass : Option String) :
    Stable (fun buf => socks5Auth buf off user pass) := by
  intro b x
  unfold socks5Auth
  dsimp only
  refine .short (fun h3 => ?_)
  rw [byteAt_append (show off < b.length by omega),byteAt_append (show off+1 < b.length by omega)]
  refine .ite Iff.rfl (fun _ => .refl _) (fun _ => .short (fun hu => ?_))
  rw [byteAt_append (show off+2+(byteAt b (off+1)).toNat < b.length by omega)]
  refine .short (fun hp => ?_)
  rw [slice_append (by omega),slice_append hp]
  exact .ite Iff.rfl (fun _ => .refl _) (fun _ => socks5Request_stable _ b x)

theorem socks5ServerParse_stable (requireAuth : Bool) (user pass : Option String) :
    Stable (fun buf => socks5ServerParse buf requireAuth user pass) := by
  intro b x
  unfold socks5ServerParse
  dsimp only
  refine .short (fun h3 => ?_)
  rw [byteAt_append (show 0 < b.length by omega),byteAt_append (show 1 < b.length by omega)]
  refine .ite Iff.rfl (fun _ => .refl _) (fun _ => .short (fun hm => ?_))
  rw [slice_append hm]
  refine .ite Iff.rfl (fun _ => ?_) (fun _ => ?_)
  · exact .ite Iff.rfl (fun _ => .refl _) (fun _ => socks5Auth_stable _ user pass b x)
  · exact .ite Iff.rfl (fun _ => .refl _) (fun _ => socks5Request_stable _ b x)

end PirateServer.Wire
