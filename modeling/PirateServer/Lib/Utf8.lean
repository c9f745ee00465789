import PirateServer.Lib.Bytes

/-! The decoder of UTF-8 against the encoder of the library: a text is read back from its bytes,
and from no shorter beginning of them. -/
namespace PirateServer.Lib.Bytes
open List Option

def encodeChars (cs : List Char) : List UInt8 := cs.flatMap String.utf8EncodeChar

lemma ofText_eq (s : String) : ofText s = encodeChars s.toList := by
  conv_lhs => rw [← String.ofList_toList (s := s)]
  rw [ofText,String.toByteArray_ofList,List.utf8Encode,encodeChars]
  simp

/-- The bytes of a character: a lead byte and as many continuations as it announces. -/
structure Encodes (c : Char) (b : UInt8) (bs : List UInt8) : Prop where
  bytes : String.utf8EncodeChar c = b::bs
  value : utf8Value b bs = c.toNat
  lead : ∃ lo hi, utf8Lead b = some (bs.length,lo,hi) ∧
    ∀ rest, utf8Continued bs.length lo hi (bs++rest) = bs.length

lemma toNat_valid (c : Char) : c.toNat < 0xD800 ∨ (0xDFFF < c.toNat ∧ c.toNat < 0x110000) := c.valid

variable {n k : ℕ}

lemma toNat_ofNat_byte (h : n < 256) : (UInt8.ofNat n).toNat = n := by
  simp [Nat.mod_eq_of_lt h]

lemma toNat_continuation (n : ℕ) : (UInt8.ofNat (n%64+128)).toNat = n%64+128 :=
  toNat_ofNat_byte (by omega)

lemma continuation_range (n : ℕ) : 0x80 ≤ n%64+128 ∧ n%64+128 ≤ 0xBF := by omega

variable {b : UInt8}

lemma utf8Lead_two (h : 0xC2 ≤ b.toNat) (h' : b.toNat < 0xE0) :
    utf8Lead b = some (1,0x80,0xBF) := by
  have hascii : ¬b.toNat < 0x80 := by omega
  simp only [utf8Lead,if_neg hascii,if_neg (not_lt.mpr h),if_pos h']

/-- The least and the largest lead byte of three have a range of their own: it keeps out what two
bytes can say, and surrogates. -/
lemma utf8Lead_three (h : 0xE0 ≤ b.toNat) (h' : b.toNat < 0xF0) :
    utf8Lead b = some (2,if b.toNat = 0xE0 then 0xA0 else 0x80,
      if b.toNat = 0xED then 0x9F else 0xBF) := by
  have hascii : ¬b.toNat < 0x80 := by omega
  have hcont : ¬b.toNat < 0xC2 := by omega
  simp only [utf8Lead,if_neg hascii,if_neg hcont,if_neg (not_lt.mpr h),if_pos h']
  by_cases hleast : b.toNat = 0xE0
  · have hother : b.toNat ≠ 0xED := by omega
    rw [if_pos hleast,if_pos hleast,if_neg hother]
  · rw [if_neg hleast,if_neg hleast]
    split_ifs
    · rfl
    · rfl

lemma utf8Lead_four (h : 0xF0 ≤ b.toNat) (h' : b.toNat ≤ 0xF4) :
    utf8Lead b = some (3,if b.toNat = 0xF0 then 0x90 else 0x80,
      if b.toNat = 0xF4 then 0x8F else 0xBF) := by
  have hascii : ¬b.toNat < 0x80 := by omega
  have hcont : ¬b.toNat < 0xC2 := by omega
  have htwo : ¬b.toNat < 0xE0 := by omega
  have hleast3 : ¬b.toNat = 0xE0 := by omega
  have hlast3 : ¬b.toNat = 0xED := by omega
  simp only [utf8Lead,if_neg hascii,if_neg hcont,if_neg htwo,if_neg hleast3,if_neg hlast3,
    if_neg (not_lt.mpr h)]
  by_cases hleast : b.toNat = 0xF0
  · have hother : b.toNat ≠ 0xF4 := by omega
    rw [if_pos hleast,if_pos hleast,if_neg hother]
  rw [if_neg hleast,if_neg hleast]
  by_cases hlast : b.toNat = 0xF4
  · have hnot : ¬b.toNat < 0xF4 := by omega
    rw [if_neg hnot,if_pos hlast,if_pos hlast]
  · have hlt : b.toNat < 0xF4 := by omega
    rw [if_pos hlt,if_neg hlast]

variable {c : Char}

lemma encodes_one (h : c.toNat ≤ 127) : Encodes c (UInt8.ofNat c.toNat) [] := by
  have hb : (UInt8.ofNat c.toNat).toNat = c.toNat := toNat_ofNat_byte (by omega)
  refine ⟨if_pos h,?_,0,0,?_,fun _ => rfl⟩
  · simp only [utf8Value,foldl_nil,if_true,hb]
  · have hlt : c.toNat < 0x80 := by omega
    simp only [utf8Lead,hb,hlt,if_true,length_nil]

lemma encodes_two (h : 127 < c.toNat) (h' : c.toNat ≤ 2047) :
    Encodes c (UInt8.ofNat (c.toNat/64%32+192)) [UInt8.ofNat (c.toNat%64+128)] := by
  have hb : (UInt8.ofNat (c.toNat/64%32+192)).toNat = c.toNat/64%32+192 :=
    toNat_ofNat_byte (by omega)
  refine ⟨(if_neg (not_le.mpr h)).trans (if_pos h'),?_,0x80,0xBF,?_,fun rest => ?_⟩
  · simp only [utf8Value,foldl_cons,foldl_nil,length_cons,length_nil,
      cons_ne_nil,if_false,hb,toNat_continuation]
    omega
  · exact utf8Lead_two (by rw [hb]; omega) (by rw [hb]; omega)
  · simp only [utf8Continued,length_cons,length_nil,cons_append,
      toNat_continuation,continuation_range,if_true,and_self]

lemma encodes_three (h : 2047 < c.toNat) (h' : c.toNat ≤ 65535) :
    Encodes c (UInt8.ofNat (c.toNat/4096%16+224))
      [UInt8.ofNat (c.toNat/64%64+128),UInt8.ofNat (c.toNat%64+128)] := by
  have hv := toNat_valid c
  have hb : (UInt8.ofNat (c.toNat/4096%16+224)).toNat = c.toNat/4096%16+224 :=
    toNat_ofNat_byte (by omega)
  have hlead : ∃ lo hi, utf8Lead (UInt8.ofNat (c.toNat/4096%16+224)) = some (2,lo,hi) ∧
      lo ≤ c.toNat/64%64+128 ∧ c.toNat/64%64+128 ≤ hi := by
    refine ⟨_,_,utf8Lead_three (by rw [hb]; omega) (by rw [hb]; omega),?_,?_⟩
    all_goals
      rw [hb]
      split_ifs
      · omega
      · omega
  obtain ⟨lo,hi,hlead,hlo,hhi⟩ := hlead
  have hnot : ¬ c.toNat ≤ 127 := by omega
  refine ⟨(if_neg hnot).trans ((if_neg (not_le.mpr h)).trans (if_pos h')),?_,lo,hi,hlead,
    fun rest => ?_⟩
  · simp only [utf8Value,foldl_cons,foldl_nil,length_cons,length_nil,
      cons_ne_nil,if_false,hb,toNat_continuation]
    omega
  · simp only [utf8Continued,length_cons,length_nil,cons_append,
      toNat_continuation,continuation_range,hlo,hhi,if_true,and_self]

lemma encodes_four (h : 65535 < c.toNat) : Encodes c (UInt8.ofNat (c.toNat/262144%8+240))
      [UInt8.ofNat (c.toNat/4096%64+128),UInt8.ofNat (c.toNat/64%64+128),
        UInt8.ofNat (c.toNat%64+128)] := by
  have hv := toNat_valid c
  have hb : (UInt8.ofNat (c.toNat/262144%8+240)).toNat = c.toNat/262144%8+240 :=
    toNat_ofNat_byte (by omega)
  have hlead : ∃ lo hi, utf8Lead (UInt8.ofNat (c.toNat/262144%8+240)) = some (3,lo,hi) ∧
      lo ≤ c.toNat/4096%64+128 ∧ c.toNat/4096%64+128 ≤ hi := by
    refine ⟨_,_,utf8Lead_four (by rw [hb]; omega) (by rw [hb]; omega),?_,?_⟩
    all_goals
      rw [hb]
      split_ifs
      · omega
      · omega
  obtain ⟨lo,hi,hlead,hlo,hhi⟩ := hlead
  have hnot : ¬ c.toNat ≤ 127 := by omega
  have hnot' : ¬ c.toNat ≤ 2047 := by omega
  refine ⟨(if_neg hnot).trans ((if_neg hnot').trans (if_neg (not_le.mpr h))),?_,lo,hi,
    hlead,fun rest => ?_⟩
  · simp only [utf8Value,foldl_cons,foldl_nil,length_cons,length_nil,
      cons_ne_nil,if_false,hb,toNat_continuation]
    omega
  · simp only [utf8Continued,length_cons,length_nil,cons_append,
      toNat_continuation,continuation_range,hlo,hhi,if_true,and_self]

lemma exists_encodes (c : Char) : ∃ b bs, Encodes c b bs := by
  by_cases h1 : c.toNat ≤ 127
  · exact ⟨_,_,encodes_one h1⟩
  · by_cases h2 : c.toNat ≤ 2047
    · exact ⟨_,_,encodes_two (by omega) h2⟩
    · by_cases h3 : c.toNat ≤ 65535
      · exact ⟨_,_,encodes_three (by omega) h3⟩
      · exact ⟨_,_,encodes_four (by omega)⟩

variable {bs : List UInt8}

lemma Encodes.head (h : Encodes c b bs) (rest : List UInt8) :
    utf8Head b (bs++rest) = (some c,bs.length+1) := by
  obtain ⟨lo,hi,hlead,hcont⟩ := h.lead
  simp only [utf8Head,hlead,hcont rest,if_true,take_left,h.value]
  rw [Char.ofNat_toNat]

lemma utf8Continued_le (k lo hi : ℕ) (bs : List UInt8) : utf8Continued k lo hi bs ≤ bs.length := by
  induction bs generalizing k lo hi with
  | nil => cases k <;> simp [utf8Continued]
  | cons b bs ih =>
    cases k with
    | zero => simp [utf8Continued]
    | succ k =>
      have hle := ih k 0x80 0xBF
      simp only [utf8Continued,length_cons]
      split_ifs
      · omega
      · omega

lemma Encodes.head_take (h : Encodes c b bs) (hk : k < bs.length) :
    (utf8Head b (bs.take k)).1 = none := by
  obtain ⟨lo,hi,hlead,-⟩ := h.lead
  have hle := utf8Continued_le bs.length lo hi (bs.take k)
  rw [length_take] at hle
  have hne : utf8Continued bs.length lo hi (bs.take k) ≠ bs.length := by omega
  simp only [utf8Head,hlead,hne,if_false]

lemma le_of_mem_encodeChar (hc : 127 < c.toNat)
    (hb : b ∈ String.utf8EncodeChar c) : 128 ≤ b.toNat := by
  have hhigh : ∀ n, 128 ≤ n → n < 256 → 128 ≤ (UInt8.ofNat n).toNat := by
    intro n hn hlt
    rw [toNat_ofNat_byte hlt]
    exact hn
  by_cases h2 : c.toNat ≤ 2047
  · rw [(encodes_two hc h2).bytes] at hb
    simp only [mem_cons,not_mem_nil,or_false] at hb
    rcases hb with rfl | rfl <;> exact hhigh _ (by omega) (by omega)
  · by_cases h3 : c.toNat ≤ 65535
    · rw [(encodes_three (by omega) h3).bytes] at hb
      simp only [mem_cons,not_mem_nil,or_false] at hb
      rcases hb with rfl | rfl | rfl <;> exact hhigh _ (by omega) (by omega)
    · rw [(encodes_four (by omega)).bytes] at hb
      simp only [mem_cons,not_mem_nil,or_false] at hb
      rcases hb with rfl | rfl | rfl | rfl <;> exact hhigh _ (by omega) (by omega)

lemma eq_of_mem_encodeChar (hb : b ∈ String.utf8EncodeChar c) (hlow : b.toNat < 128) :
    c.toNat = b.toNat := by
  by_cases hc : c.toNat ≤ 127
  · rw [(encodes_one hc).bytes,mem_singleton] at hb
    rw [hb,toNat_ofNat_byte (by omega)]
  · have := le_of_mem_encodeChar (by omega) hb
    omega

lemma utf8Pieces_cons (c : Char) (rest : List UInt8) (n : ℕ) :
    utf8Pieces (n+1) (String.utf8EncodeChar c++rest) = some c::utf8Pieces n rest := by
  obtain ⟨b,bs,h⟩ := exists_encodes c
  rw [h.bytes,cons_append,utf8Pieces,h.head rest]
  simp

lemma length_encodeChar_pos (c : Char) : 0 < (String.utf8EncodeChar c).length := by
  obtain ⟨b,bs,h⟩ := exists_encodes c
  simp [h.bytes]

lemma utf8Pieces_encodeChars (cs : List Char) (hn : cs.length ≤ n) :
    utf8Pieces n (encodeChars cs) = cs.map some := by
  induction cs generalizing n with
  | nil => cases n <;> rfl
  | cons c cs ih =>
    obtain ⟨m,rfl⟩ : ∃ m, n = m+1 := ⟨n-1,by rw [length_cons] at hn; omega⟩
    rw [length_cons] at hn
    rw [encodeChars,flatMap_cons,utf8Pieces_cons,map_cons]
    exact congrArg _ (ih (by omega))

lemma length_le_encodeChars (cs : List Char) : cs.length ≤ (encodeChars cs).length := by
  induction cs with
  | nil => simp
  | cons c cs ih =>
    have hpos := length_encodeChar_pos c
    simp only [encodeChars,flatMap_cons,length_cons,length_append] at ih ⊢
    omega

lemma mapM_id_map_some {α : Type} (l : List α) : (l.map some).mapM id = some l := by
  induction l with
  | nil => rfl
  | cons a l ih => simp [mapM_cons,ih]

/-- A text is read back from its bytes. -/
theorem fromUtf8_ofText (s : String) : fromUtf8 (ofText s) = some s := by
  rw [fromUtf8,ofText_eq,utf8Pieces_encodeChars _ (length_le_encodeChars _),mapM_id_map_some,
    map_some,String.ofList_toList]

lemma eq_map_some_of_mapM_id {α : Type} {l : List (Option α)} {cs : List α}
    (h : l.mapM id = some cs) : l = cs.map some := by
  induction l generalizing cs with
  | nil =>
    simp only [mapM_nil,Option.pure_def,Option.some.injEq] at h
    simp [← h]
  | cons a l ih =>
    simp only [mapM_cons,id,bind_eq_bind,bind_eq_some_iff,Option.pure_def,Option.some.injEq] at h
    obtain ⟨a,rfl,rest,hrest,rfl⟩ := h
    rw [ih hrest,map_cons]

/-- Bytes that are a text are the same text to the reading that replaces what it cannot read. -/
theorem fromUtf8Lossy_eq {b : List UInt8} {s : String} (h : fromUtf8 b = some s) :
    fromUtf8Lossy b = s := by
  simp only [fromUtf8,map_eq_some_iff] at h
  obtain ⟨cs,hcs,rfl⟩ := h
  rw [fromUtf8Lossy,eq_map_some_of_mapM_id hcs,List.map_map]
  exact congrArg _ (List.map_id cs)

lemma mapM_pieces_take_ne (cs : List Char) (hk : k < (encodeChars cs).length) :
    (utf8Pieces n ((encodeChars cs).take k)).mapM id ≠ some cs := by
  induction cs generalizing k n with
  | nil => simp [encodeChars] at hk
  | cons c cs ih =>
    obtain ⟨b,bs,h⟩ := exists_encodes c
    have hbytes : encodeChars (c::cs) = (b::bs)++encodeChars cs := by
      rw [encodeChars,flatMap_cons,h.bytes]
      rfl
    rw [hbytes] at hk ⊢
    cases n with
    | zero => simp [utf8Pieces]
    | succ n =>
      cases k with
      | zero => simp [utf8Pieces]
      | succ k =>
        by_cases hcut : k < bs.length
        · have htake : ((b::bs)++encodeChars cs).take (k+1) = b::bs.take k := by
            rw [cons_append,take_succ_cons,take_append_of_le_length hcut.le]
          rw [htake,utf8Pieces,h.head_take hcut]
          simp [mapM_cons]
        · have htake : ((b::bs)++encodeChars cs).take (k+1) =
              String.utf8EncodeChar c++(encodeChars cs).take (k-bs.length) := by
            rw [h.bytes,cons_append,cons_append,take_succ_cons,take_append,
              take_of_length_le (not_lt.mp hcut)]
          have hrest : k-bs.length < (encodeChars cs).length := by
            simp only [cons_append,length_cons,length_append] at hk
            omega
          rw [htake,utf8Pieces_cons]
          intro heq
          simp only [mapM_cons,id_eq,Option.pure_def,bind_eq_bind,bind_some,
            bind_eq_some_iff,Option.some.injEq,List.cons.injEq,true_and] at heq
          obtain ⟨l,hl,rfl⟩ := heq
          exact ih hrest hl

theorem fromUtf8_take_ne {s : String} (hk : k < (ofText s).length) :
    fromUtf8 ((ofText s).take k) ≠ some s := by
  rw [ofText_eq] at hk ⊢
  intro h
  obtain ⟨cs,hcs,rfl⟩ := Option.map_eq_some_iff.mp h
  rw [String.toList_ofList] at hk hcs
  exact mapM_pieces_take_ne cs hk hcs

end PirateServer.Lib.Bytes
