import Mathlib

/-! Bytes as the standard library of the source handles them: indexing and slicing a buffer,
big-endian words, UTF-8, and internet addresses in text. -/
namespace PirateServer.Lib.Bytes
open List

/-- `buf[i]`, read after a test that there are more than `i` bytes. -/
def byteAt (buf : List UInt8) (i : ℕ) : UInt8 := buf.getD i 0

/-- `buf[i..i + n]`. -/
def slice (buf : List UInt8) (i n : ℕ) : List UInt8 := (buf.drop i).take n

/-- `u16::from_be_bytes`. -/
def be16 (hi lo : UInt8) : ℕ := hi.toNat*256+lo.toNat

def wordAt (buf : List UInt8) (i : ℕ) : ℕ := be16 (byteAt buf i) (byteAt buf (i+1))

variable {b : List UInt8} {i n : ℕ}

lemma byteAt_append (h : i < b.length) (x : List UInt8) : byteAt (b++x) i = byteAt b i := by
  simp [byteAt,getD_eq_getElem?_getD,getElem?_append_left h]

lemma slice_append (h : i+n ≤ b.length) (x : List UInt8) : slice (b++x) i n = slice b i n := by
  unfold slice
  rw [drop_append_of_le_length (by omega),take_append_of_le_length]
  rw [length_drop]
  omega

lemma wordAt_append (h : i+1 < b.length) (x : List UInt8) : wordAt (b++x) i = wordAt b i := by
  unfold wordAt
  rw [byteAt_append (by omega),byteAt_append h]

lemma drop_append (h : i ≤ b.length) (x : List UInt8) : (b++x).drop i = b.drop i++x :=
  drop_append_of_le_length h

lemma slice_drop (b : List UInt8) (i j n : ℕ) : slice (b.drop i) j n = slice b (i+j) n := by
  unfold slice
  rw [drop_drop]

lemma byteAt_drop (b : List UInt8) (i j : ℕ) : byteAt (b.drop i) j = byteAt b (i+j) := by
  simp [byteAt,getD_eq_getElem?_getD]

/-! A buffer is put together again from what is read of it. -/

lemma drop_eq_byteAt (b : List UInt8) (h : i < b.length) : b.drop i = byteAt b i::b.drop (i+1) := by
  rw [byteAt,getD_eq_getElem _ _ h]
  exact drop_eq_getElem_cons h

lemma drop_eq_slice (b : List UInt8) (i n : ℕ) : b.drop i = slice b i n++b.drop (i+n) := by
  rw [slice,← drop_drop]
  exact (take_append_drop n _).symm

lemma length_slice (h : i+n ≤ b.length) : (slice b i n).length = n := by
  rw [slice,length_take,length_drop]
  omega

lemma wordAt_drop (b : List UInt8) (i j : ℕ) : wordAt (b.drop i) j = wordAt b (i+j) := by
  rw [wordAt,byteAt_drop,byteAt_drop]
  rfl

lemma byte_lt (b : UInt8) : b.toNat < 256 := UInt8.toNat_lt b

lemma wordAt_lt (buf : List UInt8) (i : ℕ) : wordAt buf i < 65536 := by
  have hi := byte_lt (byteAt buf i)
  have lo := byte_lt (byteAt buf (i+1))
  unfold wordAt be16
  omega

/-- `to_be_bytes` of a word with `k` bytes. -/
def toBe : ℕ → ℕ → List UInt8
  | 0,_ => []
  | k+1,n => toBe k (n/256)++[UInt8.ofNat n]

@[simp] lemma length_toBe (k n : ℕ) : (toBe k n).length = k := by
  induction k generalizing n with
  | zero => rfl
  | succ k ih => simp [toBe,ih]

lemma foldl_toBe (k n a : ℕ) :
    (toBe k n).foldl (fun acc b => acc*256+b.toNat) a = a*256^k+n%256^k := by
  induction k generalizing n with
  | zero => simp [toBe,Nat.mod_one]
  | succ k ih =>
    have hbyte : (UInt8.ofNat n).toNat = n%256 := UInt8.toNat_ofNat'
    rw [toBe,foldl_append,ih,foldl_cons,foldl_nil,hbyte,pow_succ',Nat.mod_mul]
    ring

lemma toBe_wordAt (b : List UInt8) (i : ℕ) : toBe 2 (wordAt b i) = [byteAt b i,byteAt b (i+1)] := by
  have hhigh := byte_lt (byteAt b i)
  have hlow := byte_lt (byteAt b (i+1))
  have hdiv : wordAt b i/256 = (byteAt b i).toNat := by
    unfold wordAt be16
    omega
  have hmod : UInt8.ofNat (wordAt b i) = byteAt b (i+1) := by
    apply UInt8.toNat_inj.mp
    rw [UInt8.toNat_ofNat']
    unfold wordAt be16
    omega
  simp only [toBe,hdiv,hmod,UInt8.ofNat_toNat,nil_append,singleton_append]

lemma toBe_inj {k m : ℕ} (hn : n < 256^k) (hm : m < 256^k) (h : toBe k n = toBe k m) : n = m := by
  induction k generalizing n m with
  | zero => omega
  | succ k ih =>
    obtain ⟨hhigh,hlow⟩ := append_inj' h rfl
    rw [pow_succ] at hn hm
    have hdiv : n/256 = m/256 :=
      ih (Nat.div_lt_of_lt_mul (by omega)) (Nat.div_lt_of_lt_mul (by omega)) hhigh
    have hbyte : UInt8.ofNat n = UInt8.ofNat m := by simpa using hlow
    have hmod : n%256 = m%256 := by simpa using congrArg UInt8.toNat hbyte
    omega

/-- `str::as_bytes`. -/
def ofText (s : String) : List UInt8 := s.toByteArray.data.toList

lemma ofText_inj {s t : String} (h : ofText s = ofText t) : s = t := by
  apply String.toByteArray_inj.mp
  apply ByteArray.ext
  exact Array.toList_inj.mp h

/-! UTF-8. A sequence is a lead byte and one to three bytes that continue it; the range of the
first of these depends on the lead byte. -/

/-- How many bytes continue a lead byte, and the range of the first of them. -/
def utf8Lead (b : UInt8) : Option (ℕ × ℕ × ℕ) :=
  let n := b.toNat
  if n < 0x80 then some (0,0,0)
  else if n < 0xC2 then none
  else if n < 0xE0 then some (1,0x80,0xBF)
  else if n = 0xE0 then some (2,0xA0,0xBF)
  else if n = 0xED then some (2,0x80,0x9F)
  else if n < 0xF0 then some (2,0x80,0xBF)
  else if n = 0xF0 then some (3,0x90,0xBF)
  else if n < 0xF4 then some (3,0x80,0xBF)
  else if n = 0xF4 then some (3,0x80,0x8F)
  else none

/-- How many bytes, of at most `k`, continue a sequence. -/
def utf8Continued : ℕ → ℕ → ℕ → List UInt8 → ℕ
  | 0,_,_,_ => 0
  | _,_,_,[] => 0
  | k+1,lo,hi,b::bs =>
    if lo ≤ b.toNat ∧ b.toNat ≤ hi then utf8Continued k 0x80 0xBF bs+1 else 0

def utf8Value (b : UInt8) (bs : List UInt8) : ℕ :=
  bs.foldl (fun acc c => acc*64+c.toNat%64) (if bs = [] then b.toNat else b.toNat%2^(6-bs.length))

/-- The first character, or nothing for bytes that begin none, and how many bytes it takes. -/
def utf8Head (b : UInt8) (bs : List UInt8) : Option Char × ℕ :=
  match utf8Lead b with
  | none => (none,1)
  | some (k,lo,hi) =>
    let n := utf8Continued k lo hi bs
    if n = k then (some (Char.ofNat (utf8Value b (bs.take k))),k+1) else (none,n+1)

/-- The characters, with a gap for each longest run of bytes that begins a character and does
not complete it. At most `n` of them, which is enough if there are `n` bytes. -/
def utf8Pieces : ℕ → List UInt8 → List (Option Char)
  | 0,_ => []
  | _,[] => []
  | n+1,b::bs => (utf8Head b bs).1::utf8Pieces n ((b::bs).drop (utf8Head b bs).2)

/-- `str::from_utf8`. -/
def fromUtf8 (bytes : List UInt8) : Option String :=
  ((utf8Pieces bytes.length bytes).mapM id).map String.ofList

/-- `String::from_utf8_lossy`. -/
def fromUtf8Lossy (bytes : List UInt8) : String :=
  String.ofList ((utf8Pieces bytes.length bytes).map (fun c => c.getD '�'))

/-- `Utf8Error` as `Display` prints it: where the bytes, counted from `i` on, stop being UTF-8,
and how many of them are to blame unless the text only ends too early. -/
def utf8Error : ℕ → ℕ → List UInt8 → String
  | 0,_,_ => ""
  | _,_,[] => ""
  | n+1,i,b::bs =>
    match utf8Head b bs with
    | (some _,k) => utf8Error n (i+k) ((b::bs).drop k)
    | (none,k) =>
      if (utf8Lead b).isSome ∧ k = bs.length+1 then
        "incomplete utf-8 byte sequence from index "++i.repr
      else "invalid utf-8 sequence of "++k.repr++" bytes from index "++i.repr

def utf8ErrorText (bytes : List UInt8) : String := utf8Error bytes.length 0 bytes

example : fromUtf8 [0x61,0xC3,0xA9,0xE2,0x82,0xAC] = some "aé€" := by decide +kernel
example : fromUtf8 [0x61,0xE2,0x82] = none := by decide +kernel
example : fromUtf8Lossy [0xE2,0x82,0x61,0xFF] = "�a�" := by decide +kernel

/-! Addresses in text. -/

/-- `Ipv4Addr` as `Display` prints it. -/
def ipv4Text (b : List UInt8) : String := ".".intercalate (b.map (fun x => x.toNat.repr))

/-- The longest run of zeros in a list of segments, the first one of several: the run that ends
here, the longest one before, and the index of the next segment. -/
def longestZeros : ℕ × ℕ → ℕ × ℕ → ℕ → List ℕ → ℕ × ℕ
  | _,longest,_,[] => longest
  | (start,len),longest,i,x::xs =>
    if x = 0 then
      let current := if len = 0 then (i,1) else (start,len+1)
      longestZeros current (if longest.2 < current.2 then current else longest) (i+1) xs
    else longestZeros (0,0) longest (i+1) xs

def hexSegments (xs : List ℕ) : String :=
  ":".intercalate (xs.map (fun x => String.ofList (Nat.toDigits 16 x)))

/-- `Ipv6Addr` as `Display` prints it: an embedded IPv4 address in decimal, else the longest run
of at least two zero segments left out. -/
def ipv6Text (b : List UInt8) : String :=
  if slice b 0 12 = List.replicate 10 0++[0xFF,0xFF] then "::ffff:"++ipv4Text (slice b 12 4)
  else
    let segments := (List.range 8).map (fun i => wordAt b (2*i))
    let (start,len) := longestZeros (0,0) (0,0) 0 segments
    if 1 < len then hexSegments (segments.take start)++"::"++hexSegments (segments.drop (start+len))
    else hexSegments segments

example : ipv6Text [0x20,1,0xd,0xb8,0,0,0,0,0,0,0,0,0,0,0,1] = "2001:db8::1" := by decide +kernel
example : ipv6Text [0,0,0,0,0,0,0,0,0,0,0xFF,0xFF,10,0,0,1] = "::ffff:10.0.0.1" := by
  decide +kernel

end PirateServer.Lib.Bytes
