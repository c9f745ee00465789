import PirateServer.Wire.Tunnel
import PirateServer.Wire.TrojanRoundTrip

/-! The first frame of a QUIC stream. Encoding, decoding and the length of a frame agree on every
buffer. The server reads pieces until the frame is complete, but it looks at the size of all it has
received before it looks for the frame. -/
namespace PirateServer.Wire
open Lib Lib.Bytes List StreamInitFrame

/-- The errors of `encode`. -/
inductive InitEncodeError
  | ticketTooLong
  | invalidAddress
  deriving DecidableEq, Repr

def InitEncodeError.text : InitEncodeError → String
  | ticketTooLong => "ticket too long"
  | invalidAddress => "invalid address"

namespace StreamInitFrame

/-- The fields in the order of the wire; the lengths are cut to their fields. -/
def bytes (f : StreamInitFrame) : Bytes :=
  MAGIC++[1]++toBe 2 f.ticket.length++f.ticket++
    [f.command,f.addrType,UInt8.ofNat f.addr.length]++f.addr++toBe 2 f.port

def encode (f : StreamInitFrame) : Except InitEncodeError Bytes :=
  if 65535 < f.ticket.length then .error .ticketTooLong
  else if (UInt8.ofNat f.addr.length).toNat ≠ f.addr.length then .error .invalidAddress
  else .ok f.bytes

/-- The ticket and the address fit their length fields; the port is a `u16`. -/
structure Fits (f : StreamInitFrame) : Prop where
  ticket : f.ticket.length ≤ 65535
  addr : f.addr.length ≤ 255
  port : f.port < 65536

variable {f : StreamInitFrame}

lemma length_bytes : f.bytes.length = 12+f.ticket.length+f.addr.length := by
  simp only [bytes,MAGIC,length_append,length_cons,length_nil,length_toBe]
  omega

lemma encode_eq (hf : f.Fits) : f.encode = .ok f.bytes := by
  have haddr : (UInt8.ofNat f.addr.length).toNat = f.addr.length :=
    toNat_ofNat_byte (by have := hf.addr; omega)
  have hticket := hf.ticket
  simp only [encode,if_neg (show ¬65535 < f.ticket.length by omega),haddr,ne_eq,not_true,if_false]

/-! What is read at each offset of an encoded frame. -/

section
variable (t : Bytes)

lemma bytes_append : f.bytes++t = MAGIC++[1]++toBe 2 f.ticket.length++
    (f.ticket++([f.command,f.addrType,UInt8.ofNat
      f.addr.length]++(f.addr++(toBe 2 f.port++t)))) := by
  simp only [bytes,append_assoc]

lemma slice_magic : slice (f.bytes++t) 0 4 = MAGIC := by
  rw [bytes_append]
  rfl

lemma byteAt_version : byteAt (f.bytes++t) 4 = 1 := by
  rw [bytes_append]
  rfl

variable (hf : f.Fits)
include hf

lemma wordAt_ticket : wordAt (f.bytes++t) 5 = f.ticket.length := by
  have hticket := hf.ticket
  rw [bytes_append]
  exact wordAt_after _ rfl (by omega)

omit hf in
lemma slice_ticket : slice (f.bytes++t) 7 f.ticket.length = f.ticket := by
  rw [bytes_append,slice,drop_left' (by simp [MAGIC]),take_left]

omit hf in
lemma drop_ticket : (f.bytes++t).drop (7+f.ticket.length) =
    [f.command,f.addrType,UInt8.ofNat f.addr.length]++(f.addr++(toBe 2 f.port++t)) := by
  have hlen : (MAGIC++[1]++toBe 2 f.ticket.length++f.ticket).length = 7+f.ticket.length := by
    simp only [MAGIC,length_append,length_cons,length_nil,length_toBe]
  rw [bytes_append,← append_assoc,drop_left' hlen]

lemma byteAt_addrLen : (byteAt (f.bytes++t) (7+f.ticket.length+2)).toNat = f.addr.length := by
  rw [← byteAt_drop,drop_ticket]
  exact toNat_ofNat_byte (by have := hf.addr; omega)

lemma wireLen_bytes : wireLen (f.bytes++t) = some f.bytes.length := by
  have hlen : (f.bytes++t).length = 12+f.ticket.length+f.addr.length+t.length := by
    rw [length_append,length_bytes]
  simp only [wireLen,hlen,slice_magic,wordAt_ticket t hf,byteAt_addrLen t hf,ne_eq,
    not_true,if_false,
    if_neg (show ¬12+f.ticket.length+f.addr.length+t.length < 7 by omega),
    if_neg (show ¬12+f.ticket.length+f.addr.length+t.length < 7+f.ticket.length+3 by omega),
    length_bytes]
  congr 1
  omega

lemma decode_bytes : decode (f.bytes++t) = .ok f := by
  have hlen : (f.bytes++t).length = 12+f.ticket.length+f.addr.length+t.length := by
    rw [length_append,length_bytes]
  have hcommand : byteAt (f.bytes++t) (7+f.ticket.length) = f.command := by
    rw [← Nat.add_zero (7+_),← byteAt_drop,drop_ticket]
    rfl
  have htype : byteAt (f.bytes++t) (7+f.ticket.length+1) = f.addrType := by
    rw [← byteAt_drop,drop_ticket]
    rfl
  have haddr : slice (f.bytes++t) (7+f.ticket.length+3) f.addr.length = f.addr := by
    rw [← slice_drop,drop_ticket]
    exact take_left
  have hport : wordAt (f.bytes++t) (7+f.ticket.length+3+f.addr.length) = f.port := by
    rw [Nat.add_assoc (7+_),← wordAt_drop,drop_ticket,← append_assoc,← append_assoc]
    refine wordAt_after t ?_ hf.port
    simp only [length_append,length_cons,length_nil]
  simp only [decode,hlen,slice_magic,byteAt_version,wordAt_ticket t hf,byteAt_addrLen t hf,ne_eq,
    not_true,if_false,if_neg (show ¬12+f.ticket.length+f.addr.length+t.length < 7 by omega),
    if_neg (show ¬12+f.ticket.length+f.addr.length+t.length < 7+f.ticket.length+5 by omega),
    if_neg (show ¬12+f.ticket.length+f.addr.length+t.length <
      7+f.ticket.length+3+f.addr.length+2 by omega),
    hcommand,htype,haddr,hport,slice_ticket]

end

lemma of_decode {b : Bytes} (h : decode b = .ok f) : f.Fits ∧ ∃ t, b = f.bytes++t := by
  unfold decode at h
  dsimp only at h
  split_ifs at h with h7 hmagic hversion hticket haddr
  cases h
  have hlen := length_slice (b := b) (i := 7) (n := wordAt b 5) (by omega)
  have haddrLen := length_slice (b := b) (i := 7+wordAt b 5+3)
    (n := (byteAt b (7+wordAt b 5+2)).toNat) (by omega)
  have hword := wordAt_lt b 5
  refine ⟨⟨?_,?_,wordAt_lt _ _⟩,b.drop (7+wordAt b 5+3+(byteAt b (7+wordAt b 5+2)).toNat+2),?_⟩
  · rw [hlen]
    omega
  · rw [haddrLen]
    have := byte_lt (byteAt b (7+wordAt b 5+2))
    omega
  · rw [bytes_append,hlen,haddrLen,toBe_wordAt,toBe_wordAt,UInt8.ofNat_toNat]
    have h0 : b = MAGIC++b.drop 4 := by
      conv_lhs => rw [← drop_zero (l := b),drop_eq_slice b 0 4,not_not.mp hmagic]
    have h4 : b.drop 4 = 1::b.drop 5 := by
      rw [drop_eq_byteAt b (i := 4) (by omega),not_not.mp hversion]
    have h5 := drop_eq_slice_word b 5 0 (by omega)
    have hmiddle : b.drop (7+wordAt b 5) = byteAt b (7+wordAt b 5)::
        byteAt b (7+wordAt b 5+1)::byteAt b (7+wordAt b 5+2)::b.drop (7+wordAt b 5+3) := by
      rw [drop_eq_byteAt b (i := 7+wordAt b 5) (by omega),
        drop_eq_byteAt b (i := 7+wordAt b 5+1) (by omega),
        drop_eq_byteAt b (i := 7+wordAt b 5+2) (by omega)]
    have hend := drop_eq_slice_word b (7+wordAt b 5+3) (byteAt b (7+wordAt b 5+2)).toNat (by omega)
    refine h0.trans ?_
    rw [h4,h5,drop_eq_slice b 7 (wordAt b 5),hmiddle,hend]
    simp [slice]

variable {w k : ℕ}

lemma wireLen_append {b : Bytes} (h : wireLen b = some w) (t : Bytes) :
    wireLen (b++t) = some w := by
  unfold wireLen at h
  dsimp only at h
  split_ifs at h with h7 hmagic hbase
  have hword := wordAt_append (b := b) (i := 5) (by omega) t
  have hbyte := byteAt_append (b := b) (i := 7+wordAt b 5+2) (by omega) t
  have hslice := slice_append (b := b) (i := 0) (n := 4) (by omega) t
  have hlong : ¬(b++t).length < 7 := by
    rw [length_append]
    omega
  have hlong' : ¬(b++t).length < 7+wordAt b 5+3 := by
    rw [length_append]
    omega
  simp only [wireLen,hword,hbyte,hslice,if_neg hlong,if_neg hmagic,if_neg hlong']
  exact h

lemma wireLen_take (hf : f.Fits) (hk : k < f.bytes.length)
    (h : wireLen (f.bytes.take k) = some w) : k < w := by
  have hall := wireLen_append h (f.bytes.drop k)
  rw [take_append_drop] at hall
  have hwhole := wireLen_bytes [] hf
  rw [append_nil,hall,Option.some.injEq] at hwhole
  omega

lemma decode_take (hf : f.Fits) (hk : k < f.bytes.length) :
    ∃ e, decode (f.bytes.take k) = .error e := by
  cases hdec : decode (f.bytes.take k) with
  | error e => exact ⟨e,rfl⟩
  | ok g =>
    obtain ⟨hg,t,ht⟩ := of_decode hdec
    have hlt := wireLen_take hf hk (ht ▸ wireLen_bytes t hg)
    have hlen := congrArg List.length ht
    rw [length_take,length_append] at hlen
    omega

end StreamInitFrame

/-! The pieces of a stream. -/

/-- How much has been received when `n` bytes are there: the pieces are taken whole. -/
def readUntil (n : ℕ) : ℕ → List Bytes → ℕ
  | seen,[] => seen
  | seen,c::cs => if n ≤ seen+c.length then seen+c.length else readUntil n (seen+c.length) cs

section
open StreamInitFrame
variable {f : StreamInitFrame}

lemma readInitFrame_iff (hf : f.Fits) (hsize : f.bytes.length ≤ 65536) (t : Bytes) (buf : Bytes)
    (hbuf : buf.length < f.bytes.length) (pieces : List Bytes)
    (hall : buf++pieces.flatten = f.bytes++t) :
    readInitFrame buf pieces = .ok f.bytes ↔ readUntil f.bytes.length buf.length
      pieces ≤ 65536 := by
  induction pieces generalizing buf with
  | nil =>
    have hlen := congrArg List.length hall
    simp only [flatten_nil,append_nil,length_append] at hlen
    omega
  | cons c cs ih =>
    rw [flatten_cons,← append_assoc] at hall
    rw [readInitFrame,readUntil,← length_append]
    by_cases hempty : c = []
    · have hsame : buf++c = buf := by rw [hempty,append_nil]
      rw [if_pos hempty,hsame,if_neg (by omega)]
      exact ih buf hbuf (by rw [← hall,hsame])
    · rw [if_neg hempty]
      by_cases hdone : f.bytes.length ≤ (buf++c).length
      · rw [if_pos hdone]
        obtain ⟨rest,hrest⟩ := prefix_of_prefix_length_le (prefix_append f.bytes t)
          (hall ▸ prefix_append (buf++c) cs.flatten) hdone
        by_cases hlarge : 65536 < (buf++c).length
        · rw [if_pos hlarge]
          exact iff_of_false (by intro h; cases h) (by omega)
        · rw [if_neg hlarge,← hrest,wireLen_bytes rest hf]
          refine iff_of_true ?_ (by rw [hrest]; omega)
          rw [hrest]
          simp only [if_pos hdone]
          rw [← hrest,take_left]
      · rw [if_neg hdone,if_neg (by omega)]
        have hstart : buf++c = f.bytes.take (buf++c).length := by
          have htake := congrArg (List.take (buf++c).length) hall
          rw [take_left,take_append_of_le_length (by omega)] at htake
          exact htake
        have hnext := ih (buf++c) (by omega) hall
        cases hlen : wireLen (buf++c) with
        | none => exact hnext
        | some wl =>
          have hlt := wireLen_take hf (by omega) (hstart ▸ hlen)
          simp only [if_neg (show ¬wl ≤ (buf++c).length by omega)]
          exact hnext

end

/-- The three functions agree, and the reader returns the frame exactly when the piece that
completes it does not bring the buffer over the limit. -/
theorem init_frame_codec_iff (f : StreamInitFrame) :
    (f.ticket.length ≤ 65535 → f.addr.length ≤ 255 → f.port < 65536 → ∃ e, f.encode = .ok e ∧
        (∀ t, decode (e++t) = .ok f ∧
          wireLen (e++t) = some e.length) ∧
        (∀ k < e.length, (∃ err, decode (e.take k) = .error err) ∧
          ∀ w, wireLen (e.take k) = some w → k < w) ∧
        (e.length ≤ 65536 → ∀ (pieces : List Bytes) (t : Bytes), pieces.flatten = e++t →
          (readInitFrame [] pieces = .ok e ↔ readUntil e.length 0 pieces ≤ 65536))) ∧
    ∀ b : Bytes, decode b = .ok f →
      ∃ e, f.encode = .ok e ∧ wireLen b = some e.length ∧ e <+: b := by
  constructor
  · intro hticket haddr hport
    have hf : f.Fits := ⟨hticket,haddr,hport⟩
    refine ⟨f.bytes,encode_eq hf,
      fun t => ⟨decode_bytes t hf,wireLen_bytes t hf⟩,
      fun k hk => ⟨decode_take hf hk,
        fun w hw => wireLen_take hf hk hw⟩,fun hsize pieces t hall => ?_⟩
    refine readInitFrame_iff hf hsize t [] ?_ pieces hall
    rw [length_bytes,length_nil]
    omega
  · intro b h
    obtain ⟨hf,t,rfl⟩ := of_decode h
    exact ⟨f.bytes,encode_eq hf,wireLen_bytes t hf,
      prefix_append _ _⟩

def longTicket : StreamInitFrame := ⟨1,List.replicate 61430 7,2,[],80⟩

def shortTicket : StreamInitFrame := ⟨1,[7,7],2,[97,98],80⟩

theorem init_frame_codec_short : ∃ e, shortTicket.encode = .ok e ∧
      readInitFrame [] [e.take 5,e.drop 5++[1,2,3]] = .ok e := by
  obtain ⟨e,he,_,_,hread⟩ := (init_frame_codec_iff shortTicket).1 (by decide)
      (by decide) (by decide)
  have hbytes : e = shortTicket.bytes := by
    rw [encode_eq ⟨by decide,by decide,by decide⟩] at he
    exact (Except.ok.inj he).symm
  refine ⟨e,he,(hread ?_ _ [1,2,3] ?_).mpr ?_⟩
  · rw [hbytes]
    decide
  · simp [← append_assoc]
  · rw [hbytes]
    decide

lemma length_ticket_longTicket : longTicket.ticket.length = 61430 := length_replicate

lemma fits_longTicket : longTicket.Fits := by
  refine ⟨?_,by decide,by decide⟩
  rw [length_ticket_longTicket]
  omega

def fullReads : ℕ → Bytes → List Bytes
  | 0,_ => []
  | k+1,b => b.take 4096::fullReads k (b.drop 4096)

lemma flatten_fullReads (k : ℕ) (b : Bytes) (hb : b.length = 4096*k) :
    (fullReads k b).flatten = b := by
  induction k generalizing b with
  | zero => exact (List.length_eq_zero_iff.mp hb).symm
  | succ k ih =>
    rw [fullReads,flatten_cons,ih _ (by rw [length_drop]; omega),take_append_drop]

lemma length_le_of_mem_fullReads (k : ℕ) (b : Bytes) : ∀ c ∈ fullReads k b, c.length ≤ 4096 := by
  induction k generalizing b with
  | zero => exact fun c hc => absurd hc not_mem_nil
  | succ k ih =>
    intro c hc
    rcases List.mem_cons.mp hc with rfl | hc
    · exact length_take_le _ _
    · exact ih _ c hc

lemma readUntil_fullReads (n k : ℕ) (b : Bytes) (hb : b.length = 4096*k) (seen : ℕ)
    (hlow : seen+4096*k < n+4096) (hhigh : n ≤ seen+4096*k) :
    readUntil n seen (fullReads k b) = seen+4096*k := by
  induction k generalizing b seen with
  | zero => rfl
  | succ k ih =>
    have htake : (b.take 4096).length = 4096 := by
      rw [length_take]
      omega
    rw [fullReads,readUntil,htake]
    by_cases hdone : n ≤ seen+4096
    · rw [if_pos hdone]
      omega
    · rw [if_neg hdone,ih _ (by rw [length_drop]; omega) _ (by omega) (by omega)]
      omega

theorem init_frame_overshoot : ∃ e t, longTicket.encode = .ok e ∧ e.length ≤ 65536 ∧
      ∃ pieces : List Bytes, pieces.flatten = e++t ∧ (∀ c ∈ pieces, c.length ≤ 4096) ∧
        readInitFrame [] pieces ≠ .ok e := by
  have hlen : longTicket.bytes.length = 61442 := by
    rw [length_bytes,length_ticket_longTicket]
    rfl
  have hstream : (longTicket.bytes++List.replicate 4095 0).length = 65537 := by
    rw [length_append,hlen,length_replicate]
  generalize hb : longTicket.bytes++List.replicate 4095 0 = b at hstream
  have hrest : (b.drop 1).length = 4096*16 := by
    rw [length_drop,hstream]
  have hfirst : (b.take 1).length = 1 := by
    rw [length_take,hstream]
    rfl
  have hall : (b.take 1::fullReads 16 (b.drop 1)).flatten =
      longTicket.bytes++List.replicate 4095 0 := by
    rw [flatten_cons,flatten_fullReads 16 _ hrest,take_append_drop,hb]
  refine ⟨_,_,encode_eq fits_longTicket,by omega,_,hall,?_,?_⟩
  · intro c hc
    rcases List.mem_cons.mp hc with rfl | hc
    · omega
    · exact length_le_of_mem_fullReads _ _ c hc
  · intro hread
    rw [← nil_append (List.flatten _)] at hall
    have hreceived := (readInitFrame_iff fits_longTicket (by omega) (List.replicate 4095 0) []
      (by rw [hlen,length_nil]; omega) (b.take 1::fullReads 16 (b.drop 1)) hall).mp hread
    rw [length_nil,hlen,readUntil,hfirst,if_neg (by omega),
      readUntil_fullReads 61442 16 _ hrest _ (by omega) (by omega)] at hreceived
    omega

end PirateServer.Wire
