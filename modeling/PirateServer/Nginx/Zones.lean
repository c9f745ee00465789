import PirateServer.Deploy.Layout

/-! The zones of a project: the names that the generated snippet refers to, and those that the
script of the host declares. Both are made of the project id, by two functions in two languages. -/
namespace PirateServer.Nginx
open Lib Deploy List

def trimBy (q : Char → Bool) (l : List Char) : List Char :=
  ((l.dropWhile q).reverse.dropWhile q).reverse

/-- Underscores for all but letters and digits. -/
def mask (c : Char) : Char := if c.isAlphanum then c else '_'

def antiddosZoneSlug (projectId : String) : List Char :=
  let t := trimBy (· = '_') (projectId.toList.map mask)
  (if t = [] then "proj".toList else t).take 64

/-- White space of Python, which has the four separators of ASCII as well. -/
def isPySpace (c : Char) : Bool := Text.isWhitespace c || (0x1C ≤ c.toNat && c.toNat ≤ 0x1F)

/-- The function of the script. -/
def slug (s : String) : List Char :=
  let t := ((trimBy isPySpace s.toList).map mask).take 64
  if t = [] then "proj".toList else t

def zoneNames (slug : List Char) : List (List Char) :=
  ["pirate_rl_prj_".toList++slug,"pirate_conn_prj_".toList++slug]

/-- The snippet is made for the normalised id. -/
def snippetZones (id : String) : List (List Char) :=
  zoneNames (antiddosZoneSlug (normalizeProjectId id))

def declaredZones (id : String) : List (List Char) := zoneNames (slug id)

/-- The text that the script makes a zone of. -/
def written (id : String) : List Char :=
  if Text.trim id = "" then "proj".toList else (Text.trim id).toList

/-- Texts of one length that differ only where both have no letter or digit. -/
def Alike : List Char → List Char → Prop :=
  Forall₂ (fun c d => c = d ∨ c.isAlphanum = false ∧ d.isAlphanum = false)

/-- An id that begins and ends with a letter or digit and that the server does not replace. -/
structure Regular (id : String) : Prop where
  filled : Text.trim id ≠ ""
  kept : Text.eqIgnoreAsciiCase (Text.trim id) "default" = true → Text.trim id = "default"
  ends : ∀ c, (Text.trim id).toList.head? = some c ∨ (Text.trim id).toList.getLast? = some c →
    c.isAlphanum = true

variable {q : Char → Bool} {l u v : List Char}

lemma trimBy_append (hu : ∀ c ∈ u, q c = true) (hv : ∀ c ∈ v, q c = true)
    (hl : ∀ c ∈ l, q c = false) : trimBy q (u++l++v) = l := by
  have hdrop : ∀ (w t : List Char), (∀ c ∈ w, q c = true) → (w++t).dropWhile q = t.dropWhile q :=
    fun w t hw => dropWhile_append_of_pos hw
  have hself : ∀ t : List Char, (∀ c ∈ t, q c = false) → t.dropWhile q = t := by
    intro t ht
    cases t with
    | nil => rfl
    | cons c t => simp [ht c mem_cons_self]
  by_cases hnil : l = []
  · subst hnil
    rw [trimBy,append_nil,hdrop u v hu,← append_nil v,hdrop v [] hv]
    rfl
  · obtain ⟨c,t,rfl⟩ := exists_cons_of_ne_nil hnil
    have hfront : (c::t++v).dropWhile q = c::t++v := by simp [hl c mem_cons_self]
    rw [trimBy,append_assoc,hdrop u _ hu,hfront,reverse_append,
      hdrop v.reverse _ (fun c hc => hv c (List.mem_reverse.mp hc)),
      hself _ (fun c hc => hl c (List.mem_reverse.mp hc)),reverse_reverse]

lemma exists_trimBy (q : Char → Bool) (l : List Char) :
    ∃ u v, l = u++trimBy q l++v ∧ (∀ c ∈ u, q c = true) ∧ ∀ c ∈ v, q c = true := by
  refine ⟨l.takeWhile q,((l.dropWhile q).reverse.takeWhile q).reverse,?_,fun c hc =>
    mem_takeWhile_imp hc,fun c hc => mem_takeWhile_imp (List.mem_reverse.mp hc)⟩
  rw [trimBy,append_assoc,← reverse_append,takeWhile_append_dropWhile,
    reverse_reverse,takeWhile_append_dropWhile]

lemma dropWhile_eq_self_iff_head : l.dropWhile q = l ↔ ∀ c, l.head? = some c → q c = false := by
  cases l with
  | nil => simp
  | cons c l =>
    have hlen := (dropWhile_suffix (l := l) q).length_le
    cases hc : q c with
    | false => simp [hc]
    | true =>
      refine iff_of_false (fun h => ?_) (fun h => absurd (hc.symm.trans (h c rfl)) (by decide))
      rw [dropWhile_cons_of_pos hc] at h
      rw [h,length_cons] at hlen
      omega

/-- Nothing is trimmed exactly if the ends are not of the kind. -/
lemma trimBy_eq_self_iff :
    trimBy q l = l ↔ ∀ c, l.head? = some c ∨ l.getLast? = some c → q c = false := by
  have hback : l.reverse.dropWhile q = l.reverse ↔ ∀ c, l.getLast? = some c → q c = false := by
    rw [dropWhile_eq_self_iff_head,head?_reverse]
  constructor
  · intro h c hc
    have hfront : l.dropWhile q = l := by
      have hlen := congrArg length h
      rw [trimBy,length_reverse] at hlen
      have hle := (dropWhile_suffix (l := (l.dropWhile q).reverse) q).length_le
      rw [length_reverse] at hle
      exact (dropWhile_suffix q).eq_of_length_le (by omega)
    have hrest : l.reverse.dropWhile q = l.reverse := by
      rw [trimBy,hfront] at h
      rw [← reverse_eq_iff,h]
    rcases hc with hc | hc
    · exact dropWhile_eq_self_iff_head.mp hfront c hc
    · exact hback.mp hrest c hc
  · intro h
    rw [trimBy,dropWhile_eq_self_iff_head.mpr (fun c hc => h c (.inl hc)),
      hback.mpr (fun c hc => h c (.inr hc)),reverse_reverse]

lemma mask_eq_underscore_iff {c : Char} : mask c = '_' ↔ c.isAlphanum = false := by
  unfold mask
  split_ifs with h
  · refine ⟨?_,fun hn => absurd (h.symm.trans hn) (by decide)⟩
    rintro rfl
    cases h
  · simpa using h

lemma map_mask_eq_iff : l.map mask = u.map mask ↔ Alike l u := by
  have hchar : ∀ c d : Char, mask c = mask d ↔
      c = d ∨ c.isAlphanum = false ∧ d.isAlphanum = false := by
    intro c d
    constructor
    · intro h
      by_cases hc : c.isAlphanum = true
      · by_cases hd : d.isAlphanum = true
        · rw [mask,mask,if_pos hc,if_pos hd] at h
          exact .inl h
        · rw [mask_eq_underscore_iff.mpr (Bool.eq_false_of_not_eq_true hd),
            mask_eq_underscore_iff] at h
          exact absurd (h.symm.trans hc) (by decide)
      · have hu := mask_eq_underscore_iff.mpr (by simpa using hc)
        exact .inr ⟨by simpa using hc,mask_eq_underscore_iff.mp (h ▸ hu)⟩
    · rintro (rfl | ⟨hc,hd⟩)
      · rfl
      · rw [mask_eq_underscore_iff.mpr hc,mask_eq_underscore_iff.mpr hd]
  rw [← forall₂_eq_eq_eq,forall₂_map_left_iff,forall₂_map_right_iff]
  simp only [hchar,Alike]

variable {id : String}

lemma isPySpace_labelChar {c : Char} (h : labelChar c = true) : isPySpace c = false := by
  have hlt : c.toNat < 128 := by
    simp only [labelChar,Char.isAlphanum,Char.isAlpha,Char.isUpper,Char.isLower,Char.isDigit,
      Bool.or_eq_true,Bool.and_eq_true,decide_eq_true_eq,ge_iff_le] at h
    rcases h with (((((⟨_,h⟩ | ⟨_,h⟩) | ⟨_,h⟩) | rfl) | rfl) | rfl)
    · exact Nat.lt_of_le_of_lt h (by decide)
    · exact Nat.lt_of_le_of_lt h (by decide)
    · exact Nat.lt_of_le_of_lt h (by decide)
    all_goals decide
  have hall : ∀ n < 128, labelChar (Char.ofNat n) = true → isPySpace (Char.ofNat n) = false := by
    decide +kernel
  have hc := hall c.toNat hlt
  rw [Char.ofNat_toNat] at hc
  exact hc h

lemma length_le_utf8ByteSize (cs : List Char) : cs.length ≤ (String.ofList cs).utf8ByteSize := by
  induction cs with
  | nil => simp
  | cons c cs ih =>
    have hc := Char.utf8Size_pos c
    rw [String.ofList_cons,String.utf8ByteSize_append,String.utf8ByteSize_singleton,length_cons]
    omega

lemma isAlphanum_of_toLower {c : Char} (h : c.toLower.isAlphanum = true) :
    c.isAlphanum = true := by
  by_cases hup : c.isUpper = true
  · simp [Char.isAlphanum,Char.isAlpha,hup]
  · have hsame : c.toLower = c := by
      unfold Char.toLower
      split_ifs with hrange
      · exact absurd (by simpa [Char.isUpper] using hrange) hup
      · rfl
    rwa [hsame] at h

lemma isAlphanum_of_default (h : Text.eqIgnoreAsciiCase (Text.trim id) "default" = true) :
    ∀ c ∈ (Text.trim id).toList, c.isAlphanum = true := by
  intro c hc
  have hmem : c.toLower ∈ "default".toList.map Char.toLower := by
    rw [← beq_iff_eq.mp h]
    exact mem_map_of_mem hc
  obtain ⟨d,hd,hlow⟩ := List.mem_map.mp hmem
  have hall : "default".toList.all (fun d => d.toLower.isAlphanum) = true := by decide
  exact isAlphanum_of_toLower (hlow ▸ all_eq_true.mp hall d hd)

/-- An accepted id, trimmed, is a label. -/
lemma label_of_accepted (h : validateProjectId id = .ok ()) :
    (∀ c ∈ (Text.trim id).toList, labelChar c = true) ∧ (Text.trim id).toList.length ≤ 64 := by
  by_cases hempty : Text.trim id = ""
  · rw [hempty]
    simp
  by_cases hdef : Text.eqIgnoreAsciiCase (Text.trim id) "default" = true
  · refine ⟨fun c hc => ?_,?_⟩
    · simp [labelChar,isAlphanum_of_default hdef c hc]
    · have hlen := congrArg length (beq_iff_eq.mp hdef)
      rw [length_map] at hlen
      rw [hlen]
      decide
  have hnorm : normalizeProjectId id = Text.trim id := by simp [normalizeProjectId,hempty,hdef]
  rw [validateProjectId,hnorm] at h
  split_ifs at h with heq
  · exact absurd (by rw [heq]; decide) hdef
  · rw [validateLabel] at h
    split_ifs at h with hlong hchars
    have hsize := length_le_utf8ByteSize (Text.trim id).toList
    rw [String.ofList_toList] at hsize
    exact ⟨by simpa using hchars,hsize.trans (Nat.le_of_not_lt hlong)⟩

/-- The script masks the trimmed id. -/
lemma slug_eq (h : validateProjectId id = .ok ()) : slug id = (written id).map mask := by
  obtain ⟨hchars,hlen⟩ := label_of_accepted h
  have htrim : (Text.trim id).toList = trimBy Text.isWhitespace id.toList := by
    simp [Text.trim,trimBy]
  obtain ⟨u,v,hid,hu,hv⟩ := exists_trimBy Text.isWhitespace id.toList
  have hspace : ∀ c, Text.isWhitespace c = true → isPySpace c = true := fun c hc => by
    simp [isPySpace,hc]
  have hstrip : trimBy isPySpace id.toList = (Text.trim id).toList := by
    rw [← htrim] at hid
    rw [hid]
    exact trimBy_append (fun c hc => hspace c (hu c hc)) (fun c hc => hspace c (hv c hc))
      (fun c hc => isPySpace_labelChar (hchars c hc))
  rw [slug,written,hstrip,take_of_length_le (by simpa using hlen)]
  by_cases hempty : Text.trim id = ""
  · rw [hempty]
    decide
  · rw [if_neg hempty,if_neg (by simpa using hempty)]

/-- The server trims underscores off the masked label. -/
lemma antiddosZoneSlug_eq_iff (hne : l ≠ []) (hlen : l.length ≤ 64) :
    antiddosZoneSlug (String.ofList l) = l.map mask ↔
      ∀ c, l.head? = some c ∨ l.getLast? = some c → c.isAlphanum = true := by
  have hends : (∀ c, l.head? = some c ∨ l.getLast? = some c → c.isAlphanum = true) ↔
      trimBy (· = '_') (l.map mask) = l.map mask := by
    rw [trimBy_eq_self_iff,head?_map,getLast?_map]
    constructor
    · rintro h _ (hd | hd)
      all_goals
        obtain ⟨c,hc,rfl⟩ := Option.map_eq_some_iff.mp hd
        simp [mask_eq_underscore_iff,h c (by simp [hc])]
    · intro h c hc
      have hm := h (mask c) (hc.imp (by simp_all) (by simp_all))
      simpa [mask_eq_underscore_iff] using hm
  rw [hends,antiddosZoneSlug,String.toList_ofList]
  have hshort : (trimBy (· = '_') (l.map mask)).length ≤ 64 := by
    obtain ⟨u,v,hsplit,_⟩ := exists_trimBy (· = '_') (l.map mask)
    have hl := congrArg length hsplit
    rw [length_append,length_append,length_map] at hl
    omega
  constructor
  · intro h
    split_ifs at h with hnil
    · -- a label that is masked to `proj` keeps its letters
      rw [← h] at hnil
      exact absurd hnil (by decide)
    · rwa [take_of_length_le hshort] at h
  · intro h
    rw [if_neg (by rw [h]; simpa using hne),h,take_of_length_le (by simpa using hlen)]

lemma slugs_agree_iff (h : validateProjectId id = .ok ()) :
    antiddosZoneSlug (normalizeProjectId id) = slug id ↔ Regular id := by
  obtain ⟨_,hlen⟩ := label_of_accepted h
  rw [slug_eq h,written]
  by_cases hempty : Text.trim id = ""
  · have hnorm : normalizeProjectId id = "default" := by simp [normalizeProjectId,hempty]
    rw [hnorm,if_pos hempty]
    exact iff_of_false (by decide) (fun hr => hr.filled hempty)
  have hne : (Text.trim id).toList ≠ [] := by simpa using hempty
  rw [if_neg hempty]
  by_cases hdef : Text.eqIgnoreAsciiCase (Text.trim id) "default" = true
  · have hnorm : normalizeProjectId id = "default" := by simp [normalizeProjectId,hdef]
    have halnum := isAlphanum_of_default hdef
    have hmask : (Text.trim id).toList.map mask = (Text.trim id).toList := by
      refine (map_congr_left (fun c hc => ?_)).trans (map_id _)
      exact if_pos (halnum c hc)
    have hslug : antiddosZoneSlug "default" = "default".toList := by decide
    rw [hnorm,hmask,hslug,String.toList_inj]
    refine ⟨fun heq => ⟨hempty,fun _ => heq.symm,fun c hc => halnum c ?_⟩,
      fun hr => (hr.kept hdef).symm⟩
    rcases hc with hc | hc
    · exact mem_of_head? hc
    · exact mem_of_getLast? hc
  · have hnorm : normalizeProjectId id = String.ofList (Text.trim id).toList := by
      rw [String.ofList_toList]
      simp [normalizeProjectId,hempty,hdef]
    rw [hnorm,antiddosZoneSlug_eq_iff hne hlen]
    exact ⟨fun hends => ⟨hempty,fun hd => absurd hd hdef,hends⟩,fun hr => hr.ends⟩

lemma disjoint_zoneNames {a b : List Char} : (zoneNames a).Disjoint (zoneNames b) ↔ a ≠ b := by
  constructor
  · rintro h rfl
    exact h mem_cons_self mem_cons_self
  intro hne x hx hy
  simp only [zoneNames,mem_cons,not_mem_nil,or_false] at hx hy
  rcases hx with rfl | rfl <;> rcases hy with hy | hy
  · exact hne (append_cancel_left hy)
  · cases hy
  · cases hy
  · exact hne (append_cancel_left hy)

lemma zoneNames_inj {a b : List Char} : zoneNames a = zoneNames b ↔ a = b := by
  refine ⟨fun h => ?_,congrArg zoneNames⟩
  exact append_cancel_left (cons.inj h).1

end PirateServer.Nginx
