import TarHeader.Charset

/- Laws of charsets. What is written in a `Faithful` charset reads back and holds NUL only where
   the text does; of a `Truncatable` one this is asked for texts that are cut at their end only. A
   charset that `RefusesText` or `RefusesOctets` blames itself, and nothing else, for what it cannot
   write or read; the fallback charset has nothing to blame itself for. -/
namespace TarHeader

/-- Text without NUL. -/
def NulFree (t : Text) : Prop := ∀ c ∈ t, c.toNat ≠ 0

instance (t : Text) : Decidable (NulFree t) := List.decidableBAll (fun c : Char => c.toNat ≠ 0) t

theorem nulFree_append {s t : Text} (hs : NulFree s) (ht : NulFree t) : NulFree (s ++ t) :=
  List.forall_mem_append.mpr ⟨hs, ht⟩

/-- Text of characters up to U+00FF. -/
def Latin1 (t : Text) : Prop := ∀ c ∈ t, c.toNat ≤ 0xFF

instance (t : Text) : Decidable (Latin1 t) := List.decidableBAll (fun c : Char => c.toNat ≤ 0xFF) t

namespace Charset

/-- Text that the charset has octets for. -/
def Encodable (cs : Charset) (t : Text) : Prop := ∃ bs, cs.encode t = .ok bs

/-- Text that the charset has at most `n` octets for. -/
def EncodesWithin (cs : Charset) (n : Nat) (t : Text) : Prop :=
  ∃ bs, cs.encode t = .ok bs ∧ bs.length ≤ n

instance (cs : Charset) (n : Nat) (t : Text) : Decidable (cs.EncodesWithin n t) :=
  match h : cs.encode t with
  | .ok bs =>
    if hl : bs.length ≤ n then .isTrue ⟨bs, h, hl⟩
    else .isFalse fun ⟨_, hbs', hl'⟩ => hl (Except.ok.inj (h.symm.trans hbs') ▸ hl')
  | .error _ => .isFalse fun ⟨_, hbs', _⟩ => nomatch h.symm.trans hbs'

/-- The laws of a charset in which text can be stored. -/
structure Faithful (cs : Charset) : Prop where
  decode_encode : ∀ {t bs}, cs.encode t = .ok bs → cs.decode bs = .ok t
  ne_zero_of_mem : ∀ {t bs}, cs.encode t = .ok bs → NulFree t → ∀ b ∈ bs, b ≠ 0
  encode_nil : cs.encode [] = .ok []
  encodable_of_infix : ∀ {s t}, s <:+: t → cs.Encodable t → cs.Encodable s

/-- The laws of a charset in which text can be stored that may have to be cut. -/
structure Truncatable (cs : Charset) : Prop where
  decode_encode : ∀ {t bs}, cs.encode t = .ok bs → cs.decode bs = .ok t
  ne_zero_of_mem : ∀ {t bs}, cs.encode t = .ok bs → NulFree t → ∀ b ∈ bs, b ≠ 0
  encode_nil : cs.encode [] = .ok []
  encodable_of_prefix : ∀ {s t}, s <+: t → cs.Encodable t → cs.Encodable s

/-- Text that the charset has octets for, and for each of its parts. -/
def EncodesParts (cs : Charset) (t : Text) : Prop := ∀ s, s <:+: t → cs.Encodable s

/-- All faults of writing text are faults of the encoding. -/
def RefusesText (cs : Charset) : Prop :=
  ∀ t fault, cs.encode t = .error fault → fault.isEncoding = true

/-- All faults of writing a part of `t` are of the kind `stray`. -/
def StraysOn (stray : Fault → Prop) (cs : Charset) (t : Text) : Prop :=
  ∀ s, s <:+: t → ∀ fault, cs.encode s = .error fault → stray fault

/-- All faults of reading octets are faults of the encoding. -/
def RefusesOctets (cs : Charset) : Prop :=
  ∀ bs fault, cs.decode bs = .error fault → fault.isEncoding = true

theorem EncodesWithin.encodable {cs : Charset} {n : Nat} {t : Text} (h : cs.EncodesWithin n t) :
    cs.Encodable t :=
  let ⟨bs, hbs, _⟩ := h
  ⟨bs, hbs⟩

theorem encodesWithin_iff {cs : Charset} {n : Nat} {t : Text} {bs : Bytes}
    (h : cs.encode t = .ok bs) : cs.EncodesWithin n t ↔ bs.length ≤ n := by
  constructor
  · rintro ⟨bs', hbs', hl⟩
    rw [h] at hbs'
    cases hbs'
    exact hl
  · exact fun hl => ⟨bs, h, hl⟩

theorem Faithful.truncatable {cs : Charset} (hcs : cs.Faithful) : cs.Truncatable where
  decode_encode := hcs.decode_encode
  ne_zero_of_mem := hcs.ne_zero_of_mem
  encode_nil := hcs.encode_nil
  encodable_of_prefix hs := hcs.encodable_of_infix hs.isInfix

theorem Faithful.encodesParts {cs : Charset} (hcs : cs.Faithful) {t : Text}
    (ht : cs.Encodable t) : cs.EncodesParts t := fun _ hs => hcs.encodable_of_infix hs ht

theorem EncodesParts.encodable {cs : Charset} {t : Text} (h : cs.EncodesParts t) :
    cs.Encodable t := h t List.infix_rfl

theorem StraysOn.part {stray : Fault → Prop} {cs : Charset} {s t : Text}
    (h : cs.StraysOn stray t) (hs : s <:+: t) : cs.StraysOn stray s :=
  fun u hu => h u (hu.trans hs)

theorem RefusesText.straysOn {cs : Charset} (h : cs.RefusesText) (t : Text) :
    cs.StraysOn (·.isEncoding = true) t :=
  fun s _ fault => h s fault

/-- Nothing goes wrong in writing a part of encodable text. -/
theorem Faithful.straysOn {cs : Charset} (hcs : cs.Faithful) {t : Text} (ht : cs.Encodable t) :
    cs.StraysOn (fun _ => False) t := by
  intro s hs fault hfault
  obtain ⟨bs, hbs⟩ := hcs.encodable_of_infix hs ht
  rw [hbs] at hfault
  contradiction

theorem ofPartial_refusesText (name : String) (encode : Text → Option Bytes)
    (decode : Bytes → Option Text) : (ofPartial name encode decode).RefusesText := by
  intro t fault h
  simp only [ofPartial] at h
  split at h <;> cases h
  rfl

theorem ofPartial_refusesOctets (name : String) (encode : Text → Option Bytes)
    (decode : Bytes → Option Text) : (ofPartial name encode decode).RefusesOctets := by
  intro bs fault h
  simp only [ofPartial] at h
  split at h <;> cases h
  rfl

theorem utf8_refusesText : utf8.RefusesText := ofPartial_refusesText _ _ _

theorem utf8_refusesOctets : utf8.RefusesOctets := ofPartial_refusesOctets _ _ _

end Charset

namespace Utf8

/-- Only NUL is stored as an octet of that value. -/
theorem ne_zero_of_mem_encodeChar {c : Char} (hc : c.toNat ≠ 0) {b : UInt8}
    (hb : b ∈ encodeChar c) : b ≠ 0 := by
  have hbound := toNat_bounds c
  have hof : ∀ m, 0 < m → m < 256 → UInt8.ofNat m ≠ 0 := by
    intro m hpos hlt hzero
    have := congrArg UInt8.toNat hzero
    rw [UInt8.toNat_ofNat_of_lt' hlt] at this
    simp at this
    omega
  -- Every octet is the number of the character or has a high bit set.
  unfold encodeChar at hb
  simp only at hb
  split at hb
  · rw [List.mem_singleton.mp hb]
    exact hof _ (by omega) (by omega)
  split at hb
  · rcases List.mem_cons.mp hb with rfl | hb
    · exact hof _ (by omega) (by omega)
    · rw [List.mem_singleton.mp hb]
      exact hof _ (by omega) (by omega)
  split at hb
  · simp only [List.mem_cons, List.not_mem_nil, or_false] at hb
    rcases hb with rfl | rfl | rfl <;> exact hof _ (by omega) (by omega)
  · simp only [List.mem_cons, List.not_mem_nil, or_false] at hb
    rcases hb with rfl | rfl | rfl | rfl <;> exact hof _ (by omega) (by omega)

end Utf8

namespace Charset

theorem encode_utf8 (t : Text) : utf8.encode t = .ok (Utf8.encode t) := rfl

theorem utf8_faithful : utf8.Faithful where
  decode_encode {t bs} h := by
    cases h
    simp only [utf8, ofPartial, Utf8.decode_encode]
  ne_zero_of_mem {t bs} h ht b hb := by
    cases h
    obtain ⟨c, hc, hb⟩ := List.mem_flatMap.mp hb
    exact Utf8.ne_zero_of_mem_encodeChar (ht c hc) hb
  encode_nil := rfl
  encodable_of_infix {s t} _ _ := ⟨Utf8.encode s, rfl⟩

end Charset

namespace Utf8

/-- ASCII has one octet for each character, that of the same number. -/
theorem encode_of_ascii {t : Text} (h : ∀ c ∈ t, c.toNat < 0x80) :
    encode t = t.map Charset.latin1Octet := by
  induction t with
  | nil => rfl
  | cons c t ih =>
    obtain ⟨hc, ht⟩ := List.forall_mem_cons.mp h
    have hchar : encodeChar c = [.ofNat c.toNat] := if_pos hc
    have hoctet : Charset.latin1Octet c = .ofNat c.toNat := if_pos (Nat.lt_trans hc (by decide))
    rw [encode, List.flatMap_cons, hchar, ← encode, ih ht, List.map_cons, hoctet,
      List.singleton_append]

/-- Each octet of ASCII is a character, and none is malformed. -/
theorem scan_of_ascii {bs : Bytes} (h : ∀ b ∈ bs, b < 0x80) :
    scan bs = bs.map fun b => some (Charset.latin1Char b) := by
  induction bs with
  | nil => rfl
  | cons b bs ih =>
    obtain ⟨hb, hbs⟩ := List.forall_mem_cons.mp h
    have hfirst : first b.toNat = ([some (Charset.latin1Char b)], .between) := if_pos hb
    rw [scan, scanFrom_cons, feed_between, hfirst, List.map_cons]
    exact congrArg _ (ih hbs)

theorem decodeLossy_of_ascii {bs : Bytes} (h : ∀ b ∈ bs, b < 0x80) :
    decodeLossy bs = bs.map Charset.latin1Char := by
  rw [decodeLossy, scan_of_ascii h, List.map_map]
  rfl

/-- How many octets a text has. -/
def width (t : Text) : Nat := (encode t).length

theorem width_append (s t : Text) : width (s ++ t) = width s + width t := by
  rw [width, encode, List.flatMap_append, List.length_append]
  rfl

theorem width_slash_cons (t : Text) : width ('/' :: t) = width t + 1 := by
  rw [← List.singleton_append, width_append, Nat.add_comm]
  rfl

theorem width_append_slash (t : Text) : width (t ++ ['/']) = width t + 1 := by
  rw [width_append]
  rfl

end Utf8

namespace Charset

theorem encodesWithin_utf8_iff {n : Nat} {t : Text} :
    utf8.EncodesWithin n t ↔ Utf8.width t ≤ n := encodesWithin_iff (encode_utf8 t)

theorem fallback_encode_ne_error (t : Text) (fault : Fault) :
    fallback.encode t ≠ .error fault := by
  intro h
  cases h

theorem fallback_decode_ne_error (bs : Bytes) (fault : Fault) :
    fallback.decode bs ≠ .error fault := by
  intro h
  cases h

theorem fallback_encodesParts (t : Text) : fallback.EncodesParts t := fun _ _ => ⟨_, rfl⟩

theorem fallback_straysOn (stray : Fault → Prop) (t : Text) : fallback.StraysOn stray t :=
  fun s _ fault h => absurd h (fallback_encode_ne_error s fault)

theorem encode_fallback_nil : fallback.encode [] = .ok [] := rfl

/-- ASCII is written as the long way would write it. -/
theorem encode_fallback (t : Text) : fallback.encode t = .ok (t.map latin1Octet) := by
  show Except.ok (if t.all (·.toNat < 0x80) then Utf8.encode t else t.map latin1Octet) = _
  split
  · next hall => rw [Utf8.encode_of_ascii (by simpa using hall)]
  · rfl

/-- ASCII is read as the long way would read it. -/
theorem decode_fallback (bs : Bytes) : fallback.decode bs = .ok (bs.map latin1Char) := by
  show Except.ok (if bs.all (· < 0x80) then Utf8.decodeLossy bs else bs.map latin1Char) = _
  split
  · next hall => rw [Utf8.decodeLossy_of_ascii (by simpa using hall)]
  · rfl

theorem latin1Char_latin1Octet (c : Char) :
    latin1Char (latin1Octet c) = if c.toNat ≤ 0xFF then c else '?' := by
  unfold latin1Octet
  by_cases hc : c.toNat ≤ 0xFF
  · have hlt : c.toNat < 0x100 := Nat.lt_succ_of_le hc
    rw [if_pos hlt, if_pos hc, latin1Char, UInt8.toNat_ofNat_of_lt' hlt, Char.ofNat_toNat]
  · have hge : ¬ c.toNat < 0x100 := fun hlt => hc (Nat.le_of_lt_succ hlt)
    rw [if_neg hge, if_neg hc]
    rfl

/-- A character without an octet of its own comes back as a question mark. -/
theorem decode_fallback_of_encode {t : Text} {bs : Bytes} (h : fallback.encode t = .ok bs) :
    fallback.decode bs = .ok (t.map fun c => if c.toNat ≤ 0xFF then c else '?') := by
  rw [encode_fallback] at h
  cases h
  rw [decode_fallback, List.map_map]
  exact congrArg Except.ok (List.map_congr_left fun c _ => latin1Char_latin1Octet c)

/-- The fallback charset is faithful to text that has an octet for each character. -/
theorem decode_encode_fallback {t : Text} (ht : Latin1 t) {bs : Bytes}
    (h : fallback.encode t = .ok bs) : fallback.decode bs = .ok t := by
  rw [decode_fallback_of_encode h]
  refine congrArg Except.ok ((List.map_congr_left fun c hc => ?_).trans (List.map_id _))
  exact if_pos (ht c hc)

theorem fallback_ne_zero_of_mem {t : Text} (ht : NulFree t) {bs : Bytes}
    (h : fallback.encode t = .ok bs) : ∀ b ∈ bs, b ≠ 0 := by
  rw [encode_fallback] at h
  cases h
  intro b hb
  obtain ⟨c, hc, rfl⟩ := List.mem_map.mp hb
  unfold latin1Octet
  split
  · next hlt =>
    intro hzero
    have := congrArg UInt8.toNat hzero
    rw [UInt8.toNat_ofNat_of_lt' hlt] at this
    exact ht c hc this
  · decide

theorem length_encode_fallback {t : Text} {bs : Bytes} (h : fallback.encode t = .ok bs) :
    bs.length = t.length := by
  rw [encode_fallback] at h
  cases h
  exact List.length_map _

end Charset

end TarHeader
