import Mathlib.Data.List.TakeWhile
import TarHeader.Proofs.TextField

/- Octets that are read and written again. A charset is `Canonical` if text has one form in it: the
   octets it was read from are those it is written in. UTF-8 is, because strict reading takes no
   octet that writing would not have put there (`Utf8.encode_of_decode`), and so is the fallback
   charset, which has a character for every octet. What was read from a text field can therefore be
   written into a field of the same width (`TextField.encode_of_decode`). -/
namespace TarHeader

namespace Utf8

variable {bs rest : Bytes} {t : Text} {bits owed low high : Nat}

theorem mapM_id_eq_some_iff {l : List (Option Char)} : l.mapM id = some t ↔ l = t.map some := by
  induction l generalizing t with
  | nil => cases t <;> simp
  | cons c l ih =>
    rw [List.mapM_cons]
    simp only [id_eq, Option.bind_eq_bind, Option.bind_eq_some_iff, Option.pure_def,
      Option.some.injEq]
    constructor
    · rintro ⟨d, rfl, t, hl, rfl⟩
      rw [ih.mp hl, List.map_cons]
    · intro h
      obtain ⟨d, t, rfl, rfl, rfl⟩ := List.map_eq_cons_iff.mp h.symm
      exact ⟨d, rfl, t, ih.mpr rfl, rfl⟩

/-- Strict reading gives the characters of the scan, none of them malformed. -/
theorem decode_eq_some_iff : decode bs = some t ↔ scan bs = t.map some := mapM_id_eq_some_iff

theorem toNat_ofNat {n : Nat} (h : n < 0xD800 ∨ 0xDFFF < n ∧ n < 0x110000) :
    (Char.ofNat n).toNat = n := by
  rw [Char.ofNat, dif_pos h]
  rfl

/-- Inside a character that is not malformed another octet follows, and it is in range. -/
theorem exists_cons_of_scanFrom_inside
    (h : scanFrom (.inside bits owed low high) bs = t.map some) :
    ∃ b rest, bs = b :: rest ∧ low ≤ b.toNat ∧ b.toNat ≤ high := by
  cases bs with
  | nil => cases t <;> simp [scanFrom] at h
  | cons b rest =>
    by_cases hb : low ≤ b.toNat ∧ b.toNat ≤ high
    · exact ⟨b, rest, rfl, hb⟩
    · rw [scanFrom_cons, feed, if_neg hb] at h
      cases t <;> simp at h

theorem exists_of_scanFrom_last (h : scanFrom (.inside bits 0 low high) bs = t.map some) :
    ∃ b rest t', bs = b :: rest ∧ low ≤ b.toNat ∧ b.toNat ≤ high ∧
      t = .ofNat (bits * 0x40 + (b.toNat - 0x80)) :: t' ∧
      scanFrom .between rest = t'.map some := by
  obtain ⟨b, rest, rfl, hb⟩ := exists_cons_of_scanFrom_inside h
  rw [scanFrom_cons, feed_last hb] at h
  obtain ⟨c, t', rfl, hc, ht⟩ := List.map_eq_cons_iff.mp h.symm
  exact ⟨b, rest, t', rfl, hb.1, hb.2, by rw [Option.some.inj hc], ht.symm⟩

theorem exists_of_scanFrom_middle
    (h : scanFrom (.inside bits (owed + 1) low high) bs = t.map some) :
    ∃ b rest, bs = b :: rest ∧ low ≤ b.toNat ∧ b.toNat ≤ high ∧
      scanFrom (.inside (bits * 0x40 + (b.toNat - 0x80)) owed 0x80 0xBF) rest = t.map some := by
  obtain ⟨b, rest, rfl, hb⟩ := exists_cons_of_scanFrom_inside h
  rw [scanFrom_cons, feed_middle hb] at h
  exact ⟨b, rest, rfl, hb.1, hb.2, h⟩

theorem ofNat_of_toNat_eq {b : UInt8} {n : Nat} (h : b.toNat = n) : UInt8.ofNat n = b := by
  rw [← h, UInt8.ofNat_toNat]

/-- Octets that are not malformed start with a character as it is written. -/
theorem exists_encodeChar_of_scan {b : UInt8} (h : scanFrom .between (b :: rest) = t.map some) :
    ∃ c t' rest', t = c :: t' ∧ b :: rest = encodeChar c ++ rest' ∧
      scanFrom .between rest' = t'.map some := by
  rw [scanFrom_cons, feed_between, first] at h
  have hlt := b.toNat_lt
  -- One case for each length, and one for the octets that start no character.
  split at h
  · next h₁ =>
    obtain ⟨c, t', rfl, hc, ht⟩ := List.map_eq_cons_iff.mp h.symm
    refine ⟨c, t', rest, rfl, ?_, ht.symm⟩
    rw [Option.some.inj hc, encodeChar, toNat_ofNat (by omega), if_pos h₁, UInt8.ofNat_toNat,
      List.singleton_append]
  split at h
  · cases t <;> simp at h
  split at h
  · next h₁ h₂ h₃ =>
    obtain ⟨c, rest, t', rfl, hc, hc', rfl, ht⟩ := exists_of_scanFrom_last h
    refine ⟨_, t', rest, rfl, ?_, ht⟩
    rw [encodeChar, toNat_ofNat (by omega)]
    rw [if_neg (by omega), if_pos (by omega), ofNat_of_toNat_eq (b := b) (by omega),
      ofNat_of_toNat_eq (b := c) (by omega)]
    rfl
  split at h
  · next h₁ h₂ h₃ h₄ =>
    obtain ⟨c, rest, rfl, hc, hc', h⟩ := exists_of_scanFrom_middle h
    obtain ⟨d, rest, t', rfl, hd, hd', rfl, ht⟩ := exists_of_scanFrom_last h
    have hlow : 0x80 ≤ c.toNat ∧ (b.toNat = 0xE0 → 0xA0 ≤ c.toNat) := by
      split at hc <;> omega
    have hhigh : c.toNat ≤ 0xBF ∧ (b.toNat = 0xED → c.toNat ≤ 0x9F) := by
      split at hc' <;> omega
    clear hc hc'
    refine ⟨_, t', rest, rfl, ?_, ht⟩
    rw [encodeChar, toNat_ofNat (by omega)]
    rw [if_neg (by omega), if_neg (by omega), if_pos (by omega),
      ofNat_of_toNat_eq (b := b) (by omega), ofNat_of_toNat_eq (b := c) (by omega),
      ofNat_of_toNat_eq (b := d) (by omega)]
    rfl
  split at h
  · next h₁ h₂ h₃ h₄ h₅ =>
    obtain ⟨c, rest, rfl, hc, hc', h⟩ := exists_of_scanFrom_middle h
    obtain ⟨d, rest, rfl, hd, hd', h⟩ := exists_of_scanFrom_middle h
    obtain ⟨e, rest, t', rfl, he, he', rfl, ht⟩ := exists_of_scanFrom_last h
    have hlow : 0x80 ≤ c.toNat ∧ (b.toNat = 0xF0 → 0x90 ≤ c.toNat) := by
      split at hc <;> omega
    have hhigh : c.toNat ≤ 0xBF ∧ (b.toNat = 0xF4 → c.toNat ≤ 0x8F) := by
      split at hc' <;> omega
    clear hc hc'
    refine ⟨_, t', rest, rfl, ?_, ht⟩
    rw [encodeChar, toNat_ofNat (by omega)]
    rw [if_neg (by omega), if_neg (by omega), if_neg (by omega),
      ofNat_of_toNat_eq (b := b) (by omega), ofNat_of_toNat_eq (b := c) (by omega),
      ofNat_of_toNat_eq (b := d) (by omega), ofNat_of_toNat_eq (b := e) (by omega)]
    rfl
  · cases t <;> simp at h

/-- Octets that are read are written again as they were. -/
theorem encode_of_decode (h : decode bs = some t) : encode t = bs := by
  rw [decode_eq_some_iff, scan] at h
  induction t generalizing bs with
  | nil =>
    cases bs with
    | nil => rfl
    | cons b rest =>
      obtain ⟨c, t', -, ht, -⟩ := exists_encodeChar_of_scan h
      cases ht
  | cons c t ih =>
    cases bs with
    | nil => cases h
    | cons b rest =>
      obtain ⟨c', t', rest', ht, hbs, hrest⟩ := exists_encodeChar_of_scan h
      obtain ⟨rfl, rfl⟩ := List.cons.inj ht
      rw [hbs, encode, List.flatMap_cons, ← ih hrest, encode]

/-- Text without an octet that is NUL has no character that is. -/
theorem nulFree_of_encode (h : ∀ b ∈ encode t, b ≠ 0) : NulFree t := by
  intro c hc hzero
  refine h 0 (List.mem_flatMap.mpr ⟨c, hc, ?_⟩) rfl
  simp [encodeChar, hzero]

end Utf8

namespace Charset

variable {cs : Charset}

/-- Text that is read has one form, the one in which it is written. -/
def Canonical (cs : Charset) : Prop :=
  ∀ {bs t}, cs.decode bs = .ok t → cs.encode t = .ok bs

theorem utf8_canonical : utf8.Canonical := by
  intro bs t h
  simp only [utf8, ofPartial] at h
  split at h
  · next t' ht =>
    cases h
    rw [encode_utf8, Utf8.encode_of_decode ht]
  · cases h

theorem latin1Octet_latin1Char (b : UInt8) : latin1Octet (latin1Char b) = b := by
  have hlt : b.toNat < 0x100 := b.toNat_lt
  rw [latin1Octet, latin1Char, Utf8.toNat_ofNat (by omega), if_pos hlt, UInt8.ofNat_toNat]

theorem fallback_canonical : fallback.Canonical := by
  intro bs t h
  rw [decode_fallback] at h
  cases h
  rw [encode_fallback, List.map_map]
  refine congrArg Except.ok ((List.map_congr_left fun b _ => ?_).trans (List.map_id _))
  exact latin1Octet_latin1Char b

end Charset

/-! Fields -/

theorem length_untilNul_le (bs : Bytes) : (untilNul bs).length ≤ bs.length :=
  (List.takeWhile_sublist _).length_le

theorem ne_zero_of_mem_untilNul {bs : Bytes} {b : UInt8} (h : b ∈ untilNul bs) : b ≠ 0 := by
  simpa using List.mem_takeWhile_imp h

/-- A field is known by what stands before its first NUL, if no more than that NUL follows. -/
theorem eq_fit_untilNul {bs : Bytes} (h : bs.length ≤ (untilNul bs).length + 1) :
    bs = fit bs.length (untilNul bs) := by
  have hsplit : untilNul bs ++ bs.dropWhile (· != 0) = bs := List.takeWhile_append_dropWhile
  have hlen := congrArg List.length hsplit
  rw [List.length_append] at hlen
  rw [fit_of_length_le (length_untilNul_le bs), ← hlen, Nat.add_sub_cancel_left]
  cases hd : bs.dropWhile (· != 0) with
  | nil => rw [hd, List.append_nil] at hsplit; simp [hsplit]
  | cons b rest =>
    have hb : b = 0 := by
      have := List.head?_dropWhile_not (· != 0) bs
      rw [hd] at this
      simpa using this
    rw [hd, List.length_cons] at hlen
    have hrest : rest = [] := List.eq_nil_of_length_eq_zero (by omega)
    rw [hd, hb, hrest] at hsplit
    simp [hsplit, hrest]

namespace TextField

variable {cs : Charset} {bs bs' : Bytes} {t : Text}

theorem encode_of_decode (hcs : cs.Canonical) (h : decode cs bs = .ok t) :
    cs.encode t = .ok (untilNul bs) := hcs h

/-- What was read from a field has room in one of the same width. -/
theorem encodesWithin_of_decode (hcs : cs.Canonical) (h : decode cs bs = .ok t) :
    cs.EncodesWithin bs.length t :=
  ⟨untilNul bs, encode_of_decode hcs h, length_untilNul_le bs⟩

theorem nulFree_of_decode_utf8 (h : decode .utf8 bs = .ok t) : NulFree t := by
  have hbs := Except.ok.inj (encode_of_decode Charset.utf8_canonical h)
  exact Utf8.nulFree_of_encode (hbs ▸ fun b hb => ne_zero_of_mem_untilNul hb)

/-- Fields with the same text in a canonical charset agree up to their first NUL. -/
theorem decode_eq_iff (hcs : cs.Canonical) (h : decode cs bs = .ok t) :
    decode cs bs' = .ok t ↔ untilNul bs' = untilNul bs := by
  constructor
  · intro h'
    exact Except.ok.inj ((hcs h').symm.trans (hcs h))
  · intro h'
    rw [decode, h']
    exact h

end TextField

end TarHeader
