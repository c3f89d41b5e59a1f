import Mathlib.Algebra.Group.Int.Defs
import Mathlib.Data.List.Induction
import TarHeader.Proofs.Numeral.OctalText

/- Numbers written into a field and read from it again. Octal text of `w` octets denotes the low
   `w - 1` digits of its number (`Octal.decode_encode`); the binary form denotes its number exactly
   (`Base256.value_encode`). A field therefore reads back as the number that it was given, unless
   that number lies beyond the 64 bits of the reader (`Numeral.decode_encode`), and a field that may
   not take the binary form as that number or zero (`Numeral.decode_write`). -/
namespace TarHeader

namespace Positional

theorem count_pos (base w : Nat) (hb : 0 < base) : 0 < count base w := Nat.pow_pos hb

theorem count_le_count {base w w' : Nat} (hb : 0 < base) (h : w ≤ w') :
    count base w ≤ count base w' := Nat.pow_le_pow_right hb h

theorem ofDigits_cons (base d : Nat) (ds : List Nat) :
    ofDigits base (d :: ds) = d * count base ds.length + ofDigits base ds := by
  induction ds using List.reverseRecOn with
  | nil => simp [ofDigits, count_zero]
  | append_singleton ds e ih =>
    calc ofDigits base (d :: (ds ++ [e]))
        = ofDigits base (d :: ds) * base + e := by
          rw [← List.cons_append, ofDigits_append_singleton]
      _ = (d * count base ds.length + ofDigits base ds) * base + e := by rw [ih]
      _ = d * (base * count base ds.length) + (ofDigits base ds * base + e) := by
          rw [Nat.add_mul, Nat.mul_assoc, Nat.mul_comm base, Nat.add_assoc]
      _ = d * count base (ds ++ [e]).length + ofDigits base (ds ++ [e]) := by
          rw [List.length_append, List.length_singleton, count_succ, ofDigits_append_singleton]

end Positional

namespace Octal

@[simp] theorem length_digits (w n : Nat) : (digits w n).length = w := by
  simp [digits]

theorem isDigit_of_mem_digits {w n : Nat} {b : UInt8} (h : b ∈ digits w n) :
    isDigit b = true := by
  obtain ⟨d, hd, rfl⟩ := List.mem_map.mp h
  exact isDigit_digitOctet (Positional.lt_of_mem_digits (by decide) hd)

/-- Octal text of a whole field denotes the digits that the field has room for. -/
theorem decode_encode {w : Nat} (hw : 2 ≤ w) (n : Nat) :
    decode (encode w n) =
      if n % Positional.count 8 (w - 1) ≤ readLimit then .ok (n % Positional.count 8 (w - 1))
      else .error (.octalTooLarge (digits (w - 1) n)) := by
  -- The field has a digit in front, so it is not taken for an empty one, which starts with NUL.
  obtain ⟨k, rfl⟩ : ∃ k, w = k + 2 := ⟨w - 2, by omega⟩
  have hdig : ∀ b ∈ digits (k + 1) n, isDigit b = true := fun b hb => isDigit_of_mem_digits hb
  have hstrip : strip (digits (k + 1) n ++ [0]) = digits (k + 1) n :=
    strip_append hdig (by simp [isPadding])
  have hfind : (digits (k + 1) n).find? (!isDigit ·) = none :=
    List.find?_eq_none.mpr (fun b hb => by simp [hdig b hb])
  have hhead : (digits (k + 1) n ++ [0]).head? ≠ some 0 := by
    cases hds : digits (k + 1) n with
    | nil => exact absurd (congrArg List.length hds) (by simp)
    | cons d ds =>
      rintro h
      have hd := isPadding_of_isDigit (hdig d (by rw [hds]; exact List.mem_cons_self))
      simp only [List.cons_append, List.head?_cons, Option.some.injEq] at h
      rw [h] at hd
      exact absurd hd (by decide)
  simp only [encode, decode, hstrip, hfind, value_digits]
  rw [if_neg (by simp), if_neg hhead]
  rfl

/-- No field is read as a larger number. -/
theorem le_readLimit_of_decode {bs : Bytes} {n : Nat} (h : decode bs = .ok n) :
    n ≤ readLimit := by
  obtain ⟨-, hdenotes⟩ := decode_eq_ok_iff.mp h
  cases hdenotes with
  | empty => exact Nat.zero_le _
  | text _ hle => exact hle

/-- A number within the limit of a field has no digits that the field lacks room for. -/
theorem lt_count_of_le_limit {w n : Nat} (h : n ≤ limit w) : n < Positional.count 8 (w - 1) := by
  unfold limit at h
  split at h
  · have hpos := Positional.count_pos 8 (w - 1) (by decide)
    omega
  · have hle : Positional.count 8 21 ≤ Positional.count 8 (w - 1) :=
      Positional.count_le_count (by decide) (by omega)
    have hl : readLimit < Positional.count 8 21 := by decide
    omega

theorem limit_le_readLimit (w : Nat) : limit w ≤ readLimit := by
  unfold limit
  split
  · have hle : Positional.count 8 (w - 1) ≤ Positional.count 8 20 :=
      Positional.count_le_count (by decide) (by omega)
    have hl : Positional.count 8 20 ≤ readLimit := by decide
    omega
  · exact Nat.le_refl _

/-- A number within the limit of a field reads back. -/
theorem decode_encode_of_le_limit {w n : Nat} (hw : 2 ≤ w) (h : n ≤ limit w) :
    decode (encode w n) = .ok n := by
  rw [decode_encode hw, Nat.mod_eq_of_lt (lt_count_of_le_limit h),
    if_pos (Nat.le_trans h (limit_le_readLimit w))]

/-- The first octet of octal text is no mark of the binary form. -/
theorem isBinary_head_encode {w n : Nat} {b : UInt8} {rest : Bytes} (hw : 2 ≤ w)
    (h : encode w n = b :: rest) : Numeral.isBinary b = false := by
  obtain ⟨k, rfl⟩ : ∃ k, w = k + 2 := ⟨w - 2, by omega⟩
  have hb : isDigit b = true := by
    cases hds : digits (k + 1) n with
    | nil => exact absurd (congrArg List.length hds) (by simp)
    | cons d ds =>
      rw [encode, hds] at h
      obtain ⟨rfl, -⟩ := List.cons.inj h
      exact isDigit_of_mem_digits (hds ▸ List.mem_cons_self)
  simp only [isDigit, Bool.and_eq_true, decide_eq_true_eq, UInt8.le_iff_toNat_le] at hb
  simp only [Numeral.isBinary, decide_eq_false_iff_not, UInt8.le_iff_toNat_le]
  have : (0x37 : UInt8).toNat < (0x80 : UInt8).toNat := by decide
  omega

end Octal

namespace Base256

/-- The octets after the first. -/
theorem tail_encode (w : Nat) (v : Int) :
    encode w v = lead v :: (encode w v).tail := rfl

theorem ofDigits_tail_encode (w : Nat) (v : Int) :
    Positional.ofDigits 256 ((encode w v).tail.map UInt8.toNat) =
      (v % Positional.count 256 (w - 1)).toNat % Positional.count 256 (w - 1) := by
  have hmap : ∀ ds : List Nat, (∀ d ∈ ds, d < 256) → (ds.map UInt8.ofNat).map UInt8.toNat = ds :=
    fun ds h => by
      rw [List.map_map]
      exact (List.map_congr_left fun d hd => UInt8.toNat_ofNat_of_lt' (h d hd)).trans (List.map_id _)
  rw [encode, List.tail_cons, hmap _ fun d hd => Positional.lt_of_mem_digits (by decide) hd,
    Positional.ofDigits_digits]

/-- The binary form denotes its number. -/
theorem value_encode {w : Nat} {v : Int} (h : Fits w v) :
    value (lead v) (encode w v).tail = v := by
  obtain ⟨-, -, hlow, hhigh⟩ := h
  have hlen : (encode w v).tail.length = w - 1 := by simp [encode]
  have hpos := Positional.count_pos 256 (w - 1) (by decide)
  have hmod : 0 ≤ v % Positional.count 256 (w - 1) := Int.emod_nonneg v (by omega)
  have hlt : v % Positional.count 256 (w - 1) < Positional.count 256 (w - 1) :=
    Int.emod_lt_of_pos v (by omega)
  have hmag : (Positional.ofDigits 256 ((encode w v).tail.map UInt8.toNat) : Int) =
      v % Positional.count 256 (w - 1) := by
    rw [ofDigits_tail_encode, Nat.mod_eq_of_lt (by omega)]
    omega
  -- The lead adds 127 times the count below zero, where 128 times are taken off, and else nothing.
  by_cases hneg : v < 0
  · have hv : v % Positional.count 256 (w - 1) = v + Positional.count 256 (w - 1) := by
      rw [← Int.add_mul_emod_self_left v (Positional.count 256 (w - 1)) 1, Int.mul_one]
      exact Int.emod_eq_of_lt (by omega) (by omega)
    rw [value, lead, if_pos hneg, if_pos rfl, Positional.ofDigits_cons, List.length_map, hlen,
      Int.natCast_add, Int.natCast_mul, hmag, hv]
    rw [show (((0xff : UInt8).toNat % 0x80 : Nat) : Int) = 127 from rfl]
    omega
  · have hv : v % Positional.count 256 (w - 1) = v := Int.emod_eq_of_lt (by omega) hhigh
    rw [value, lead, if_neg hneg, if_neg (by decide), Positional.ofDigits_cons, List.length_map,
      hlen, Int.natCast_add, hmag, hv]
    rw [show (0x80 : UInt8).toNat % 0x80 = 0 from rfl]
    omega

theorem isBinary_lead (v : Int) : Numeral.isBinary (lead v) = true := by
  unfold lead
  split <;> rfl

end Base256

namespace Numeral

/-- The numbers that a numeric field is read as. -/
def Readable (v : Int) : Prop := -2 ^ 63 ≤ v ∧ v < 2 ^ 63

instance (v : Int) : Decidable (Readable v) := by unfold Readable; infer_instance

theorem isSome_ofInt?_iff (v : Int) : (Word.ofInt? v : Option Int64).isSome ↔ Readable v := by
  simp only [Word.ofInt?, int64?, Readable]
  split <;> simp_all

theorem readable_of_fitsOctal {w : Nat} {v : Int} (h : FitsOctal w v) : Readable v := by
  have hle : (Octal.limit w : Int) ≤ Octal.readLimit := by
    exact_mod_cast Octal.limit_le_readLimit w
  have hl : (Octal.readLimit : Int) = 2 ^ 63 - 1 := by decide
  obtain ⟨h₀, h₁⟩ := h
  constructor <;> omega

/-- No field is read as any other number. -/
theorem readable_of_decode {bs : Bytes} {v : Int} (h : decode bs = .ok v) : Readable v := by
  have hoctal : ∀ bs : Bytes, (Octal.decode bs).map Int.ofNat = .ok v → Readable v := by
    intro bs h
    cases hd : Octal.decode bs with
    | error cause => rw [hd] at h; contradiction
    | ok n =>
      rw [hd] at h
      cases h
      have hn := Octal.le_readLimit_of_decode hd
      simp only [Octal.readLimit] at hn
      rw [Int.ofNat_eq_natCast]
      constructor <;> omega
  cases bs with
  | nil => exact hoctal [] h
  | cons b rest =>
    simp only [decode] at h
    split at h
    · simp only [Base256.decode] at h
      split at h
      · contradiction
      split at h
      · next hsome =>
        cases h
        exact (isSome_ofInt?_iff _).mp hsome
      · contradiction
    · exact hoctal _ h

/-- What octal text holds is read as octal text. -/
theorem decode_octal {w n : Nat} (hw : 2 ≤ w) :
    decode (Octal.encode w n) = (Octal.decode (Octal.encode w n)).map Int.ofNat := by
  cases he : Octal.encode w n with
  | nil => rfl
  | cons b rest =>
    rw [decode, Octal.isBinary_head_encode hw he, if_neg Bool.false_ne_true]

/-- A field that was written reads back as its number, unless it is too large for the reader. -/
theorem decode_encode {w : Nat} {v : Int} {bs : Bytes} (hw : 2 ≤ w) (h : encode w v = .ok bs) :
    decode bs = if Readable v then .ok v else .error (.base256TooLarge v) := by
  rw [encode, if_neg (by omega)] at h
  split at h
  · next hfits =>
    cases h
    obtain ⟨h₀, h₁⟩ := hfits
    rw [decode_octal hw, Octal.decode_encode_of_le_limit hw (by omega),
      if_pos (readable_of_fitsOctal ⟨h₀, h₁⟩)]
    exact congrArg Except.ok (Int.toNat_of_nonneg h₀)
  split at h
  · next hfits =>
    cases h
    have hlen : (Base256.encode w v).tail.length + 1 = w := by
      simp only [Base256.encode, List.tail_cons, List.length_map, Positional.length_digits]
      omega
    rw [Base256.tail_encode, decode, if_pos (Base256.isBinary_lead v), Base256.decode,
      if_neg (by rw [hlen]; exact Nat.not_lt.mpr hfits.2.1)]
    simp only [Base256.value_encode hfits, isSome_ofInt?_iff]
  · contradiction

/-- What a field of `w` octets keeps of a number. -/
def kept (extended : Bool) (w : Nat) (v : Int) : Int :=
  if extended = true ∨ FitsOctal w v then v else 0

theorem write_eq_encode_kept {w : Nat} (hw : 1 ≤ w) (extended : Bool) (v : Int) :
    write extended w v = encode w (kept extended w v) := by
  have hzero : FitsOctal w 0 := ⟨Int.le_refl 0, Int.natCast_nonneg _⟩
  rw [write, if_neg (by omega)]
  by_cases hk : extended = true ∨ FitsOctal w v
  · rw [kept, if_pos hk, if_neg]
    rcases hk with rfl | hfits
    · simp
    · simp [hfits]
  · have hzero' : encode w 0 = .ok (Octal.encode w 0) := by
      rw [encode, if_neg (by omega), if_pos hzero]
      rfl
    rw [kept, if_neg hk, hzero', if_pos]
    simpa using hk

/-- A number that fits neither form is refused, and no other one. -/
theorem encode_eq_error_iff {w : Nat} {v : Int} {fault : Fault} (hw : 1 ≤ w) :
    encode w v = .error fault ↔
      ¬ FitsOctal w v ∧ ¬ Base256.Fits w v ∧ fault = .valueOutOfRange v w := by
  rw [encode, if_neg (by omega)]
  by_cases ho : FitsOctal w v
  · simp [ho]
  · by_cases hb : Base256.Fits w v
    · simp [ho, hb]
    · simp [ho, hb, eq_comm]

theorem exists_encode_iff {w : Nat} {v : Int} (hw : 1 ≤ w) :
    (∃ bs, encode w v = .ok bs) ↔ FitsOctal w v ∨ Base256.Fits w v := by
  cases he : encode w v with
  | ok bs =>
    refine iff_of_true ⟨bs, rfl⟩ (Classical.byContradiction fun hneither => ?_)
    obtain ⟨hoctal, hbinary⟩ := not_or.mp hneither
    rw [(encode_eq_error_iff hw).mpr ⟨hoctal, hbinary, rfl⟩] at he
    cases he
  | error fault =>
    obtain ⟨hoctal, hbinary, -⟩ := (encode_eq_error_iff hw).mp he
    exact iff_of_false nofun (not_or.mpr ⟨hoctal, hbinary⟩)

/-- The first octet of a field tells which of the two forms was chosen. -/
theorem isBinary_headD_encode {w : Nat} {v : Int} {bs : Bytes} (hw : 2 ≤ w)
    (h : encode w v = .ok bs) : isBinary (bs.headD 0) = true ↔ ¬ FitsOctal w v := by
  rw [encode, if_neg (by omega)] at h
  split at h
  · next hfits =>
    cases h
    refine iff_of_false ?_ (not_not.mpr hfits)
    cases he : Octal.encode w v.toNat with
    | nil => decide
    | cons b rest => rw [List.headD_cons, Octal.isBinary_head_encode hw he]; exact nofun
  split at h
  · next hoctal hfits =>
    cases h
    exact iff_of_true (Base256.isBinary_lead v) hoctal
  · contradiction

theorem length_encode {w : Nat} {v : Int} {bs : Bytes} (h : encode w v = .ok bs) :
    bs.length = w := by
  unfold encode at h
  split at h
  · contradiction
  split at h
  · cases h
    exact Octal.length_encode w v.toNat
  split at h
  · next hfits =>
    cases h
    exact Base256.length_encode hfits.1
  · contradiction

/-- A field that was written reads back as what it keeps. -/
theorem decode_write {extended : Bool} {w : Nat} {v : Int} {bs : Bytes} (hw : 2 ≤ w)
    (h : write extended w v = .ok bs) :
    decode bs = if Readable (kept extended w v) then .ok (kept extended w v)
      else .error (.base256TooLarge (kept extended w v)) :=
  decode_encode hw (write_eq_encode_kept (Nat.le_of_succ_le hw) extended v ▸ h)

theorem length_write {extended : Bool} {w : Nat} {v : Int} {bs : Bytes} (hw : 1 ≤ w)
    (h : write extended w v = .ok bs) : bs.length = w :=
  length_encode (write_eq_encode_kept hw extended v ▸ h)

/-- What a field of `w` octets keeps of a word. -/
def keptWord {α : Type} [Word α] [OfNat α 0] (extended : Bool) (w : Nat) (a : α) : α :=
  if extended = true ∨ FitsOctal w (Word.toInt a) then a else 0

/-- A field that was written for a word reads back as the word it keeps. -/
theorem readWord_write {α : Type} [Word α] [OfNat α 0] {extended : Bool} {w : Nat} {a : α}
    {bs : Bytes} (name : String) (hzero : Word.ofInt? 0 = some (0 : α)) (hw : 2 ≤ w)
    (hr : extended = true → Readable (Word.toInt a))
    (h : write extended w (Word.toInt a) = .ok bs) :
    readWord name bs = .ok (keptWord extended w a) := by
  have hread : Readable (kept extended w (Word.toInt a)) := by
    unfold kept
    split
    · next hk =>
      rcases hk with hext | hfits
      · exact hr hext
      · exact readable_of_fitsOctal hfits
    · decide
  have hword : Word.ofInt? (kept extended w (Word.toInt a)) = some (keptWord extended w a) := by
    unfold kept keptWord
    split
    · exact Word.ofInt?_toInt a
    · exact hzero
  rw [readWord, read, decode_write hw h, if_pos hread]
  simp only [Fault.mapError_ok, bind, Except.bind, hword, pure, Except.pure]

end Numeral

end TarHeader
