import TarHeader.Proofs.Numeral.RoundTrip
import TarHeader.Proofs.Verdict

/- Which numbers can be written, and which of those read back. A field of eight octets has room for
   seven octets of a binary number, one of twelve for eleven, so a word of 64 bits always has room
   in twelve octets and in eight only below 2^56 (`fault?_write_id`). Reading stops at 63 bits. So
   what fits eight octets can be read (`readable_of_write`), and what fits twelve need not be. What
   was read from octal text has no more digits than the field has octets (`lt_count_of_readWord`),
   so it always fits again. -/
namespace TarHeader

theorem Positional.ofDigits_lt_count {base : Nat} {ds : List Nat} (h : ∀ d ∈ ds, d < base) :
    ofDigits base ds < count base ds.length := by
  induction ds using List.reverseRecOn with
  | nil => exact Nat.one_pos
  | append_singleton ds d ih =>
    have hd : d < base := h d (by simp)
    have ih := ih fun e he => h e (List.mem_append_left _ he)
    calc ofDigits base (ds ++ [d])
        = ofDigits base ds * base + d := ofDigits_append_singleton base ds d
      _ < ofDigits base ds * base + base := Nat.add_lt_add_left hd _
      _ = (ofDigits base ds + 1) * base := (Nat.succ_mul _ _).symm
      _ ≤ count base ds.length * base := Nat.mul_le_mul_right base ih
      _ = count base (ds ++ [d]).length := by
        rw [List.length_append, List.length_singleton, count_succ, Nat.mul_comm]

namespace Octal

theorem digitValue_lt {b : UInt8} (h : isDigit b = true) : digitValue b < 8 := by
  simp only [isDigit, Bool.and_eq_true, decide_eq_true_eq, UInt8.le_iff_toNat_le] at h
  have hlast : (0x37 : UInt8).toNat = 0x37 := rfl
  unfold digitValue
  omega

theorem lt_count_of_decode {bs : Bytes} {n : Nat} (h : decode bs = .ok n) :
    n < Positional.count 8 bs.length := by
  obtain ⟨-, hdenotes⟩ := decode_eq_ok_iff.mp h
  cases hdenotes with
  | empty => exact Positional.count_pos 8 _ (by decide)
  | @text ds hspells =>
    have hdigit : ∀ d ∈ ds.map digitValue, d < 8 := by
      intro d hd
      obtain ⟨b, hb, rfl⟩ := List.mem_map.mp hd
      exact digitValue_lt (hspells.digits b hb)
    calc value ds
        < Positional.count 8 (ds.map digitValue).length := Positional.ofDigits_lt_count hdigit
      _ ≤ Positional.count 8 bs.length := by
        rw [List.length_map]
        exact Positional.count_le_count (by decide) hspells.length_le

end Octal

namespace Base256

/-- All octets but the first are digits of the number. -/
theorem fits_iff (w : Nat) (v : Int) :
    Fits w v ↔ 1 ≤ w ∧ w ≤ maxWidth ∧ -2 ^ (8 * (w - 1)) ≤ v ∧ v < 2 ^ (8 * (w - 1)) := by
  have hcount : (Positional.count 256 (w - 1) : Int) = 2 ^ (8 * (w - 1)) := by
    rw [show Positional.count 256 (w - 1) = (2 ^ 8) ^ (w - 1) from rfl, ← Nat.pow_mul]
    exact Int.natCast_pow 2 _
  rw [Fits, hcount]

theorem fits_eight_iff (v : Int) : Fits 8 v ↔ -2 ^ 56 ≤ v ∧ v < 2 ^ 56 := by
  rw [fits_iff]
  exact ⟨fun h => h.2.2, fun h => ⟨by decide, by decide, h⟩⟩

theorem fits_twelve_iff (v : Int) : Fits 12 v ↔ -2 ^ 88 ≤ v ∧ v < 2 ^ 88 := by
  rw [fits_iff]
  exact ⟨fun h => h.2.2, fun h => ⟨by decide, by decide, h⟩⟩

theorem fits_eight_uint32 (a : UInt32) : Fits 8 (Word.toInt a) := by
  have hlt := a.toNat_lt
  rw [fits_eight_iff]
  simp only [Word.toInt]
  omega

theorem fits_twelve_uint64 (a : UInt64) : Fits 12 (Word.toInt a) := by
  have hlt := a.toNat_lt
  rw [fits_twelve_iff]
  simp only [Word.toInt]
  omega

theorem fits_twelve_int64 (a : Int64) : Fits 12 (Word.toInt a) := by
  have hle := a.le_toInt
  have hlt := a.toInt_lt
  rw [fits_twelve_iff]
  simp only [Word.toInt]
  omega

end Base256

namespace Numeral

variable {extended : Bool} {w : Nat} {v : Int} {bs : Bytes}

/-- Only a number that must not be left out and fits neither form is refused. -/
theorem fault?_write (hw : 1 ≤ w) : fault? (write extended w v) =
    if extended = true ∧ ¬ FitsOctal w v ∧ ¬ Base256.Fits w v then some (.valueOutOfRange v w)
    else none := by
  have hzero : FitsOctal w 0 := ⟨Int.le_refl 0, Int.natCast_nonneg _⟩
  rw [write_eq_encode_kept hw]
  split
  · next h =>
    obtain ⟨hext, hoctal, hbinary⟩ := h
    rw [fault?_eq_some_iff, encode_eq_error_iff hw, kept, if_pos (.inl hext)]
    exact ⟨hoctal, hbinary, rfl⟩
  · next h =>
    cases he : encode w (kept extended w v) with
    | ok bs => rfl
    | error fault =>
      -- A kept number is refused only if it is the number itself, since zero always fits.
      obtain ⟨hoctal, hbinary, -⟩ := (encode_eq_error_iff hw).mp he
      unfold kept at hoctal hbinary
      split at hoctal
      · next hk =>
        rw [if_pos hk] at hbinary
        exact absurd ⟨hk.resolve_right hoctal, hoctal, hbinary⟩ h
      · exact absurd hzero hoctal

theorem fault?_write_of_fits (h : Base256.Fits w v) : fault? (write extended w v) = none := by
  rw [fault?_write h.1, if_neg]
  exact fun hrefused => hrefused.2.2 h

theorem fault?_write_uint32 (a : UInt32) : fault? (write extended 8 (Word.toInt a)) = none :=
  fault?_write_of_fits (Base256.fits_eight_uint32 a)

theorem fault?_write_uint64 (a : UInt64) : fault? (write extended 12 (Word.toInt a)) = none :=
  fault?_write_of_fits (Base256.fits_twelve_uint64 a)

theorem fault?_write_int64 (a : Int64) : fault? (write extended 12 (Word.toInt a)) = none :=
  fault?_write_of_fits (Base256.fits_twelve_int64 a)

/-- The ids are the words that a field may have no room for. -/
theorem fault?_write_id (a : UInt64) : fault? (write extended 8 (Word.toInt a)) =
    if extended = true ∧ 2 ^ 56 ≤ a.toNat then some (.valueOutOfRange a.toNat 8) else none := by
  have hlimit : Octal.limit 8 = 2 ^ 21 - 1 := by decide
  have hiff : (¬ FitsOctal 8 (Word.toInt a) ∧ ¬ Base256.Fits 8 (Word.toInt a)) ↔
      2 ^ 56 ≤ a.toNat := by
    rw [Base256.fits_eight_iff, FitsOctal, hlimit]
    simp only [Word.toInt]
    omega
  rw [fault?_write (by decide)]
  simp only [hiff]
  rfl

theorem readable_uint32 (a : UInt32) : Readable (Word.toInt a) := by
  have hlt := a.toNat_lt
  simp only [Readable, Word.toInt]
  omega

theorem readable_int64 (a : Int64) : Readable (Word.toInt a) := ⟨a.le_toInt, a.toInt_lt⟩

theorem readable_uint64_iff (a : UInt64) : Readable (Word.toInt a) ↔ a.toNat < 2 ^ 63 := by
  simp only [Readable, Word.toInt]
  omega

/-- A word that was read is a number in its field. -/
theorem decode_of_readWord {α : Type} [Word α] {name : String} {a : α}
    (h : readWord name bs = .ok a) : decode bs = .ok (Word.toInt a) := by
  unfold readWord read at h
  obtain ⟨v, hv, h⟩ := Fault.bind_eq_ok.mp h
  cases hd : decode bs with
  | error cause =>
    rw [hd] at hv
    cases hv
  | ok v' =>
    rw [hd] at hv
    cases hv
    cases ha : (Word.ofInt? v : Option α) with
    | none =>
      rw [ha] at h
      cases h
    | some a' =>
      rw [ha] at h
      cases Fault.pure_eq_ok.mp h
      rw [Word.toInt_of_ofInt? ha]

/-- A word that was read is a number of those that are read. -/
theorem readable_of_readWord {α : Type} [Word α] {name : String} {a : α}
    (h : readWord name bs = .ok a) : Readable (Word.toInt a) :=
  readable_of_decode (decode_of_readWord h)

/-- A word that was read from octal text has no more digits than its field has octets. -/
theorem lt_count_of_readWord {α : Type} [Word α] {name : String} {a : α}
    (hoctal : isBinary (bs.headD 0) = false) (h : readWord name bs = .ok a) :
    Word.toInt a < Positional.count 8 bs.length := by
  have hmap : decode bs = (Octal.decode bs).map Int.ofNat := by
    cases bs with
    | nil => rfl
    | cons b rest => rw [decode, if_neg (by rw [List.headD_cons] at hoctal; simp [hoctal])]
  have hdecode := decode_of_readWord h
  rw [hmap] at hdecode
  cases hn : Octal.decode bs with
  | error cause =>
    rw [hn] at hdecode
    cases hdecode
  | ok n =>
    rw [hn] at hdecode
    have hlt := Octal.lt_count_of_decode hn
    rw [← Except.ok.inj hdecode, Int.ofNat_eq_natCast]
    exact_mod_cast hlt

/-- What has room in eight octets can be read. -/
theorem readable_of_write (h : write true 8 v = .ok bs) : Readable v := by
  have hfault : fault? (write true 8 v) = none := fault?_eq_none_iff.mpr ⟨bs, h⟩
  rw [fault?_write (by decide)] at hfault
  by_cases hoctal : FitsOctal 8 v
  · exact readable_of_fitsOctal hoctal
  by_cases hbinary : Base256.Fits 8 v
  · rw [Base256.fits_eight_iff] at hbinary
    simp only [Readable]
    omega
  · rw [if_pos ⟨rfl, hoctal, hbinary⟩] at hfault
    contradiction

end Numeral

end TarHeader
