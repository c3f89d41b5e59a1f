import TarHeader.Buffer
import TarHeader.Proofs.Edit
import TarHeader.Proofs.Numeral.Writable

/- Numbers written into a buffer. A buffer of two octets or more takes just the numbers that have an
   octal or a binary form of its width, and is then read as its number, or refused where that is
   beyond the 64 bits of the reader; the first octet tells the form. Without the binary form every
   number is taken, and one that has no octal form is read as zero (`numeral_reads_back`). -/
namespace TarHeader

namespace Numeral

/-- Reading a field that was written, with the name that faults give it. -/
theorem read_write {extended : Bool} {w : Nat} {v : Int} {bs : Bytes} (name : String) (hw : 2 ≤ w)
    (h : write extended w v = .ok bs) :
    read name bs = if Readable (kept extended w v) then .ok (kept extended w v)
      else .error (.invalidField name (.base256TooLarge (kept extended w v))) := by
  rw [read, decode_write hw h]
  split <;> rfl

/-- Outside the extended mode a field takes any number. -/
theorem exists_write_false {w : Nat} (hw : 1 ≤ w) (v : Int) : ∃ bs, write false w v = .ok bs := by
  rw [← fault?_eq_none_iff, fault?_write hw, if_neg]
  exact fun hrefused => absurd hrefused.1 Bool.false_ne_true

theorem write_true_eq_encode {w : Nat} (hw : 1 ≤ w) (v : Int) : write true w v = encode w v := by
  rw [write_eq_encode_kept hw, kept, if_pos (.inl rfl)]

end Numeral

namespace Buffer

open Numeral (FitsOctal Readable)

theorem putNumeral_eq_ok_iff {v : Int} {buf buf' : Bytes} :
    putNumeral v buf = .ok () buf' ↔ Numeral.encode buf.length v = .ok buf' :=
  Edit.replace_eq_ok_iff

theorem putField_eq_ok_iff {extended : Bool} {v : Int} {buf buf' : Bytes} :
    putField extended v buf = .ok () buf' ↔ Numeral.write extended buf.length v = .ok buf' :=
  Edit.replace_eq_ok_iff

/-- Where the binary form is allowed, both ways of writing are one. -/
theorem putField_true {v : Int} {buf : Bytes} (hw : 1 ≤ buf.length) :
    putField true v buf = putNumeral v buf := by
  show (liftM (Numeral.write true buf.length v) >>= set : Edit Bytes Unit) buf =
    (liftM (Numeral.encode buf.length v) >>= set : Edit Bytes Unit) buf
  rw [Numeral.write_true_eq_encode hw]

/-- Which numbers a buffer takes, and what it is read as then. -/
theorem numeral_reads_back (name : String) (v : Int) {buf : Bytes} (hw : 2 ≤ buf.length) :
    ((∃ buf', putNumeral v buf = .ok () buf') ↔ FitsOctal buf.length v ∨
      buf.length ≤ 15 ∧ -2 ^ (8 * (buf.length - 1)) ≤ v ∧ v < 2 ^ (8 * (buf.length - 1))) ∧
    (∀ buf', putNumeral v buf = .ok () buf' → buf'.length = buf.length ∧
      Numeral.read name buf' = (if Readable v then .ok v
        else .error (.invalidField name (.base256TooLarge v))) ∧
      (Numeral.isBinary (buf'.headD 0) = true ↔ ¬ FitsOctal buf.length v)) ∧
    putField true v buf = putNumeral v buf ∧
    ∃ buf', putField false v buf = .ok () buf' ∧ buf'.length = buf.length ∧
      Numeral.read name buf' = .ok (if FitsOctal buf.length v then v else 0) := by
  have hpos : 1 ≤ buf.length := Nat.le_of_succ_le hw
  refine ⟨?_, ?_, putField_true hpos, ?_⟩
  · simp only [putNumeral_eq_ok_iff]
    rw [Numeral.exists_encode_iff hpos, Base256.fits_iff, and_iff_right hpos]
    rfl
  · intro buf' h
    rw [putNumeral_eq_ok_iff] at h
    have hread := Numeral.read_write name hw ((Numeral.write_true_eq_encode hpos v).trans h)
    have hkept : Numeral.kept true buf.length v = v := if_pos (.inl rfl)
    rw [hkept] at hread
    exact ⟨Numeral.length_encode h, hread, Numeral.isBinary_headD_encode hw h⟩
  · obtain ⟨buf', h⟩ := Numeral.exists_write_false hpos v
    have hread := Numeral.read_write name hw h
    have hkept : Numeral.kept false buf.length v = if FitsOctal buf.length v then v else 0 := by
      simp [Numeral.kept]
    have hreadable : Readable (Numeral.kept false buf.length v) := by
      rw [hkept]
      split
      · next hfits => exact Numeral.readable_of_fitsOctal hfits
      · decide
    rw [if_pos hreadable, hkept] at hread
    exact ⟨buf', putField_eq_ok_iff.mpr h, Numeral.length_write hpos h, hread⟩

/-- The second before 1970 takes the binary form, and is read as zero from a field that may not. -/
theorem beforeEpoch_reads_back :
    (∃ buf, putNumeral (-1) (List.replicate 12 0) = .ok () buf ∧
      Numeral.isBinary (buf.headD 0) = true ∧ Numeral.read "mtime" buf = .ok (-1)) ∧
    ∃ buf, putField false (-1) (List.replicate 12 0) = .ok () buf ∧
      Numeral.read "mtime" buf = .ok 0 := by
  have hw : 2 ≤ (List.replicate 12 (0 : UInt8)).length := by decide
  obtain ⟨htaken, hread, -, buf', hbuf', -, hread'⟩ := numeral_reads_back "mtime" (-1) hw
  obtain ⟨buf, hbuf⟩ := htaken.mpr (.inr (by decide))
  obtain ⟨-, hvalue, hform⟩ := hread buf hbuf
  exact ⟨⟨buf, hbuf, hform.mpr (by decide), hvalue⟩, buf', hbuf', hread'⟩

end Buffer

end TarHeader
