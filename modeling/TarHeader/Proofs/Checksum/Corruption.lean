import Mathlib.Data.Int.ModEq
import TarHeader.Proofs.Checksum.Seal

/- A single changed octet is noticed. A header is right by one of two sums, so a change that spoils
   the one might repair the other. It cannot: the sums are apart by 256 for each octet with a high
   bit (`sum_eq_signedSum_add`), so whichever of the two the stored number is, modulo 256 it is both
   (`stored_modEq_of_verify`), and an octet that is changed outside the checksum field changes them
   by less than 256 (`verify_set_eq_false`). -/
namespace TarHeader.Checksum

/-- Octets that follow others add their own sum, whatever an octet counts. -/
theorem foldl_add_append {M : Type} [AddMonoid M] (f : UInt8 → M) (as bs : Bytes) :
    (as ++ bs).foldl (fun n b => n + f b) 0 =
      as.foldl (fun n b => n + f b) 0 + bs.foldl (fun n b => n + f b) 0 := by
  induction bs using List.reverseRecOn with
  | nil => rw [List.append_nil, List.foldl_nil, add_zero]
  | append_singleton bs b ih =>
    rw [← List.append_assoc, List.foldl_concat, ih, List.foldl_concat, add_assoc]

theorem sum_append (as bs : Bytes) : sum (as ++ bs) = sum as + sum bs :=
  foldl_add_append UInt8.toNat as bs

theorem signedSum_append (as bs : Bytes) : signedSum (as ++ bs) = signedSum as + signedSum bs :=
  foldl_add_append (fun b => b.toInt8.toInt) as bs

theorem sum_singleton (b : UInt8) : sum [b] = b.toNat := Nat.zero_add _

/-- An octet gives its place in the sum to the one that is put there. -/
theorem sum_set {bs : Bytes} {i : Nat} (hi : i < bs.length) (x : UInt8) :
    sum (bs.set i x) + bs[i].toNat = sum bs + x.toNat := by
  have hset : bs.set i x = bs.take i ++ ([x] ++ bs.drop (i + 1)) := by
    rw [List.set_eq_take_append_cons_drop, if_pos hi]
    rfl
  have hsplit : bs = bs.take i ++ ([bs[i]] ++ bs.drop (i + 1)) := by
    rw [List.singleton_append, List.getElem_cons_drop, List.take_append_drop]
  have hsum : sum bs = sum (bs.take i) + (bs[i].toNat + sum (bs.drop (i + 1))) := by
    rw [← sum_singleton, ← sum_append, ← sum_append, ← hsplit]
  rw [hset, hsum, sum_append, sum_append, sum_singleton]
  omega

/-! The two sums -/

/-- Whether an octet is negative when it is taken as signed. -/
def isHigh (b : UInt8) : Bool := 0x80 ≤ b

theorem toNat_eq_toInt_add (b : UInt8) :
    (b.toNat : Int) = b.toInt8.toInt + 256 * [b].countP isHigh := by
  have hsigned : b.toInt8.toInt =
      if 2 * b.toNat < 2 ^ 8 then (b.toNat : Int) else (b.toNat : Int) - (2 ^ 8 : Nat) :=
    BitVec.toInt_eq_toNat_cond b.toBitVec
  rw [hsigned, List.countP_singleton, isHigh]
  simp only [decide_eq_true_eq, UInt8.le_iff_toNat_le]
  have hhigh : (0x80 : UInt8).toNat = 128 := rfl
  rw [hhigh]
  split <;> split <;> omega

/-- The unsigned sum exceeds the signed one by 256 for each octet with a high bit. -/
theorem sum_eq_signedSum_add (bs : Bytes) :
    (sum bs : Int) = signedSum bs + 256 * bs.countP isHigh := by
  induction bs using List.reverseRecOn with
  | nil => rfl
  | append_singleton bs b ih =>
    rw [sum_concat, signedSum_concat, Int.natCast_add, ih, toNat_eq_toInt_add, List.countP_append,
      Int.natCast_add, Int.mul_add]
    omega

theorem signedSum_modEq (bs : Bytes) : signedSum bs ≡ sum bs [ZMOD 256] := by
  rw [sum_eq_signedSum_add]
  exact (Int.modEq_add_fac_self).symm

/-- Modulo 256 the number stored in a header that verifies is the sum of its octets. -/
theorem stored_modEq_of_verify {bs : Bytes} (h : verify bs = true) :
    ((scan (storedField bs)).stored : Int) ≡ sum (blanked bs) [ZMOD 256] := by
  rcases (verify_iff bs).mp h with hstored | hstored
  · rw [hstored]
  · rw [hstored]
    exact signedSum_modEq _

/-! An octet outside the checksum field -/

variable {bs : Bytes} {i : Nat}

theorem storedField_set (h : ¬ Layout.checksum.Covers i) (x : UInt8) :
    storedField (bs.set i x) = storedField bs := by
  unfold storedField
  rw [List.drop_set]
  split
  · rfl
  · next hlow =>
    unfold Field.Covers Field.stop at h
    rw [List.take_set, List.set_eq_of_length_le]
    rw [List.length_take]
    omega

theorem blanked_set (h : ¬ Layout.checksum.Covers i) (x : UInt8) :
    blanked (bs.set i x) = (blanked bs).set i x := by
  rw [blanked, List.mapIdx_set, if_neg h]
  rfl

theorem length_blanked (bs : Bytes) : (blanked bs).length = bs.length := List.length_mapIdx

theorem getElem_blanked (h : ¬ Layout.checksum.Covers i) (hi : i < bs.length)
    (hlen : i < (blanked bs).length) : (blanked bs)[i] = bs[i] := by
  simp only [blanked, List.getElem_mapIdx, if_neg h]

/-- A header that verifies does not do so any more once an octet outside its checksum field is
    another one. -/
theorem verify_set_eq_false (hi : i < bs.length) (hout : ¬ Layout.checksum.Covers i) {x : UInt8}
    (hx : x ≠ bs[i]) (h : verify bs = true) : verify (bs.set i x) = false := by
  rw [Bool.eq_false_iff]
  intro hset
  have hbefore := stored_modEq_of_verify h
  have hafter := stored_modEq_of_verify hset
  rw [storedField_set hout, blanked_set hout] at hafter
  have hlen : i < (blanked bs).length := by rwa [length_blanked]
  have hsum := sum_set hlen x
  rw [getElem_blanked hout hi hlen] at hsum
  have hsame : (sum (blanked bs) : Int) % 256 = sum ((blanked bs).set i x) % 256 :=
    hbefore.symm.trans hafter
  have hold := bs[i].toNat_lt
  have hnew := x.toNat_lt
  exact hx (UInt8.toNat_inj.mp (by omega))

/-- A header that holds a single octet with a high bit, and its signed sum. -/
def signedHeader : Record :=
  (Record.zero.put Layout.name [0xE9]).put Layout.checksum (field Layout.checksum.width 233)

/-- Without its high bit the octet counts the same in both sums, and neither is the stored one. -/
theorem changed_signedHeader : verify signedHeader.octets = true ∧
    verify (signedHeader.octets.set 0 0x69) = false := by
  have hright : verify signedHeader.octets = true := by decide +kernel
  have hoctet : signedHeader.octets[0]? = some 0xE9 := by decide +kernel
  obtain ⟨hlen, hfirst⟩ := List.getElem?_eq_some_iff.mp hoctet
  have hchanged : (0x69 : UInt8) ≠ signedHeader.octets[0] := by
    rw [hfirst]
    decide
  exact ⟨hright, verify_set_eq_false hlen (by decide) hchanged hright⟩

end TarHeader.Checksum
