import TarHeader.Attributes.Write
import TarHeader.Proofs.Checksum.FirstRun

/- The checksum of a written header. The sum of a record's octets is too small to lose one of its six
   digits (`sum_lt`), so all of it is stored (`sealed_seal`), and the octets that it is taken of are
   those that verifying sums up, so a sealed record verifies (`Sealed.verify`). Sealing changes
   nothing outside the checksum field. -/
namespace TarHeader

namespace Checksum

theorem sum_le (bs : Bytes) : sum bs ≤ 255 * bs.length := by
  induction bs using List.reverseRecOn with
  | nil => exact Nat.le_refl 0
  | append_singleton bs b ih =>
    have hb := b.toNat_lt
    rw [sum_concat, List.length_append, List.length_singleton]
    omega

/-- Six digits have room for the sum of a record. -/
theorem sum_lt (r : Record) : sum r.octets < 8 ^ 6 := by
  calc sum r.octets ≤ 255 * r.octets.length := sum_le r.octets
    _ = 255 * blockSize := by rw [r.length_octets]
    _ < 8 ^ 6 := by decide

/-- A checksum field that stores a number: six digits, NUL and a space. -/
def Stores (bs : Bytes) (n : Nat) : Prop :=
  ∃ ds : Bytes, ds.length = 6 ∧ (∀ b ∈ ds, Octal.isDigit b = true) ∧ Octal.value ds = n ∧
    bs = ds ++ [0, 0x20]

theorem stores_field {n : Nat} (h : n < 8 ^ 6) : Stores (field Layout.checksum.width n) n :=
  ⟨Octal.digits 6 n, Octal.length_digits 6 n, fun _ hb => Octal.isDigit_of_mem_digits hb,
    (Octal.value_digits 6 n).trans (Nat.mod_eq_of_lt h), rfl⟩

theorem Stores.stored_scan {bs : Bytes} {n : Nat} (h : Stores bs n) : (scan bs).stored = n := by
  obtain ⟨ds, hl, hd, hvalue, rfl⟩ := h
  rw [stored_scan_digits hd hl, hvalue]

end Checksum

namespace Record

/-- The record with spaces in its checksum field. -/
def blank (r : Record) : Record :=
  r.put Layout.checksum (List.replicate Layout.checksum.width 0x20)

theorem seal_eq (r : Record) :
    r.seal = r.blank.put Layout.checksum
      (Checksum.field Layout.checksum.width (Checksum.sum r.blank.octets)) := rfl

theorem octets_ext {r s : Record} (h : ∀ i : Nat, r.octets[i]? = s.octets[i]?) : r = s :=
  ext_octets (List.ext_getElem? h)

/-- What is written later into the same field is all that stays. -/
theorem put_put (r : Record) (f : Field) (bs bs' : Bytes) :
    (r.put f bs).put f bs' = r.put f bs' := by
  apply octets_ext
  intro i
  by_cases hc : f.Covers i
  · rw [octet_put_of_covers _ bs' hc, octet_put_of_covers r bs' hc]
  · rw [octet_put_of_not_covers _ bs' hc, octet_put_of_not_covers r bs hc,
      octet_put_of_not_covers r bs' hc]

/-- Verifying sums up the octets of the blank record. -/
theorem blanked_octets (r : Record) : Checksum.blanked r.octets = r.blank.octets := by
  apply List.ext_getElem?
  intro i
  rw [Checksum.blanked, List.getElem?_mapIdx]
  by_cases hc : Layout.checksum.Covers i
  · have hi : i < blockSize := by
      have := Layout.checksum.fits
      unfold Field.Covers Field.stop at hc
      omega
    have hj : i - Layout.checksum.offset < Layout.checksum.width := by
      unfold Field.Covers Field.stop at hc
      omega
    rw [blank, octet_put_of_covers r _ hc, fit_of_length_eq (List.length_replicate),
      List.getElem?_replicate_of_lt hj, List.getElem?_eq_getElem (by rw [r.length_octets]; exact hi),
      Option.map_some, if_pos hc]
  · rw [blank, octet_put_of_not_covers r _ hc]
    cases r.octets[i]? with
    | none => rfl
    | some b => rw [Option.map_some, if_neg hc]

theorem storedField_octets (r : Record) :
    Checksum.storedField r.octets = r.read Layout.checksum := rfl

/-- The checksum field stores the sum of the octets, those in its own place being spaces. -/
def Sealed (r : Record) : Prop :=
  Checksum.Stores (r.read Layout.checksum) (Checksum.sum r.blank.octets)

/-- What stands in the checksum field is no part of what is summed up. -/
theorem blank_put_checksum (r : Record) (bs : Bytes) :
    (r.put Layout.checksum bs).blank = r.blank := put_put _ _ _ _

theorem blank_blank (r : Record) : r.blank.blank = r.blank := blank_put_checksum _ _

theorem read_seal_checksum (r : Record) : r.seal.read Layout.checksum =
    Checksum.field Layout.checksum.width (Checksum.sum r.blank.octets) := by
  rw [seal_eq, read_put_self, fit_of_length_eq]
  simp [Checksum.field, Layout.checksum]

theorem sealed_seal (r : Record) : r.seal.Sealed := by
  rw [Sealed, read_seal_checksum, seal_eq, blank_put_checksum, blank_blank]
  exact Checksum.stores_field (Checksum.sum_lt r.blank)

theorem Sealed.verify {r : Record} (h : r.Sealed) : Checksum.verify r.octets = true := by
  rw [Checksum.verify_iff, blanked_octets, storedField_octets, h.stored_scan]
  exact .inl rfl

theorem read_seal_of_apart {f : Field} (h : Layout.checksum.Apart f) (r : Record) :
    r.seal.read f = r.read f := by
  rw [seal_eq, read_put_of_apart _ _ h, blank, read_put_of_apart _ _ h]

theorem octet_seal_of_not_covers {i : Nat} (h : ¬ Layout.checksum.Covers i) (r : Record) :
    r.seal.octets[i]? = r.octets[i]? := by
  rw [seal_eq, octet_put_of_not_covers _ _ h, blank, octet_put_of_not_covers _ _ h]

/-- A field that lies apart from the checksum reads from a sealed record as from what was sealed. -/
theorem read_seal_putAll_of_mem {fields : List (Field × Bytes)} {f : Field} {bs : Bytes}
    (hsum : ∀ x ∈ fields, Layout.checksum.Apart x.1)
    (hfields : fields.Pairwise fun x y => y.1.Apart x.1) (hm : (f, bs) ∈ fields) (r : Record) :
    (r.putAll fields).seal.read f = fit f.width bs := by
  rw [read_seal_of_apart (hsum _ hm)]
  exact read_putAll_of_mem hfields hm r

theorem read_seal_putAll_of_apart {fields : List (Field × Bytes)} {f : Field}
    (hsum : Layout.checksum.Apart f) (hfields : ∀ x ∈ fields, x.1.Apart f) (r : Record) :
    (r.putAll fields).seal.read f = r.read f := by
  rw [read_seal_of_apart hsum]
  exact read_putAll_of_apart hfields r

end Record

end TarHeader
