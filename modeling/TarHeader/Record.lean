import TarHeader.Layout

/- A header record: 512 octets, read and written field by field. `Record.put` keeps the length by
   fitting what it is given to the field, so writing one field never moves another: a field that
   was written reads back (`read_put_self`), and one apart from it reads as before
   (`read_put_of_apart`). -/
namespace TarHeader

structure Record where
  octets : Bytes
  length_octets : octets.length = blockSize
  deriving DecidableEq

attribute [simp] Record.length_octets

/-- Two fields without a common octet. -/
def Field.Apart (f g : Field) : Prop := f.stop ≤ g.offset ∨ g.stop ≤ f.offset

namespace Record

theorem ext_octets {r s : Record} (h : r.octets = s.octets) : r = s := by
  cases r; cases s; simp_all

def zero : Record := ⟨List.replicate blockSize 0, by simp⟩

/-- The octets of a field. -/
def read (r : Record) (f : Field) : Bytes := (r.octets.drop f.offset).take f.width

/-- The record with `bs` in a field, cut or padded with NUL to its width. -/
def put (r : Record) (f : Field) (bs : Bytes) : Record where
  octets := r.octets.take f.offset ++ fit f.width bs ++ r.octets.drop f.stop
  length_octets := by
    have := f.fits
    simp only [List.length_append, List.length_take, List.length_drop, length_fit, length_octets,
      Field.stop]
    omega

/-- Fields written one after the other. -/
def putAll (r : Record) (fields : List (Field × Bytes)) : Record :=
  fields.foldl (fun r field => r.put field.1 field.2) r

@[simp] theorem length_read (r : Record) (f : Field) : (r.read f).length = f.width := by
  have := f.fits
  simp only [read, List.length_take, List.length_drop, length_octets]
  omega

/-- As many octets stand in front of a field as its offset says. -/
theorem length_take_offset (r : Record) (f : Field) :
    (r.octets.take f.offset).length = f.offset := by
  have := f.fits
  rw [List.length_take, length_octets]
  omega

theorem read_put_self (r : Record) (f : Field) (bs : Bytes) :
    (r.put f bs).read f = fit f.width bs := by
  have hl := r.length_take_offset f
  simp [read, put, List.append_assoc, hl]

theorem read_put_of_apart (r : Record) {f g : Field} (bs : Bytes) (h : f.Apart g) :
    (r.put f bs).read g = r.read g := by
  have hf := f.fits
  have hg := g.fits
  unfold Field.Apart Field.stop at h
  apply List.ext_getElem (by simp)
  intro i h₁ h₂
  rw [length_read] at h₁ h₂
  -- An octet of `g` stands in front of `f` or after it, and is found there in both records.
  simp only [read, put, Field.stop, List.getElem_take, List.getElem_drop, List.getElem_append,
    List.length_append, List.length_take, length_octets, length_fit]
  split
  · split
    · rfl
    · omega
  · congr 1; omega

end Record

end TarHeader
