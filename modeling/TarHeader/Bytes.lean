/- Octets and characters as lists, and how a run of octets fills a field of fixed width. `fit w
   bs` has exactly `w` octets (`length_fit`): what does not fit is cut off at the end, what is
   missing is NUL. `untilNul` reads such a field back (`untilNul_fit`). -/
namespace TarHeader

abbrev Bytes := List UInt8

abbrev Text := List Char

/-- The first `w` octets of `bs`, filled up to `w` with NUL. -/
def fit (w : Nat) (bs : Bytes) : Bytes := (bs ++ List.replicate w 0).take w

@[simp] theorem length_fit (w : Nat) (bs : Bytes) : (fit w bs).length = w := by
  simp [fit]

theorem fit_of_length_le {w : Nat} {bs : Bytes} (h : bs.length ≤ w) :
    fit w bs = bs ++ List.replicate (w - bs.length) 0 := by
  simp [fit, List.take_append, List.take_of_length_le h]

theorem fit_of_length_eq {w : Nat} {bs : Bytes} (h : bs.length = w) : fit w bs = bs := by
  simp [fit_of_length_le (Nat.le_of_eq h), h]

/-- The octets before the first NUL, all of them if there is none. -/
def untilNul (bs : Bytes) : Bytes := bs.takeWhile (· != 0)

/-- A NUL free run is read back from any field that has room for it. -/
theorem untilNul_fit {w : Nat} {bs : Bytes} (h : bs.length ≤ w) (hz : ∀ b ∈ bs, b ≠ 0) :
    untilNul (fit w bs) = bs := by
  have hall : ∀ b ∈ bs, (b != 0) = true := fun b hb => by simpa using hz b hb
  rw [untilNul, fit_of_length_le h, List.takeWhile_append_of_pos hall]
  cases hn : w - bs.length <;> simp [List.replicate_succ]

end TarHeader
