import TarHeader.Bytes

/- Positional notation of natural numbers, most significant digit first. `digits base w n` are
   the `w` low digits of `n`; digits above them are dropped, missing ones are zero, so the text
   has width `w` for every number (`length_digits`) and reads back as `n` modulo `count base w`
   (`ofDigits_digits`). -/
namespace TarHeader.Positional

/-- The `w` low digits of `n`. -/
def digits (base : Nat) : Nat → Nat → List Nat
  | 0, _ => []
  | w + 1, n => digits base w (n / base) ++ [n % base]

/-- The number that a row of digits denotes. -/
def ofDigits (base : Nat) (ds : List Nat) : Nat := ds.foldl (fun n d => n * base + d) 0

/-- How many numbers have no more than `w` digits. -/
def count (base w : Nat) : Nat := Nat.pow base w

theorem count_zero (base : Nat) : count base 0 = 1 := rfl

theorem count_succ (base w : Nat) : count base (w + 1) = base * count base w := Nat.pow_succ'

@[simp] theorem length_digits (base w n : Nat) : (digits base w n).length = w := by
  induction w generalizing n with
  | zero => rfl
  | succ w ih => simp [digits, ih]

theorem lt_of_mem_digits {base w n d : Nat} (hb : 0 < base) (h : d ∈ digits base w n) :
    d < base := by
  induction w generalizing n with
  | zero => simp [digits] at h
  | succ w ih =>
    rcases List.mem_append.mp h with h | h
    · exact ih h
    · rw [List.mem_singleton.mp h]; exact Nat.mod_lt _ hb

@[simp] theorem ofDigits_append_singleton (base : Nat) (ds : List Nat) (d : Nat) :
    ofDigits base (ds ++ [d]) = ofDigits base ds * base + d := by
  simp [ofDigits]

/-- Writing and reading keeps the low `w` digits. -/
theorem ofDigits_digits (base w n : Nat) :
    ofDigits base (digits base w n) = n % count base w := by
  induction w generalizing n with
  | zero => simp [digits, ofDigits, count_zero, Nat.mod_one]
  | succ w ih =>
    calc ofDigits base (digits base (w + 1) n)
        = ofDigits base (digits base w (n / base)) * base + n % base := by
          rw [digits, ofDigits_append_singleton]
      _ = n / base % count base w * base + n % base := by rw [ih]
      _ = n % count base (w + 1) := by
          rw [count_succ, Nat.mod_mul, Nat.add_comm, Nat.mul_comm]

end TarHeader.Positional
