import TarHeader.Buffer
import TarHeader.Proofs.Numeral.RoundTrip

/- Octal text with fewer digits than its number, and with more. Written from the back, a digit is
   what is left of the number by the power of the base that it stands for
   (`Positional.getElem?_reverse_digits`), however many there are. So a buffer is filled with the
   low digits, whatever it held and whatever the number; it is read as the number that these denote,
   and refused where that is beyond the signed word of the reader
   (`Buffer.putOctal_low_digits`). -/
namespace TarHeader

namespace Positional

/-- The digits from the last to the first. -/
theorem getElem?_reverse_digits {base w n i : Nat} (h : i < w) :
    (digits base w n).reverse[i]? = some (n / base ^ i % base) := by
  induction w generalizing n i with
  | zero => exact absurd h (Nat.not_lt_zero i)
  | succ w ih =>
    rw [digits, List.reverse_append, List.reverse_singleton, List.singleton_append]
    cases i with
    | zero => simp
    | succ i =>
      have hlower : (digits base w (n / base)).reverse[i]? = some (n / base / base ^ i % base) :=
        ih (Nat.lt_of_succ_lt_succ h)
      rw [List.getElem?_cons_succ, hlower, Nat.div_div_eq_div_mul, Nat.pow_succ']

end Positional

namespace Octal

theorem getElem?_reverse_digits {w n i : Nat} (h : i < w) :
    (digits w n).reverse[i]? = some (digitOctet (n / 8 ^ i % 8)) := by
  rw [digits, ← List.map_reverse, List.getElem?_map, Positional.getElem?_reverse_digits h]
  rfl

/-- Octal text is read as the number that its digits denote. -/
theorem read_encode (name : String) {w : Nat} (hw : 2 ≤ w) (n : Nat) :
    read name (encode w n) =
      if n % 8 ^ (w - 1) ≤ 2 ^ 63 - 1 then .ok (n % 8 ^ (w - 1))
      else .error (.invalidField name (.octalTooLarge (digits (w - 1) n))) := by
  have hcount : Positional.count 8 (w - 1) = 8 ^ (w - 1) := rfl
  have hlimit : readLimit = 2 ^ 63 - 1 := by decide
  rw [read, decode_encode hw, hcount, hlimit]
  split
  · exact Fault.mapError_ok _ _
  · exact Fault.mapError_error _ _

end Octal

namespace Buffer

/-- A number fills a buffer with its low digits and a NUL. They are read as the number they denote,
    or refused. From 23 octets on a word has no other digits, and a word that is no signed one is
    refused. -/
theorem putOctal_low_digits (name : String) (v : UInt64) {buf : Bytes} (hw : 2 ≤ buf.length) :
    ∃ ds, putOctal v.toNat buf = .ok () (ds ++ [0]) ∧ ds.length = buf.length - 1 ∧
      (∀ b ∈ ds, Octal.isDigit b = true) ∧
      (∀ i, i < ds.length → ds.reverse[i]? = some (Octal.digitOctet (v.toNat / 8 ^ i % 8))) ∧
      Octal.read name (ds ++ [0]) =
        (if v.toNat % 8 ^ (buf.length - 1) ≤ 2 ^ 63 - 1 then .ok (v.toNat % 8 ^ (buf.length - 1))
          else .error (.invalidField name (.octalTooLarge ds))) ∧
      (23 ≤ buf.length → Octal.read name (ds ++ [0]) =
        if v.toNat ≤ 2 ^ 63 - 1 then .ok v.toNat
          else .error (.invalidField name (.octalTooLarge ds))) := by
  have hencode :
      Octal.encode buf.length v.toNat = Octal.digits (buf.length - 1) v.toNat ++ [0] := by
    obtain ⟨k, hk⟩ : ∃ k, buf.length = k + 1 := ⟨buf.length - 1, by omega⟩
    rw [hk]
    rfl
  have hput : putOctal v.toNat buf = .ok () (Octal.encode buf.length v.toNat) := rfl
  have hread := Octal.read_encode name hw v.toNat
  rw [hencode] at hput hread
  refine ⟨_, hput, Octal.length_digits _ _, fun b hb => Octal.isDigit_of_mem_digits hb,
    fun i hi => ?_, hread, fun hwide => ?_⟩
  · rw [Octal.length_digits] at hi
    exact Octal.getElem?_reverse_digits hi
  · have hword : v.toNat < 8 ^ (buf.length - 1) := by
      calc v.toNat < 2 ^ 64 := v.toNat_lt
        _ ≤ 8 ^ 22 := by decide
        _ ≤ 8 ^ (buf.length - 1) := Nat.pow_le_pow_right (by decide) (by omega)
    rw [hread, Nat.mod_eq_of_lt hword]

/-- A narrow buffer keeps two digits of a number, and the largest word is refused by a wide one. -/
theorem putOctal_narrow_wide :
    (∃ buf, putOctal 0o1234 [7, 7, 7] = .ok () buf ∧ Octal.read "mode" buf = .ok 0o34) ∧
    ∃ buf ds, putOctal 0xFFFFFFFFFFFFFFFF (List.replicate 24 7) = .ok () buf ∧
      Octal.read "size" buf = .error (.invalidField "size" (.octalTooLarge ds)) := by
  have hnarrow : 2 ≤ ([7, 7, 7] : Bytes).length := by decide
  have hwide : 2 ≤ (List.replicate 24 7 : Bytes).length := by decide
  obtain ⟨ds, hput, -, -, -, hread, -⟩ := putOctal_low_digits "mode" 0o1234 hnarrow
  obtain ⟨ds', hput', -, -, -, -, hread'⟩ := putOctal_low_digits "size" 0xFFFFFFFFFFFFFFFF hwide
  exact ⟨⟨_, hput, hread⟩, _, ds', hput', hread' (by decide)⟩

end Buffer

end TarHeader
