import TarHeader.Proofs.Numeral.Writable

/- What a binary field denotes. Behind 0xff its octets are a number in two's complement, as wide as
   the field. Behind any other octet with a high bit they are a number without that bit. Both are
   read octet by octet from the left, and for 0xff the weight of the high bit is taken off at last,
   once in place of the bit and once for the sign (`value_eq_denoted`). A field of 15 octets fills
   119 bits below the sign, so none of this leaves a signed register of 128 bits
   (`computed?_eq_some`). -/
namespace TarHeader

namespace Base256

variable {b : UInt8} {rest : Bytes}

/-- The octets as one number, the most significant first. -/
def bigEndian (bs : Bytes) : Nat := Positional.ofDigits 256 (bs.map UInt8.toNat)

/-- The number that a field with a high bit in front denotes. -/
def denoted (bs : Bytes) : Int :=
  if bs.head? = some 0xff then (BitVec.ofNat (8 * bs.length) (bigEndian bs)).toInt
  else (bigEndian bs % 2 ^ (8 * bs.length - 1) : Nat)

/-- The number that is read before a sign is taken off. -/
def magnitude (b : UInt8) (rest : Bytes) : Nat :=
  Positional.ofDigits 256 (b.toNat % 0x80 :: rest.map UInt8.toNat)

theorem isBinary_iff_msb (b : UInt8) : Numeral.isBinary b = true ↔ b.toBitVec.msb = true := by
  rw [BitVec.msb_eq_decide, Numeral.isBinary, decide_eq_true_eq, decide_eq_true_eq]
  exact UInt8.le_iff_toNat_le

/-- The weight of the high bit of a field. -/
theorem weight_eq (l : Nat) : 2 ^ (8 * (l + 1) - 1) = 0x80 * Positional.count 256 l := by
  calc 2 ^ (8 * (l + 1) - 1)
      = 2 ^ (7 + 8 * l) := by congr 1; omega
    _ = 2 ^ 7 * (2 ^ 8) ^ l := by rw [Nat.pow_add, Nat.pow_mul]

theorem bigEndian_lt (bs : Bytes) : bigEndian bs < Positional.count 256 bs.length := by
  have hlt : ∀ d ∈ bs.map UInt8.toNat, d < 256 := by
    intro d hd
    obtain ⟨b, -, rfl⟩ := List.mem_map.mp hd
    exact b.toNat_lt
  have h := Positional.ofDigits_lt_count hlt
  rwa [List.length_map] at h

theorem magnitude_eq (b : UInt8) (rest : Bytes) :
    magnitude b rest = b.toNat % 0x80 * Positional.count 256 rest.length + bigEndian rest := by
  rw [magnitude, Positional.ofDigits_cons, List.length_map, bigEndian]

/-- Without its high bit the first octet leaves room for that bit. -/
theorem magnitude_lt (b : UInt8) (rest : Bytes) :
    magnitude b rest < 0x80 * Positional.count 256 rest.length := by
  have hlow : b.toNat % 0x80 + 1 ≤ 0x80 := Nat.mod_lt _ (by decide)
  calc magnitude b rest
      < b.toNat % 0x80 * Positional.count 256 rest.length + Positional.count 256 rest.length := by
        rw [magnitude_eq]
        exact Nat.add_lt_add_left (bigEndian_lt rest) _
    _ = (b.toNat % 0x80 + 1) * Positional.count 256 rest.length := (Nat.succ_mul _ _).symm
    _ ≤ 0x80 * Positional.count 256 rest.length := Nat.mul_le_mul_right _ hlow

theorem bigEndian_eq (hb : Numeral.isBinary b = true) (rest : Bytes) :
    bigEndian (b :: rest) = 0x80 * Positional.count 256 rest.length + magnitude b rest := by
  have hlow : 0x80 ≤ b.toNat := UInt8.le_iff_toNat_le.mp (decide_eq_true_eq.mp hb)
  have hhigh := b.toNat_lt
  have hsplit : b.toNat = 0x80 + b.toNat % 0x80 := by omega
  calc bigEndian (b :: rest)
      = b.toNat * Positional.count 256 rest.length + bigEndian rest := by
        rw [bigEndian, List.map_cons, Positional.ofDigits_cons, List.length_map, ← bigEndian]
    _ = (0x80 + b.toNat % 0x80) * Positional.count 256 rest.length + bigEndian rest := by
        rw [← hsplit]
    _ = 0x80 * Positional.count 256 rest.length + magnitude b rest := by
        rw [magnitude_eq, Nat.add_mul, Nat.add_assoc]

/-- What is computed of a binary field is what it denotes. -/
theorem value_eq_denoted (hb : Numeral.isBinary b = true) (rest : Bytes) :
    value b rest = denoted (b :: rest) := by
  have hbig := bigEndian_eq hb rest
  have hlt := magnitude_lt b rest
  have hweight := weight_eq rest.length
  unfold value denoted
  rw [List.head?_cons, List.length_cons, ← magnitude]
  by_cases hff : b = 0xff
  · have htop : 2 ^ (8 * (rest.length + 1)) = 2 * 2 ^ (8 * (rest.length + 1) - 1) := by
      rw [← Nat.pow_succ']
      congr 1
    have hfits : bigEndian (b :: rest) < 2 ^ (8 * (rest.length + 1)) := by omega
    rw [if_pos hff, if_pos (congrArg some hff), BitVec.toInt_eq_toNat_cond, BitVec.toNat_ofNat,
      Nat.mod_eq_of_lt hfits, if_neg (by omega)]
    omega
  · have hmod : bigEndian (b :: rest) % 2 ^ (8 * (rest.length + 1) - 1) = magnitude b rest := by
      rw [hweight, hbig, Nat.add_mod_left, Nat.mod_eq_of_lt hlt]
    rw [if_neg hff, if_neg fun h => hff (Option.some.inj h), hmod]

/-! The computation in a register -/

/-- The numbers of a signed register of 128 bits. -/
def InRegister (v : Int) : Prop := -2 ^ 127 ≤ v ∧ v < 2 ^ 127

instance (v : Int) : Decidable (InRegister v) := by unfold InRegister; infer_instance

/-- An octet shifted into a register, if the register has room for it. -/
def shiftIn? (n : Nat) (b : UInt8) : Option Nat := do
  guard (InRegister (n <<< 8 : Nat))
  guard (InRegister (n <<< 8 ||| b.toNat : Nat))
  return n <<< 8 ||| b.toNat

/-- The number in an octet with its high bit set and the octets after it, computed in registers. It
    is none if a shift, a sum or a difference leaves them. -/
def computed? (b : UInt8) (rest : Bytes) : Option Int := do
  let n ← rest.foldlM shiftIn? (b &&& 0x7f).toNat
  if b = 0xff then
    let weight : Nat := 1 <<< (8 * (rest.length + 1) - 1)
    guard (InRegister weight)
    guard (InRegister (n - weight))
    return n - weight
  else return n

theorem guard_eq_some {p : Prop} [Decidable p] (h : p) : (guard p : Option Unit) = some () :=
  if_pos h

/-- A number that leaves room for another octet takes it, and leaves room for one octet less. -/
theorem shiftIn?_eq_some {n k : Nat} (h : (n + 1) * Positional.count 256 (k + 1) ≤ 2 ^ 127)
    (b : UInt8) : shiftIn? n b = some (n * 256 + b.toNat) ∧
      (n * 256 + b.toNat + 1) * Positional.count 256 k ≤ 2 ^ 127 := by
  have hb : b.toNat < 2 ^ 8 := b.toNat_lt
  have hpos := Positional.count_pos 256 k (by decide)
  have hroom : (n + 1) * 256 * Positional.count 256 k ≤ 2 ^ 127 := by
    rwa [Nat.mul_assoc, ← Positional.count_succ]
  have hshift : n <<< 8 = n * 256 := Nat.shiftLeft_eq n 8
  constructor
  · have hle : (n + 1) * 256 ≤ 2 ^ 127 := (Nat.le_mul_of_pos_right _ hpos).trans hroom
    have hshifted : InRegister (n <<< 8 : Nat) := by
      rw [hshift]
      constructor <;> omega
    have hor : n <<< 8 ||| b.toNat = n * 256 + b.toNat := by
      rw [← Nat.shiftLeft_add_eq_or_of_lt hb, hshift]
    have hfilled : InRegister (n * 256 + b.toNat : Nat) := by
      constructor <;> omega
    rw [shiftIn?, hor, guard_eq_some hshifted, guard_eq_some hfilled]
    rfl
  · refine (Nat.mul_le_mul_right _ ?_).trans hroom
    omega

theorem foldlM_shiftIn? (rest : Bytes) {n : Nat}
    (h : (n + 1) * Positional.count 256 rest.length ≤ 2 ^ 127) :
    rest.foldlM shiftIn? n = some ((rest.map UInt8.toNat).foldl (fun n d => n * 256 + d) n) := by
  -- What each octet keeps is the room for those that are still to come.
  induction rest generalizing n with
  | nil => rfl
  | cons b rest ih =>
    obtain ⟨hshift, hroom⟩ := shiftIn?_eq_some h b
    rw [List.foldlM_cons, hshift, List.map_cons, List.foldl_cons]
    exact ih hroom

/-- No field that is not too wide overflows. -/
theorem computed?_eq_some (b : UInt8) {rest : Bytes} (h : rest.length + 1 ≤ maxWidth) :
    computed? b rest = some (value b rest) := by
  have hcount : Positional.count 256 rest.length ≤ Positional.count 256 14 :=
    Positional.count_le_count (by decide) (Nat.le_of_succ_le_succ h)
  have hwidest : 0x80 * Positional.count 256 14 = 2 ^ 119 := by decide
  have hlow : (b &&& 0x7f).toNat = b.toNat % 0x80 := by
    rw [UInt8.toNat_and]
    exact Nat.and_two_pow_sub_one_eq_mod b.toNat 7
  have hlt : b.toNat % 0x80 < 0x80 := Nat.mod_lt _ (by decide)
  have hroom : (b.toNat % 0x80 + 1) * Positional.count 256 rest.length ≤ 2 ^ 127 :=
    (Nat.mul_le_mul (Nat.succ_le_of_lt hlt) hcount).trans (by decide)
  have hfold : rest.foldlM shiftIn? (b &&& 0x7f).toNat = some (magnitude b rest) := by
    rw [hlow, foldlM_shiftIn? rest hroom, magnitude, Positional.ofDigits, List.foldl_cons,
      Nat.zero_mul, Nat.zero_add]
  have hmag := magnitude_lt b rest
  have hweight : 1 <<< (8 * (rest.length + 1) - 1) = 0x80 * Positional.count 256 rest.length := by
    rw [Nat.one_shiftLeft, weight_eq]
  have hfits : InRegister (0x80 * Positional.count 256 rest.length : Nat) := by
    constructor <;> omega
  have hdiff : InRegister
      (magnitude b rest - (0x80 * Positional.count 256 rest.length : Nat)) := by
    constructor <;> omega
  unfold computed? value
  rw [hfold, ← magnitude, hweight]
  show (if b = 0xff then _ else _) = _
  by_cases hff : b = 0xff
  · rw [if_pos hff, if_pos hff, guard_eq_some hfits, guard_eq_some hdiff, Int.natCast_mul]
    rfl
  · rw [if_neg hff, if_neg hff]
    rfl

end Base256

namespace Numeral

open Base256 (computed? denoted value)

/-- A binary field is read as what it denotes, unless it is wider than 15 octets or denotes a number
    beyond 64 bits, and nothing overflows on the way. -/
theorem read_binary (name : String) {b : UInt8} (hb : b.toBitVec.msb = true) (rest : Bytes) :
    read name (b :: rest) =
      (if 15 < rest.length + 1 then .error (.invalidField name .base256TooWide)
      else if Readable (denoted (b :: rest)) then .ok (denoted (b :: rest))
      else .error (.invalidField name (.base256TooLarge (denoted (b :: rest))))) ∧
    (rest.length + 1 ≤ 15 → computed? b rest = some (value b rest)) := by
  have hbinary : isBinary b = true := (Base256.isBinary_iff_msb b).mpr hb
  refine ⟨?_, Base256.computed?_eq_some b⟩
  rw [read, decode, if_pos hbinary, Base256.decode, Base256.value_eq_denoted hbinary]
  simp only [isSome_ofInt?_iff]
  by_cases hwide : 15 < rest.length + 1
  · have hwide' : rest.length + 1 > Base256.maxWidth := hwide
    rw [if_pos hwide, if_pos hwide', Fault.mapError_error]
  · have hwide' : ¬ rest.length + 1 > Base256.maxWidth := hwide
    rw [if_neg hwide, if_neg hwide']
    split
    · rw [Fault.mapError_ok]
    · rw [Fault.mapError_error]

/-- The widest field of a negative number, all bits of it set. -/
theorem minusOne_read :
    read "mtime" (0xff :: List.replicate 14 0xff) = .ok (-1) ∧
    computed? 0xff (List.replicate 14 0xff) = some (-1) := by
  obtain ⟨hread, hcomputed⟩ := read_binary "mtime" (b := 0xff) (by decide) (List.replicate 14 0xff)
  have hdenoted : denoted (0xff :: List.replicate 14 0xff) = -1 := by decide +kernel
  constructor
  · rw [hread, hdenoted]
    rfl
  · rw [hcomputed (by decide), Base256.value_eq_denoted (by decide), hdenoted]

end Numeral

end TarHeader
