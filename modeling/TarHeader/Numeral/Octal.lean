import TarHeader.Fault
import TarHeader.Positional

/- Octal fields. A number is written as digits that fill the field up to its last octet, which is
   NUL. Reading is laxer: it takes spaces before the digits and NULs and spaces after them, needs
   no terminator, and takes a field that starts with NUL or holds no digit as zero. The largest
   number read is that of a signed 64 bit word. -/
namespace TarHeader.Octal

/-- The largest number that is read from a numeric field. -/
def readLimit : Nat := 0x7fffffffffffffff

/-- The largest number that a field of `w` octets is given in octal. Above 21 octets the limit on
    reading is the smaller one. -/
def limit (w : Nat) : Nat := if w ≤ 21 then Positional.count 8 (w - 1) - 1 else readLimit

def isDigit (b : UInt8) : Bool := 0x30 ≤ b && b ≤ 0x37

def digitValue (b : UInt8) : Nat := b.toNat - 0x30

def digitOctet (d : Nat) : UInt8 := .ofNat (0x30 + d)

/-- The `w` low digits of `n`. -/
def digits (w n : Nat) : Bytes := (Positional.digits 8 w n).map digitOctet

/-- The number that a run of digits denotes, zero for no digits. -/
def value (ds : Bytes) : Nat := Positional.ofDigits 8 (ds.map digitValue)

/-- A whole field of `w` octets. Digits it has no room for are dropped from the front. -/
def encode : Nat → Nat → Bytes
  | 0, _ => []
  | w + 1, n => digits w n ++ [0]

def isPadding (b : UInt8) : Bool := b == 0 || b == 0x20

/-- The field without the spaces before its digits and the padding after them. -/
def strip (bs : Bytes) : Bytes :=
  ((bs.dropWhile (· == 0x20)).reverse.dropWhile isPadding).reverse

def decode (bs : Bytes) : Except Malformed Nat :=
  if bs.length < 2 then .error (.tooShort bs.length)
  else if bs.head? = some 0 then .ok 0
  else
    let ds := strip bs
    match ds.find? (!isDigit ·) with
    | some b => .error (.notOctal b bs)
    | none => if value ds ≤ readLimit then .ok (value ds) else .error (.octalTooLarge ds)

/-- The number in the octal field called `name`. -/
def read (name : String) (bs : Bytes) : Except Fault Nat :=
  (decode bs).mapError (.invalidField name)

@[simp] theorem length_encode (w n : Nat) : (encode w n).length = w := by
  cases w <;> simp [encode, digits]

theorem isDigit_digitOctet {d : Nat} (h : d < 8) : isDigit (digitOctet d) = true := by
  simp only [isDigit, digitOctet, Bool.and_eq_true, decide_eq_true_eq, UInt8.le_iff_toNat_le]
  rw [UInt8.toNat_ofNat_of_lt' (by simp [UInt8.size]; omega)]
  simp
  omega

theorem digitValue_digitOctet {d : Nat} (h : d < 8) : digitValue (digitOctet d) = d := by
  rw [digitValue, digitOctet, UInt8.toNat_ofNat_of_lt' (by simp [UInt8.size]; omega)]
  omega

/-- Digits read back as the low part of the number. -/
theorem value_digits (w n : Nat) : value (digits w n) = n % Positional.count 8 w := by
  have h : (Positional.digits 8 w n).map (digitValue ∘ digitOctet) = Positional.digits 8 w n :=
    (List.map_congr_left fun d hd =>
      digitValue_digitOctet (Positional.lt_of_mem_digits (by decide) hd)).trans (List.map_id _)
  rw [value, digits, List.map_map, h, Positional.ofDigits_digits]

end TarHeader.Octal
