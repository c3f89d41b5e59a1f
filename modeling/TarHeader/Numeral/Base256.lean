import TarHeader.Fault
import TarHeader.Positional
import TarHeader.Numeral.Word

/- Binary fields, for numbers that octal digits have no room for. The first octet has its high
   bit set: 0xff before the two's complement of a negative number, and for any other number 0x80
   together with its seven highest bits. Writing leaves those seven bits empty, so the number
   lies in the octets after the first. -/
namespace TarHeader.Base256

/-- The widest binary field. -/
def maxWidth : Nat := 15

/-- Whether `v` has a binary form in `w` octets. -/
def Fits (w : Nat) (v : Int) : Prop :=
  1 ≤ w ∧ w ≤ maxWidth ∧ -(Positional.count 256 (w - 1) : Int) ≤ v ∧ v < Positional.count 256 (w - 1)

instance (w : Nat) (v : Int) : Decidable (Fits w v) := by unfold Fits; infer_instance

/-- The first octet of a written number. -/
def lead (v : Int) : UInt8 := if v < 0 then 0xff else 0x80

def encode (w : Nat) (v : Int) : Bytes :=
  lead v :: (Positional.digits 256 (w - 1) (v % Positional.count 256 (w - 1)).toNat).map .ofNat

theorem length_encode {w : Nat} {v : Int} (h : 1 ≤ w) : (encode w v).length = w := by
  simp [encode]
  omega

/-- The number in an octet with its high bit set and the octets after it. -/
def value (b : UInt8) (rest : Bytes) : Int :=
  let magnitude : Int := Positional.ofDigits 256 (b.toNat % 0x80 :: rest.map UInt8.toNat)
  if b = 0xff then magnitude - 0x80 * Positional.count 256 rest.length else magnitude

def decode (b : UInt8) (rest : Bytes) : Except Malformed Int :=
  if rest.length + 1 > maxWidth then .error .base256TooWide
  else
    let v := value b rest
    if (Word.ofInt? v : Option Int64).isSome then .ok v else .error (.base256TooLarge v)

end TarHeader.Base256
