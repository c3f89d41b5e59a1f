import TarHeader.Numeral.Octal
import TarHeader.Numeral.Base256

/- Numeric fields, octal or binary. A first octet with its high bit set, which octal text never
   has, marks the binary form. A number is written in octal where it fits. One that does not is
   written in binary if the caller allows it, and as zero if not; its value then has to travel in
   an extended header. -/
namespace TarHeader.Numeral

def isBinary (b : UInt8) : Bool := 0x80 ≤ b

def decode : Bytes → Except Malformed Int
  | [] => (Octal.decode []).map Int.ofNat
  | b :: rest =>
    if isBinary b then Base256.decode b rest else (Octal.decode (b :: rest)).map Int.ofNat

/-- The number in the field called `name`. -/
def read (name : String) (bs : Bytes) : Except Fault Int :=
  (decode bs).mapError (.invalidField name)

/-- The number in the field called `name`, for an attribute that is a word. -/
def readWord {α : Type} [Word α] (name : String) (bs : Bytes) : Except Fault α := do
  let v ← read name bs
  match Word.ofInt? v with
  | some a => pure a
  | none => throw (.invalidField name (.outOfRange v))

/-- Whether `v` is a number that a field of `w` octets holds in octal. -/
def FitsOctal (w : Nat) (v : Int) : Prop := 0 ≤ v ∧ v ≤ Octal.limit w

instance (w : Nat) (v : Int) : Decidable (FitsOctal w v) := by unfold FitsOctal; infer_instance

/-- `v` in `w` octets, in octal where it fits. -/
def encode (w : Nat) (v : Int) : Except Fault Bytes :=
  if w = 0 then .error (.valueOutOfRange v 0)
  else if FitsOctal w v then .ok (Octal.encode w v.toNat)
  else if Base256.Fits w v then .ok (Base256.encode w v)
  else .error (.valueOutOfRange v w)

/-- `v` in `w` octets, in binary only if `extended` is set. -/
def write (extended : Bool) (w : Nat) (v : Int) : Except Fault Bytes :=
  if w = 0 then .error (.valueOutOfRange v 0)
  else if !extended && !decide (FitsOctal w v) then .ok (Octal.encode w 0)
  else encode w v

end TarHeader.Numeral
