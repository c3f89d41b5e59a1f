import TarHeader.Fault
import TarHeader.Layout
import TarHeader.Numeral.Octal

/- The header checksum: the sum of all octets, with the checksum field itself taken as spaces. It
   is stored as six octal digits, NUL and a space. Some writers summed signed octets, so a stored
   value is right if it is either of the two sums. Verifying reads the octets once and keeps a
   `Tally`. -/
namespace TarHeader.Checksum

def sum (bs : Bytes) : Nat := bs.foldl (fun n b => n + b.toNat) 0

/-- The checksum field of `w` octets: digits up to the last two. -/
def field (w n : Nat) : Bytes := Octal.digits (w - 2) n ++ [0, 0x20]

def encode (w n : Nat) : Except Fault Bytes :=
  if w < 2 then .error (.valueOutOfRange n w) else .ok (field w n)

/-- What is known of a header after its first `seen` octets. -/
structure Tally where
  seen : Nat := 0
  stored : Nat := 0
  digits : Nat := 0
  unsigned : Int := 0
  signed : Int := 0

/-- Adds an octet to both sums. -/
def Tally.add (t : Tally) (b : UInt8) : Tally :=
  { t with
    seen := t.seen + 1
    unsigned := t.unsigned + b.toNat
    signed := t.signed + b.toInt8.toInt }

/-- Reads an octet of the checksum field. Only the first run of digits counts, and at most six of
    it: after the run the count of digits is set to six. -/
def Tally.readDigit (t : Tally) (b : UInt8) : Tally :=
  if Octal.isDigit b && decide (t.digits < 6) then
    { t with stored := t.stored * 8 + Octal.digitValue b, digits := t.digits + 1 }
  else if 0 < t.digits then { t with digits := 6 }
  else t

def Tally.step (t : Tally) (b : UInt8) : Tally :=
  if Layout.checksum.offset ≤ t.seen ∧ t.seen < Layout.checksum.stop then
    (t.readDigit b).add 0x20
  else t.add b

def tally (bs : Bytes) : Tally := bs.foldl Tally.step {}

/-- Whether the checksum stored in a header is one of its two sums. -/
def verify (bs : Bytes) : Bool :=
  let t := tally bs
  (t.stored : Int) == t.unsigned || (t.stored : Int) == t.signed

end TarHeader.Checksum
