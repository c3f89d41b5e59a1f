import TarHeader.Checksum
import TarHeader.Edit
import TarHeader.Numeral
import TarHeader.TextField

/- Writing into a buffer in place. A buffer keeps its width, which is the width of the field that
   is written; all of it is written over. -/
namespace TarHeader.Buffer

def putOctal (n : Nat) : Edit Bytes Unit := do
  set (Octal.encode (← get).length n)

def putNumeral (v : Int) : Edit Bytes Unit := do
  set (← Numeral.encode (← get).length v)

/-- A number in a field that takes the binary form only if `extended` is set. -/
def putField (extended : Bool) (v : Int) : Edit Bytes Unit := do
  set (← Numeral.write extended (← get).length v)

def putChecksum (n : Nat) : Edit Bytes Unit := do
  set (← Checksum.encode (← get).length n)

/-- Text, cut to what fits. The result is the number of its octets before the padding. -/
def putText (cs : Charset) (t : Text) : Edit Bytes Nat := do
  let width := (← get).length
  let bs ← TextField.encode cs width t
  set (fit width bs)
  return bs.length

end TarHeader.Buffer
