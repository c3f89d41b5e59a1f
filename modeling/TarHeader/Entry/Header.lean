import TarHeader.Attributes.Read
import TarHeader.Attributes.Write
import TarHeader.Charset.Fallback
import TarHeader.Edit
import TarHeader.Entry.Kind

/- Entries and header records. Reading replaces what the header says and keeps the rest of the
   entry; a wrong checksum is noted and is no fault. Writing needs nothing but the attributes.
   The strict operations use the charset they are given. The others turn to the fallback charset
   where it fails. -/
namespace TarHeader.Entry

def readStrict (files : FileView) (cs : Charset) (r : Record) (e : Entry) : Except Fault Entry := do
  let a ← Attributes.read cs (e.boundDirectory files) r
  return { e with toAttributes := a, checksumOk := Checksum.verify r.octets }

def read (files : FileView) (cs : Charset) (r : Record) (e : Entry) : Except Fault Entry :=
  cs.orFallback fun cs => e.readStrict files cs r

/-- The entry that a header describes. -/
def ofRecord (cs : Charset) (r : Record) : Except Fault Entry := read .empty cs r {}

def writeStrict (cs : Charset) (extended : Bool) (e : Entry) : Except Fault Record :=
  e.toAttributes.write cs extended

def write (cs : Charset) (extended : Bool) (e : Entry) : Except Fault Record :=
  cs.orFallback fun cs => e.writeStrict cs extended

/-- Puts the header of an entry in the place of a record. -/
def storeStrict (cs : Charset) (extended : Bool) (e : Entry) : Edit Record Unit := do
  set (← e.writeStrict cs extended)

def store (cs : Charset) (extended : Bool) (e : Entry) : Edit Record Unit := do
  set (← e.write cs extended)

end TarHeader.Entry
