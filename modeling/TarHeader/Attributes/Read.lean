import TarHeader.Attributes
import TarHeader.Numeral
import TarHeader.TextField

/- Reading attributes from a header. Fields are read in the order in which they stand, and the
   first fault is the one reported. Magic and version are always read octet by octet, so the
   format that a header was read in does not depend on the charset. In the formats with a name
   prefix, prefix and name are joined by a slash, after a directory's name has been given the
   slash at its end. -/
namespace TarHeader

namespace Record

def readText (r : Record) (cs : Charset) (f : Field) : Except Fault Text :=
  TextField.decode cs (r.read f)

def readWord {α : Type} [Word α] (r : Record) (f : Field) : Except Fault α :=
  Numeral.readWord f.name (r.read f)

def readOctet (r : Record) (f : Field) : UInt8 := (r.read f).headD 0

end Record

/-- A name behind its prefix; an empty prefix is none. -/
def joinName (before name : Text) : Text := if before = [] then name else before ++ '/' :: name

namespace Attributes

/-- The attributes in the fields that all formats share. -/
def readShared (cs : Charset) (r : Record) : Except Fault Attributes := do
  let name ← r.readText cs Layout.name
  let mode ← r.readWord Layout.mode
  let userId ← r.readWord Layout.userId
  let groupId ← r.readWord Layout.groupId
  let size ← r.readWord Layout.size
  let modTime ← r.readWord Layout.modTime
  let linkName ← r.readText cs Layout.linkName
  let magic ← r.readText .fallback Layout.magic
  let version ← r.readText .fallback Layout.version
  let userName ← r.readText cs Layout.userName
  let groupName ← r.readText cs Layout.groupName
  let devMajor ← r.readWord Layout.devMajor
  let devMinor ← r.readWord Layout.devMinor
  return {
    name, mode, userId, groupId, size, modTime, linkName, magic, version, userName, groupName,
    devMajor, devMinor
    typeFlag := r.readOctet Layout.typeFlag }

/-- Adds what the tail of the header says. `bound` tells of an entry bound to a file whether that is
    a directory; of other entries the attributes tell. -/
def readTail (cs : Charset) (bound : Option Bool) (r : Record) (a : Attributes) :
    Except Fault Attributes :=
  match Format.detect r with
  | .oldGnu => do
    let realSize ← r.readWord Layout.OldGnu.realSize
    return { a with isExtended := r.readOctet Layout.OldGnu.isExtended == 1, realSize }
  | .xstar => do
    let before ← r.readText cs Layout.Xstar.namePrefix
    return { a with name := joinName before a.name }
  | .posix | .legacy => do
    let before ← r.readText cs Layout.Posix.namePrefix
    let name := if bound.getD a.describesDirectory then withSlash a.name else a.name
    return { a with name := joinName before name }

def read (cs : Charset) (bound : Option Bool) (r : Record) : Except Fault Attributes := do
  readTail cs bound r (← readShared cs r)

end Attributes

end TarHeader
