import TarHeader.Attributes
import TarHeader.Instant
import TarHeader.PathStyle

/- An entry of an archive: the attributes of its header, and what else is known of it. Names
   given to an entry are normalized in its path style; `keepLeading` says whether slashes in
   front of them are kept. -/
namespace TarHeader

structure Entry extends Attributes where
  keepLeading : Bool := false
  pathStyle : PathStyle := .unix
  /-- Whether the checksum was right in the header that was read last. -/
  checksumOk : Bool := false
  /-- Described as sparse by an extended header of GNU. -/
  paxSparse : Bool := false
  /-- Described as sparse by an extended header of star. -/
  starSparse : Bool := false
  /-- The path of the file the entry is bound to. -/
  file : Option Text := none
  deriving DecidableEq

namespace Entry

/-- Entries are the same for `==` if their names are. -/
instance : BEq Entry := ⟨fun a b => a.name == b.name⟩

instance : Hashable Entry := ⟨fun e => hash (String.ofList e.name)⟩

/-- The mode of a new directory, `drwxr-xr-x`. -/
def directoryMode : UInt32 := 0x41ED

/-- The mode of a new file, `-rw-r--r--`. -/
def fileMode : UInt32 := 0x81A4

/-- An entry made now for a name. The slash at the end of a name makes it a directory's. -/
def ofName (now : Instant) (name : Text) (keepLeading : Bool) (pathStyle : PathStyle) : Entry :=
  let name := pathStyle.normalize keepLeading name
  let isDirectory := endsInSlash name
  { name, keepLeading, pathStyle
    mode := if isDirectory then directoryMode else fileMode
    typeFlag := (if isDirectory then TypeFlag.directory else TypeFlag.regular).octet
    modTime := now.wholeSeconds }

/-- An entry made now for a name, of a given kind. The name of another entry, as data, is marked as
    GNU's. -/
def ofNameAndFlag (now : Instant) (name : Text) (flag : UInt8) (keepLeading : Bool) : Entry :=
  let e := { ofName now name keepLeading .unix with typeFlag := flag }
  if flag = TypeFlag.gnuLongName.octet then
    { e with magic := Magic.oldGnuText, version := Magic.oldGnuVersionText }
  else e

/-- The user id cut to 32 bits. -/
def userId32 (e : Entry) : UInt32 := e.userId.toUInt32

/-- The group id cut to 32 bits. -/
def groupId32 (e : Entry) : UInt32 := e.groupId.toUInt32

/-- The modification time as a point in time, unless it is too far away. -/
def lastModified (e : Entry) : Option Instant :=
  let distance := Duration.ofSeconds (.ofNat e.modTime.toInt.natAbs)
  if 0 ≤ e.modTime then Instant.epoch.later? distance else Instant.epoch.earlier? distance

/-- Whether `other` lies below `e`, by their names. -/
def isAncestor (e other : Entry) : Bool := e.name.isPrefixOf other.name

end Entry

end TarHeader
