import TarHeader.Format
import TarHeader.TypeFlag

/- What a header says about a file. The size of a sparse file's data in the archive is `size`,
   and `realSize` is the size of the file itself. -/
namespace TarHeader

structure Attributes where
  name : Text := []
  mode : UInt32 := 0
  userId : UInt64 := 0
  groupId : UInt64 := 0
  size : UInt64 := 0
  /-- Whole seconds since the start of 1970. -/
  modTime : Int64 := 0
  typeFlag : UInt8 := TypeFlag.oldRegular.octet
  linkName : Text := []
  magic : Text := Magic.posixText
  version : Text := Magic.posixVersionText
  userName : Text := []
  groupName : Text := []
  devMajor : UInt32 := 0
  devMinor : UInt32 := 0
  /-- Whether more blocks with a sparse map follow the header. -/
  isExtended : Bool := false
  realSize : UInt64 := 0
  deriving DecidableEq

/-- Whether a name is that of a directory. -/
def endsInSlash (name : Text) : Bool := name.getLast? == some '/'

/-- The name with a slash at its end, added if there is none. -/
def withSlash (name : Text) : Text := if endsInSlash name then name else name ++ ['/']

namespace Attributes

def hasFlag (a : Attributes) (flag : TypeFlag) : Bool := a.typeFlag == flag.octet

/-- Whether the attributes are those of a directory. Old archivers mark it by the name only. -/
def describesDirectory (a : Attributes) : Bool := a.hasFlag .directory || endsInSlash a.name

end Attributes

end TarHeader
