import TarHeader.Bytes

/- The permission bits of a file mode. The bits above them say what kind of file it is and are no
   permissions. -/
namespace TarHeader

inductive Permission where
  | setUserId
  | setGroupId
  | sticky
  | ownerRead
  | ownerWrite
  | ownerExecute
  | groupRead
  | groupWrite
  | groupExecute
  | othersRead
  | othersWrite
  | othersExecute
  deriving DecidableEq

namespace Permission

/-- From the highest bit of a mode down to the lowest. -/
def all : List Permission :=
  [.setUserId, .setGroupId, .sticky, .ownerRead, .ownerWrite, .ownerExecute, .groupRead,
    .groupWrite, .groupExecute, .othersRead, .othersWrite, .othersExecute]

def bit : Permission → UInt32
  | .setUserId => 0x800
  | .setGroupId => 0x400
  | .sticky => 0x200
  | .ownerRead => 0x100
  | .ownerWrite => 0x80
  | .ownerExecute => 0x40
  | .groupRead => 0x20
  | .groupWrite => 0x10
  | .groupExecute => 0x8
  | .othersRead => 0x4
  | .othersWrite => 0x2
  | .othersExecute => 0x1

/-- The permissions that a mode grants. -/
def ofMode (mode : UInt32) : List Permission := all.filter fun p => mode &&& p.bit != 0

/-- The part of a mode that says which permissions it grants. -/
def bits (mode : UInt32) : UInt32 := (ofMode mode).foldl (fun m p => m ||| p.bit) 0

end Permission

end TarHeader
