import TarHeader.Fault

/- What kind of data follows a header, and the octet that says so. Each kind has an octet of its
   own; octets without a kind are kept by entries as they are. -/
namespace TarHeader

inductive TypeFlag where
  | regular
  /-- As written before POSIX. Where the name ends in a slash it means a directory. -/
  | oldRegular
  | hardLink
  | symbolicLink
  | characterDevice
  | blockDevice
  | directory
  | fifo
  | contiguous
  /-- The data is the link name of the next entry. -/
  | gnuLongLink
  /-- The data is the name of the next entry. -/
  | gnuLongName
  | gnuSparse
  /-- The data is an extended header for the next entry. -/
  | extendedHeader
  | solarisExtendedHeader
  /-- The data is an extended header for all entries that follow. -/
  | globalHeader
  deriving DecidableEq

structure UnknownTypeFlag where
  octet : UInt8
  deriving DecidableEq

def UnknownTypeFlag.message (u : UnknownTypeFlag) : String :=
  s!"{hexOctet u.octet} is not a valid TypeFlag"

namespace TypeFlag

def octet : TypeFlag → UInt8
  | .regular => 0x30
  | .oldRegular => 0x00
  | .hardLink => 0x31
  | .symbolicLink => 0x32
  | .characterDevice => 0x33
  | .blockDevice => 0x34
  | .directory => 0x35
  | .fifo => 0x36
  | .contiguous => 0x37
  | .gnuLongLink => 0x4B
  | .gnuLongName => 0x4C
  | .gnuSparse => 0x53
  | .extendedHeader => 0x78
  | .solarisExtendedHeader => 0x58
  | .globalHeader => 0x67

def all : List TypeFlag :=
  [.regular, .oldRegular, .hardLink, .symbolicLink, .characterDevice, .blockDevice, .directory,
    .fifo, .contiguous, .gnuLongLink, .gnuLongName, .gnuSparse, .extendedHeader,
    .solarisExtendedHeader, .globalHeader]

def ofOctet (b : UInt8) : Except UnknownTypeFlag TypeFlag :=
  match all.find? (·.octet == b) with
  | some flag => .ok flag
  | none => .error ⟨b⟩

theorem ofOctet_octet (flag : TypeFlag) : ofOctet flag.octet = .ok flag := by
  cases flag <;> rfl

def isRegularFile : TypeFlag → Bool
  | .regular | .oldRegular => true
  | _ => false

/-- Whether the data is an extended header for the next entry. -/
def isExtendedHeader : TypeFlag → Bool
  | .extendedHeader | .solarisExtendedHeader => true
  | _ => false

end TypeFlag

end TarHeader
