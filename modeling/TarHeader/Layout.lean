import TarHeader.Bytes

/- Where the fields of a header stand. The fields up to the minor device number are the same in
   every format (`Layout`). The tail after them depends on it: old headers leave it unused, POSIX
   puts a name prefix there (`Layout.Posix`), GNU times and a sparse map (`Layout.OldGnu`), and
   xstar a shorter prefix, times and a second magic (`Layout.Xstar`). -/
namespace TarHeader

/-- A header is one block of an archive. -/
def blockSize : Nat := 512

/-- A run of octets inside a header, with the name that faults give it. -/
structure Field where
  name : String
  offset : Nat
  width : Nat
  fits : offset + width ≤ blockSize := by decide

/-- The offset after the last octet. -/
def Field.stop (f : Field) : Nat := f.offset + f.width

namespace Layout

def name : Field := { name := "name", offset := 0, width := 100 }
def mode : Field := { name := "mode", offset := 100, width := 8 }
def userId : Field := { name := "uid", offset := 108, width := 8 }
def groupId : Field := { name := "gid", offset := 116, width := 8 }
def size : Field := { name := "size", offset := 124, width := 12 }
def modTime : Field := { name := "mtime", offset := 136, width := 12 }
def checksum : Field := { name := "chksum", offset := 148, width := 8 }
def typeFlag : Field := { name := "typeflag", offset := 156, width := 1 }
def linkName : Field := { name := "linkname", offset := 157, width := 100 }
def magic : Field := { name := "magic", offset := 257, width := 6 }
def version : Field := { name := "version", offset := 263, width := 2 }
def userName : Field := { name := "uname", offset := 265, width := 32 }
def groupName : Field := { name := "gname", offset := 297, width := 32 }
def devMajor : Field := { name := "devmajor", offset := 329, width := 8 }
def devMinor : Field := { name := "devminor", offset := 337, width := 8 }

namespace Posix

def namePrefix : Field := { name := "prefix", offset := 345, width := 155 }

end Posix

namespace OldGnu

def accessTime : Field := { name := "atime", offset := 345, width := 12 }
def changeTime : Field := { name := "ctime", offset := 357, width := 12 }
def offset : Field := { name := "offset", offset := 369, width := 12 }
def longNames : Field := { name := "longnames", offset := 381, width := 4 }
/-- Four entries of 24 octets. They belong to the reader of the file's data. -/
def sparseMap : Field := { name := "sparse", offset := 386, width := 96 }
def isExtended : Field := { name := "isextended", offset := 482, width := 1 }
def realSize : Field := { name := "realsize", offset := 483, width := 12 }

end OldGnu

namespace Xstar

def namePrefix : Field := { name := "prefix", offset := 345, width := 131 }
def accessTime : Field := { name := "atime", offset := 476, width := 12 }
def changeTime : Field := { name := "ctime", offset := 488, width := 12 }
def magic : Field := { name := "xmagic", offset := 508, width := 4 }

end Xstar

end Layout

/- The marks of the formats in their magic and version fields. -/
namespace Magic

/-- The letters `ustar` and NUL. -/
def posix : Bytes := [0x75, 0x73, 0x74, 0x61, 0x72, 0x00]
/-- Two zeros in ASCII. -/
def posixVersion : Bytes := [0x30, 0x30]
/-- The letters `ustar` and a space. -/
def oldGnu : Bytes := [0x75, 0x73, 0x74, 0x61, 0x72, 0x20]
/-- A space and NUL. -/
def oldGnuVersion : Bytes := [0x20, 0x00]
/-- The letters `tar` and NUL. -/
def xstar : Bytes := [0x74, 0x61, 0x72, 0x00]

end Magic

end TarHeader
