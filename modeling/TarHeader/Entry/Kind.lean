import TarHeader.Entry
import TarHeader.FileView

/- What kind of file an entry is for. The type flag decides, except that directories and regular
   files of old archives are told apart by the name, and that a bound entry asks its file. -/
namespace TarHeader.Entry

def kind (e : Entry) : Except UnknownTypeFlag TypeFlag := TypeFlag.ofOctet e.typeFlag

/-- For a bound entry, whether its file is a directory. -/
def boundDirectory (files : FileView) (e : Entry) : Option Bool := e.file.map files.isDirectory

def isDirectory (files : FileView) (e : Entry) : Bool :=
  (e.boundDirectory files).getD e.describesDirectory

def isFile (files : FileView) (e : Entry) : Bool :=
  match e.file with
  | some path => files.isFile path
  | none =>
    e.hasFlag .regular || e.hasFlag .oldRegular || !endsInSlash e.name

def isSymbolicLink (e : Entry) : Bool := e.hasFlag .symbolicLink

def isHardLink (e : Entry) : Bool := e.hasFlag .hardLink

def isCharacterDevice (e : Entry) : Bool := e.hasFlag .characterDevice

def isBlockDevice (e : Entry) : Bool := e.hasFlag .blockDevice

def isFifo (e : Entry) : Bool := e.hasFlag .fifo

def isGnuLongLink (e : Entry) : Bool := e.hasFlag .gnuLongLink

def isGnuLongName (e : Entry) : Bool := e.hasFlag .gnuLongName

/-- Whether the data is an extended header for the next entry. -/
def isExtendedHeader (e : Entry) : Bool :=
  e.hasFlag .extendedHeader || e.hasFlag .solarisExtendedHeader

def isGlobalHeader (e : Entry) : Bool := e.hasFlag .globalHeader

def isOldGnuSparse (e : Entry) : Bool := e.hasFlag .gnuSparse

def isPaxSparse (e : Entry) : Bool := e.paxSparse

def isStarSparse (e : Entry) : Bool := e.starSparse

def isGnuSparse (e : Entry) : Bool := e.isOldGnuSparse || e.isPaxSparse

def isSparse (e : Entry) : Bool := e.isGnuSparse || e.isStarSparse

end TarHeader.Entry
