import TarHeader.Fault
import TarHeader.Instant

/- What an entry may ask about the files around it. A `FileView` answers for the paths of one
   file system at one moment; links are followed. Entries know nothing else of files. -/
namespace TarHeader

inductive FileKind where
  | regular
  | directory
  /-- A device, a pipe, a socket. -/
  | special
  deriving DecidableEq

structure FileStat where
  kind : FileKind
  size : UInt64
  modified : Instant

structure FileView where
  stat : Text → Except FileFault FileStat
  /-- The names of the children of a directory, in any order. -/
  children : Text → Except FileFault (List Text)

namespace FileView

/-- Without any file. -/
def empty : FileView where
  stat _ := .error .notFound
  children _ := .error .notFound

def isKind (files : FileView) (kind : FileKind) (path : Text) : Bool :=
  match files.stat path with
  | .ok stat => stat.kind == kind
  | .error _ => false

/-- Whether there is a directory behind a path. -/
def isDirectory (files : FileView) (path : Text) : Bool := files.isKind .directory path

/-- Whether there is a regular file behind a path. -/
def isFile (files : FileView) (path : Text) : Bool := files.isKind .regular path

/-- The path of a child of the directory at `path`. -/
def childPath (path child : Text) : Text :=
  if path.getLast? = some '/' then path ++ child else path ++ '/' :: child

end FileView

end TarHeader
