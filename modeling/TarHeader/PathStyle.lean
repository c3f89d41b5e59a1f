import TarHeader.Bytes

/- File names of the platforms, and the one form that names have inside an archive: separated by
   slashes, without a drive or volume, and without slashes in front unless they are to be kept.
   -/
namespace TarHeader

inductive PathStyle where
  | unix
  /-- Separated by backslashes, perhaps after a drive letter and a colon. -/
  | windows
  /-- Separated by backslashes, after a volume name and a colon. -/
  | netWare
  deriving DecidableEq

namespace PathStyle

def separator : PathStyle → Char
  | .unix => '/'
  | .windows | .netWare => '\\'

/-- Drops a drive letter and its colon from in front of a name. -/
def dropDrive : Text → Text
  | letter :: ':' :: c :: rest =>
    if letter.isAlpha then c :: rest else letter :: ':' :: c :: rest
  | t => t

/-- Drops everything through the first colon. -/
def dropVolume (t : Text) : Text :=
  match t.dropWhile (· != ':') with
  | [] => t
  | _ :: rest => rest

def dropDevice : PathStyle → Text → Text
  | .unix, t => t
  | .windows, t => dropDrive t
  | .netWare, t => dropVolume t

def toSlash (style : PathStyle) (c : Char) : Char := if c = style.separator then '/' else c

/-- The name inside an archive of the file that the platform calls `t`. -/
def normalize (style : PathStyle) (keepLeading : Bool) (t : Text) : Text :=
  let name := (style.dropDevice t).map style.toSlash
  if keepLeading then name else name.dropWhile (· == '/')

end PathStyle

end TarHeader
