import TarHeader.Attributes
import TarHeader.Checksum
import TarHeader.NameSplit
import TarHeader.Numeral

/- Writing attributes into a header. What a header is to say is listed as field contents, first
   those of the shared fields and then those of the tail; a tail that splits the name says the
   name field once more. Each content is encoded for the width of its field, in order, and the
   first fault is the one reported. All other octets are zero. The checksum comes last. -/
namespace TarHeader

inductive Content where
  | text (cs : Charset) (t : Text)
  | number (v : Int)
  | octet (b : UInt8)

/-- The octets of a content for a field of width `w`. -/
def Content.encode (extended : Bool) (w : Nat) : Content → Except Fault Bytes
  | .text cs t => TextField.encode cs w t
  | .number v => Numeral.write extended w v
  | .octet b => .ok [b]

/-- Octets for each field of a list. -/
def Content.encodeAll (extended : Bool) (contents : List (Field × Content)) :
    Except Fault (List (Field × Bytes)) :=
  contents.mapM fun (f, content) => do return (f, ← content.encode extended f.width)

/-- The record with its checksum: the sum of its octets, those of the checksum field being
    spaces. -/
def Record.seal (r : Record) : Record :=
  let blank := r.put Layout.checksum (List.replicate Layout.checksum.width 0x20)
  blank.put Layout.checksum (Checksum.field Layout.checksum.width (Checksum.sum blank.octets))

namespace Attributes

def shared (cs : Charset) (a : Attributes) : List (Field × Content) :=
  [(Layout.name, .text cs a.name),
    (Layout.mode, .number (Word.toInt a.mode)),
    (Layout.userId, .number (Word.toInt a.userId)),
    (Layout.groupId, .number (Word.toInt a.groupId)),
    (Layout.size, .number (Word.toInt a.size)),
    (Layout.modTime, .number (Word.toInt a.modTime)),
    (Layout.typeFlag, .octet a.typeFlag),
    (Layout.linkName, .text cs a.linkName),
    (Layout.magic, .text .fallback a.magic),
    (Layout.version, .text .fallback a.version),
    (Layout.userName, .text cs a.userName),
    (Layout.groupName, .text cs a.groupName),
    (Layout.devMajor, .number (Word.toInt a.devMajor)),
    (Layout.devMinor, .number (Word.toInt a.devMinor))]

def tail (cs : Charset) (a : Attributes) : Except Fault (List (Field × Content)) :=
  match Format.ofMagic a.magic a.version with
  | .posix => do
    match ← NameSplit.find cs a.name with
    | some (before, name) =>
      return [(Layout.name, .text cs name), (Layout.Posix.namePrefix, .text cs before)]
    | none => return []
  | .oldGnu =>
    return [(Layout.OldGnu.isExtended, .octet (if a.isExtended then 1 else 0)),
      (Layout.OldGnu.realSize, .number (Word.toInt a.realSize))]
  | .xstar | .legacy => return []

/-- The header of the attributes. Numbers that octal digits have no room for are written in binary
    if `extended` is set and as zero if not. -/
def write (cs : Charset) (extended : Bool) (a : Attributes) : Except Fault Record := do
  let first ← Content.encodeAll extended (a.shared cs)
  let last ← Content.encodeAll extended (← a.tail cs)
  return (Record.zero.putAll (first ++ last)).seal

end Attributes

end TarHeader
