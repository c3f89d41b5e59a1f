import TarHeader.Entry.Header
import TarHeader.Entry.Sparse

/- Changes of an entry. Each is a value, so that a history of an entry is a list. Most set one
   attribute to any value of its type; sizes and device numbers come as signed numbers and are
   refused where they are out of range. -/
namespace TarHeader.Entry

inductive Change where
  | name (t : Text)
  | linkName (t : Text)
  | userName (t : Text)
  | groupName (t : Text)
  | magic (t : Text)
  | version (t : Text)
  | mode (m : UInt32)
  | typeFlag (flag : UInt8)
  | userId (id : UInt64)
  | groupId (id : UInt64)
  | realSize (n : UInt64)
  | modTime (s : Int64)
  | lastModified (t : Instant)
  | isExtended (b : Bool)
  | size (n : Int64)
  | devMajor (n : Int64)
  | devMinor (n : Int64)
  | header (cs : Charset) (r : Record)
  | headerStrict (cs : Charset) (r : Record)
  | sparse (dialect : SparseDialect) (h : ExtendedHeader)

/-- The word that a signed number is, for an attribute that takes only some. -/
def checked {α : Type} [Word α] (what : Bounded) (n : Int64) : Except Fault α :=
  match Word.ofInt? n.toInt with
  | some a => .ok a
  | none => .error (.invalidArgument what n.toInt)

def Change.run (files : FileView) : Change → Edit Entry Unit
  | .name t => modify fun e => { e with name := e.pathStyle.normalize e.keepLeading t }
  | .linkName t => modify ({ · with linkName := t })
  | .userName t => modify ({ · with userName := t })
  | .groupName t => modify ({ · with groupName := t })
  | .magic t => modify ({ · with magic := t })
  | .version t => modify ({ · with version := t })
  | .mode m => modify ({ · with mode := m })
  | .typeFlag flag => modify ({ · with typeFlag := flag })
  | .userId id => modify ({ · with userId := id })
  | .groupId id => modify ({ · with groupId := id })
  | .realSize n => modify ({ · with realSize := n })
  | .modTime s => modify ({ · with modTime := s })
  | .lastModified t => modify ({ · with modTime := t.wholeSeconds })
  | .isExtended b => modify ({ · with isExtended := b })
  | .size n => do
    let m ← checked .size n
    modify ({ · with size := m })
  | .devMajor n => do
    let m ← checked .devMajor n
    modify ({ · with devMajor := m })
  | .devMinor n => do
    let m ← checked .devMinor n
    modify ({ · with devMinor := m })
  | .header cs r => do set (← (← get).read files cs r)
  | .headerStrict cs r => do set (← (← get).readStrict files cs r)
  | .sparse dialect h => mergeSparse dialect h

end TarHeader.Entry
