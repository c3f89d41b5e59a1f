import TarHeader.Entry.Kind

/- Entries bound to files. The attributes are copied from the file once; later only the questions
   whether it is a directory or a regular file go back to it. -/
namespace TarHeader.Entry

/-- The entry for the file at a path, under a name of its own. -/
def ofFileNamed (files : FileView) (path name : Text) : Except Fault Entry := do
  let stat ← (files.stat path).mapError .file
  let name := PathStyle.unix.normalize false name
  let e : Entry := { modTime := stat.modified.wholeSeconds, file := some path }
  if stat.kind = .directory then
    return { e with
      name := withSlash name
      mode := directoryMode
      typeFlag := TypeFlag.directory.octet }
  else
    return { e with
      name
      mode := fileMode
      typeFlag := TypeFlag.regular.octet
      size := stat.size }

/-- The entry for the file at a path, named after it. -/
def ofFile (files : FileView) (path : Text) : Except Fault Entry := ofFileNamed files path path

/-- Whether a name stands before another or is the same. Characters count by their numbers. -/
def standsBefore (name other : Text) : Bool :=
  !List.lex other name fun c d => c.toNat < d.toNat

/-- Entries for the children of a bound directory, in the order of their names. -/
def children (files : FileView) (e : Entry) : Except Fault (List Entry) :=
  match e.file with
  | none => .ok []
  | some dir =>
    if files.isDirectory dir then do
      let names ← (files.children dir).mapError .file
      let entries ← names.mapM fun child => ofFile files (FileView.childPath dir child)
      return entries.mergeSort fun a b => standsBefore a.name b.name
    else .ok []

end TarHeader.Entry
