import TarHeader.Buffer
import TarHeader.Entry.Change
import TarHeader.Proofs.Entry.Merge
import TarHeader.Proofs.Verdict

/- What a fault leaves behind. No operation on an entry, on the record that a header is put into or
   on a buffer changes anything before it ends in a fault (`fault_leaves_state`). Reading and
   writing compute a whole entry or record, which takes the place of the old one in the last step;
   the rest checks numbers and looks keys up first, and changes attributes in steps that always
   succeed. -/
namespace TarHeader

open Edit (Atomic)

namespace Buffer

theorem atomic_putText (cs : Charset) (t : Text) : Atomic (putText cs t) := by
  apply Atomic.get_bind
  intro buf
  exact Atomic.lift_bind fun bs _ =>
    Atomic.of_completes fun _ => ⟨bs.length, fit buf.length bs, rfl⟩

end Buffer

namespace Entry

theorem atomic_run (files : FileView) (c : Change) : Atomic (c.run files) := by
  cases c with
  | size n | devMajor n | devMinor n =>
    exact Atomic.lift_bind fun m _ => Atomic.of_completes (Edit.completes_modify _)
  | header cs r => exact Atomic.replace fun e : Entry => e.read files cs r
  | headerStrict cs r => exact Atomic.replace fun e : Entry => e.readStrict files cs r
  | sparse dialect h => exact atomic_mergeSparse dialect h
  | _ => exact Atomic.of_completes (Edit.completes_modify _)

/-- Whatever ends in a fault leaves the entry, the record or the buffer as it was. -/
theorem fault_leaves_state (files : FileView) :
    (∀ c : Change, Atomic (c.run files)) ∧
    (∀ h, Atomic (mergeGnu0 h) ∧ Atomic (mergeGnu1 h) ∧ Atomic (mergeStar h)) ∧
    (∀ cs extended, ∀ e : Entry, Atomic (e.store cs extended) ∧
      Atomic (e.storeStrict cs extended)) ∧
    (∀ extended v n, Atomic (Buffer.putNumeral v) ∧ Atomic (Buffer.putField extended v) ∧
      Atomic (Buffer.putChecksum n)) ∧
    ∀ cs t, Atomic (Buffer.putText cs t) := by
  refine ⟨atomic_run files, fun h => ?_, fun cs extended e => ?_, fun extended v n => ?_,
    Buffer.atomic_putText⟩
  · exact ⟨atomic_mergeSparse .gnu0 h, atomic_mergeSparse .gnu1 h, atomic_mergeSparse .star h⟩
  · exact ⟨Atomic.lift_bind fun r _ => Atomic.of_completes fun _ => ⟨(), r, rfl⟩,
      Atomic.lift_bind fun r _ => Atomic.of_completes fun _ => ⟨(), r, rfl⟩⟩
  · exact ⟨Atomic.replace fun buf => Numeral.encode buf.length v,
      Atomic.replace fun buf => Numeral.write extended buf.length v,
      Atomic.replace fun buf => Checksum.encode buf.length n⟩

/-- The entry of a sparse file, with all attributes set. -/
def sparseLog : Entry where
  name := ['v', 'a', 'r', '/', 'l', 'o', 'g']
  mode := fileMode
  userId := 1000
  groupId := 100
  size := 512
  modTime := 1700000000
  typeFlag := TypeFlag.gnuSparse.octet
  linkName := ['l', 'o', 'g', '.', '0']
  magic := Magic.oldGnuText
  version := Magic.oldGnuVersionText
  userName := ['r', 'o', 'o', 't']
  groupName := ['a', 'd', 'm']
  devMajor := 8
  devMinor := 1
  isExtended := true
  realSize := 4096
  keepLeading := true
  pathStyle := .windows
  checksumOk := true
  paxSparse := true
  starSparse := true
  file := some ['/', 'v', 'a', 'r', '/', 'l', 'o', 'g']

/-- A header of old GNU whose name is no UTF-8, and whose last number is none. -/
def brokenLast : Record :=
  Record.zero.putAll [(Layout.name, [0x6C, 0xF6, 0x67]), (Layout.size, Octal.encode 12 7),
    (Layout.typeFlag, [TypeFlag.regular.octet]), (Layout.magic, Magic.oldGnu),
    (Layout.version, Magic.oldGnuVersion), (Layout.OldGnu.realSize, [0x78])]

/-- A header that is read twice, to the last number each time, a negative size, and a number beyond
    the widest binary form: all are refused. -/
theorem refused_leaves_state :
    (∃ e, (Change.header .utf8 brokenLast).run .empty sparseLog = .error (.invalidField "realsize"
      (.notOctal 0x78 (brokenLast.read Layout.OldGnu.realSize))) e ∧ e = sparseLog) ∧
    (∃ fault e, (Change.size (-1)).run .empty sparseLog = .error fault e ∧ e = sparseLog) ∧
    ∃ fault buf,
      Buffer.putNumeral 0x10000000000000000000000 (List.replicate 12 7) = .error fault buf ∧
        buf = List.replicate 12 7 := by
  obtain ⟨hentry, -, -, hbuffer, -⟩ := fault_leaves_state .empty
  have hread : sparseLog.read .empty .utf8 brokenLast =
      .error (.invalidField "realsize" (.notOctal 0x78 (brokenLast.read Layout.OldGnu.realSize))) :=
    fault?_eq_some_iff.mp (by decide +kernel)
  have hheader : (Change.header .utf8 brokenLast).run .empty sparseLog = .error _ sparseLog :=
    Edit.replace_of_error hread
  have hsize : (Change.size (-1)).run .empty sparseLog =
      .error (.invalidArgument .size (-1)) sparseLog := rfl
  have hnumeral : Buffer.putNumeral 0x10000000000000000000000 (List.replicate 12 7) =
      .error (.valueOutOfRange 0x10000000000000000000000 12) (List.replicate 12 7) := rfl
  exact ⟨⟨_, hheader, hentry _ _ _ _ hheader⟩, ⟨_, _, hsize, hentry _ _ _ _ hsize⟩,
    _, _, hnumeral, (hbuffer false _ 0).1 _ _ _ hnumeral⟩

end Entry

end TarHeader
