import TarHeader.Entry.Header

/- Which octets of a header have a part in what is read. Numbers, the type flag, magic and version
   are read whole, a text up to its first NUL, and of the tail only the fields of the format that the
   header has. Two records that are `Alike` in these end alike under every charset: with the same
   fault, or with entries that differ at most in whether the checksum was right
   (`endsAlike_of_alike`). -/
namespace TarHeader

namespace Record

variable {r s : Record} {f : Field}

/-- The fields of all formats that are read whole. -/
def wholeFields : List Field :=
  [Layout.mode, Layout.userId, Layout.groupId, Layout.size, Layout.modTime, Layout.typeFlag,
    Layout.magic, Layout.version, Layout.devMajor, Layout.devMinor]

/-- The fields of all formats that are read up to their first NUL. -/
def sharedTexts : List Field :=
  [Layout.name, Layout.linkName, Layout.userName, Layout.groupName]

/-- Two records agree in the octets that are read. Texts that are the same up to the first NUL have
    that NUL at the same place too, or neither has one. -/
structure Alike (r s : Record) : Prop where
  detect : Format.detect r = Format.detect s
  whole : ∀ f ∈ wholeFields, r.read f = s.read f
  text : ∀ f ∈ sharedTexts, untilNul (r.read f) = untilNul (s.read f)
  oldGnu : Format.detect r = .oldGnu →
    r.read Layout.OldGnu.realSize = s.read Layout.OldGnu.realSize ∧
      (r.readOctet Layout.OldGnu.isExtended = 1 ↔ s.readOctet Layout.OldGnu.isExtended = 1)
  xstar : Format.detect r = .xstar →
    untilNul (r.read Layout.Xstar.namePrefix) = untilNul (s.read Layout.Xstar.namePrefix)
  posix : Format.detect r = .posix ∨ Format.detect r = .legacy →
    untilNul (r.read Layout.Posix.namePrefix) = untilNul (s.read Layout.Posix.namePrefix)

theorem readText_congr (h : untilNul (r.read f) = untilNul (s.read f)) (cs : Charset) :
    r.readText cs f = s.readText cs f := by
  rw [readText, readText, TextField.decode, TextField.decode, h]

theorem readWord_congr {α : Type} [Word α] (h : r.read f = s.read f) :
    (r.readWord f : Except Fault α) = s.readWord f := by
  rw [readWord, readWord, h]

theorem readOctet_congr (h : r.read f = s.read f) : r.readOctet f = s.readOctet f := by
  rw [readOctet, readOctet, h]

end Record

namespace Attributes

variable {r s : Record}

theorem readShared_congr (h : r.Alike s) (cs : Charset) : readShared cs r = readShared cs s := by
  have hwhole := h.whole
  have htext := h.text
  simp only [Record.wholeFields, List.forall_mem_cons] at hwhole
  simp only [Record.sharedTexts, List.forall_mem_cons] at htext
  obtain ⟨hmode, huserId, hgroupId, hsize, hmodTime, hflag, hmagic, hversion, hmajor, hminor, -⟩ :=
    hwhole
  obtain ⟨hname, hlink, huser, hgroup, -⟩ := htext
  have hmagic : untilNul (r.read Layout.magic) = untilNul (s.read Layout.magic) :=
    congrArg untilNul hmagic
  have hversion : untilNul (r.read Layout.version) = untilNul (s.read Layout.version) :=
    congrArg untilNul hversion
  simp only [readShared, Record.readText_congr hname, Record.readWord_congr hmode,
    Record.readWord_congr huserId, Record.readWord_congr hgroupId, Record.readWord_congr hsize,
    Record.readWord_congr hmodTime, Record.readOctet_congr hflag, Record.readText_congr hlink,
    Record.readText_congr hmagic, Record.readText_congr hversion, Record.readText_congr huser,
    Record.readText_congr hgroup, Record.readWord_congr hmajor, Record.readWord_congr hminor]

/-- No tail is read but that of the format. -/
theorem readTail_congr (h : r.Alike s) (cs : Charset) (bound : Option Bool) (a : Attributes) :
    readTail cs bound r a = readTail cs bound s a := by
  unfold readTail
  rw [← h.detect]
  cases hformat : Format.detect r with
  | oldGnu =>
    obtain ⟨hsize, hflag⟩ := h.oldGnu hformat
    have hflag : (r.readOctet Layout.OldGnu.isExtended == 1) =
        (s.readOctet Layout.OldGnu.isExtended == 1) := by
      rw [Bool.eq_iff_iff, beq_iff_eq, beq_iff_eq, hflag]
    rw [Record.readWord_congr hsize, hflag]
  | xstar => rw [Record.readText_congr (h.xstar hformat)]
  | posix => rw [Record.readText_congr (h.posix (.inl hformat))]
  | legacy => rw [Record.readText_congr (h.posix (.inr hformat))]

theorem read_congr (h : r.Alike s) (cs : Charset) (bound : Option Bool) :
    read cs bound r = read cs bound s := by
  rw [read, read, readShared_congr h]
  congr 1
  funext a
  exact readTail_congr h cs bound a

end Attributes

namespace Entry

/-- Two readings end with the same fault, or with entries that differ at most in the mark of the
    checksum. -/
inductive EndsAlike : Except Fault Entry → Except Fault Entry → Prop where
  | fault (fault : Fault) : EndsAlike (.error fault) (.error fault)
  | entry (e : Entry) (ok ok' : Bool) :
      EndsAlike (.ok { e with checksumOk := ok }) (.ok { e with checksumOk := ok' })

variable {r s : Record}

theorem EndsAlike.error_iff {x y : Except Fault Entry} (h : EndsAlike x y) (fault : Fault) :
    x = .error fault ↔ y = .error fault := by
  cases h with
  | fault => rfl
  | entry => exact ⟨nofun, nofun⟩

theorem EndsAlike.mapError {x y : Except Fault Entry} (h : EndsAlike x y) (f : Fault → Fault) :
    EndsAlike (x.mapError f) (y.mapError f) := by
  cases h with
  | fault fault => exact .fault (f fault)
  | entry e ok ok' => exact .entry e ok ok'

/-- Readings that end alike under every charset turn to the fallback together. -/
theorem EndsAlike.orFallback {work work' : Charset → Except Fault Entry}
    (h : ∀ cs, EndsAlike (work cs) (work' cs)) (cs : Charset) :
    EndsAlike (cs.orFallback work) (cs.orFallback work') := by
  have hcs := h cs
  unfold Charset.orFallback
  generalize work cs = x at hcs ⊢
  generalize work' cs = y at hcs ⊢
  cases hcs with
  | entry e ok ok' => exact .entry e ok ok'
  | fault fault =>
    show EndsAlike (if fault.isEncoding then _ else _) (if fault.isEncoding then _ else _)
    split
    · exact (h .fallback).mapError Fault.escalate
    · exact .fault fault

theorem readStrict_alike (h : r.Alike s) (files : FileView) (cs : Charset) (e : Entry) :
    EndsAlike (e.readStrict files cs r) (e.readStrict files cs s) := by
  rw [readStrict, readStrict, Attributes.read_congr h]
  cases Attributes.read cs (e.boundDirectory files) s with
  | error fault => exact .fault fault
  | ok a => exact .entry { e with toAttributes := a } _ _

/-- Octets that are not read cannot be told from what reading gives, and have no part in whether the
    charset fails and the fallback is turned to. -/
theorem endsAlike_of_alike (h : r.Alike s) (files : FileView) (cs : Charset) (e : Entry) :
    EndsAlike (e.readStrict files cs r) (e.readStrict files cs s) ∧
      EndsAlike (e.read files cs r) (e.read files cs s) ∧
      EndsAlike (ofRecord cs r) (ofRecord cs s) ∧
      ∀ fault, e.readStrict files cs r = .error fault ↔ e.readStrict files cs s = .error fault := by
  have hstrict : ∀ (files : FileView) (e : Entry) (cs : Charset),
      EndsAlike (e.readStrict files cs r) (e.readStrict files cs s) :=
    fun files e cs => readStrict_alike h files cs e
  refine ⟨hstrict files e cs, ?_, ?_, (hstrict files e cs).error_iff⟩
  · exact .orFallback (hstrict files e) cs
  · exact .orFallback (hstrict .empty {}) cs

/-- The header of a sparse file, as old GNU marks it. -/
def sparseHeader : Record :=
  Record.zero.putAll [(Layout.name, [0x61]), (Layout.magic, Magic.oldGnu),
    (Layout.version, Magic.oldGnuVersion), (Layout.OldGnu.realSize, [0x37, 0])]

/-- The same with a checksum, times and a sparse map, and with octets left behind a name. -/
def litteredHeader : Record :=
  sparseHeader.putAll [(Layout.name, [0x61, 0, 0xFF]), (Layout.checksum, [0x37]),
    (Layout.OldGnu.accessTime, [0xFF]), (Layout.OldGnu.sparseMap, [0xFF]),
    (Layout.OldGnu.isExtended, [0xFF]), (Layout.Xstar.magic, Magic.xstar)]

theorem sparseHeader_read_alike : sparseHeader.Alike litteredHeader ∧
    sparseHeader ≠ litteredHeader ∧
    EndsAlike (ofRecord .utf8 sparseHeader) (ofRecord .utf8 litteredHeader) := by
  have halike : sparseHeader.Alike litteredHeader := by
    constructor <;> decide +kernel
  have hne : sparseHeader ≠ litteredHeader := by decide +kernel
  exact ⟨halike, hne, (endsAlike_of_alike halike .empty .utf8 {}).2.2.1⟩

end Entry

end TarHeader
