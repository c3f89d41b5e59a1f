import TarHeader.Proofs.Entry.Acceptance
import TarHeader.Proofs.Entry.Forgetting

/- What an entry read from a header can be unpacked as. Two things tell: the type flag, which marks
   one type or none, and the name, which is a directory's if it ends in a slash and a regular file's
   if not; and an entry passes for what either of them tells (`passesFor_iff`). So a header whose
   name ends in a slash makes a directory, whatever its flag marks besides, and apart from that
   there is one type at most (`fileTypes_of_ofRecord`). -/
namespace TarHeader

/-- What an entry can be unpacked as. -/
inductive FileType where
  | directory
  | regular
  | symbolicLink
  | hardLink
  | characterDevice
  | blockDevice
  | fifo
  deriving DecidableEq

namespace FileType

def AtMostOne (p : FileType → Prop) : Prop := ∀ a b, p a → p b → a = b

/-- The flags that mark a file type. -/
def flags : FileType → List TypeFlag
  | .directory => [.directory]
  | .regular => [.regular, .oldRegular]
  | .symbolicLink => [.symbolicLink]
  | .hardLink => [.hardLink]
  | .characterDevice => [.characterDevice]
  | .blockDevice => [.blockDevice]
  | .fifo => [.fifo]

end FileType

namespace TypeFlag

/-- The file type that a flag marks. The other flags say what the data is for. -/
def fileType? : TypeFlag → Option FileType
  | .regular | .oldRegular => some .regular
  | .hardLink => some .hardLink
  | .symbolicLink => some .symbolicLink
  | .characterDevice => some .characterDevice
  | .blockDevice => some .blockDevice
  | .directory => some .directory
  | .fifo => some .fifo
  | .contiguous | .gnuLongLink | .gnuLongName | .gnuSparse | .extendedHeader
  | .solarisExtendedHeader | .globalHeader => none

theorem fileType?_eq_some_iff {flag : TypeFlag} {type : FileType} :
    flag.fileType? = some type ↔ flag ∈ type.flags := by
  cases flag <;> cases type <;> decide

theorem ofOctet_eq_ok_iff {b : UInt8} {flag : TypeFlag} :
    ofOctet b = .ok flag ↔ b = flag.octet := by
  constructor
  · intro h
    unfold ofOctet at h
    split at h
    · next found hfound =>
      cases h
      have hoctet := List.find?_some hfound
      exact (beq_iff_eq.mp hoctet).symm
    · cases h
  · rintro rfl
    exact ofOctet_octet flag

end TypeFlag

namespace Attributes

/-- POSIX and old headers give the name of a directory its slash, behind a prefix too. -/
theorem TailRead.endsInSlash {cs : Charset} {r : Record} {a b : Attributes} (h : TailRead cs r b a)
    (hformat : Format.detect r = .posix ∨ Format.detect r = .legacy)
    (hflag : a.hasFlag .directory = true) : endsInSlash a.name = true := by
  cases h with
  | oldGnu hother _ => simp [hother] at hformat
  | xstar hother _ => simp [hother] at hformat
  | @posix before _ _ =>
    have hslashed : b.slashed = withSlash b.name := if_pos hflag
    have hends : TarHeader.endsInSlash b.slashed = true := hslashed ▸ endsInSlash_withSlash b.name
    have hne : b.slashed ≠ [] := by
      intro hnil
      rw [hnil] at hends
      cases hends
    show TarHeader.endsInSlash (joinName before b.slashed) = true
    unfold joinName
    split
    · exact hends
    · rwa [endsInSlash_append before hne]

end Attributes

namespace Entry

variable {files : FileView} {cs : Charset} {r : Record} {e : Entry} {type : FileType}

/-- Whether an entry passes for a file of a type. -/
def passesFor (files : FileView) (e : Entry) : FileType → Bool
  | .directory => e.isDirectory files
  | .regular => e.isFile files
  | .symbolicLink => e.isSymbolicLink
  | .hardLink => e.isHardLink
  | .characterDevice => e.isCharacterDevice
  | .blockDevice => e.isBlockDevice
  | .fifo => e.isFifo

/-- The file type that the flag of an entry marks, if that is a flag of one. -/
def markedType? (e : Entry) : Option FileType := e.kind.toOption.bind TypeFlag.fileType?

/-- The file type that the name of an entry tells. -/
def namedType (e : Entry) : FileType := if endsInSlash e.name then .directory else .regular

/-- The name tells of a directory and the flag marks something else. -/
def SlashedOther (e : Entry) : Prop :=
  endsInSlash e.name = true ∧ ∃ type, e.markedType? = some type ∧ type ≠ .directory

/-- The name tells of a regular file and the flag marks something else. -/
def UnslashedOther (e : Entry) : Prop :=
  endsInSlash e.name = false ∧ ∃ type, e.markedType? = some type ∧ type ≠ .regular

theorem markedType?_eq_some_iff :
    e.markedType? = some type ↔ ∃ flag ∈ type.flags, e.hasFlag flag = true := by
  simp only [markedType?, Option.bind_eq_some_iff, TypeFlag.fileType?_eq_some_iff, and_comm]
  refine exists_congr fun flag => and_congr_left fun _ => ?_
  rw [Attributes.hasFlag, beq_iff_eq, ← TypeFlag.ofOctet_eq_ok_iff, kind]
  cases TypeFlag.ofOctet e.typeFlag <;> simp [Except.toOption]

theorem eq_namedType_iff : type = e.namedType ↔
    type = .directory ∧ endsInSlash e.name = true ∨
      type = .regular ∧ endsInSlash e.name = false := by
  unfold namedType
  cases endsInSlash e.name <;> simp

/-- Without a file an entry passes for what its flag marks and for what its name tells. -/
theorem passesFor_iff (hfile : e.file = none) :
    e.passesFor files type = true ↔ e.markedType? = some type ∨ type = e.namedType := by
  rw [markedType?_eq_some_iff, eq_namedType_iff]
  cases type with
  | directory =>
    simp [passesFor, isDirectory, boundDirectory, hfile, Attributes.describesDirectory,
      FileType.flags]
  | regular => simp [passesFor, isFile, hfile, FileType.flags, or_assoc]
  | symbolicLink => simp [passesFor, isSymbolicLink, FileType.flags]
  | hardLink => simp [passesFor, isHardLink, FileType.flags]
  | characterDevice => simp [passesFor, isCharacterDevice, FileType.flags]
  | blockDevice => simp [passesFor, isBlockDevice, FileType.flags]
  | fifo => simp [passesFor, isFifo, FileType.flags]

/-- What the flag marks is what the name tells, where the two are not told apart. -/
theorem eq_namedType_of_marked (hslashed : ¬ e.SlashedOther)
    (hunslashed : e.namedType = .regular → ¬ e.UnslashedOther)
    (hmarked : e.markedType? = some type) : type = e.namedType := by
  cases hends : endsInSlash e.name with
  | true =>
    have hnamed : e.namedType = .directory := if_pos hends
    rw [hnamed]
    exact Decidable.of_not_not fun hne => hslashed ⟨hends, type, hmarked, hne⟩
  | false =>
    have hnamed : e.namedType = .regular := if_neg (Bool.eq_false_iff.mp hends)
    rw [hnamed]
    exact Decidable.of_not_not fun hne => hunslashed hnamed ⟨hends, type, hmarked, hne⟩

theorem file_of_ofRecord (h : ofRecord cs r = .ok e) : e.file = none := by
  rw [eq_describedBy_of_ofRecord h]
  rfl

theorem endsInSlash_of_ofRecord (h : ofRecord cs r = .ok e)
    (hformat : Format.detect r = .posix ∨ Format.detect r = .legacy)
    (hmarked : e.markedType? = some .directory) : endsInSlash e.name = true := by
  obtain ⟨cs', hread⟩ := exists_read_of_read h
  obtain ⟨b, -, htail⟩ := Attributes.read_eq_ok_iff.mp hread
  obtain ⟨flag, hmem, hflag⟩ := markedType?_eq_some_iff.mp hmarked
  cases List.mem_singleton.mp hmem
  exact htail.endsInSlash hformat hflag

/-- The file types that an entry passes for after a header is read, save whether it is a regular
    file where only the name says so and the flag marks something else. There is one at most, unless
    the name ends in a slash and the flag does not mark a directory but something else; then there
    are two, the directory and what the flag marks. What a POSIX or old header marks as a directory
    is nothing else. -/
theorem fileTypes_of_ofRecord (files : FileView) (h : ofRecord cs r = .ok e) :
    (FileType.AtMostOne
        (fun type => e.passesFor files type = true ∧ (type = .regular → ¬ e.UnslashedOther)) ↔
      ¬ e.SlashedOther) ∧
    (e.SlashedOther → ∀ type,
      e.passesFor files type = true ↔ type = .directory ∨ e.markedType? = some type) ∧
    (e.markedType? = some .directory → Format.detect r = .posix ∨ Format.detect r = .legacy →
      ∀ type, e.passesFor files type = true ↔ type = .directory) := by
  have hfile := file_of_ofRecord h
  have hnamed : endsInSlash e.name = true → e.namedType = .directory := fun hends => if_pos hends
  refine ⟨⟨?_, ?_⟩, ?_, ?_⟩
  · rintro hone ⟨hends, type, hmarked, hne⟩
    have hboth := hone .directory type ⟨(passesFor_iff hfile).mpr (.inr (hnamed hends).symm), nofun⟩
      ⟨(passesFor_iff hfile).mpr (.inl hmarked), fun _ hother => ?_⟩
    · exact hne hboth.symm
    · exact Bool.noConfusion (hends.symm.trans hother.1)
  · -- Two types that are not the same are not both marked, and not both told by the name.
    rintro hslashed a b ⟨ha, hopenA⟩ ⟨hb, hopenB⟩
    rcases (passesFor_iff hfile).mp ha with ha | rfl <;>
      rcases (passesFor_iff hfile).mp hb with hb | rfl
    · exact Option.some.inj (ha.symm.trans hb)
    · exact eq_namedType_of_marked hslashed hopenB ha
    · exact (eq_namedType_of_marked hslashed hopenA hb).symm
    · rfl
  · rintro ⟨hends, -⟩ type
    rw [passesFor_iff hfile, hnamed hends, or_comm]
  · intro hmarked hformat type
    have hends := endsInSlash_of_ofRecord h hformat hmarked
    rw [passesFor_iff hfile, hnamed hends, hmarked, Option.some.injEq, eq_comm, or_self]

/-- An old header of a directory without a slash. -/
def plainDirectory : Record := (Record.zero.put Layout.name [0x64]).put Layout.typeFlag [0x35]

/-- An old header of a symbolic link with a slash. -/
def slashedLink : Record := (Record.zero.put Layout.name [0x6C, 0x2F]).put Layout.typeFlag [0x32]

theorem plainDirectory_alone_slashedLink_both :
    (∃ e, ofRecord .utf8 plainDirectory = .ok e ∧
      ∀ type, e.passesFor .empty type = true ↔ type = .directory) ∧
    ∃ e, ofRecord .utf8 slashedLink = .ok e ∧ ∀ type,
      e.passesFor .empty type = true ↔ type = .directory ∨ some .symbolicLink = some type := by
  constructor
  · obtain ⟨e, he⟩ : ∃ e, ofRecord .utf8 plainDirectory = .ok e :=
      fault?_eq_none_iff.mp (by decide +kernel)
    have hmarked : (ofRecord .utf8 plainDirectory).toOption.bind markedType? = some .directory := by
      decide +kernel
    rw [he] at hmarked
    have hformat : Format.detect plainDirectory = .legacy := by decide +kernel
    exact ⟨e, he, (fileTypes_of_ofRecord .empty he).2.2 hmarked (.inr hformat)⟩
  · obtain ⟨e, he⟩ : ∃ e, ofRecord .utf8 slashedLink = .ok e :=
      fault?_eq_none_iff.mp (by decide +kernel)
    have hmarked : (ofRecord .utf8 slashedLink).toOption.bind markedType? = some .symbolicLink := by
      decide +kernel
    have hends : (ofRecord .utf8 slashedLink).toOption.map (endsInSlash ·.name) = some true := by
      decide +kernel
    rw [he] at hmarked hends
    have hmarked : e.markedType? = some .symbolicLink := hmarked
    have hslashed : e.SlashedOther := ⟨Option.some.inj hends, .symbolicLink, hmarked, nofun⟩
    exact ⟨e, he, hmarked ▸ (fileTypes_of_ofRecord .empty he).2.1 hslashed⟩

/-- An old header of a symbolic link without a slash. -/
def plainLink : Record := (Record.zero.put Layout.name [0x6C]).put Layout.typeFlag [0x32]

/-- An old header of a regular file with a slash. -/
def slashedFile : Record := Record.zero.put Layout.name [0x66, 0x2F]

/-- A slash at the end of the name makes a directory of what is something else as well, and the
    lack of one a regular file. -/
theorem passes_twice :
    (ofRecord .utf8 slashedFile).toOption.map
      (fun e => (e.isDirectory .empty, e.isFile .empty)) = some (true, true) ∧
    (ofRecord .utf8 slashedLink).toOption.map
      (fun e => (e.isDirectory .empty, e.isSymbolicLink)) = some (true, true) ∧
    (ofRecord .utf8 plainLink).toOption.map
      (fun e => (e.isFile .empty, e.isSymbolicLink)) = some (true, true) := by
  refine ⟨?_, ?_, ?_⟩ <;> decide +kernel

end Entry

end TarHeader
