import TarHeader.Attributes.Read
import TarHeader.Proofs.Format

/- What reading gives, field by field. `SharedOf` is the result of reading the shared fields and
   `TailRead` what the tail adds to it, with one case for each way in which a tail is read; reading
   succeeds with a result just when they hold of it (`readShared_eq_ok_iff`, `readTail_eq_ok_iff`).
   Numbers and marks are those of the shared fields whatever the tail adds (`numbersOf_of_read`,
   `marks_of_read`). -/
namespace TarHeader

/-! Names -/

theorem withSlash_of_endsInSlash {name : Text} (h : endsInSlash name = true) :
    withSlash name = name := if_pos h

theorem endsInSlash_withSlash (t : Text) : endsInSlash (withSlash t) = true := by
  unfold withSlash
  split
  · assumption
  · simp [endsInSlash]

theorem endsInSlash_append (before : Text) {after : Text} (h : after ≠ []) :
    endsInSlash (before ++ '/' :: after) = endsInSlash after := by
  obtain ⟨c, rest, rfl⟩ := List.exists_cons_of_ne_nil h
  simp [endsInSlash, List.getLast?_append, List.getLast?_cons]

/-- The slash at the end of a split name goes to its second part. -/
theorem withSlash_append (before : Text) {after : Text} (h : after ≠ []) :
    withSlash (before ++ '/' :: after) = before ++ '/' :: withSlash after := by
  rw [withSlash, withSlash, endsInSlash_append before h]
  split
  · rfl
  · exact List.append_assoc _ _ _

theorem joinName_nil (name : Text) : joinName [] name = name := rfl

namespace Attributes

variable {cs : Charset} {r : Record} {a b : Attributes}

/-- The name with the slash that a directory's has. -/
def slashed (a : Attributes) : Text := if a.hasFlag .directory then withSlash a.name else a.name

theorem slashed_eq (a : Attributes) :
    (if a.describesDirectory then withSlash a.name else a.name) = a.slashed := by
  unfold describesDirectory slashed
  cases a.hasFlag .directory with
  | true => rfl
  | false =>
    -- A name that marks a directory has its slash already.
    by_cases hs : endsInSlash a.name = true
    · rw [hs, withSlash_of_endsInSlash hs]
      rfl
    · rw [Bool.eq_false_iff.mpr hs]
      rfl

/-- The shared fields of a record, read. -/
structure SharedOf (cs : Charset) (r : Record) (a : Attributes) : Prop where
  name : r.readText cs Layout.name = .ok a.name
  mode : r.readWord Layout.mode = .ok a.mode
  userId : r.readWord Layout.userId = .ok a.userId
  groupId : r.readWord Layout.groupId = .ok a.groupId
  size : r.readWord Layout.size = .ok a.size
  modTime : r.readWord Layout.modTime = .ok a.modTime
  typeFlag : r.readOctet Layout.typeFlag = a.typeFlag
  linkName : r.readText cs Layout.linkName = .ok a.linkName
  magic : r.readText .fallback Layout.magic = .ok a.magic
  version : r.readText .fallback Layout.version = .ok a.version
  userName : r.readText cs Layout.userName = .ok a.userName
  groupName : r.readText cs Layout.groupName = .ok a.groupName
  devMajor : r.readWord Layout.devMajor = .ok a.devMajor
  devMinor : r.readWord Layout.devMinor = .ok a.devMinor
  isExtended : a.isExtended = false
  realSize : a.realSize = 0

theorem readShared_eq_ok_iff : readShared cs r = .ok a ↔ SharedOf cs r a := by
  unfold readShared
  constructor
  · intro h
    obtain ⟨name, hname, h⟩ := Fault.bind_eq_ok.mp h
    obtain ⟨mode, hmode, h⟩ := Fault.bind_eq_ok.mp h
    obtain ⟨userId, huserId, h⟩ := Fault.bind_eq_ok.mp h
    obtain ⟨groupId, hgroupId, h⟩ := Fault.bind_eq_ok.mp h
    obtain ⟨size, hsize, h⟩ := Fault.bind_eq_ok.mp h
    obtain ⟨modTime, hmodTime, h⟩ := Fault.bind_eq_ok.mp h
    obtain ⟨linkName, hlinkName, h⟩ := Fault.bind_eq_ok.mp h
    obtain ⟨magic, hmagic, h⟩ := Fault.bind_eq_ok.mp h
    obtain ⟨version, hversion, h⟩ := Fault.bind_eq_ok.mp h
    obtain ⟨userName, huserName, h⟩ := Fault.bind_eq_ok.mp h
    obtain ⟨groupName, hgroupName, h⟩ := Fault.bind_eq_ok.mp h
    obtain ⟨devMajor, hdevMajor, h⟩ := Fault.bind_eq_ok.mp h
    obtain ⟨devMinor, hdevMinor, h⟩ := Fault.bind_eq_ok.mp h
    cases Fault.pure_eq_ok.mp h
    exact ⟨hname, hmode, huserId, hgroupId, hsize, hmodTime, rfl, hlinkName, hmagic, hversion,
      huserName, hgroupName, hdevMajor, hdevMinor, rfl, rfl⟩
  · intro h
    simp only [h.name, h.mode, h.userId, h.groupId, h.size, h.modTime, h.typeFlag, h.linkName,
      h.magic, h.version, h.userName, h.groupName, h.devMajor, h.devMinor, ← h.isExtended,
      ← h.realSize, bind, Except.bind, pure, Except.pure]

/-- What the tail of a record makes of the shared attributes `b`, for an entry without a file. -/
inductive TailRead (cs : Charset) (r : Record) (b : Attributes) : Attributes → Prop where
  | oldGnu {realSize : UInt64} (hformat : Format.detect r = .oldGnu)
      (hsize : r.readWord Layout.OldGnu.realSize = .ok realSize) :
      TailRead cs r b { b with isExtended := r.readOctet Layout.OldGnu.isExtended == 1, realSize }
  | xstar {before : Text} (hformat : Format.detect r = .xstar)
      (hbefore : r.readText cs Layout.Xstar.namePrefix = .ok before) :
      TailRead cs r b { b with name := joinName before b.name }
  | posix {before : Text} (hformat : Format.detect r = .posix ∨ Format.detect r = .legacy)
      (hbefore : r.readText cs Layout.Posix.namePrefix = .ok before) :
      TailRead cs r b { b with name := joinName before b.slashed }

theorem readTail_eq_ok_iff : readTail cs none r b = .ok a ↔ TailRead cs r b a := by
  unfold readTail
  constructor
  · intro h
    cases hformat : Format.detect r with
    | oldGnu =>
      rw [hformat] at h
      obtain ⟨realSize, hsize, h⟩ := Fault.bind_eq_ok.mp h
      cases Fault.pure_eq_ok.mp h
      exact .oldGnu hformat hsize
    | xstar =>
      rw [hformat] at h
      obtain ⟨before, hbefore, h⟩ := Fault.bind_eq_ok.mp h
      cases Fault.pure_eq_ok.mp h
      exact .xstar hformat hbefore
    | posix | legacy =>
      rw [hformat] at h
      obtain ⟨before, hbefore, h⟩ := Fault.bind_eq_ok.mp h
      cases Fault.pure_eq_ok.mp h
      rw [Option.getD_none, slashed_eq]
      exact .posix (by simp [hformat]) hbefore
  · intro h
    cases h with
    | oldGnu hformat hsize =>
      simp only [hformat, hsize, bind, Except.bind, pure, Except.pure]
    | xstar hformat hbefore =>
      simp only [hformat, hbefore, bind, Except.bind, pure, Except.pure]
    | posix hformat hbefore =>
      rcases hformat with hformat | hformat <;>
        simp only [hformat, hbefore, Option.getD_none, slashed_eq, bind, Except.bind, pure,
          Except.pure]

theorem read_eq_ok_iff : read cs none r = .ok a ↔ ∃ b, SharedOf cs r b ∧ TailRead cs r b a := by
  rw [read, Fault.bind_eq_ok]
  simp only [readShared_eq_ok_iff, readTail_eq_ok_iff]

/-! What no tail changes -/

/-- A tail has a say in the name, the real size and its flag, whatever file the entry is bound to. -/
theorem exists_of_readTail {bound : Option Bool} (h : readTail cs bound r b = .ok a) :
    ∃ name isExtended realSize, a = { b with name, isExtended, realSize } := by
  unfold readTail at h
  split at h
  all_goals
    obtain ⟨_, -, h⟩ := Fault.bind_eq_ok.mp h
    cases Fault.pure_eq_ok.mp h
    exact ⟨_, _, _, rfl⟩

theorem exists_sharedOf_of_read {bound : Option Bool} (h : read cs bound r = .ok a) :
    ∃ b, SharedOf cs r b ∧ ∃ name isExtended realSize, a = { b with name, isExtended, realSize } := by
  obtain ⟨b, hb, htail⟩ := Fault.bind_eq_ok.mp h
  exact ⟨b, readShared_eq_ok_iff.mp hb, exists_of_readTail htail⟩

/-- The numbers are those of the shared fields. -/
structure NumbersOf (r : Record) (a : Attributes) : Prop where
  mode : r.readWord Layout.mode = .ok a.mode
  userId : r.readWord Layout.userId = .ok a.userId
  groupId : r.readWord Layout.groupId = .ok a.groupId
  size : r.readWord Layout.size = .ok a.size
  modTime : r.readWord Layout.modTime = .ok a.modTime
  devMajor : r.readWord Layout.devMajor = .ok a.devMajor
  devMinor : r.readWord Layout.devMinor = .ok a.devMinor

theorem numbersOf_of_read {bound : Option Bool} (h : read cs bound r = .ok a) :
    NumbersOf r a := by
  obtain ⟨b, hb, _, _, _, rfl⟩ := exists_sharedOf_of_read h
  exact ⟨hb.mode, hb.userId, hb.groupId, hb.size, hb.modTime, hb.devMajor, hb.devMinor⟩

/-- The octet of the kind and the marks of the format are those of their fields. -/
theorem marks_of_read {bound : Option Bool} (h : read cs bound r = .ok a) :
    r.readOctet Layout.typeFlag = a.typeFlag ∧
      r.readText .fallback Layout.magic = .ok a.magic ∧
      r.readText .fallback Layout.version = .ok a.version := by
  obtain ⟨b, hb, _, _, _, rfl⟩ := exists_sharedOf_of_read h
  exact ⟨hb.typeFlag, hb.magic, hb.version⟩

end Attributes

end TarHeader
