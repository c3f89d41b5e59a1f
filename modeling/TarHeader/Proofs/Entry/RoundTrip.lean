import TarHeader.Entry.Header
import TarHeader.Proofs.Attributes.ReadBack
import TarHeader.Proofs.Attributes.ReadSpec
import TarHeader.Proofs.Attributes.WriteVerdict

/- Entries that survive being written and read. `Storable` says that texts have room in their fields
   and that numbers are not beyond what is read, and `stored` what is left of attributes in a header:
   the name of a directory has gained its slash, a number without room in octal has become zero
   unless binary numbers are allowed, and only old GNU keeps the real size and its companion. A
   storable entry is written without a fault, and what it is read back as is exactly what it stored
   (`ofRecord_writeStrict`). -/
namespace TarHeader

open Numeral (keptWord)

namespace Attributes

/-- Attributes that have room in a header. -/
structure Storable (cs : Charset) (extended : Bool) (a : Attributes) : Prop where
  nulFree : ∀ t ∈ a.texts, NulFree t
  encodable : ∀ t ∈ a.texts, cs.Encodable t
  linkName : cs.EncodesWithin Layout.linkName.width a.linkName
  userName : cs.EncodesWithin Layout.userName.width a.userName
  groupName : cs.EncodesWithin Layout.groupName.width a.groupName
  magic : NulFree a.magic ∧ Latin1 a.magic ∧ a.magic.length ≤ Layout.magic.width
  version : NulFree a.version ∧ Latin1 a.version ∧ a.version.length ≤ Layout.version.width
  /-- The name fits its field, or is one that POSIX splits. -/
  name : cs.EncodesWithin Layout.name.width a.name ∨
    a.magic = Magic.posixText ∧ a.version = Magic.posixVersionText ∧
      ∃ split ∈ NameSplit.candidates a.name, NameSplit.BothFit cs split
  size : a.size.toNat < 2 ^ 63
  realSize : a.realSize.toNat < 2 ^ 63
  ids : extended = true → a.userId.toNat < 2 ^ 56 ∧ a.groupId.toNat < 2 ^ 56

/-- What a header keeps of attributes. -/
def stored (extended : Bool) (a : Attributes) : Attributes :=
  { a with
    name := if a.magic = Magic.oldGnuText then a.name else a.slashed
    mode := keptWord extended Layout.mode.width a.mode
    userId := keptWord extended Layout.userId.width a.userId
    groupId := keptWord extended Layout.groupId.width a.groupId
    size := keptWord extended Layout.size.width a.size
    modTime := keptWord extended Layout.modTime.width a.modTime
    devMajor := keptWord extended Layout.devMajor.width a.devMajor
    devMinor := keptWord extended Layout.devMinor.width a.devMinor
    isExtended := decide (a.magic = Magic.oldGnuText) && a.isExtended
    realSize :=
      if a.magic = Magic.oldGnuText then keptWord extended Layout.OldGnu.realSize.width a.realSize
      else 0 }

/-- What the shared fields keep of attributes, with `name` in the name field. -/
def storedShared (extended : Bool) (a : Attributes) (name : Text) : Attributes :=
  { a.stored extended with name, isExtended := false, realSize := 0 }

variable {cs : Charset} {extended : Bool} {a : Attributes} {rest : List (Field × Content)}
  {r : Record}

theorem stored_of_oldGnu (h : a.magic = Magic.oldGnuText) : a.stored extended =
    { a.storedShared extended a.name with
      isExtended := a.isExtended
      realSize := keptWord extended Layout.OldGnu.realSize.width a.realSize } := by
  simp only [storedShared, stored, if_pos h, decide_eq_true h, Bool.true_and]

theorem stored_of_ne_oldGnu (h : a.magic ≠ Magic.oldGnuText) (name : Text) :
    a.stored extended = { a.storedShared extended name with name := a.slashed } := by
  simp only [storedShared, stored, if_neg h, decide_eq_false h, Bool.false_and]

theorem slashed_storedShared (extended : Bool) (a : Attributes) (name : Text) :
    (a.storedShared extended name).slashed =
      if a.hasFlag .directory then withSlash name else name := rfl

theorem Storable.exists_write (h : a.Storable cs extended) (hcs : cs.Faithful) :
    ∃ r, a.write cs extended = .ok r := by
  have hids : a.idFault extended = none := by
    rw [idFault, if_neg, if_neg]
    · exact fun hlarge => absurd (h.ids hlarge.1).2 (Nat.not_lt.mpr hlarge.2)
    · exact fun hlarge => absurd (h.ids hlarge.1).1 (Nat.not_lt.mpr hlarge.2)
  exact exists_write_of_encodable hcs h.encodable hids

/-- The shared fields read back, once the name field is known. -/
theorem Storable.sharedOf (h : a.Storable cs extended) (hcs : cs.Faithful)
    (hw : Written cs extended a rest r) {name : Text}
    (hname : r.readText cs Layout.name = .ok name) :
    SharedOf cs r (a.storedShared extended name) := by
  have hm : ∀ {x}, x ∈ (a.shared cs).tail → x ∈ (a.shared cs).tail ++ rest :=
    fun hx => List.mem_append_left rest hx
  have hnumbers := hw.keepsNumbers fun _ => h.size
  have hnul := h.nulFree
  simp only [texts, List.forall_mem_cons] at hnul
  obtain ⟨-, hlinkNul, huserNul, hgroupNul, -⟩ := hnul
  have hlink : r.readText cs Layout.linkName = .ok a.linkName :=
    hw.readText (hm (by simp [shared])) hcs hlinkNul h.linkName
  have huser : r.readText cs Layout.userName = .ok a.userName :=
    hw.readText (hm (by simp [shared])) hcs huserNul h.userName
  have hgroup : r.readText cs Layout.groupName = .ok a.groupName :=
    hw.readText (hm (by simp [shared])) hcs hgroupNul h.groupName
  have hmagic : r.readText .fallback Layout.magic = .ok a.magic :=
    hw.readText_fallback (hm (by simp [shared])) h.magic.1 h.magic.2.1 h.magic.2.2
  have hversion : r.readText .fallback Layout.version = .ok a.version :=
    hw.readText_fallback (hm (by simp [shared])) h.version.1 h.version.2.1 h.version.2.2
  have hflag : r.readOctet Layout.typeFlag = a.typeFlag :=
    hw.readOctet (hm (by simp [shared])) rfl
  exact ⟨hname, hnumbers.mode, hnumbers.userId, hnumbers.groupId, hnumbers.size,
    hnumbers.modTime, hflag, hlink, hmagic, hversion, huser, hgroup, hnumbers.devMajor,
    hnumbers.devMinor, rfl, rfl⟩

/-- Outside old GNU the tail is read as a prefix. -/
theorem Storable.detect_posix_or_legacy (h : a.Storable cs extended)
    (hw : Written cs extended a rest r) (hmagic : a.magic ≠ Magic.oldGnuText) :
    Format.detect r = .posix ∨ Format.detect r = .legacy := by
  have hne : r.read Layout.magic ≠ Magic.oldGnu :=
    mt (hw.read_magic_eq_oldGnu_iff h.magic.1 h.magic.2.1 h.magic.2.2).mp hmagic
  have hgnu : Format.detect r ≠ .oldGnu := mt Format.detect_eq_oldGnu_iff.mp hne
  have hxstar := hw.detect_ne_xstar
  cases hd : Format.detect r with
  | oldGnu => exact absurd hd hgnu
  | xstar => exact absurd hd hxstar
  | posix => exact .inl rfl
  | legacy => exact .inr rfl

/-- Without a prefix the name field holds the name. -/
theorem Storable.read_of_unsplit (h : a.Storable cs extended) (hcs : cs.Faithful)
    (hw : Written cs extended a [] r) (hmagic : a.magic ≠ Magic.oldGnuText)
    (hl : cs.EncodesWithin Layout.name.width a.name) :
    read cs none r = .ok (a.stored extended) := by
  have hname := hw.readName (by simp) hcs (h.nulFree _ List.mem_cons_self) hl
  have hbefore : r.readText cs Layout.Posix.namePrefix = .ok [] := by
    rw [Record.readText, hw.read_namePrefix]
    exact TextField.decode_replicate_zero (hcs.decode_encode hcs.encode_nil)
  refine read_eq_ok_iff.mpr ⟨_, h.sharedOf hcs hw hname, ?_⟩
  rw [stored_of_ne_oldGnu hmagic a.name]
  exact .posix (h.detect_posix_or_legacy hw hmagic) hbefore

/-- A split name is joined again. -/
theorem Storable.read_of_split (h : a.Storable cs extended) (hcs : cs.Faithful)
    {before after : Text}
    (hw : Written cs extended a
      [(Layout.name, .text cs after), (Layout.Posix.namePrefix, .text cs before)] r)
    (hmagic : a.magic ≠ Magic.oldGnuText)
    (hsplit : (before, after) ∈ NameSplit.candidates a.name)
    (hfit : NameSplit.BothFit cs (before, after)) :
    read cs none r = .ok (a.stored extended) := by
  obtain ⟨hjoin, hbeforeNil, hafterNil⟩ := NameSplit.mem_candidates.mp hsplit
  have hnul := h.nulFree a.name List.mem_cons_self
  obtain ⟨hbeforePart, hafterPart⟩ := NameSplit.infix_of_mem_candidates hsplit
  have hname : r.readText cs Layout.name = .ok after :=
    hw.readText (List.mem_append_right _ (by simp)) hcs
      (fun c hc => hnul c (hafterPart.subset hc)) hfit.2
  have hbefore : r.readText cs Layout.Posix.namePrefix = .ok before :=
    hw.readText (List.mem_append_right _ (by simp)) hcs
      (fun c hc => hnul c (hbeforePart.subset hc)) hfit.1
  -- A directory gains its slash at the end of the second part, before the two are joined.
  have hslashed : a.slashed = joinName before (a.storedShared extended after).slashed := by
    rw [slashed_storedShared, joinName, if_neg hbeforeNil, slashed, hjoin]
    split
    · exact withSlash_append before hafterNil
    · rfl
  refine read_eq_ok_iff.mpr ⟨_, h.sharedOf hcs hw hname, ?_⟩
  rw [stored_of_ne_oldGnu hmagic after, hslashed]
  exact .posix (h.detect_posix_or_legacy hw hmagic) hbefore

theorem Storable.read_of_oldGnu (h : a.Storable cs extended) (hcs : cs.Faithful)
    (hw : Written cs extended a [(Layout.OldGnu.isExtended, .octet (if a.isExtended then 1 else 0)),
      (Layout.OldGnu.realSize, .number (Word.toInt a.realSize))] r)
    (hmagic : a.magic = Magic.oldGnuText) (hl : cs.EncodesWithin Layout.name.width a.name) :
    read cs none r = .ok (a.stored extended) := by
  have hapart : ∀ f ∈ [Layout.OldGnu.isExtended, Layout.OldGnu.realSize],
      f.Apart Layout.name := by decide
  have hname := hw.readName hapart hcs (h.nulFree _ List.mem_cons_self) hl
  have hflag := hw.readOctet (f := Layout.OldGnu.isExtended)
    (List.mem_append_right _ List.mem_cons_self) rfl
  have hsize := hw.readWord (f := Layout.OldGnu.realSize) (List.mem_append_right _ (by simp)) rfl
    (by decide) fun _ => (Numeral.readable_uint64_iff a.realSize).mpr h.realSize
  have hextended : a.isExtended = (r.readOctet Layout.OldGnu.isExtended == 1) := by
    rw [hflag]
    cases a.isExtended <;> rfl
  refine read_eq_ok_iff.mpr ⟨_, h.sharedOf hcs hw hname, ?_⟩
  rw [stored_of_oldGnu hmagic, hextended]
  exact .oldGnu (Format.detect_eq_oldGnu_iff.mpr (hw.read_magic_of_oldGnu hmagic)) hsize

/-- What was written is read back as what it stored. -/
theorem Storable.read_write (h : a.Storable cs extended) (hcs : cs.Faithful)
    (hw : a.write cs extended = .ok r) : read cs none r = .ok (a.stored extended) := by
  obtain ⟨rest, hw⟩ := exists_written hw
  have hparts := hcs.encodesParts (h.encodable a.name List.mem_cons_self)
  -- A name with room in its field is never split, and one without room always is.
  cases htail : hw.tailOf with
  | oldGnu hmagic =>
    refine h.read_of_oldGnu hcs hw hmagic (h.name.resolve_right fun hsplit => ?_)
    exact ne_oldGnu_of_posix hsplit.1 hmagic
  | legacy hmagic hversion =>
    refine h.read_of_unsplit hcs hw hmagic (h.name.resolve_right fun hsplit => ?_)
    exact hversion ⟨hsplit.1, hsplit.2.1⟩
  | whole hmagic hversion hfind =>
    refine h.read_of_unsplit hcs hw (ne_oldGnu_of_posix hmagic) ?_
    rcases (NameSplit.find_eq_none_iff hparts).mp hfind with hl | hnone
    · exact hl
    · refine h.name.resolve_right fun ⟨_, _, ⟨before, after⟩, hmem, hfit⟩ => ?_
      exact hnone before after (NameSplit.splits_iff.mpr ⟨hmem, hfit⟩)
  | split before after hmagic hversion hfind =>
    obtain ⟨-, hsplit⟩ := (NameSplit.find_eq_some_iff hparts).mp hfind
    obtain ⟨hmem, hfit⟩ := NameSplit.splits_iff.mp hsplit.toSplits
    exact h.read_of_split hcs hw (ne_oldGnu_of_posix hmagic) hmem hfit

end Attributes

namespace Entry

/-- A storable entry is written, and reading the header gives what it stored. -/
theorem ofRecord_writeStrict {cs : Charset} (hcs : cs.Faithful) {extended : Bool} {e : Entry}
    (h : e.toAttributes.Storable cs extended) :
    ∃ r, e.writeStrict cs extended = .ok r ∧
      ofRecord cs r = .ok { toAttributes := e.toAttributes.stored extended, checksumOk := true } := by
  obtain ⟨r, hw⟩ := h.exists_write hcs
  refine ⟨r, hw, ?_⟩
  obtain ⟨rest, hwritten⟩ := Attributes.exists_written hw
  have hstrict : readStrict .empty cs r {} =
      .ok { toAttributes := e.toAttributes.stored extended, checksumOk := true } := by
    rw [readStrict, boundDirectory, Option.map_none, h.read_write hcs hw, hwritten.verify]
    rfl
  rw [ofRecord, Entry.read, Charset.orFallback, hstrict]

/-- A directory with a name that has to be split, older than 1970, of a user with a large id. -/
def oldDirectory : Entry where
  name := List.replicate 70 'é' ++ '/' :: 'ü' :: List.replicate 30 'n'
  typeFlag := TypeFlag.directory.octet
  userId := 0xFFFFFFFFFFFF
  modTime := -86400
  userName := ['r', 'o', 'o', 't']

theorem oldDirectory_reads_back :
    ∃ r, oldDirectory.writeStrict .utf8 true = .ok r ∧ ofRecord .utf8 r =
      .ok { toAttributes := oldDirectory.toAttributes.stored true, checksumOk := true } :=
  ofRecord_writeStrict Charset.utf8_faithful {
    nulFree := by decide +kernel
    encodable := fun t _ => ⟨Utf8.encode t, Charset.encode_utf8 t⟩
    linkName := by decide
    userName := by decide
    groupName := by decide
    magic := by decide
    version := by decide
    name := by decide +kernel
    size := by decide
    realSize := by decide
    ids := by decide }

end Entry

end TarHeader
