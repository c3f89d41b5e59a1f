import TarHeader.Proofs.Charset.Canonical
import TarHeader.Proofs.Entry.CutName
import TarHeader.Proofs.Entry.Rewriting
import TarHeader.Proofs.NameSplit.Room

/- Headers of POSIX that are read and written again. Reading joins the prefix and the name, and
   gives the name of a directory its slash; writing splits what comes of it by a rule of its own.
   Every text that was read has room again, but perhaps for the joined name
   (`PlainPosix.storableButName`). That has room too, or loses no more than a slash that it is given
   again, unless the header has a name that is stranded behind its prefix. Then the copy has a
   shorter name (`copied_name_iff`). -/
namespace TarHeader

open Utf8 (width)

theorem nulFree_joinName {before name : Text} (hbefore : NulFree before) (hname : NulFree name) :
    NulFree (joinName before name) := by
  unfold joinName
  split
  · exact hname
  · exact nulFree_append hbefore (List.forall_mem_cons.mpr ⟨by decide, hname⟩)

namespace Attributes

variable {a : Attributes} {before name kept : Text}

theorem nulFree_slashed (h : NulFree a.name) : NulFree a.slashed := by
  unfold slashed withSlash
  split
  · split
    · exact h
    · exact nulFree_append h (by decide)
  · exact h

theorem nameFits_iff_hasRoom (hmagic : a.magic = Magic.posixText)
    (hversion : a.version = Magic.posixVersionText) :
    a.NameFits .utf8 ↔ NameSplit.HasRoom a.name := by
  rw [NameFits, NameSplit.HasRoom, Charset.encodesWithin_utf8_iff, and_iff_right hmagic,
    and_iff_right hversion]

/-- A name that was joined has its slash already. -/
theorem slashed_of_join (hjoin : a.name = joinName before (a.withName name).slashed) :
    a.slashed = a.name := by
  cases hflag : a.hasFlag .directory with
  | false => exact slashed_withName_of_not_hasFlag hflag a.name
  | true =>
    have hslash : endsInSlash a.name = true := by
      rw [hjoin, slashed_withName_of_hasFlag hflag, joinName]
      have hends := endsInSlash_withSlash name
      split
      · exact hends
      · rw [endsInSlash_append, hends]
        rintro hnil
        rw [hnil] at hends
        cases hends
    exact (slashed_withName_of_hasFlag hflag a.name).trans (withSlash_of_endsInSlash hslash)

/-- Without a prefix a name is kept: only the slash of a directory can lack room, and it is given
    again. -/
theorem slashed_kept_of_unprefixed (hname : width name ≤ Layout.name.width)
    (hjoin : a.name = (a.withName name).slashed) (hkept : a.Keeps .utf8 kept) :
    (a.withName kept).slashed = a.name := by
  rcases hkept with ⟨-, rfl⟩ | ⟨hroom, n, hcut, rfl⟩
  · exact slashed_of_join (hjoin.trans (joinName_nil _).symm)
  have hlong : ¬ width a.name ≤ Layout.name.width :=
    fun h => hroom (.inl (Charset.encodesWithin_utf8_iff.mpr h))
  cases hflag : a.hasFlag .directory with
  | false =>
    rw [slashed_withName_of_not_hasFlag hflag] at hjoin
    exact absurd (hjoin ▸ hname) hlong
  | true =>
    rw [slashed_withName_of_hasFlag hflag] at hjoin ⊢
    have hends : endsInSlash name = false := by
      by_contra hends
      rw [withSlash_of_endsInSlash (by simpa using hends)] at hjoin
      exact hlong (hjoin ▸ hname)
    have hwhole : a.name = name ++ ['/'] := by
      rw [hjoin, withSlash, hends, if_neg Bool.false_ne_true]
    have hn : n = name.length := by
      rw [← Charset.encodesWithin_utf8_iff] at hname hlong
      rw [hwhole] at hcut hlong
      exact hcut.eq_length hname hlong
    rw [hn, hwhole, List.take_left, withSlash, hends, if_neg Bool.false_ne_true]

/-- Behind a prefix a name is kept if there is room for it, and only then: the cut takes more than
    the slash of a directory. -/
theorem slashed_kept_eq_iff_of_prefixed (hmagic : a.magic = Magic.posixText)
    (hversion : a.version = Magic.posixVersionText)
    (hbefore : width before ≤ Layout.Posix.namePrefix.width)
    (hname : width name ≤ Layout.name.width) (hbeforeNil : before ≠ [])
    (hjoin : a.name = before ++ '/' :: (a.withName name).slashed) (hkept : a.Keeps .utf8 kept) :
    (a.withName kept).slashed = a.name ↔
      ¬ NameSplit.Stranded (a.hasFlag .directory) before name := by
  have hroom : a.NameFits .utf8 ↔ ¬ NameSplit.Stranded (a.hasFlag .directory) before name := by
    rw [nameFits_iff_hasRoom hmagic hversion, hjoin]
    exact NameSplit.hasRoom_join_iff _ hbefore hname hbeforeNil
  rw [← hroom]
  rcases hkept with ⟨hfits, rfl⟩ | ⟨hfits, n, hcut, rfl⟩
  · have hjoined : a.name = joinName before (a.withName name).slashed := by
      rw [joinName, if_neg hbeforeNil, hjoin]
    exact iff_of_true (slashed_of_join hjoined) hfits
  refine iff_of_false (fun hsame => ?_) hfits
  have hstranded := not_not.mp (mt hroom.mpr hfits)
  have hcutWidth := Charset.encodesWithin_utf8_iff.mp hcut.fits
  have hwidth : width a.name = width before + 1 + width (a.withName name).slashed := by
    rw [hjoin, Utf8.width_append, Utf8.width_slash_cons]
    omega
  cases hflag : a.hasFlag .directory with
  | false =>
    rw [slashed_withName_of_not_hasFlag hflag] at hsame
    rw [hsame] at hcutWidth
    exact hfits (.inl (Charset.encodesWithin_utf8_iff.mpr hcutWidth))
  | true =>
    rw [hflag] at hstranded
    obtain ⟨-, hfull, hends, -⟩ : NameSplit.StrandedDirectory before name := hstranded
    have hle := NameSplit.width_withSlash_le (a.name.take n)
    rw [← slashed_withName_of_hasFlag hflag, hsame, hwidth, slashed_withName_of_hasFlag hflag,
      withSlash, hends, if_neg Bool.false_ne_true, Utf8.width_append_slash] at hle
    omega

end Attributes

/-! Headers of POSIX -/

namespace Record

/-- A header of POSIX with its version that is none of xstar, in UTF-8 and with octal numbers. -/
structure PlainPosix (r : Record) : Prop where
  magic : r.read Layout.magic = Magic.posix
  version : r.read Layout.version = Magic.posixVersion
  notXstar : r.read Layout.Xstar.magic ≠ Magic.xstar
  texts : r.DecodesIn .utf8
  octal : ∀ n ∈ r.numericFields, Numeral.isBinary (r.readOctet n.field) = false

/-- The name of a header is stranded behind its prefix: read in UTF-8 and joined, it has no room in
    a header any more. -/
def StrandsName (r : Record) : Prop :=
  ∃ before ∈ (r.readText .utf8 Layout.Posix.namePrefix).toOption,
    ∃ name ∈ (r.readText .utf8 Layout.name).toOption,
      NameSplit.Stranded (r.readOctet Layout.typeFlag == TypeFlag.directory.octet) before name

instance (r : Record) : Decidable r.StrandsName := by unfold StrandsName; infer_instance

instance (r : Record) (cs : Charset) : Decidable (r.DecodesIn cs) :=
  decidable_of_iff (∀ f ∈ r.textFields, fault? (r.readText cs f) = none) <| by
    simp only [DecodesIn, fault?_eq_none_iff]

instance (r : Record) : Decidable r.PlainPosix :=
  decidable_of_iff (r.read Layout.magic = Magic.posix ∧
      r.read Layout.version = Magic.posixVersion ∧ r.read Layout.Xstar.magic ≠ Magic.xstar ∧
      r.DecodesIn .utf8 ∧ ∀ n ∈ r.numericFields, Numeral.isBinary (r.readOctet n.field) = false)
    ⟨fun ⟨magic, version, notXstar, texts, octal⟩ => ⟨magic, version, notXstar, texts, octal⟩,
      fun h => ⟨h.magic, h.version, h.notXstar, h.texts, h.octal⟩⟩

variable {r : Record} {a : Attributes}

theorem PlainPosix.detect_eq (hr : r.PlainPosix) : Format.detect r = .posix := by
  have hne : Magic.posix ≠ Magic.oldGnu := by decide
  rw [Format.detect, if_neg (hr.magic ▸ hne), if_pos hr.magic, if_neg hr.notXstar]

theorem PlainPosix.marks (hr : r.PlainPosix) (ha : Attributes.read .utf8 none r = .ok a) :
    a.magic = Magic.posixText ∧ a.version = Magic.posixVersionText := by
  obtain ⟨-, hmagic, hversion⟩ := Attributes.marks_of_read ha
  rw [readText, hr.magic] at hmagic
  rw [readText, hr.version] at hversion
  exact ⟨(Except.ok.inj hmagic).symm, (Except.ok.inj hversion).symm⟩

/-- The name is that of the name field, with a directory's slash, behind the prefix. -/
theorem PlainPosix.exists_join (hr : r.PlainPosix) (ha : Attributes.read .utf8 none r = .ok a) :
    ∃ before name, r.readText .utf8 Layout.Posix.namePrefix = .ok before ∧
      r.readText .utf8 Layout.name = .ok name ∧
      a.name = joinName before (a.withName name).slashed := by
  obtain ⟨before, name, hbefore, hname, hjoin⟩ := (Attributes.textsFrom_of_read ha).1.name
  rw [readPrefix, prefixField?, hr.detect_eq] at hbefore
  refine ⟨before, name, hbefore, hname, ?_⟩
  rw [hjoin, namePart, hr.detect_eq, (Attributes.marks_of_read ha).1]
  rfl

theorem width_le_of_readText {f : Field} {t : Text} (h : r.readText .utf8 f = .ok t) :
    Utf8.width t ≤ f.width := by
  rw [← Charset.encodesWithin_utf8_iff, ← r.length_read f]
  exact TextField.encodesWithin_of_decode Charset.utf8_canonical h

/-- What was read has room in a header again, but perhaps for its joined name. -/
theorem PlainPosix.storableButName (hr : r.PlainPosix)
    (ha : Attributes.read .utf8 none r = .ok a) : a.StorableButName .utf8 true := by
  obtain ⟨hmagic, hversion⟩ := hr.marks ha
  obtain ⟨hlink, huser, hgroup, -⟩ := (Attributes.textsFrom_of_read ha).1
  have hnumbers := Attributes.numbersOf_of_read ha
  have huserOctal := hr.octal .userId (List.mem_append_left _ (by simp [sharedNumericFields]))
  have hgroupOctal := hr.octal .groupId (List.mem_append_left _ (by simp [sharedNumericFields]))
  have hsize : a.size.toNat < 2 ^ 63 := Attributes.size_lt_of_read ha
  have hrealSize : a.realSize.toNat < 2 ^ 63 := Attributes.realSize_lt_of_read ha
  have htexts : ∀ t ∈ [a.linkName, a.userName, a.groupName], NulFree t := by
    simp only [List.forall_mem_cons]
    exact ⟨TextField.nulFree_of_decode_utf8 hlink, TextField.nulFree_of_decode_utf8 huser,
      TextField.nulFree_of_decode_utf8 hgroup, List.forall_mem_nil _⟩
  have hmagicFits : NulFree a.magic ∧ Latin1 a.magic ∧ a.magic.length ≤ Layout.magic.width := by
    rw [hmagic]
    decide
  have hversionFits : NulFree a.version ∧ Latin1 a.version ∧
      a.version.length ≤ Layout.version.width := by
    rw [hversion]
    decide
  intro t ht _ hfits
  exact {
    nulFree := List.forall_mem_cons.mpr ⟨ht, htexts⟩
    encodable := fun t _ => ⟨Utf8.encode t, Charset.encode_utf8 t⟩
    linkName := Charset.encodesWithin_utf8_iff.mpr (width_le_of_readText hlink)
    userName := Charset.encodesWithin_utf8_iff.mpr (width_le_of_readText huser)
    groupName := Charset.encodesWithin_utf8_iff.mpr (width_le_of_readText hgroup)
    magic := hmagicFits
    version := hversionFits
    name := hfits
    size := hsize
    realSize := hrealSize
    ids := fun _ => ⟨Attributes.toNat_lt_of_octal rfl huserOctal hnumbers.userId,
      Attributes.toNat_lt_of_octal rfl hgroupOctal hnumbers.groupId⟩ }

theorem strandsName_iff {before name : Text}
    (hbefore : r.readText .utf8 Layout.Posix.namePrefix = .ok before)
    (hname : r.readText .utf8 Layout.name = .ok name) : r.StrandsName ↔
      NameSplit.Stranded (r.readOctet Layout.typeFlag == TypeFlag.directory.octet) before name := by
  simp [StrandsName, hbefore, hname, Except.toOption]

end Record

namespace Entry

open Record (PlainPosix)

variable {r : Record} {e : Entry}

/-- What was read in UTF-8 and written again is read again with the same kind, and with the same
    name unless that was stranded. -/
theorem copied_name_iff (hr : r.PlainPosix) (h : ofRecord .utf8 r = .ok e) :
    ∃ r' e', e.write .utf8 true = .ok r' ∧ ofRecord .utf8 r' = .ok e' ∧
      e'.typeFlag = e.typeFlag ∧ (e'.name = e.name ↔ ¬ r.StrandsName) := by
  obtain ⟨a, ha, rfl⟩ : ∃ a, Attributes.read .utf8 none r = .ok a ∧
      e = { toAttributes := a, checksumOk := Checksum.verify r.octets } := by
    rcases readStrict_of_read Charset.utf8_refusesOctets rfl h with ⟨-, h⟩ | ⟨hfails, -⟩
    · exact (readStrict_eq_ok_iff rfl).mp h
    · exact absurd hr.texts hfails
  obtain ⟨hmagic, hversion⟩ := hr.marks ha
  obtain ⟨before, name, hbefore, hname, hjoin⟩ := hr.exists_join ha
  have hnul : NulFree a.name :=
    hjoin ▸ nulFree_joinName (TextField.nulFree_of_decode_utf8 hbefore)
      (Attributes.nulFree_slashed (TextField.nulFree_of_decode_utf8 hname))
  obtain ⟨kept, r', hkept, hwrite, hread⟩ := (hr.storableButName ha).exists_kept
    Charset.utf8_faithful hnul ⟨_, Charset.encode_utf8 a.name⟩
  refine ⟨r', _, write_of_writeStrict hwrite, ofRecord_of_read hread, rfl, ?_⟩
  have hslashed : ((a.withName kept).stored true).name = (a.withName kept).slashed :=
    if_neg (Attributes.ne_oldGnu_of_posix hmagic)
  have hflag : r.readOctet Layout.typeFlag = a.typeFlag := (Attributes.marks_of_read ha).1
  rw [hslashed, Record.strandsName_iff hbefore hname, hflag]
  have hbeforeWidth := Record.width_le_of_readText hbefore
  have hnameWidth := Record.width_le_of_readText hname
  by_cases hnil : before = []
  · rw [joinName, if_pos hnil] at hjoin
    rw [hnil]
    exact iff_of_true (Attributes.slashed_kept_of_unprefixed hnameWidth hjoin hkept)
      (NameSplit.not_stranded_nil _ name)
  · rw [joinName, if_neg hnil] at hjoin
    exact Attributes.slashed_kept_eq_iff_of_prefixed hmagic hversion hbeforeWidth hnameWidth hnil
      hjoin hkept

/-- A header of POSIX with a prefix and a name, in ASCII, and zeros for numbers. -/
def posixRecord (flag : TypeFlag) (before name : Bytes) : Record :=
  Record.zero.putAll <|
    Record.sharedNumericFields.map (fun n => (n.field, Octal.encode n.field.width 0)) ++
      [(Layout.magic, Magic.posix), (Layout.version, Magic.posixVersion),
        (Layout.typeFlag, [flag.octet]), (Layout.Posix.namePrefix, before), (Layout.name, name)]

/-- A directory whose name fills its field but has a slash, to which the prefix is extended. -/
def deepDirectory : Record :=
  posixRecord .directory [0x61, 0x62] (0x63 :: 0x2F :: List.replicate 98 0x64)

theorem deepDirectory_copied : ∃ e r' e', ofRecord .utf8 deepDirectory = .ok e ∧
    e.write .utf8 true = .ok r' ∧ ofRecord .utf8 r' = .ok e' ∧ e'.typeFlag = e.typeFlag ∧
      e'.name = e.name := by
  obtain ⟨e, he⟩ : ∃ e, ofRecord .utf8 deepDirectory = .ok e :=
    fault?_eq_none_iff.mp (by decide +kernel)
  obtain ⟨r', e', hr', he', hflag, hname⟩ := copied_name_iff (by decide +kernel) he
  exact ⟨e, r', e', he, hr', he', hflag, hname.mpr (by decide +kernel)⟩

/-- The names in a header and in its copy. -/
def namesOfCopy (r : Record) : Except Fault (Text × Text) := do
  let e ← ofRecord .utf8 r
  let copy ← ofRecord .utf8 (← e.write .utf8 true)
  return (e.name, copy.name)

/-- A prefix as long as the name field, without a name. -/
def onlyPrefix : Record := posixRecord .regular (List.replicate 100 0x70) []

/-- A directory with a prefix, whose name fills its field. -/
def fullDirectory : Record := posixRecord .directory [0x70] (List.replicate 100 0x6E)

/-- Neither name is as long in the copy as in the header. -/
theorem stranded_names_cut :
    onlyPrefix.PlainPosix ∧ fullDirectory.PlainPosix ∧
      (namesOfCopy onlyPrefix).toOption.map (fun names => (names.1.length, names.2.length)) =
        some (101, 100) ∧
      (namesOfCopy fullDirectory).toOption.map (fun names => (names.1.length, names.2.length)) =
        some (103, 101) := by
  refine ⟨?_, ?_, ?_, ?_⟩ <;> decide +kernel

end Entry

end TarHeader
