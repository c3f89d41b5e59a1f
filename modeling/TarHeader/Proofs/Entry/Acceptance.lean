import TarHeader.Entry.Header
import TarHeader.Proofs.Attributes.ReadVerdict

/- Which headers an entry accepts, and what it takes from them. The numbers of a header decide alone
   whether it is read and which fault is reported; the charset has no part in that, nor in any
   attribute that is no text. The texts are all of the charset asked for if it can decode all of
   them, the prefix included, and all of the fallback charset if not (`read_acceptance`). -/
namespace TarHeader

namespace Record

/-- The text of the name prefix, empty in a format without one. -/
def readPrefix (r : Record) (cs : Charset) : Except Fault Text :=
  match r.prefixField? with
  | some f => r.readText cs f
  | none => .ok []

/-- The name field's part of a name: POSIX and old headers give that of a directory its slash. -/
def namePart (r : Record) (name : Text) : Text :=
  match Format.detect r with
  | .oldGnu | .xstar => name
  | .posix | .legacy =>
    if r.readOctet Layout.typeFlag == TypeFlag.directory.octet then withSlash name else name

end Record

namespace Attributes

variable {cs cs' : Charset} {r : Record} {a a' b b' : Attributes}

/-- The attributes apart from the texts that are read in the charset asked for. -/
def withoutTexts (a : Attributes) : Attributes :=
  { a with name := [], linkName := [], userName := [], groupName := [] }

/-- The texts are those of the record in the charset. -/
structure TextsFrom (cs : Charset) (r : Record) (a : Attributes) : Prop where
  linkName : r.readText cs Layout.linkName = .ok a.linkName
  userName : r.readText cs Layout.userName = .ok a.userName
  groupName : r.readText cs Layout.groupName = .ok a.groupName
  name : ∃ before name, r.readPrefix cs = .ok before ∧ r.readText cs Layout.name = .ok name ∧
    a.name = joinName before (r.namePart name)

theorem SharedOf.withoutTexts_eq (h : SharedOf cs r a) (h' : SharedOf cs' r a') :
    a.withoutTexts = a'.withoutTexts := by
  simp only [withoutTexts, mk.injEq, true_and]
  exact ⟨Except.ok.inj (h.mode.symm.trans h'.mode),
    Except.ok.inj (h.userId.symm.trans h'.userId),
    Except.ok.inj (h.groupId.symm.trans h'.groupId),
    Except.ok.inj (h.size.symm.trans h'.size),
    Except.ok.inj (h.modTime.symm.trans h'.modTime),
    h.typeFlag.symm.trans h'.typeFlag,
    Except.ok.inj (h.magic.symm.trans h'.magic),
    Except.ok.inj (h.version.symm.trans h'.version),
    Except.ok.inj (h.devMajor.symm.trans h'.devMajor),
    Except.ok.inj (h.devMinor.symm.trans h'.devMinor),
    h.isExtended.trans h'.isExtended.symm, h.realSize.trans h'.realSize.symm⟩

/-- The tail leaves everything but the name, the real size and its flag. -/
theorem TailRead.withoutTexts_eq (h : TailRead cs r b a) (h' : TailRead cs' r b' a')
    (hb : b.withoutTexts = b'.withoutTexts) : a.withoutTexts = a'.withoutTexts := by
  cases h with
  | oldGnu hformat hsize =>
    cases h' with
    | oldGnu _ hsize' =>
      cases Except.ok.inj (hsize.symm.trans hsize')
      simp only [withoutTexts, mk.injEq] at hb ⊢
      simp only [hb, and_self]
    | xstar hformat' _ => simp [hformat] at hformat'
    | posix hformat' _ => simp [hformat] at hformat'
  | xstar hformat _ =>
    cases h' with
    | oldGnu hformat' _ => simp [hformat] at hformat'
    | xstar _ _ => exact hb
    | posix hformat' _ => simp [hformat] at hformat'
  | posix hformat _ =>
    cases h' with
    | oldGnu hformat' _ => simp [hformat'] at hformat
    | xstar hformat' _ => simp [hformat'] at hformat
    | posix _ _ => exact hb

theorem withoutTexts_eq_of_read (h : read cs none r = .ok a) (h' : read cs' none r = .ok a') :
    a.withoutTexts = a'.withoutTexts := by
  obtain ⟨b, hb, htail⟩ := read_eq_ok_iff.mp h
  obtain ⟨b', hb', htail'⟩ := read_eq_ok_iff.mp h'
  exact htail.withoutTexts_eq htail' (hb.withoutTexts_eq hb')

theorem namePart_eq (h : SharedOf cs r b)
    (hformat : Format.detect r = .posix ∨ Format.detect r = .legacy) :
    r.namePart b.name = b.slashed := by
  unfold Record.namePart slashed hasFlag
  rcases hformat with hformat | hformat <;> simp only [hformat, h.typeFlag]

/-- The tail takes the name from the prefix and the name field, and keeps the other texts. -/
theorem TailRead.texts (h : TailRead cs r b a) (hb : SharedOf cs r b) :
    (∃ before, r.readPrefix cs = .ok before ∧ a.name = joinName before (r.namePart b.name)) ∧
      a.linkName = b.linkName ∧ a.userName = b.userName ∧ a.groupName = b.groupName := by
  refine ⟨?_, by cases h <;> exact ⟨rfl, rfl, rfl⟩⟩
  cases h with
  | oldGnu hformat _ =>
    refine ⟨[], ?_, ?_⟩
    · rw [Record.readPrefix, Record.prefixField?, hformat]
    · rw [joinName_nil, Record.namePart, hformat]
  | @xstar before hformat hread =>
    refine ⟨before, ?_, ?_⟩
    · rw [Record.readPrefix, Record.prefixField?, hformat]
      exact hread
    · rw [Record.namePart, hformat]
  | @posix before hformat hread =>
    refine ⟨before, ?_, ?_⟩
    · unfold Record.readPrefix Record.prefixField?
      rcases hformat with hformat | hformat <;> rw [hformat] <;> exact hread
    · rw [namePart_eq hb hformat]

/-- What is read in a charset is all of that charset. -/
theorem textsFrom_of_read (h : read cs none r = .ok a) : TextsFrom cs r a ∧ r.DecodesIn cs := by
  obtain ⟨b, hb, htail⟩ := read_eq_ok_iff.mp h
  obtain ⟨⟨before, hbefore, hname⟩, hlink, huser, hgroup⟩ := htail.texts hb
  refine ⟨⟨hlink ▸ hb.linkName, huser ▸ hb.userName, hgroup ▸ hb.groupName, before, b.name,
    hbefore, hb.name, hname⟩, ?_⟩
  intro f hf
  simp only [Record.textFields, List.cons_append, List.nil_append, List.mem_cons,
    Option.mem_toList] at hf
  rcases hf with rfl | rfl | rfl | rfl | hf
  · exact ⟨b.name, hb.name⟩
  · exact ⟨b.linkName, hb.linkName⟩
  · exact ⟨b.userName, hb.userName⟩
  · exact ⟨b.groupName, hb.groupName⟩
  · rw [Record.readPrefix, hf] at hbefore
    exact ⟨before, hbefore⟩

end Attributes

namespace Entry

open Attributes (TextsFrom)

variable {files : FileView} {cs cs' : Charset} {r : Record} {e e' e'' : Entry}

/-- The entry apart from the texts that are read in the charset asked for. -/
def withoutTexts (e : Entry) : Entry := { e with toAttributes := e.toAttributes.withoutTexts }

theorem readStrict_eq_ok_iff (hfile : e.file = none) : e.readStrict files cs r = .ok e' ↔
    ∃ a, Attributes.read cs none r = .ok a ∧
      e' = { e with toAttributes := a, checksumOk := Checksum.verify r.octets } := by
  rw [readStrict, boundDirectory, hfile, Option.map_none, Fault.bind_eq_ok]
  constructor
  · rintro ⟨a, ha, h⟩
    exact ⟨a, ha, (Fault.pure_eq_ok.mp h).symm⟩
  · rintro ⟨a, ha, rfl⟩
    exact ⟨a, ha, rfl⟩

theorem ofRecord_of_read {a : Attributes} (h : Attributes.read cs none r = .ok a) :
    ofRecord cs r = .ok { toAttributes := a, checksumOk := Checksum.verify r.octets } := by
  rw [ofRecord, read, Charset.orFallback_eq_ok_iff]
  exact .inl ((readStrict_eq_ok_iff rfl).mpr ⟨a, h, rfl⟩)

theorem read_of_readStrict (h : e.readStrict files cs r = .ok e') :
    Attributes.read cs (e.boundDirectory files) r = .ok e'.toAttributes := by
  obtain ⟨a, ha, h⟩ := Fault.bind_eq_ok.mp h
  cases Fault.pure_eq_ok.mp h
  exact ha

/-- The attributes of an entry that was read were read in some charset. -/
theorem exists_read_of_read (h : e.read files cs r = .ok e') :
    ∃ cs', Attributes.read cs' (e.boundDirectory files) r = .ok e'.toAttributes := by
  rcases Charset.orFallback_eq_ok_iff.mp h with h | ⟨-, h⟩ <;> exact ⟨_, read_of_readStrict h⟩

theorem marks_of_readStrict (h : e.readStrict files cs r = .ok e') :
    r.readText .fallback Layout.magic = .ok e'.magic ∧
      r.readText .fallback Layout.version = .ok e'.version :=
  (Attributes.marks_of_read (read_of_readStrict h)).2

theorem marks_of_read (h : e.read files cs r = .ok e') :
    r.readText .fallback Layout.magic = .ok e'.magic ∧
      r.readText .fallback Layout.version = .ok e'.version :=
  let ⟨_, ha⟩ := exists_read_of_read h
  (Attributes.marks_of_read ha).2

theorem verdict_readStrict {stray : Fault → Prop}
    (h : ∀ f ∈ r.textFields, ∀ fault, r.readText cs f = .error fault → stray fault) :
    Verdict stray r.numberFault (e.readStrict files cs r) := by
  rw [← Option.or_none (o := r.numberFault)]
  exact Verdict.bind (Attributes.verdict_read h _) fun _ _ => Verdict.pure' _

/-- Reading fails just as the numbers do, in any charset. -/
theorem fault?_read (hcs : cs.RefusesOctets) : fault? (e.read files cs r) = r.numberFault := by
  apply Verdict.orFallback
  · intro fault hfault
    obtain ⟨-, -, -, cause, -, -, -, -, rfl⟩ := Record.numberFault_eq_some hfault
    rfl
  · exact verdict_readStrict fun f _ fault h => hcs _ fault h
  · exact verdict_readStrict fun f _ fault h => TextField.decode_fallback_ne_error fault h

/-- An entry that was read was read in the charset if that decodes all texts, else in the
    fallback. -/
theorem readStrict_of_read (hcs : cs.RefusesOctets) (hfile : e.file = none)
    (h : e.read files cs r = .ok e') :
    r.DecodesIn cs ∧ e.readStrict files cs r = .ok e' ∨
      ¬ r.DecodesIn cs ∧ e.readStrict files .fallback r = .ok e' := by
  have hnumbers : r.numberFault = none := by
    rw [← fault?_read hcs, h]
    rfl
  rcases Charset.orFallback_eq_ok_iff.mp h with hstrict | ⟨⟨fault, hfault, -⟩, hback⟩
  · obtain ⟨a, ha, -⟩ := (readStrict_eq_ok_iff hfile).mp hstrict
    exact .inl ⟨(Attributes.textsFrom_of_read ha).2, hstrict⟩
  · refine .inr ⟨fun hdecodes => ?_, hback⟩
    -- If all texts decode nothing goes astray, and the numbers are right already.
    have hverdict : Verdict (fun _ => False) r.numberFault (e.readStrict files cs r) := by
      apply verdict_readStrict
      intro f hf fault' hfault'
      obtain ⟨t, ht⟩ := hdecodes f hf
      rw [ht] at hfault'
      cases hfault'
    have hfinal := hverdict.final
    rw [hfault, hnumbers] at hfinal
    cases hfinal

theorem withoutTexts_eq_of_readStrict (hfile : e.file = none)
    (h : e.readStrict files cs r = .ok e') (h' : e.readStrict files cs' r = .ok e'') :
    e'.withoutTexts = e''.withoutTexts := by
  obtain ⟨a, ha, rfl⟩ := (readStrict_eq_ok_iff hfile).mp h
  obtain ⟨a', ha', rfl⟩ := (readStrict_eq_ok_iff hfile).mp h'
  simp only [withoutTexts, Attributes.withoutTexts_eq_of_read ha ha']

theorem textsFrom_of_readStrict (hfile : e.file = none) (h : e.readStrict files cs r = .ok e') :
    TextsFrom cs r e'.toAttributes := by
  obtain ⟨a, ha, rfl⟩ := (readStrict_eq_ok_iff hfile).mp h
  exact (Attributes.textsFrom_of_read ha).1

/-- The numbers of a header decide alone whether it is read, and if not, with which fault. The charset
    decides the texts only, and all of them at once. -/
theorem read_acceptance (files : FileView) (hcs : cs.RefusesOctets) (hfile : e.file = none) :
    ((∃ e', e.read files cs r = .ok e') ↔ ∀ n ∈ r.numericFields, n.Holds r) ∧
      (∀ fault, e.read files cs r = .error fault → ∃ before n after cause,
        r.numericFields = before ++ n :: after ∧ (∀ m ∈ before, m.Holds r) ∧ ¬ n.Holds r ∧
          fault = .invalidField n.field.name cause) ∧
      (∀ cs', cs'.RefusesOctets → fault? (e.read files cs' r) = fault? (e.read files cs r)) ∧
      ∀ e', e.read files cs r = .ok e' →
        (r.DecodesIn cs ∧ TextsFrom cs r e'.toAttributes ∨
          ¬ r.DecodesIn cs ∧ TextsFrom .fallback r e'.toAttributes) ∧
        ∀ cs' e'', cs'.RefusesOctets → e.read files cs' r = .ok e'' →
          e''.withoutTexts = e'.withoutTexts := by
  refine ⟨?_, ?_, ?_, ?_⟩
  · rw [← fault?_eq_none_iff, fault?_read hcs, Record.numberFault_eq_none_iff]
  · intro fault hfault
    rw [← fault?_eq_some_iff, fault?_read hcs] at hfault
    obtain ⟨before, n, after, cause, hfields, hbefore, hn, -, rfl⟩ :=
      Record.numberFault_eq_some hfault
    exact ⟨before, n, after, cause, hfields, hbefore, hn, rfl⟩
  · intro cs' hcs'
    rw [fault?_read hcs, fault?_read hcs']
  · intro e' h
    have hcases := readStrict_of_read hcs hfile h
    constructor
    · rcases hcases with ⟨hdecodes, hstrict⟩ | ⟨hdecodes, hback⟩
      · exact .inl ⟨hdecodes, textsFrom_of_readStrict hfile hstrict⟩
      · exact .inr ⟨hdecodes, textsFrom_of_readStrict hfile hback⟩
    · intro cs' e'' hcs' h'
      rcases readStrict_of_read hcs' hfile h' with ⟨-, h'⟩ | ⟨-, h'⟩ <;>
        rcases hcases with ⟨-, h⟩ | ⟨-, h⟩ <;>
          exact withoutTexts_eq_of_readStrict hfile h' h

/-- A name that is no UTF-8 is read octet by octet. -/
theorem stray_octet_accepted :
    ∃ e', read .empty .utf8 (Record.zero.put Layout.name [0x61, 0xFF]) {} = .ok e' ∧
      TextsFrom .fallback (Record.zero.put Layout.name [0x61, 0xFF]) e'.toAttributes := by
  obtain ⟨haccept, -, -, htexts⟩ := read_acceptance (e := {})
    (r := Record.zero.put Layout.name [0x61, 0xFF]) .empty Charset.utf8_refusesOctets rfl
  have hnumbers : (Record.zero.put Layout.name [0x61, 0xFF]).numberFault = none := by decide +kernel
  obtain ⟨e', he'⟩ := haccept.mpr (Record.numberFault_eq_none_iff.mp hnumbers)
  refine ⟨e', he', ?_⟩
  rcases (htexts e' he').1 with ⟨hdecodes, -⟩ | ⟨-, hback⟩
  · obtain ⟨t, ht⟩ := hdecodes Layout.name List.mem_cons_self
    have hfault : fault? ((Record.zero.put Layout.name [0x61, 0xFF]).readText .utf8
        Layout.name) ≠ none := by decide +kernel
    rw [ht] at hfault
    exact absurd rfl hfault
  · exact hback

end Entry

end TarHeader
