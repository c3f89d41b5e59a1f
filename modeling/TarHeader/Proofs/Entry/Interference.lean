import TarHeader.Proofs.Entry.Sealing
import TarHeader.Proofs.Format

/- What one attribute changes in a written header. Every attribute that is written has a field of
   its own, whatever the others are; the name has the prefix too, and the marks of the format decide
   how the name and all of the tail are written (`Attribute.fields`). Entries that differ in one
   attribute are written with the same contents outside its fields (`SameBut.shared`,
   `SameBut.tail`), so their headers are the same there, but for the checksum. What was in the place
   of a header has no part in it, and what no field takes of the tail is zero
   (`stored_agree_outside`). -/
namespace TarHeader

/-- The octets after the fields that all formats share. -/
def Layout.tailRegion : Field := { name := "tail", offset := 345, width := 167 }

namespace Attributes

variable {cs : Charset} {extended : Bool} {a : Attributes} {r : Record} {i : Nat}

/-- The fields that the tail of a header has, by the format that it is written in. -/
def tailLayout (a : Attributes) : List Field :=
  match Format.ofMagic a.magic a.version with
  | .posix => [Layout.Posix.namePrefix]
  | .oldGnu => [Layout.OldGnu.isExtended, Layout.OldGnu.realSize]
  | .xstar | .legacy => []

/-- A tail says the name once more and is otherwise made of its own fields. -/
theorem TailOf.mem_tailLayout {rest : List (Field × Content)} (h : TailOf cs a rest) :
    ∀ f ∈ rest.map Prod.fst, f = Layout.name ∨ f ∈ a.tailLayout := by
  cases h with
  | split before after hmagic hversion _ =>
    have hformat := Format.ofMagic_eq_posix_iff.mpr ⟨hmagic, hversion⟩
    simp [tailLayout, hformat]
  | oldGnu hmagic =>
    have hformat : Format.ofMagic a.magic a.version = .oldGnu :=
      Format.ofMagic_eq_oldGnu_iff.mpr hmagic
    simp [tailLayout, hformat]
  | whole | legacy => exact nofun

/-- The octets of the tail that are in none of its fields are zero. -/
theorem octet_write_tail (h : a.write cs extended = .ok r) (hi : Layout.tailRegion.Covers i)
    (htail : ∀ f ∈ a.tailLayout, ¬ f.Covers i) : r.octets[i]? = some 0 := by
  obtain ⟨first, rest, last, hfirst, hrest, hlast, rfl⟩ := write_eq_ok_iff.mp h
  have hapart : ∀ f ∈ Layout.checksum :: Layout.name :: fieldsAfterName,
      f.Apart Layout.tailRegion := by decide
  obtain ⟨hsum, hshared⟩ := List.forall_mem_cons.mp fun f hf => (hapart f hf).not_covers hi
  have hfields : ∀ x ∈ first ++ last, ¬ x.1.Covers i := by
    intro x hx
    rcases List.mem_append.mp hx with hx | hx
    · have hfield := List.mem_map_of_mem (f := Prod.fst) hx
      rw [Content.map_fst_of_forall₂ hfirst] at hfield
      exact hshared _ hfield
    · have hfield := List.mem_map_of_mem (f := Prod.fst) hx
      rw [Content.map_fst_of_forall₂ hlast] at hfield
      rcases (tailOf_of_tail hrest).mem_tailLayout _ hfield with hname | hfield
      · rw [hname]
        exact hshared _ List.mem_cons_self
      · exact htail _ hfield
  rw [Record.octet_seal_of_not_covers hsum, Record.octet_putAll_of_not_covers hfields]
  exact List.getElem?_replicate_of_lt hi.2

end Attributes

namespace Entry

/-- What an entry is made of. -/
inductive Attribute where
  | name
  | mode
  | userId
  | groupId
  | size
  | modTime
  | typeFlag
  | linkName
  | magic
  | version
  | userName
  | groupName
  | devMajor
  | devMinor
  | isExtended
  | realSize
  | keepLeading
  | pathStyle
  | checksumOk
  | paxSparse
  | starSparse
  | file
  deriving DecidableEq

namespace Attribute

/-- Whether two entries have the same value of an attribute. -/
def Same (e d : Entry) : Attribute → Prop
  | .name => e.name = d.name
  | .mode => e.mode = d.mode
  | .userId => e.userId = d.userId
  | .groupId => e.groupId = d.groupId
  | .size => e.size = d.size
  | .modTime => e.modTime = d.modTime
  | .typeFlag => e.typeFlag = d.typeFlag
  | .linkName => e.linkName = d.linkName
  | .magic => e.magic = d.magic
  | .version => e.version = d.version
  | .userName => e.userName = d.userName
  | .groupName => e.groupName = d.groupName
  | .devMajor => e.devMajor = d.devMajor
  | .devMinor => e.devMinor = d.devMinor
  | .isExtended => e.isExtended = d.isExtended
  | .realSize => e.realSize = d.realSize
  | .keepLeading => e.keepLeading = d.keepLeading
  | .pathStyle => e.pathStyle = d.pathStyle
  | .checksumOk => e.checksumOk = d.checksumOk
  | .paxSparse => e.paxSparse = d.paxSparse
  | .starSparse => e.starSparse = d.starSparse
  | .file => e.file = d.file

/-- Where an attribute of an entry is written. The marks of the format decide whether the name is
    split and which tail there is. -/
def fields (e : Entry) : Attribute → List Field
  | .name => Layout.name ::
      if e.magic = Magic.posixText ∧ e.version = Magic.posixVersionText then
        [Layout.Posix.namePrefix]
      else []
  | .mode => [Layout.mode]
  | .userId => [Layout.userId]
  | .groupId => [Layout.groupId]
  | .size => [Layout.size]
  | .modTime => [Layout.modTime]
  | .typeFlag => [Layout.typeFlag]
  | .linkName => [Layout.linkName]
  | .magic => [Layout.magic, Layout.name, Layout.tailRegion]
  | .version => [Layout.version, Layout.name, Layout.tailRegion]
  | .userName => [Layout.userName]
  | .groupName => [Layout.groupName]
  | .devMajor => [Layout.devMajor]
  | .devMinor => [Layout.devMinor]
  | .isExtended => if e.magic = Magic.oldGnuText then [Layout.OldGnu.isExtended] else []
  | .realSize => if e.magic = Magic.oldGnuText then [Layout.OldGnu.realSize] else []
  | .keepLeading | .pathStyle | .checksumOk | .paxSparse | .starSparse | .file => []

end Attribute

variable {cs : Charset} {extended : Bool} {e d : Entry} {k : Attribute}

/-- An entry has no other attributes. -/
theorem eq_iff_same : e = d ↔ ∀ k : Attribute, k.Same e d := by
  constructor
  · intro h k
    subst h
    cases k <;> rfl
  · intro h
    cases e with | mk a => cases a with | mk => cases d with | mk b => cases b with | mk =>
      simp only [mk.injEq, Attributes.mk.injEq]
      exact ⟨⟨h .name, h .mode, h .userId, h .groupId, h .size, h .modTime, h .typeFlag,
        h .linkName, h .magic, h .version, h .userName, h .groupName, h .devMajor, h .devMinor,
        h .isExtended, h .realSize⟩, h .keepLeading, h .pathStyle, h .checksumOk, h .paxSparse,
        h .starSparse, h .file⟩

/-- Two entries that differ in no attribute but one, if at all. -/
def SameBut (k : Attribute) (e d : Entry) : Prop := ∀ k' ≠ k, k'.Same e d

/-- What is written of an attribute is the same, or stands where the other one may differ. -/
theorem SameBut.content {f : Field} {c c' : Content} (h : SameBut k e d) (k' : Attribute)
    (hsame : k'.Same e d → c = c') (hf : f ∈ k'.fields e) : c = c' ∨ f.Within (k.fields e) := by
  by_cases hk : k' = k
  · exact .inr (Field.within_of_mem (hk ▸ hf))
  · exact .inl (hsame (h k' hk))

theorem SameBut.shared (h : SameBut k e d) :
    Field.SameOutside (k.fields e) (e.toAttributes.shared cs) (d.toAttributes.shared cs) := by
  have htext : ∀ {cs : Charset} {t t' : Text}, t = t' → Content.text cs t = .text cs t' :=
    fun ht => congrArg (Content.text _) ht
  have hnumber : ∀ {α : Type} [Word α] {v v' : α}, v = v' →
      Content.number (Word.toInt v) = .number (Word.toInt v') :=
    fun hv => congrArg (fun v => Content.number (Word.toInt v)) hv
  refine .field (h.content .name htext List.mem_cons_self) ?_
  refine .field (h.content .mode hnumber List.mem_cons_self) ?_
  refine .field (h.content .userId hnumber List.mem_cons_self) ?_
  refine .field (h.content .groupId hnumber List.mem_cons_self) ?_
  refine .field (h.content .size hnumber List.mem_cons_self) ?_
  refine .field (h.content .modTime hnumber List.mem_cons_self) ?_
  refine .field (h.content .typeFlag (congrArg Content.octet) List.mem_cons_self) ?_
  refine .field (h.content .linkName htext List.mem_cons_self) ?_
  refine .field (h.content .magic htext List.mem_cons_self) ?_
  refine .field (h.content .version htext List.mem_cons_self) ?_
  refine .field (h.content .userName htext List.mem_cons_self) ?_
  refine .field (h.content .groupName htext List.mem_cons_self) ?_
  refine .field (h.content .devMajor hnumber List.mem_cons_self) ?_
  exact .field (h.content .devMinor hnumber List.mem_cons_self) .nil

/-- Every tail lies within what the marks of the format decide. -/
theorem within_of_tail {rest : List (Field × Content)} (hrest : e.toAttributes.tail cs = .ok rest)
    (hk : k = .magic ∨ k = .version) : ∀ x ∈ rest, x.1.Within (k.fields d) := by
  intro x hx
  have hmem := (Attributes.tailOf_of_tail hrest).fields_mem
  have hfield : x.1 ∈ rest.map Prod.fst := List.mem_map_of_mem hx
  have hwithin : ∀ fs ∈ Attributes.tailFields, ∀ f ∈ fs,
      f.Within [Layout.name, Layout.tailRegion] := by decide
  obtain ⟨g, hg, hfits⟩ := hwithin _ hmem _ hfield
  refine ⟨g, ?_, hfits⟩
  rcases hk with hk | hk <;> exact hk ▸ List.mem_cons_of_mem _ hg

/-- Tails of one format differ where they say the attribute that the entries differ in, and tails of
    two formats within the fields of the marks. -/
theorem SameBut.tail {rest rest' : List (Field × Content)} (h : SameBut k e d)
    (hrest : e.toAttributes.tail cs = .ok rest) (hrest' : d.toAttributes.tail cs = .ok rest') :
    Field.SameOutside (k.fields e) rest rest' := by
  by_cases hmarks : k = .magic ∨ k = .version
  · exact .of_within (within_of_tail hrest hmarks) (within_of_tail hrest' hmarks)
  have hmagic : e.magic = d.magic := h .magic fun hk => hmarks (.inl hk.symm)
  have hversion : e.version = d.version := h .version fun hk => hmarks (.inr hk.symm)
  -- Both tails are of one format, whose fields are those of the name or of the sparse file.
  cases hformat : Format.ofMagic e.magic e.version with
  | posix =>
    have hformat' : Format.ofMagic d.magic d.version = .posix := hmagic ▸ hversion ▸ hformat
    by_cases hname : k = .name
    · apply (Attributes.tailOf_of_tail hrest).sameOutside_of_posix
        (Attributes.tailOf_of_tail hrest') hformat hformat'
      rw [hname, Attribute.fields, if_pos (Format.ofMagic_eq_posix_iff.mp hformat)]
      exact fun f hf => hf
    · have hsame : e.name = d.name := h .name fun hk => hname hk.symm
      rw [Attributes.tail, hformat] at hrest
      rw [Attributes.tail, hformat', ← hsame, hrest] at hrest'
      cases hrest'
      exact .refl _ _
  | oldGnu =>
    have hgnu : e.magic = Magic.oldGnuText := Format.ofMagic_eq_oldGnu_iff.mp hformat
    rw [Attributes.tail, hformat] at hrest
    rw [Attributes.tail, ← hmagic, ← hversion, hformat] at hrest'
    cases hrest
    cases hrest'
    refine .field (h.content .isExtended ?_ ?_) (.field (h.content .realSize ?_ ?_) .nil)
    · exact fun hflag => congrArg (fun flag => Content.octet (if flag then 1 else 0)) hflag
    · simp [Attribute.fields, hgnu]
    · exact fun hsize => congrArg (fun n => Content.number (Word.toInt n)) hsize
    · simp [Attribute.fields, hgnu]
  | xstar | legacy =>
    rw [Attributes.tail, hformat] at hrest
    rw [Attributes.tail, ← hmagic, ← hversion, hformat] at hrest'
    cases hrest
    cases hrest'
    exact .nil

/-- Headers of entries that differ in one attribute agree outside the checksum and the fields of that
    attribute, and are the same if it has none. -/
theorem stored_agree_outside {r r₀ s s₀ : Record} (h : SameBut k e d)
    (hr : e.storeStrict cs extended r₀ = .ok () r) (hs : d.storeStrict cs extended s₀ = .ok () s) :
    (∀ i : Nat, (∀ f ∈ Layout.checksum :: k.fields e, ¬ f.Covers i) →
        r.octets[i]? = s.octets[i]?) ∧
      (k.fields e = [] → r = s) ∧
      ∀ i : Nat, Layout.tailRegion.Covers i → (∀ f ∈ e.toAttributes.tailLayout, ¬ f.Covers i) →
        r.octets[i]? = some 0 := by
  have hr := storeStrict_eq_ok_iff.mp hr
  have hs := storeStrict_eq_ok_iff.mp hs
  have htail : ∀ rest rest', e.toAttributes.tail cs = .ok rest →
      d.toAttributes.tail cs = .ok rest' → Field.SameOutside (k.fields e) rest rest' :=
    fun rest rest' => h.tail
  refine ⟨?_, ?_, ?_⟩
  · intro i hi
    obtain ⟨hsum, hi⟩ := List.forall_mem_cons.mp hi
    exact Attributes.octet_write_of_sameOutside h.shared htail hr hs hsum hi
  · intro hnone
    obtain ⟨fields, fields', hsame, hr, hs⟩ :=
      Attributes.exists_sameOutside_of_write h.shared htail hr hs
    rw [hnone] at hsame
    rw [hr, hs, hsame.eq_of_nil]
  · exact fun i => Attributes.octet_write_tail hr

/-- A block with other octets where the tail is to stand. -/
def litteredBlock : Record := Record.zero.put Layout.tailRegion (List.replicate 167 0xFF)

/-- A user name that is too long for its field leaves the group name behind it as it is. -/
theorem longUserName_apart : ∃ r s,
    ({ userName := List.replicate 40 'u' } : Entry).storeStrict .utf8 true litteredBlock =
      .ok () r ∧
    ({} : Entry).storeStrict .utf8 true Record.zero = .ok () s ∧
      r.octets[297]? = s.octets[297]? ∧ r.octets[511]? = some 0 := by
  have hsame : SameBut .userName { userName := List.replicate 40 'u' } {} := by
    intro k hk
    cases k with
    | userName => exact absurd rfl hk
    | _ => rfl
  have hlong : fault? (({ userName := List.replicate 40 'u' } : Entry).writeStrict .utf8 true) =
      none := by decide +kernel
  have hempty : fault? (({} : Entry).writeStrict .utf8 true) = none := by decide +kernel
  obtain ⟨r, hr⟩ := fault?_eq_none_iff.mp hlong
  obtain ⟨s, hs⟩ := fault?_eq_none_iff.mp hempty
  have hstored : ({ userName := List.replicate 40 'u' } : Entry).storeStrict .utf8 true
      litteredBlock = .ok () r := storeStrict_eq_ok_iff.mpr hr
  have hstored' : ({} : Entry).storeStrict .utf8 true Record.zero = .ok () s :=
    storeStrict_eq_ok_iff.mpr hs
  obtain ⟨hagree, -, hzero⟩ := stored_agree_outside hsame hstored hstored'
  exact ⟨r, s, hstored, hstored', hagree 297 (by decide), hzero 511 (by decide) (by decide)⟩

end Entry

end TarHeader
