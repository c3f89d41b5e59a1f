import TarHeader.Format
import TarHeader.Proofs.Attributes.Contents
import TarHeader.Proofs.Checksum.Seal

/- What stands in the fields of a written header. Only the name is ever written twice, when a tail
   splits it; all other fields lie apart from each other and from the checksum, whatever tail the
   header has. So every field reads as the last content given to it, and the rest of the record is
   NUL. `Written` gathers this, and `exists_written` says that it holds of every header that is
   written. -/
namespace TarHeader.Attributes

variable {cs : Charset} {extended : Bool} {a : Attributes} {r : Record}

/-- The shared fields after the name. -/
def fieldsAfterName : List Field :=
  [Layout.mode, Layout.userId, Layout.groupId, Layout.size, Layout.modTime, Layout.typeFlag,
    Layout.linkName, Layout.magic, Layout.version, Layout.userName, Layout.groupName,
    Layout.devMajor, Layout.devMinor]

/-- The fields of each tail that is written. -/
def tailFields : List (List Field) :=
  [[], [Layout.name, Layout.Posix.namePrefix], [Layout.OldGnu.isExtended, Layout.OldGnu.realSize]]

theorem fields_apart : ∀ fs ∈ tailFields,
    (fieldsAfterName ++ fs).Pairwise fun f g => g.Apart f := by decide

theorem checksum_apart : ∀ fs ∈ tailFields, ∀ f ∈ fieldsAfterName ++ fs,
    Layout.checksum.Apart f := by decide

/-- What the tail of a header says, by the format that magic and version stand for. -/
inductive TailOf (cs : Charset) (a : Attributes) : List (Field × Content) → Prop where
  | split (before after : Text) (hmagic : a.magic = Magic.posixText)
      (hversion : a.version = Magic.posixVersionText)
      (hfind : NameSplit.find cs a.name = .ok (some (before, after))) :
      TailOf cs a [(Layout.name, .text cs after), (Layout.Posix.namePrefix, .text cs before)]
  | whole (hmagic : a.magic = Magic.posixText) (hversion : a.version = Magic.posixVersionText)
      (hfind : NameSplit.find cs a.name = .ok none) : TailOf cs a []
  | oldGnu (hmagic : a.magic = Magic.oldGnuText) :
      TailOf cs a [(Layout.OldGnu.isExtended, .octet (if a.isExtended then 1 else 0)),
        (Layout.OldGnu.realSize, .number (Word.toInt a.realSize))]
  | legacy (hmagic : a.magic ≠ Magic.oldGnuText)
      (hversion : ¬ (a.magic = Magic.posixText ∧ a.version = Magic.posixVersionText)) :
      TailOf cs a []

theorem tailOf_of_tail {rest : List (Field × Content)} (h : a.tail cs = .ok rest) :
    TailOf cs a rest := by
  unfold tail at h
  by_cases hgnu : a.magic = Magic.oldGnuText
  · rw [Format.ofMagic, if_pos hgnu] at h
    cases h
    exact .oldGnu hgnu
  by_cases hposix : a.magic = Magic.posixText ∧ a.version = Magic.posixVersionText
  · rw [Format.ofMagic, if_neg hgnu, if_pos hposix] at h
    obtain ⟨found, hfind, h⟩ := Fault.bind_eq_ok.mp h
    cases found with
    | none =>
      cases h
      exact .whole hposix.1 hposix.2 hfind
    | some split =>
      cases h
      exact .split split.1 split.2 hposix.1 hposix.2 hfind
  · rw [Format.ofMagic, if_neg hgnu, if_neg hposix] at h
    cases h
    exact .legacy hgnu hposix

theorem TailOf.fields_mem {rest : List (Field × Content)} (h : TailOf cs a rest) :
    rest.map Prod.fst ∈ tailFields := by
  cases h with
  | split => exact List.mem_cons_of_mem _ List.mem_cons_self
  | oldGnu => exact List.mem_cons_of_mem _ (List.mem_cons_of_mem _ List.mem_cons_self)
  | whole | legacy => exact List.mem_cons_self

theorem TailOf.fields_of_posix {rest : List (Field × Content)} (h : TailOf cs a rest)
    (hposix : Format.ofMagic a.magic a.version = .posix) :
    ∀ f ∈ rest.map Prod.fst, f ∈ [Layout.name, Layout.Posix.namePrefix] := by
  cases h with
  | split => exact fun f hf => hf
  | whole | legacy => exact nofun
  | oldGnu hmagic =>
    rw [Format.ofMagic, if_pos hmagic] at hposix
    contradiction

/-- Tails of POSIX differ at most in the name and its prefix. -/
theorem TailOf.sameOutside_of_posix {cs' : Charset} {b : Attributes} {fs : List Field}
    {rest rest' : List (Field × Content)} (h : TailOf cs a rest) (h' : TailOf cs' b rest')
    (hposix : Format.ofMagic a.magic a.version = .posix)
    (hposix' : Format.ofMagic b.magic b.version = .posix)
    (hfs : ∀ f ∈ [Layout.name, Layout.Posix.namePrefix], f ∈ fs) :
    Field.SameOutside fs rest rest' := by
  have hwithin : ∀ {cs a rest}, TailOf cs a rest → Format.ofMagic a.magic a.version = .posix →
      ∀ x ∈ rest, x.1.Within fs := by
    intro cs a rest h hposix x hx
    apply Field.within_of_mem
    apply hfs
    exact h.fields_of_posix hposix _ (List.mem_map_of_mem hx)
  exact .of_within (hwithin h hposix) (hwithin h' hposix')

theorem ne_oldGnu_of_posix (h : a.magic = Magic.posixText) : a.magic ≠ Magic.oldGnuText := by
  rw [h]
  decide

/-- A header with the tail `rest`, field by field. -/
structure Written (cs : Charset) (extended : Bool) (a : Attributes) (rest : List (Field × Content))
    (r : Record) : Prop where
  tailOf : TailOf cs a rest
  read_name : (∀ f ∈ rest.map Prod.fst, f.Apart Layout.name) →
    ∃ bs, TextField.encode cs Layout.name.width a.name = .ok bs ∧
      r.read Layout.name = fit Layout.name.width bs
  read_of_mem : ∀ {f content}, (f, content) ∈ (a.shared cs).tail ++ rest →
    ∃ bs, content.encode extended f.width = .ok bs ∧ r.read f = fit f.width bs
  read_of_apart : ∀ {f}, (∀ g ∈ Layout.checksum :: Layout.name :: fieldsAfterName ++
    rest.map Prod.fst, g.Apart f) → r.read f = List.replicate f.width 0
  verify : Checksum.verify r.octets = true

/-- Writing encodes the shared fields, then those of the tail, and seals what they give. -/
theorem write_eq_ok_iff : a.write cs extended = .ok r ↔ ∃ first rest last,
    List.Forall₂ (Content.Encodes extended) (a.shared cs) first ∧ a.tail cs = .ok rest ∧
      List.Forall₂ (Content.Encodes extended) rest last ∧
      r = (Record.zero.putAll (first ++ last)).seal := by
  simp only [write, Fault.bind_eq_ok, Content.encodeAll_eq_ok_iff]
  constructor
  · rintro ⟨first, hfirst, rest, hrest, last, hlast, h⟩
    exact ⟨first, rest, last, hfirst, hrest, hlast, (Fault.pure_eq_ok.mp h).symm⟩
  · rintro ⟨first, rest, last, hfirst, hrest, hlast, rfl⟩
    exact ⟨first, hfirst, rest, hrest, last, hlast, rfl⟩

/-- Headers whose contents are the same outside some fields are sealed records of the same. -/
theorem exists_sameOutside_of_write {cs' : Charset} {b : Attributes} {r' : Record} {fs : List Field}
    (hshared : Field.SameOutside fs (a.shared cs) (b.shared cs'))
    (htail : ∀ rest rest', a.tail cs = .ok rest → b.tail cs' = .ok rest' →
      Field.SameOutside fs rest rest')
    (h : a.write cs extended = .ok r) (h' : b.write cs' extended = .ok r') :
    ∃ fields fields', Field.SameOutside fs fields fields' ∧
      r = (Record.zero.putAll fields).seal ∧ r' = (Record.zero.putAll fields').seal := by
  obtain ⟨first, rest, last, hfirst, hrest, hlast, rfl⟩ := write_eq_ok_iff.mp h
  obtain ⟨first', rest', last', hfirst', hrest', hlast', rfl⟩ := write_eq_ok_iff.mp h'
  have hsame : Field.SameOutside fs first first' :=
    Content.sameOutside_of_encodes hshared hfirst hfirst'
  have hsame' : Field.SameOutside fs last last' :=
    Content.sameOutside_of_encodes (htail rest rest' hrest hrest') hlast hlast'
  exact ⟨_, _, hsame.append hsame', rfl, rfl⟩

/-- Such headers agree outside these fields and the checksum. -/
theorem octet_write_of_sameOutside {cs' : Charset} {b : Attributes} {r' : Record}
    {fs : List Field} {i : Nat} (hshared : Field.SameOutside fs (a.shared cs) (b.shared cs'))
    (htail : ∀ rest rest', a.tail cs = .ok rest → b.tail cs' = .ok rest' →
      Field.SameOutside fs rest rest')
    (h : a.write cs extended = .ok r) (h' : b.write cs' extended = .ok r')
    (hsum : ¬ Layout.checksum.Covers i) (hi : ∀ f ∈ fs, ¬ f.Covers i) :
    r.octets[i]? = r'.octets[i]? := by
  obtain ⟨fields, fields', hsame, rfl, rfl⟩ := exists_sameOutside_of_write hshared htail h h'
  rw [Record.octet_seal_of_not_covers hsum, Record.octet_seal_of_not_covers hsum]
  exact Record.octet_putAll_congr hsame hi rfl

theorem exists_written (h : a.write cs extended = .ok r) :
    ∃ rest, Written cs extended a rest r := by
  obtain ⟨first, rest, last, hfirst, htail, hlast, rfl⟩ := write_eq_ok_iff.mp h
  have hfields : List.Forall₂ (Content.Encodes extended) (a.shared cs ++ rest) (first ++ last) :=
    List.rel_append hfirst hlast
  have htailOf := tailOf_of_tail htail
  have hmem := htailOf.fields_mem
  -- The name field stands in front; after it no field is written twice.
  obtain ⟨⟨f, bs⟩, later, ⟨hf, hbs⟩, hlater, hcons⟩ := List.forall₂_cons_left_iff.mp hfields
  rw [hcons]
  have hf : Layout.name = f := hf
  subst hf
  have hmap : later.map Prod.fst = fieldsAfterName ++ rest.map Prod.fst :=
    (Content.map_fst_of_forall₂ hlater).trans List.map_append
  have hfield : ∀ x ∈ later, x.1 ∈ fieldsAfterName ++ rest.map Prod.fst :=
    fun x hx => hmap ▸ List.mem_map_of_mem hx
  have hsum : ∀ x ∈ later, Layout.checksum.Apart x.1 :=
    fun x hx => checksum_apart _ hmem _ (hfield x hx)
  have hpairwise : later.Pairwise fun x y => y.1.Apart x.1 := by
    have := fields_apart _ hmem
    rw [← hmap, List.pairwise_map] at this
    exact this
  refine ⟨rest, htailOf, ?_, ?_, ?_, (Record.sealed_seal _).verify⟩
  · intro hapart
    refine ⟨bs, hbs, ?_⟩
    rw [Record.putAll_cons, Record.read_seal_putAll_of_apart (by decide)]
    · exact Record.read_put_self _ _ _
    intro x hx
    rcases List.mem_append.mp (hfield x hx) with hx | hx
    · exact (by decide : ∀ g ∈ fieldsAfterName, g.Apart Layout.name) _ hx
    · exact hapart _ hx
  · intro f content hm
    obtain ⟨bs', hbs', hm'⟩ := Content.exists_mem_of_forall₂ hlater hm
    refine ⟨bs', hbs', ?_⟩
    rw [Record.putAll_cons]
    exact Record.read_seal_putAll_of_mem hsum hpairwise hm' _
  · -- What is apart from every field is still as it was in the record of zeros.
    intro f hapart
    simp only [List.cons_append, List.forall_mem_cons] at hapart
    obtain ⟨hsumApart, hname, hrest⟩ := hapart
    rw [Record.read_seal_putAll_of_apart hsumApart, Record.read_zero]
    exact List.forall_mem_cons.mpr ⟨hname, fun x hx => hrest x.1 (hfield x hx)⟩

end TarHeader.Attributes
