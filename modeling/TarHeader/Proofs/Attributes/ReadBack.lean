import TarHeader.Attributes.Read
import TarHeader.Proofs.Attributes.Written
import TarHeader.Proofs.Numeral.Writable

/- What is read from the fields of a written header. A number reads back as what its field keeps of
   it, text that fits stands there with NUL after it (`HoldsText`) and reads back whole, an octet as
   itself. The format is told by the magic text: it is that of old GNU where the text is
   (`read_magic_eq_oldGnu_iff`), and never xstar, whose second magic is not written
   (`detect_ne_xstar`). -/
namespace TarHeader

namespace Record

/-- A field holds a text that has room in it: the octets of the text, and NUL after them. -/
def HoldsText (r : Record) (cs : Charset) (f : Field) (t : Text) : Prop :=
  ∃ bs, cs.encode t = .ok bs ∧ bs.length ≤ f.width ∧
    r.read f = bs ++ List.replicate (f.width - bs.length) 0

variable {cs : Charset} {r : Record} {f : Field} {t : Text}

theorem holdsText_of_encode {bs : Bytes} (hl : cs.EncodesWithin f.width t)
    (hbs : TextField.encode cs f.width t = .ok bs) (hread : r.read f = fit f.width bs) :
    r.HoldsText cs f t := by
  obtain ⟨bs', hbs', hl⟩ := hl
  have hsame : bs = bs' := Except.ok.inj (hbs.symm.trans (TextField.encode_of_length_le hbs' hl))
  rw [hsame, fit_of_length_le hl] at hread
  exact ⟨bs', hbs', hl, hread⟩

theorem HoldsText.readText (h : r.HoldsText cs f t) (hcs : cs.Faithful) (ht : NulFree t) :
    r.readText cs f = .ok t := by
  obtain ⟨bs, hbs, hl, hread⟩ := h
  rw [Record.readText, hread, ← fit_of_length_le hl]
  exact TextField.decode_fit hcs.truncatable ht hbs hl

end Record

namespace Attributes

open Numeral (keptWord Readable)

variable {cs : Charset} {extended : Bool} {a : Attributes} {rest : List (Field × Content)}
  {r : Record}

namespace Written

theorem readWord {α : Type} [Word α] [OfNat α 0] {f : Field} {v : α}
    (h : Written cs extended a rest r)
    (hm : (f, .number (Word.toInt v)) ∈ (a.shared cs).tail ++ rest)
    (hzero : Word.ofInt? 0 = some (0 : α)) (hw : 2 ≤ f.width)
    (hr : extended = true → Readable (Word.toInt v)) :
    r.readWord f = .ok (keptWord extended f.width v) := by
  obtain ⟨bs, hbs, hread⟩ := h.read_of_mem hm
  rw [fit_of_length_eq (Numeral.length_write (Nat.le_of_succ_le hw) hbs)] at hread
  rw [Record.readWord, hread]
  exact Numeral.readWord_write f.name hzero hw hr hbs

theorem holdsText {f : Field} {t : Text} (h : Written cs extended a rest r)
    (hm : (f, .text cs t) ∈ (a.shared cs).tail ++ rest) (hl : cs.EncodesWithin f.width t) :
    r.HoldsText cs f t := by
  obtain ⟨bs, hbs, hread⟩ := h.read_of_mem hm
  exact Record.holdsText_of_encode hl hbs hread

/-- The name field holds what the name was cut to. -/
theorem holdsName {n : Nat} (h : Written cs extended a rest r)
    (hrest : ∀ f ∈ rest.map Prod.fst, f.Apart Layout.name)
    (hcut : TextField.CutAt cs Layout.name.width a.name n)
    (hencode : TextField.encode cs Layout.name.width a.name = cs.encode (a.name.take n)) :
    r.HoldsText cs Layout.name (a.name.take n) := by
  obtain ⟨bs, hbs, hread⟩ := h.read_name hrest
  rw [hencode, ← hcut.encode_take] at hbs
  exact Record.holdsText_of_encode hcut.fits hbs hread

theorem readText {f : Field} {t : Text} (h : Written cs extended a rest r)
    (hm : (f, .text cs t) ∈ (a.shared cs).tail ++ rest) (hcs : cs.Faithful) (ht : NulFree t)
    (hl : cs.EncodesWithin f.width t) : r.readText cs f = .ok t :=
  (h.holdsText hm hl).readText hcs ht

theorem readName (h : Written cs extended a rest r)
    (hrest : ∀ f ∈ rest.map Prod.fst, f.Apart Layout.name) (hcs : cs.Faithful)
    (ht : NulFree a.name) (hl : cs.EncodesWithin Layout.name.width a.name) :
    r.readText cs Layout.name = .ok a.name := by
  obtain ⟨bs, hbs, hread⟩ := h.read_name hrest
  exact (Record.holdsText_of_encode hl hbs hread).readText hcs ht

/-- Without a tail the prefix is NUL. -/
theorem read_namePrefix (h : Written cs extended a [] r) :
    r.read Layout.Posix.namePrefix = List.replicate Layout.Posix.namePrefix.width 0 := by
  have hapart : ∀ g ∈ Layout.checksum :: Layout.name :: fieldsAfterName ++ [],
      g.Apart Layout.Posix.namePrefix := by decide
  exact h.read_of_apart hapart

theorem readText_fallback {f : Field} {t : Text} (h : Written cs extended a rest r)
    (hm : (f, .text .fallback t) ∈ (a.shared cs).tail ++ rest) (ht : NulFree t)
    (hlatin : Latin1 t) (hl : t.length ≤ f.width) : r.readText .fallback f = .ok t := by
  obtain ⟨bs, hbs, hread⟩ := h.read_of_mem hm
  have hfallback : Charset.fallback.encode t = .ok bs := by
    refine (TextField.encode_of_length_le rfl ?_).symm.trans hbs
    rwa [Charset.length_encode_fallback rfl]
  rw [Record.readText, hread]
  exact TextField.decode_fit_fallback ht hlatin hfallback hl

theorem readOctet {f : Field} {b : UInt8} (h : Written cs extended a rest r)
    (hm : (f, .octet b) ∈ (a.shared cs).tail ++ rest) (hw : f.width = 1) :
    r.readOctet f = b := by
  obtain ⟨bs, hbs, hread⟩ := h.read_of_mem hm
  cases hbs
  rw [Record.readOctet, hread, hw]
  rfl

end Written

/-- The numbers of the shared fields are read as what the fields keep of them. -/
structure KeepsNumbers (extended : Bool) (a : Attributes) (r : Record) : Prop where
  mode : r.readWord Layout.mode = .ok (keptWord extended Layout.mode.width a.mode)
  userId : r.readWord Layout.userId = .ok (keptWord extended Layout.userId.width a.userId)
  groupId : r.readWord Layout.groupId = .ok (keptWord extended Layout.groupId.width a.groupId)
  size : r.readWord Layout.size = .ok (keptWord extended Layout.size.width a.size)
  modTime : r.readWord Layout.modTime = .ok (keptWord extended Layout.modTime.width a.modTime)
  devMajor : r.readWord Layout.devMajor = .ok (keptWord extended Layout.devMajor.width a.devMajor)
  devMinor : r.readWord Layout.devMinor = .ok (keptWord extended Layout.devMinor.width a.devMinor)

/-- Only the size can be too large to be read; an id that large was not written. -/
theorem Written.keepsNumbers (h : Written cs extended a rest r)
    (hsize : extended = true → a.size.toNat < 2 ^ 63) : KeepsNumbers extended a r := by
  have hm : ∀ {x}, x ∈ (a.shared cs).tail → x ∈ (a.shared cs).tail ++ rest :=
    fun hx => List.mem_append_left rest hx
  have hid : ∀ {f : Field} {v : UInt64}, f.width = 8 →
      (f, .number (Word.toInt v)) ∈ (a.shared cs).tail ++ rest → extended = true →
      Readable (Word.toInt v) := by
    intro f v hw hmem hext
    obtain ⟨bs, hbs, -⟩ := h.read_of_mem hmem
    rw [hw, hext] at hbs
    exact Numeral.readable_of_write hbs
  have huser := hm (x := (Layout.userId, .number (Word.toInt a.userId))) (by simp [shared])
  have hgroup := hm (x := (Layout.groupId, .number (Word.toInt a.groupId))) (by simp [shared])
  exact {
    mode := h.readWord (hm (by simp [shared])) rfl (by decide)
      fun _ => Numeral.readable_uint32 a.mode
    userId := h.readWord huser rfl (by decide) (hid rfl huser)
    groupId := h.readWord hgroup rfl (by decide) (hid rfl hgroup)
    size := h.readWord (hm (by simp [shared])) rfl (by decide)
      fun hext => (Numeral.readable_uint64_iff a.size).mpr (hsize hext)
    modTime := h.readWord (hm (by simp [shared])) rfl (by decide)
      fun _ => Numeral.readable_int64 a.modTime
    devMajor := h.readWord (hm (by simp [shared])) rfl (by decide)
      fun _ => Numeral.readable_uint32 a.devMajor
    devMinor := h.readWord (hm (by simp [shared])) rfl (by decide)
      fun _ => Numeral.readable_uint32 a.devMinor }

/-! The format of a written header -/

theorem Written.read_magic (h : Written cs extended a rest r) :
    ∃ bs, TextField.encode .fallback Layout.magic.width a.magic = .ok bs ∧
      r.read Layout.magic = fit Layout.magic.width bs := by
  have hm : (Layout.magic, .text .fallback a.magic) ∈ (a.shared cs).tail ++ rest :=
    List.mem_append_left rest (by simp [shared])
  exact h.read_of_mem hm

theorem Written.read_magic_of_oldGnu (h : Written cs extended a rest r)
    (hgnu : a.magic = Magic.oldGnuText) : r.read Layout.magic = Magic.oldGnu := by
  obtain ⟨bs, hbs, hread⟩ := h.read_magic
  rw [hgnu] at hbs
  cases hbs
  exact hread

theorem Written.read_magic_of_posix (h : Written cs extended a rest r)
    (hposix : a.magic = Magic.posixText) : r.read Layout.magic = Magic.posix := by
  obtain ⟨bs, hbs, hread⟩ := h.read_magic
  rw [hposix] at hbs
  cases hbs
  exact hread

theorem Written.read_magic_eq_oldGnu_iff (h : Written cs extended a rest r)
    (ht : NulFree a.magic) (hlatin : Latin1 a.magic) (hl : a.magic.length ≤ Layout.magic.width) :
    r.read Layout.magic = Magic.oldGnu ↔ a.magic = Magic.oldGnuText := by
  refine ⟨fun hgnu => ?_, h.read_magic_of_oldGnu⟩
  have hm : (Layout.magic, .text .fallback a.magic) ∈ (a.shared cs).tail ++ rest :=
    List.mem_append_left rest (by simp [shared])
  have hread := h.readText_fallback hm ht hlatin hl
  have htext : TextField.decode .fallback Magic.oldGnu = .ok Magic.oldGnuText := rfl
  rw [Record.readText, hgnu, htext] at hread
  exact (Except.ok.inj hread).symm

theorem Written.detect_ne_xstar (h : Written cs extended a rest r) :
    Format.detect r ≠ .xstar := by
  have hapart : ∀ fs ∈ tailFields, ∀ g ∈ Layout.checksum :: Layout.name :: fieldsAfterName ++ fs,
      g.Apart Layout.Xstar.magic := by decide
  have hmagic : r.read Layout.Xstar.magic ≠ Magic.xstar := by
    rw [h.read_of_apart (hapart _ h.tailOf.fields_mem)]
    decide
  rw [Format.detect, if_neg hmagic]
  split
  · exact Format.noConfusion
  split <;> exact Format.noConfusion

end Attributes

end TarHeader
