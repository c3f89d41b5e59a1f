import TarHeader.Proofs.Entry.SelfReadable

/- Headers that are read, written again in binary where octal has no room, and read once more. The
   sizes and times that can be read can also be written. An id cannot if it has more than 56 bits,
   which only the binary form can hold: reading it takes seven bits of its first octet, writing it
   leaves them empty. A header that is written again has lost none of its numbers
   (`numbers_kept_of_ofRecord`). -/
namespace TarHeader

namespace Attributes

variable {cs : Charset} {a b : Attributes} {rest : List (Field × Content)} {r : Record}

/-- Two headers hold the same numbers. -/
structure SameNumbers (a b : Attributes) : Prop where
  mode : a.mode = b.mode
  userId : a.userId = b.userId
  groupId : a.groupId = b.groupId
  size : a.size = b.size
  modTime : a.modTime = b.modTime
  devMajor : a.devMajor = b.devMajor
  devMinor : a.devMinor = b.devMinor

theorem NumbersOf.same (h : NumbersOf r a) (h' : NumbersOf r b) : SameNumbers a b :=
  ⟨Except.ok.inj (h.mode.symm.trans h'.mode),
    Except.ok.inj (h.userId.symm.trans h'.userId),
    Except.ok.inj (h.groupId.symm.trans h'.groupId),
    Except.ok.inj (h.size.symm.trans h'.size),
    Except.ok.inj (h.modTime.symm.trans h'.modTime),
    Except.ok.inj (h.devMajor.symm.trans h'.devMajor),
    Except.ok.inj (h.devMinor.symm.trans h'.devMinor)⟩

/-- In binary every number is kept as it is. -/
theorem Written.numbersOf (h : Written cs true a rest r) (hsize : a.size.toNat < 2 ^ 63) :
    NumbersOf r a :=
  let ⟨mode, userId, groupId, size, modTime, devMajor, devMinor⟩ := h.keepsNumbers fun _ => hsize
  ⟨mode, userId, groupId, size, modTime, devMajor, devMinor⟩

/-- An id in octal text fits its field in binary as well. -/
theorem toNat_lt_of_octal {f : Field} {id : UInt64} (hf : f.width = 8)
    (hoctal : Numeral.isBinary (r.readOctet f) = false) (h : r.readWord f = .ok id) :
    id.toNat < 2 ^ 56 := by
  have hlt := Numeral.lt_count_of_readWord hoctal h
  have hcount : Positional.count 8 8 = 2 ^ 24 := by decide
  rw [Record.length_read, hf, hcount] at hlt
  simp only [Word.toInt] at hlt
  omega

end Attributes

namespace Entry

open Attributes (SameNumbers)

variable {cs : Charset} {r r' : Record} {e : Entry}

theorem numbersOf_of_ofRecord (h : ofRecord cs r = .ok e) :
    Attributes.NumbersOf r e.toAttributes :=
  let ⟨_, ha⟩ := exists_read_of_read h
  Attributes.numbersOf_of_read ha

/-- A header that was read and written again can be read again. -/
theorem exists_ofRecord_of_rewrite (hcs : cs.RefusesOctets) (h : ofRecord cs r = .ok e)
    (hw : e.write cs true = .ok r') : ∃ e', ofRecord cs r' = .ok e' := by
  obtain ⟨cs', ha⟩ := exists_read_of_read h
  rw [(sizeReadable_read h).exists_ofRecord_iff hcs hw]
  exact fun hunreadable => absurd (Attributes.realSize_lt_of_read ha)
    (Nat.not_lt.mpr hunreadable.2.2)

/-- What was read from a header can be written again, with all numbers the same, unless an id has
    more than 56 bits; then the first such id is reported. Ids in octal text never have as many. -/
theorem numbers_kept_of_ofRecord (htext : cs.RefusesText) (hoctets : cs.RefusesOctets)
    (hnil : cs.encode [] = .ok []) (h : ofRecord cs r = .ok e) :
    ((∃ r', e.write cs true = .ok r') ↔ e.userId.toNat < 2 ^ 56 ∧ e.groupId.toNat < 2 ^ 56) ∧
      (∀ fault, e.write cs true = .error fault →
        2 ^ 56 ≤ e.userId.toNat ∧ fault = .valueOutOfRange e.userId.toNat 8 ∨
          e.userId.toNat < 2 ^ 56 ∧ 2 ^ 56 ≤ e.groupId.toNat ∧
            fault = .valueOutOfRange e.groupId.toNat 8) ∧
      (Numeral.isBinary (r.readOctet Layout.userId) = false → e.userId.toNat < 2 ^ 56) ∧
      (Numeral.isBinary (r.readOctet Layout.groupId) = false → e.groupId.toNat < 2 ^ 56) ∧
      ∀ r', e.write cs true = .ok r' →
        ∃ e', ofRecord cs r' = .ok e' ∧ SameNumbers e'.toAttributes e.toAttributes := by
  have hnumbers := numbersOf_of_ofRecord h
  refine ⟨?_, ?_, ?_, ?_, ?_⟩
  · rw [← fault?_eq_none_iff, fault?_write htext hnil, Attributes.idFault_true_eq_none_iff]
  · intro fault hfault
    rw [← fault?_eq_some_iff, fault?_write htext hnil] at hfault
    exact Attributes.eq_of_idFault_eq_some hfault
  · exact fun hoctal => Attributes.toNat_lt_of_octal rfl hoctal hnumbers.userId
  · exact fun hoctal => Attributes.toNat_lt_of_octal rfl hoctal hnumbers.groupId
  · intro r' hw
    obtain ⟨e', he'⟩ := exists_ofRecord_of_rewrite hoctets h hw
    obtain ⟨_, _, hwritten⟩ := exists_written hw
    have hkept := hwritten.numbersOf (sizeReadable_read h)
    exact ⟨e', he', (numbersOf_of_ofRecord he').same hkept⟩

/-- A header of the last second before 1970, of a user with an id in octal. -/
def beforeEpoch : Record :=
  (Record.zero.put Layout.modTime (List.replicate 12 0xFF)).put Layout.userId (Octal.encode 8 1000)

theorem beforeEpoch_kept : ∃ e r' e', ofRecord .utf8 beforeEpoch = .ok e ∧
    e.write .utf8 true = .ok r' ∧ ofRecord .utf8 r' = .ok e' ∧
      SameNumbers e'.toAttributes e.toAttributes := by
  obtain ⟨e, he⟩ : ∃ e, ofRecord .utf8 beforeEpoch = .ok e :=
    fault?_eq_none_iff.mp (by decide +kernel)
  obtain ⟨hwritable, -, huser, hgroup, hkept⟩ := numbers_kept_of_ofRecord
    Charset.utf8_refusesText Charset.utf8_refusesOctets rfl he
  obtain ⟨r', hr'⟩ := hwritable.mpr ⟨huser (by decide +kernel), hgroup (by decide +kernel)⟩
  obtain ⟨e', he', hsame⟩ := hkept r' hr'
  exact ⟨e, r', e', he, hr', he', hsame⟩

/-- A header with the smallest user id of 57 bits. -/
def wideUser : Record := Record.zero.put Layout.userId [0x81]

/-- The id takes a bit of the first octet, which writing leaves empty. -/
theorem wideUser_read_not_written : (ofRecord .utf8 wideUser).toOption.map
    (fun e => (e.userId, fault? (e.write .utf8 true))) =
      some (0x100000000000000, some (.valueOutOfRange 0x100000000000000 8)) := by
  decide +kernel

end Entry

end TarHeader
