import TarHeader.Entry.Header
import TarHeader.Proofs.Attributes.WriteVerdict

/- Which entries can be written, and what the charset changes in their headers. Writing fails only in
   binary and only for an id beyond 56 bits, whatever the texts are. A header that is written is that
   of the charset asked for or, where that fails, that of the fallback charset, and headers of one
   entry in two charsets differ at most in the text fields and the checksum (`write_refusal`). -/
namespace TarHeader

namespace Attributes

variable {cs cs' : Charset} {extended : Bool} {a : Attributes} {r r' : Record} {i : Nat}

/-- The fields in which headers of the same attributes differ by charset. -/
def charsetFields (a : Attributes) : List Field :=
  [Layout.name, Layout.linkName, Layout.checksum, Layout.userName, Layout.groupName] ++
    if Format.ofMagic a.magic a.version = .posix then [Layout.Posix.namePrefix] else []

theorem shared_sameOutside (cs cs' : Charset) (a : Attributes) :
    Field.SameOutside a.charsetFields (a.shared cs) (a.shared cs') := by
  have hwithin : ∀ f ∈ [Layout.name, Layout.linkName, Layout.userName, Layout.groupName],
      f.Within a.charsetFields := by
    intro f hf
    apply Field.within_of_mem
    simp only [List.mem_cons, List.not_mem_nil, or_false] at hf
    rcases hf with rfl | rfl | rfl | rfl <;> simp [charsetFields]
  simp only [List.forall_mem_cons] at hwithin
  obtain ⟨hname, hlink, huser, hgroup, -⟩ := hwithin
  refine .field (.inr hname) <| .cons _ <| .cons _ <| .cons _ <| .cons _ <| .cons _ <| .cons _ ?_
  refine .field (.inr hlink) <| .cons _ <| .cons _ ?_
  exact .field (.inr huser) <| .field (.inr hgroup) <| .cons _ <| .cons _ .nil

/-- Only the tail of POSIX depends on the charset. -/
theorem tail_eq_of_ne_posix (h : Format.ofMagic a.magic a.version ≠ .posix) :
    a.tail cs = a.tail cs' := by
  unfold tail
  cases hformat : Format.ofMagic a.magic a.version with
  | posix => contradiction
  | oldGnu | xstar | legacy => rfl

/-- Tails of POSIX can differ in their fields too. Any other tail is the same in both charsets. -/
theorem tail_sameOutside {rest rest' : List (Field × Content)} (hrest : a.tail cs = .ok rest)
    (hrest' : a.tail cs' = .ok rest') : Field.SameOutside a.charsetFields rest rest' := by
  by_cases hposix : Format.ofMagic a.magic a.version = .posix
  · apply (tailOf_of_tail hrest).sameOutside_of_posix (tailOf_of_tail hrest') hposix hposix
    simp [charsetFields, hposix]
  · rw [tail_eq_of_ne_posix hposix, hrest'] at hrest
    cases hrest
    exact .refl _ _

/-- Headers of the same attributes in two charsets agree outside the text fields and the checksum. -/
theorem octet_write (h : a.write cs extended = .ok r) (h' : a.write cs' extended = .ok r')
    (hi : ∀ f ∈ a.charsetFields, ¬ f.Covers i) : r.octets[i]? = r'.octets[i]? := by
  have hsum : ¬ Layout.checksum.Covers i := hi _ (by simp [charsetFields])
  exact octet_write_of_sameOutside (shared_sameOutside cs cs' a)
    (fun _ _ => tail_sameOutside) h h' hsum hi

theorem idFault_false (a : Attributes) : a.idFault false = none := rfl

theorem idFault_true_eq_none_iff (a : Attributes) :
    a.idFault true = none ↔ a.userId.toNat < 2 ^ 56 ∧ a.groupId.toNat < 2 ^ 56 := by
  unfold idFault
  by_cases hu : 2 ^ 56 ≤ a.userId.toNat
  · rw [if_pos ⟨rfl, hu⟩]
    exact iff_of_false nofun fun h => absurd h.1 (Nat.not_lt.mpr hu)
  rw [if_neg fun h => hu h.2]
  by_cases hg : 2 ^ 56 ≤ a.groupId.toNat
  · rw [if_pos ⟨rfl, hg⟩]
    exact iff_of_false nofun fun h => absurd h.2 (Nat.not_lt.mpr hg)
  · rw [if_neg fun h => hg h.2]
    exact iff_of_true rfl ⟨Nat.lt_of_not_le hu, Nat.lt_of_not_le hg⟩

/-- The fault of writing is that of the first id that is too large. -/
theorem eq_of_idFault_eq_some {fault : Fault} (h : a.idFault true = some fault) :
    2 ^ 56 ≤ a.userId.toNat ∧ fault = .valueOutOfRange a.userId.toNat 8 ∨
      a.userId.toNat < 2 ^ 56 ∧ 2 ^ 56 ≤ a.groupId.toNat ∧
        fault = .valueOutOfRange a.groupId.toNat 8 := by
  unfold idFault at h
  split at h
  · next hu => exact .inl ⟨hu.2, (Option.some.inj h).symm⟩
  split at h
  · next hu hg =>
    have hu : a.userId.toNat < 2 ^ 56 := Nat.lt_of_not_le fun hle => hu ⟨rfl, hle⟩
    exact .inr ⟨hu, hg.2, (Option.some.inj h).symm⟩
  · contradiction

theorem isEncoding_of_idFault {fault : Fault} (h : a.idFault extended = some fault) :
    fault.isEncoding = false := by
  unfold idFault at h
  split at h
  · cases h
    rfl
  split at h <;> cases h
  rfl

end Attributes

namespace Entry

variable {cs cs' : Charset} {extended : Bool} {e : Entry} {r r' : Record}

/-- Writing fails just as the ids do, in any charset. -/
theorem fault?_write (hcs : cs.RefusesText) (hnil : cs.encode [] = .ok []) :
    fault? (e.write cs extended) = e.toAttributes.idFault extended := by
  apply Verdict.orFallback
  · exact fun fault => Attributes.isEncoding_of_idFault
  · exact Attributes.verdict_write hnil fun t _ => hcs.straysOn t
  · exact Attributes.verdict_write Charset.encode_fallback_nil
      fun t _ => Charset.fallback_straysOn _ t

theorem write_of_writeStrict (h : e.writeStrict cs extended = .ok r) :
    e.write cs extended = .ok r :=
  Charset.orFallback_eq_ok_iff.mpr (.inl h)

/-- A header that was written is one of the charset or, where that fails, of the fallback. -/
theorem writeStrict_of_write (h : e.write cs extended = .ok r) :
    e.writeStrict cs extended = .ok r ∨
      (∀ r', e.writeStrict cs extended ≠ .ok r') ∧ e.writeStrict .fallback extended = .ok r := by
  rcases Charset.orFallback_eq_ok_iff.mp h with hstrict | ⟨⟨fault, hfault, -⟩, hback⟩
  · exact .inl hstrict
  · refine .inr ⟨fun r' hr' => ?_, hback⟩
    rw [hfault] at hr'
    cases hr'

/-- The ids of an entry decide alone whether it is written, and if not, with which fault. The charset
    decides the texts only, and all of them at once. -/
theorem write_refusal (hcs : cs.RefusesText) (hnil : cs.encode [] = .ok []) :
    (∃ r, e.write cs false = .ok r) ∧
      ((∃ r, e.write cs true = .ok r) ↔ e.userId.toNat < 2 ^ 56 ∧ e.groupId.toNat < 2 ^ 56) ∧
      (∀ fault, e.write cs true = .error fault →
        2 ^ 56 ≤ e.userId.toNat ∧ fault = .valueOutOfRange e.userId.toNat 8 ∨
          e.userId.toNat < 2 ^ 56 ∧ 2 ^ 56 ≤ e.groupId.toNat ∧
            fault = .valueOutOfRange e.groupId.toNat 8) ∧
      ∀ extended r, e.write cs extended = .ok r →
        (e.writeStrict cs extended = .ok r ∨
          (∀ r', e.writeStrict cs extended ≠ .ok r') ∧
            e.writeStrict .fallback extended = .ok r) ∧
        ∀ cs' r', cs'.RefusesText → cs'.encode [] = .ok [] → e.write cs' extended = .ok r' →
          ∀ i : Nat, (∀ f ∈ e.toAttributes.charsetFields, ¬ f.Covers i) →
            r.octets[i]? = r'.octets[i]? := by
  refine ⟨?_, ?_, ?_, ?_⟩
  · rw [← fault?_eq_none_iff, fault?_write hcs hnil, Attributes.idFault_false]
  · rw [← fault?_eq_none_iff, fault?_write hcs hnil, Attributes.idFault_true_eq_none_iff]
  · intro fault hfault
    rw [← fault?_eq_some_iff, fault?_write hcs hnil] at hfault
    exact Attributes.eq_of_idFault_eq_some hfault
  · intro extended r h
    have hcases := writeStrict_of_write h
    refine ⟨hcases, ?_⟩
    intro cs' r' _ _ h' i hi
    rcases hcases with h | ⟨-, h⟩ <;>
      rcases writeStrict_of_write h' with h' | ⟨-, h'⟩ <;>
        exact Attributes.octet_write h h' hi

/-- A group id of 57 bits is left out of the header if it may be, and refused if not. -/
theorem large_groupId_refused :
    (∃ r, ({ groupId := 0x100000000000000 } : Entry).write .utf8 false = .ok r) ∧
      ¬ ∃ r, ({ groupId := 0x100000000000000 } : Entry).write .utf8 true = .ok r := by
  obtain ⟨hplain, hextended, -⟩ := write_refusal (e := { groupId := 0x100000000000000 })
    Charset.utf8_refusesText rfl
  refine ⟨hplain, ?_⟩
  rw [hextended]
  decide

end Entry

end TarHeader
