import TarHeader.Proofs.Attributes.Written
import TarHeader.Proofs.NameSplit
import TarHeader.Proofs.Numeral.Writable

/- What can go wrong in writing attributes. The charset can fail at any of the texts, at a name that
   is to be split, and at the parts of a name that was split. Of the numbers only the two ids can
   fail, and those only in binary (`idFault`); all others have room for any word of their type. So
   whatever texts stand between them, writing ends as `idFault` says unless the charset fails first
   (`verdict_write`). -/
namespace TarHeader.Attributes

open Content (numberFault)

variable {cs : Charset} {extended : Bool} {a : Attributes} {stray : Fault → Prop}

/-- The texts that are written in the charset asked for. -/
def texts (a : Attributes) : List Text := [a.name, a.linkName, a.userName, a.groupName]

/-- The fault of the first id that its field has no room for. -/
def idFault (extended : Bool) (a : Attributes) : Option Fault :=
  if extended = true ∧ 2 ^ 56 ≤ a.userId.toNat then some (.valueOutOfRange a.userId.toNat 8)
  else if extended = true ∧ 2 ^ 56 ≤ a.groupId.toNat then
    some (.valueOutOfRange a.groupId.toNat 8)
  else none

theorem findSome?_shared (cs : Charset) (extended : Bool) (a : Attributes) :
    (a.shared cs).findSome? (numberFault extended) = a.idFault extended := by
  have hmode : numberFault extended (Layout.mode, .number (Word.toInt a.mode)) = none :=
    Numeral.fault?_write_uint32 _
  have hsize : numberFault extended (Layout.size, .number (Word.toInt a.size)) = none :=
    Numeral.fault?_write_uint64 _
  have htime : numberFault extended (Layout.modTime, .number (Word.toInt a.modTime)) = none :=
    Numeral.fault?_write_int64 _
  have hmajor : numberFault extended (Layout.devMajor, .number (Word.toInt a.devMajor)) = none :=
    Numeral.fault?_write_uint32 _
  have hminor : numberFault extended (Layout.devMinor, .number (Word.toInt a.devMinor)) = none :=
    Numeral.fault?_write_uint32 _
  have huser : numberFault extended (Layout.userId, .number (Word.toInt a.userId)) =
      if extended = true ∧ 2 ^ 56 ≤ a.userId.toNat then some (.valueOutOfRange a.userId.toNat 8)
      else none := Numeral.fault?_write_id _
  have hgroup : numberFault extended (Layout.groupId, .number (Word.toInt a.groupId)) =
      if extended = true ∧ 2 ^ 56 ≤ a.groupId.toNat then some (.valueOutOfRange a.groupId.toNat 8)
      else none := Numeral.fault?_write_id _
  simp only [shared, List.findSome?_cons, List.findSome?_nil, Content.numberFault_text,
    Content.numberFault_octet, hmode, hsize, htime, hmajor, hminor, huser, hgroup, idFault]
  by_cases hu : extended = true ∧ 2 ^ 56 ≤ a.userId.toNat
  · rw [if_pos hu, if_pos hu]
  · rw [if_neg hu, if_neg hu]
    by_cases hg : extended = true ∧ 2 ^ 56 ≤ a.groupId.toNat
    · rw [if_pos hg]
    · rw [if_neg hg]

theorem findSome?_tail {rest : List (Field × Content)} (h : TailOf cs a rest) :
    rest.findSome? (numberFault extended) = none := by
  cases h with
  | split | whole | legacy => rfl
  | oldGnu =>
    have hsize : numberFault extended
        (Layout.OldGnu.realSize, .number (Word.toInt a.realSize)) = none :=
      Numeral.fault?_write_uint64 _
    rw [List.findSome?_cons, List.findSome?_cons, hsize]
    rfl

theorem verdict_tail (hname : cs.StraysOn stray a.name) : Verdict stray none (a.tail cs) := by
  unfold tail
  split
  · apply Verdict.bind (NameSplit.verdict_find hname)
    intro found _
    cases found <;> exact Verdict.pure' _
  · exact Verdict.pure' _
  · exact Verdict.pure' _
  · exact Verdict.pure' _

/-- The parts of a split name are parts of the name. -/
theorem TailOf.straysOn {rest : List (Field × Content)} (h : TailOf cs a rest)
    (hname : cs.StraysOn stray a.name) {f : Field} {cs' : Charset} {t : Text}
    (hm : (f, .text cs' t) ∈ rest) : cs' = cs ∧ cs.StraysOn stray t := by
  cases h with
  | whole | legacy => cases hm
  | oldGnu => simp at hm
  | split before after _ _ hfind =>
    obtain ⟨hbefore, hafter⟩ := NameSplit.infix_of_find hfind
    simp only [List.mem_cons, Prod.mk.injEq, Content.text.injEq, List.not_mem_nil, or_false] at hm
    rcases hm with ⟨-, rfl, rfl⟩ | ⟨-, rfl, rfl⟩
    · exact ⟨rfl, hname.part hafter⟩
    · exact ⟨rfl, hname.part hbefore⟩

theorem shared_straysOn (h : ∀ t ∈ a.texts, cs.StraysOn stray t) {f : Field} {cs' : Charset}
    {t : Text} (hm : (f, .text cs' t) ∈ a.shared cs) :
    cs' = cs ∧ cs.StraysOn stray t ∨ cs' = .fallback := by
  simp only [texts, List.forall_mem_cons] at h
  obtain ⟨hname, hlink, huser, hgroup, -⟩ := h
  simp only [shared, List.mem_cons, Prod.mk.injEq, Content.text.injEq, reduceCtorEq, and_false,
    false_or, or_false, List.not_mem_nil] at hm
  rcases hm with ⟨-, rfl, rfl⟩ | ⟨-, rfl, rfl⟩ | ⟨-, rfl, -⟩ | ⟨-, rfl, -⟩ | ⟨-, rfl, rfl⟩ |
    ⟨-, rfl, rfl⟩
  · exact .inl ⟨rfl, hname⟩
  · exact .inl ⟨rfl, hlink⟩
  · exact .inr rfl
  · exact .inr rfl
  · exact .inl ⟨rfl, huser⟩
  · exact .inl ⟨rfl, hgroup⟩

/-- Writing ends as the ids decide, unless the charset fails first. -/
theorem verdict_write (hnil : cs.encode [] = .ok []) (h : ∀ t ∈ a.texts, cs.StraysOn stray t) :
    Verdict stray (a.idFault extended) (a.write cs extended) := by
  have hname : cs.StraysOn stray a.name := h _ List.mem_cons_self
  have hfirst : Verdict stray (a.idFault extended) (Content.encodeAll extended (a.shared cs)) := by
    rw [← findSome?_shared cs]
    apply Content.verdict_encodeAll
    intro f cs' t hm
    rcases shared_straysOn h hm with ⟨rfl, ht⟩ | rfl
    · exact ⟨hnil, ht⟩
    · exact ⟨Charset.encode_fallback_nil, Charset.fallback_straysOn stray t⟩
  have hor : (a.idFault extended).or none = a.idFault extended := Option.or_none
  rw [← hor, write]
  apply Verdict.bind hfirst
  intro first _
  apply Verdict.bind (verdict_tail hname)
  intro rest hrest
  have htailOf := tailOf_of_tail hrest
  have hlast : Verdict stray none (Content.encodeAll extended rest) := by
    rw [← findSome?_tail htailOf]
    apply Content.verdict_encodeAll
    intro f cs' t hm
    obtain ⟨rfl, ht⟩ := htailOf.straysOn hname hm
    exact ⟨hnil, ht⟩
  exact Verdict.bind hlast fun last _ => Verdict.pure' _

/-- In a faithful charset nothing but an id stands against writing texts that are encodable. -/
theorem exists_write_of_encodable (hcs : cs.Faithful) (h : ∀ t ∈ a.texts, cs.Encodable t)
    (hids : a.idFault extended = none) : ∃ r, a.write cs extended = .ok r := by
  have hverdict : Verdict (fun _ => False) (a.idFault extended) (a.write cs extended) :=
    verdict_write hcs.encode_nil fun t ht => hcs.straysOn (h t ht)
  rw [← fault?_eq_none_iff, hverdict.final, hids]

end TarHeader.Attributes
