import TarHeader.Proofs.Entry.CutName
import TarHeader.Proofs.Entry.Refusal
import TarHeader.Proofs.Entry.Sealing

/- How a header of POSIX stores a name. One that is too long for the name field is split at the
   leftmost slash at which both parts fit, if there is any; every other name is cut to its longest
   beginning that fits, under a prefix of NUL (`StoresName`). The name is written before its split is
   looked for, so a split writes the name field twice; and yet NUL stands after what each field holds,
   whatever was written before it or stood in the record (`storesName_of_store`). -/
namespace TarHeader

/-- What the name field and the prefix field hold of a name. -/
inductive StoresName (cs : Charset) (name : Text) (r : Record) : Prop where
  | split (before after : Text) (hlong : ¬ cs.EncodesWithin Layout.name.width name)
      (hsplit : NameSplit.SplitsFirst cs name before after)
      (hbefore : r.HoldsText cs Layout.Posix.namePrefix before)
      (hafter : r.HoldsText cs Layout.name after)
  | cut (n : Nat)
      (hunsplit : cs.EncodesWithin Layout.name.width name ∨
        ∀ before after, ¬ NameSplit.Splits cs name before after)
      (hcut : TextField.CutAt cs Layout.name.width name n)
      (hbefore : r.read Layout.Posix.namePrefix =
        List.replicate Layout.Posix.namePrefix.width 0)
      (hname : r.HoldsText cs Layout.name (name.take n))

/-- What is read from the two fields and joined is what a header keeps of the name. -/
theorem StoresName.exists_keeps {cs : Charset} {a : Attributes} {r : Record}
    (h : StoresName cs a.name r) (hcs : cs.Faithful) (hnul : NulFree a.name)
    (hmagic : a.magic = Magic.posixText) (hversion : a.version = Magic.posixVersionText) :
    ∃ before name, r.readText cs Layout.Posix.namePrefix = .ok before ∧
      r.readText cs Layout.name = .ok name ∧ a.Keeps cs (joinName before name) := by
  cases h with
  | split before after hlong hsplit hbefore hafter =>
    obtain ⟨hmem, hfit⟩ := NameSplit.splits_iff.mp hsplit.toSplits
    obtain ⟨hbeforePart, hafterPart⟩ := NameSplit.infix_of_mem_candidates hmem
    have hbeforeNul : NulFree before := fun c hc => hnul c (hbeforePart.subset hc)
    have hafterNul : NulFree after := fun c hc => hnul c (hafterPart.subset hc)
    refine ⟨before, after, hbefore.readText hcs hbeforeNul, hafter.readText hcs hafterNul, ?_⟩
    have hjoin : joinName before after = a.name := by
      rw [joinName, if_neg hsplit.before_ne_nil, hsplit.join]
    exact .inl ⟨.inr ⟨hmagic, hversion, _, hmem, hfit⟩, hjoin⟩
  | cut n hunsplit hcut hbefore hname =>
    have hempty : r.readText cs Layout.Posix.namePrefix = .ok [] := by
      rw [Record.readText, hbefore]
      exact TextField.decode_replicate_zero (hcs.decode_encode hcs.encode_nil)
    have hcutNul : NulFree (a.name.take n) := fun c hc => hnul c (List.mem_of_mem_take hc)
    refine ⟨[], a.name.take n, hempty, hname.readText hcs hcutNul, ?_⟩
    rw [joinName_nil]
    -- The cut takes nothing from a name with room, and a name without it has no split.
    by_cases hl : cs.EncodesWithin Layout.name.width a.name
    · exact .inl ⟨.inl hl, hcut.take_eq hl⟩
    · have hnone := hunsplit.resolve_left hl
      have hroom : ¬ a.NameFits cs := by
        intro hfits
        obtain ⟨-, -, ⟨before, after⟩, hmem, hfit⟩ := hfits.resolve_left hl
        exact hnone before after (NameSplit.splits_iff.mpr ⟨hmem, hfit⟩)
      exact .inr ⟨hroom, n, hcut, rfl⟩

namespace Attributes

variable {cs : Charset} {extended : Bool} {a : Attributes} {rest : List (Field × Content)}
  {r : Record}

/-- Also in a charset that is not faithful, if only it has octets for all parts of the name. -/
theorem Written.storesName (h : Written cs extended a rest r) (hnil : cs.encode [] = .ok [])
    (hname : cs.EncodesParts a.name) (hmagic : a.magic = Magic.posixText)
    (hversion : a.version = Magic.posixVersionText) : StoresName cs a.name r := by
  -- A tail of POSIX says what the search for a split has found; the other tails are ruled out.
  cases htail : h.tailOf with
  | split before after _ _ hfind =>
    obtain ⟨hlong, hsplit⟩ := (NameSplit.find_eq_some_iff hname).mp hfind
    exact .split before after hlong hsplit
      (h.holdsText (List.mem_append_right _ (by simp)) hsplit.bothFit.1)
      (h.holdsText (List.mem_append_right _ (by simp)) hsplit.bothFit.2)
  | whole _ _ hfind =>
    obtain ⟨n, hcut, hencode⟩ := TextField.exists_cutAt (w := Layout.name.width) hnil
      fun s hs => hname s hs.isInfix
    exact .cut n ((NameSplit.find_eq_none_iff hname).mp hfind) hcut h.read_namePrefix
      (h.holdsName (by simp) hcut hencode)
  | oldGnu hgnu => exact absurd hgnu (ne_oldGnu_of_posix hmagic)
  | legacy _ hother => exact absurd ⟨hmagic, hversion⟩ hother

end Attributes

namespace Entry

variable {cs : Charset} {e : Entry}

/-- The name of an entry of POSIX is split over its two fields if it has to be and can be, at the
    leftmost slash at which that is possible, and is cut if it has to be and cannot be split. -/
theorem storesName_of_store (hcs : cs.Faithful) (hmagic : e.magic = Magic.posixText)
    (hversion : e.version = Magic.posixVersionText) (hnul : NulFree e.name)
    (hname : cs.Encodable e.name) (extended : Bool) (r₀ : Record) :
    ((∀ t ∈ e.texts, cs.Encodable t) → e.idFault extended = none →
      ∃ r, e.storeStrict cs extended r₀ = .ok () r ∧ e.store cs extended r₀ = .ok () r) ∧
    (∀ r, e.storeStrict cs extended r₀ = .ok () r → StoresName cs e.name r ∧
      ∃ before name, r.readText cs Layout.Posix.namePrefix = .ok before ∧
        r.readText cs Layout.name = .ok name ∧ e.Keeps cs (joinName before name)) ∧
    ∀ r, e.store cs extended r₀ = .ok () r → e.storeStrict cs extended r₀ = .ok () r ∨
      (∀ r', e.storeStrict cs extended r₀ ≠ .ok () r') ∧ StoresName .fallback e.name r := by
  refine ⟨?_, ?_, ?_⟩
  · intro htexts hids
    obtain ⟨r, hr⟩ := Attributes.exists_write_of_encodable hcs htexts hids
    exact ⟨r, storeStrict_eq_ok_iff.mpr hr, store_eq_ok_iff.mpr (write_of_writeStrict hr)⟩
  · intro r hr
    obtain ⟨rest, hw⟩ := Attributes.exists_written (storeStrict_eq_ok_iff.mp hr)
    have hstores := hw.storesName hcs.encode_nil (hcs.encodesParts hname) hmagic hversion
    exact ⟨hstores, hstores.exists_keeps hcs hnul hmagic hversion⟩
  · intro r hr
    rcases writeStrict_of_write (store_eq_ok_iff.mp hr) with hstrict | ⟨hfails, hback⟩
    · exact .inl (storeStrict_eq_ok_iff.mpr hstrict)
    · obtain ⟨rest, hw⟩ := Attributes.exists_written hback
      have hstores := hw.storesName Charset.encode_fallback_nil
        (Charset.fallback_encodesParts e.name) hmagic hversion
      exact .inr ⟨fun r' hr' => hfails r' (storeStrict_eq_ok_iff.mp hr'), hstores⟩

/-- A rooted name with three slashes, of which only the later two allow a split. -/
def rootedName : Text :=
  '/' :: List.replicate 40 'é' ++ '/' :: List.replicate 30 'ö' ++ '/' :: List.replicate 20 'n'

/-- The leftmost of the two is taken, and nothing is left of what the record held before. -/
theorem rootedName_stored : ∃ r,
    ({ name := rootedName } : Entry).storeStrict .utf8 true
      (Record.zero.put Layout.name (List.replicate 100 0x78)) = .ok () r ∧
    r.HoldsText .utf8 Layout.Posix.namePrefix ('/' :: List.replicate 40 'é') ∧
    r.HoldsText .utf8 Layout.name (List.replicate 30 'ö' ++ '/' :: List.replicate 20 'n') := by
  obtain ⟨hok, hstores, -⟩ := storesName_of_store (e := { name := rootedName })
    Charset.utf8_faithful rfl rfl (by decide +kernel) ⟨_, Charset.encode_utf8 _⟩ true
    (Record.zero.put Layout.name (List.replicate 100 0x78))
  obtain ⟨r, hr, -⟩ := hok (fun t _ => ⟨_, Charset.encode_utf8 t⟩) (by decide)
  have hparts : Charset.utf8.EncodesParts rootedName := fun s _ => ⟨_, Charset.encode_utf8 s⟩
  have hfind : NameSplit.find .utf8 rootedName = .ok (some ('/' :: List.replicate 40 'é',
      List.replicate 30 'ö' ++ '/' :: List.replicate 20 'n')) := by decide +kernel
  refine ⟨r, hr, ?_⟩
  cases (hstores r hr).1 with
  | split before after hlong hsplit hbefore hafter =>
    have hfound := (NameSplit.find_eq_some_iff hparts).mpr ⟨hlong, hsplit⟩
    rw [hfind] at hfound
    cases hfound
    exact ⟨hbefore, hafter⟩
  | cut n hunsplit hcut hbefore hname =>
    have hnone := (NameSplit.find_eq_none_iff hparts).mpr hunsplit
    rw [hfind] at hnone
    cases hnone

end Entry

end TarHeader
