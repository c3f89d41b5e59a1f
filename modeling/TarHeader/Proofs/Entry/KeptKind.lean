import TarHeader.Proofs.Entry.CopiedName
import TarHeader.Proofs.PathStyle

/- Whether an entry that was made for a name is still a directory, or still none, once it was
   written and read again. The type flag is kept, and what it marks as a directory stays one. Of
   other entries the name tells: it does not end in a slash, and no beginning of it does that is
   left where the name is cut, unless the first character without room stands right behind a slash.
   Then the copy is a directory (`isDirectory_kept_iff`). -/
namespace TarHeader

open Utf8 (width)

theorem endsInSlash_eq_true_iff {t : Text} :
    endsInSlash t = true ↔ ∃ before, t = before ++ ['/'] := by
  rw [endsInSlash, beq_iff_eq, List.getLast?_eq_some_iff]

namespace Utf8

theorem width_le_of_prefix {s t : Text} (h : s <+: t) : width s ≤ width t := by
  obtain ⟨rest, rfl⟩ := h
  rw [width_append]
  exact Nat.le_add_right _ _

end Utf8

/-- In UTF-8 the cut is found at the first character that does not fit any more. -/
theorem TextField.CutAt.eq_of_next {w n m : Nat} {t : Text} (h : CutAt .utf8 w t n)
    (hfits : width (t.take m) ≤ w) (hnext : w < width (t.take (m + 1))) : n = m := by
  have hm : m < t.length := by
    by_contra hlong
    rw [List.take_of_length_le (by omega)] at hfits hnext
    omega
  have hge : ¬ n < m :=
    fun hlt => h.longest m hlt hm.le (Charset.encodesWithin_utf8_iff.mpr hfits)
  have hle : ¬ m < n := by
    intro hlt
    have hcut : width (t.take n) ≤ w := Charset.encodesWithin_utf8_iff.mp h.fits
    have hmono : width (t.take (m + 1)) ≤ width (t.take n) :=
      Utf8.width_le_of_prefix (List.take_prefix_take_left (Nat.succ_le_of_lt hlt))
    omega
  omega

namespace NameSplit

/-- The part of a text up to a slash and some characters behind it. -/
theorem take_behind_slash (before after : Text) (k : Nat) :
    (before ++ '/' :: after).take (before.length + (k + 1)) = before ++ '/' :: after.take k := by
  rw [List.take_length_add_append, List.take_succ_cons]

/-- A name that cannot be split, and whose first character without room stands right behind a slash,
    though the whole name does not end in one. -/
def CutAfterSlash (name : Text) : Prop :=
  endsInSlash name = false ∧ ¬ HasRoom name ∧ ∃ split ∈ atSlashes name,
    width split.1 + 1 ≤ Layout.name.width ∧
      Layout.name.width < width split.1 + 1 + width (split.2.take 1)

instance (name : Text) : Decidable (HasRoom name) := by unfold HasRoom; infer_instance

instance (name : Text) : Decidable (CutAfterSlash name) := by unfold CutAfterSlash; infer_instance

theorem endsInSlash_take_iff {w n : Nat} {t : Text} (hcut : TextField.CutAt .utf8 w t n)
    (hlong : w < width t) : endsInSlash (t.take n) = true ↔ ∃ split ∈ atSlashes t,
      width split.1 + 1 ≤ w ∧ w < width split.1 + 1 + width (split.2.take 1) := by
  have hfits : width (t.take n) ≤ w := Charset.encodesWithin_utf8_iff.mp hcut.fits
  rw [endsInSlash_eq_true_iff]
  constructor
  · rintro ⟨before, hbefore⟩
    have hwhole : t = before ++ '/' :: t.drop n := by
      rw [← List.singleton_append, ← List.append_assoc, ← hbefore, List.take_append_drop]
    have hlt : n < t.length := by
      by_contra hge
      rw [List.take_of_length_le (by omega)] at hfits
      omega
    have hnext : ¬ width (t.take n ++ (t.drop n).take 1) ≤ w := by
      rw [← List.take_add, ← Charset.encodesWithin_utf8_iff]
      exact hcut.longest (n + 1) (Nat.lt_succ_self n) hlt
    rw [hbefore] at hfits hnext
    rw [Utf8.width_append, Utf8.width_append_slash] at hnext
    rw [Utf8.width_append_slash] at hfits
    exact ⟨(before, t.drop n), mem_atSlashes.mpr hwhole, hfits, Nat.lt_of_not_le hnext⟩
  · rintro ⟨⟨before, after⟩, hsplit, hslash, hnext⟩
    have hwhole : t = before ++ '/' :: after := mem_atSlashes.mp hsplit
    have hslashTake : t.take (before.length + 1) = before ++ ['/'] := by
      rw [hwhole, take_behind_slash before after 0, List.take_zero]
    have hnextTake : t.take (before.length + 1 + 1) = before ++ '/' :: after.take 1 := by
      rw [hwhole]
      exact take_behind_slash before after 1
    have hn : n = before.length + 1 := by
      apply hcut.eq_of_next
      · rw [hslashTake, Utf8.width_append_slash]
        exact hslash
      · rw [hnextTake, Utf8.width_append, Utf8.width_slash_cons]
        simp only at hnext
        omega
    exact ⟨before, hn ▸ hslashTake⟩

end NameSplit

namespace Attributes

variable {a : Attributes} {kept : Text}

/-- A name that is not a directory's becomes one by its cut alone. -/
theorem endsInSlash_kept_iff (hmagic : a.magic = Magic.posixText)
    (hversion : a.version = Magic.posixVersionText) (hends : endsInSlash a.name = false)
    (hkept : a.Keeps .utf8 kept) :
    endsInSlash kept = true ↔ NameSplit.CutAfterSlash a.name := by
  have hroom := nameFits_iff_hasRoom hmagic hversion
  rcases hkept with ⟨hfits, rfl⟩ | ⟨hfits, n, hcut, rfl⟩
  · rw [hends]
    exact iff_of_false Bool.false_ne_true fun hcut => hcut.2.1 (hroom.mp hfits)
  · have hlong : Layout.name.width < width a.name := by
      by_contra hshort
      exact hfits (.inl (Charset.encodesWithin_utf8_iff.mpr (Nat.le_of_not_lt hshort)))
    rw [NameSplit.endsInSlash_take_iff hcut hlong, NameSplit.CutAfterSlash, and_iff_right hends,
      and_iff_right (mt hroom.mpr hfits)]

/-- The slash that reading gives to the name of a directory changes no kind. -/
theorem describesDirectory_stored (extended : Bool) (hmagic : a.magic ≠ Magic.oldGnuText)
    (t : Text) : ((a.withName t).stored extended).describesDirectory =
      (a.hasFlag .directory || endsInSlash t) := by
  have hname : ((a.withName t).stored extended).name = (a.withName t).slashed := if_neg hmagic
  show (a.hasFlag .directory || endsInSlash ((a.withName t).stored extended).name) = _
  rw [hname]
  cases hflag : a.hasFlag .directory with
  | true => rfl
  | false => rw [slashed_withName_of_not_hasFlag hflag]

end Attributes

namespace Entry

variable {now : Instant} {name : Text} {keepLeading : Bool} {style : PathStyle}
  {e : Entry}

theorem hasFlag_directory_ofName (now : Instant) (name : Text) (keepLeading : Bool)
    (style : PathStyle) : (ofName now name keepLeading style).hasFlag .directory =
      endsInSlash (ofName now name keepLeading style).name := by
  simp only [ofName, Attributes.hasFlag]
  cases endsInSlash (style.normalize keepLeading name) <;> decide

/-- All that a new entry says has room in a header, but perhaps its name. -/
theorem storableButName_ofName (now : Instant) (name : Text) (keepLeading : Bool)
    (style : PathStyle) (extended : Bool) :
    (ofName now name keepLeading style).StorableButName .utf8 extended := by
  have hempty : ∀ w, Charset.utf8.EncodesWithin w [] := fun w => ⟨[], rfl, Nat.zero_le w⟩
  have htexts : ∀ t ∈ [([] : Text), [], []], NulFree t := by decide
  have hmagic : NulFree Magic.posixText ∧ Latin1 Magic.posixText ∧
      Magic.posixText.length ≤ Layout.magic.width := by decide
  have hversion : NulFree Magic.posixVersionText ∧ Latin1 Magic.posixVersionText ∧
      Magic.posixVersionText.length ≤ Layout.version.width := by decide
  intro t ht _ hfits
  exact {
    nulFree := List.forall_mem_cons.mpr ⟨ht, htexts⟩
    encodable := fun t _ => ⟨Utf8.encode t, Charset.encode_utf8 t⟩
    linkName := hempty _
    userName := hempty _
    groupName := hempty _
    magic := hmagic
    version := hversion
    name := hfits
    size := Nat.two_pow_pos 63
    realSize := Nat.two_pow_pos 63
    ids := fun _ => ⟨Nat.two_pow_pos 56, Nat.two_pow_pos 56⟩ }

/-- What is written for a name is read back with the same kind, also where the name is cut, unless
    the cut leaves a slash at the end of a name that had none. That makes a directory of it. -/
theorem isDirectory_kept_iff (files : FileView) (extended : Bool) (hname : NulFree name)
    (he : e = ofName now name keepLeading style) :
    ∃ r e', e.write .utf8 extended = .ok r ∧ ofRecord .utf8 r = .ok e' ∧
      e'.typeFlag = e.typeFlag ∧
        (e'.isDirectory files = e.isDirectory files ↔ ¬ NameSplit.CutAfterSlash e.name) ∧
        (NameSplit.CutAfterSlash e.name →
          e'.isDirectory files = true ∧ e.isDirectory files = false) := by
  have hnul : NulFree e.name := he ▸ PathStyle.nulFree_normalize style keepLeading hname
  have hstorable : e.StorableButName .utf8 extended :=
    he ▸ storableButName_ofName now name keepLeading style extended
  have hflag : e.hasFlag .directory = endsInSlash e.name :=
    he ▸ hasFlag_directory_ofName now name keepLeading style
  have hmagic : e.magic = Magic.posixText := he ▸ rfl
  have hversion : e.version = Magic.posixVersionText := he ▸ rfl
  have hfile : e.file = none := he ▸ rfl
  obtain ⟨kept, r, hkept, hwrite, hread⟩ :=
    hstorable.exists_kept Charset.utf8_faithful hnul ⟨_, Charset.encode_utf8 e.name⟩
  refine ⟨r, _, write_of_writeStrict hwrite, ofRecord_of_read hread, rfl, ?_⟩
  have hkind : e.isDirectory files = endsInSlash e.name := by
    rw [isDirectory, boundDirectory, hfile, Option.map_none, Option.getD_none,
      Attributes.describesDirectory, hflag, Bool.or_self]
  have hkeptKind := Attributes.describesDirectory_stored extended
    (Attributes.ne_oldGnu_of_posix hmagic) kept
  rw [hflag] at hkeptKind
  rw [hkind, isDirectory, boundDirectory, Option.map_none, Option.getD_none, hkeptKind]
  cases hends : endsInSlash e.name with
  | true =>
    have hwhole : ¬ NameSplit.CutAfterSlash e.name :=
      fun hcut => Bool.false_ne_true (hcut.1.symm.trans hends)
    exact ⟨iff_of_true rfl hwhole, fun hcut => absurd hcut hwhole⟩
  | false =>
    rw [Bool.false_or, ← Attributes.endsInSlash_kept_iff hmagic hversion hends hkept,
      Bool.not_eq_true]
    exact ⟨Iff.rfl, fun hkeptSlash => ⟨hkeptSlash, rfl⟩⟩

/-- A directory with a name so long that its slash is cut off. -/
def longDirectory : Entry := ofName (.ofSeconds 0) (List.replicate 120 'd' ++ ['/']) false .unix

/-- A regular file whose name has its only slash at the end of what fits the name field, and too
    much behind it for a split. -/
def slashCut : Entry :=
  ofName (.ofSeconds 0) (List.replicate 99 'a' ++ '/' :: List.replicate 101 'b') false .unix

theorem longDirectory_kept_slashCut_changed :
    (∃ r e', longDirectory.write .utf8 false = .ok r ∧ ofRecord .utf8 r = .ok e' ∧
      e'.isDirectory .empty = true) ∧
    ∃ r e', slashCut.write .utf8 false = .ok r ∧ ofRecord .utf8 r = .ok e' ∧
      e'.isDirectory .empty = true ∧ slashCut.isDirectory .empty = false := by
  have hdirectory : NulFree (List.replicate 120 'd' ++ ['/']) := by decide +kernel
  have hfile : NulFree (List.replicate 99 'a' ++ '/' :: List.replicate 101 'b') := by
    decide +kernel
  have hkept : ¬ NameSplit.CutAfterSlash longDirectory.name := by decide +kernel
  have hcut : NameSplit.CutAfterSlash slashCut.name := by decide +kernel
  obtain ⟨r, e', hr, he', -, hkind, -⟩ :=
    isDirectory_kept_iff .empty false hdirectory (rfl : longDirectory = _)
  obtain ⟨s, d', hs, hd', -, -, hchanged⟩ :=
    isDirectory_kept_iff .empty false hfile (rfl : slashCut = _)
  exact ⟨⟨r, e', hr, he', (hkind.mpr hkept).trans (by decide +kernel)⟩,
    s, d', hs, hd', hchanged hcut⟩

/-- The copy of the file is a directory, though of a regular file's type. -/
theorem slashCut_becomes_directory : slashCut.isDirectory .empty = false ∧
    ((slashCut.write .utf8 false).bind (ofRecord .utf8)).toOption.map
      (fun e => (e.typeFlag, e.isDirectory .empty)) = some (slashCut.typeFlag, true) := by
  constructor <;> decide +kernel

end Entry

end TarHeader
