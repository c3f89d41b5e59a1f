import Mathlib.Data.List.Basic
import TarHeader.Proofs.Attributes.ReadSpec
import TarHeader.Proofs.NameSplit

/- Which names a header of POSIX has room for, in UTF-8. A prefix and a name that fit their fields
   have room when they are joined again, but for two cases in which the joined name has no slash at
   the right place (`hasRoom_join_iff`): a prefix alone that is too long for the name field, and the
   name of a directory that leaves no room for its slash. -/
namespace TarHeader.NameSplit

open Utf8 (width)

variable {before name : Text}

theorem bothFit_utf8_iff : BothFit .utf8 (before, name) ↔
    width before ≤ Layout.Posix.namePrefix.width ∧ width name ≤ Layout.name.width :=
  and_congr Charset.encodesWithin_utf8_iff Charset.encodesWithin_utf8_iff

/-- A slash in front of the last one is one of the text before that. -/
theorem exists_of_append_slash {t : Text} (h : t ++ ['/'] = before ++ '/' :: name)
    (hname : name ≠ []) : ∃ rest, name = rest ++ ['/'] ∧ t = before ++ '/' :: rest := by
  rcases List.eq_nil_or_concat' name with rfl | ⟨rest, c, rfl⟩
  · exact absurd rfl hname
  · have hsplit : t ++ ['/'] = (before ++ '/' :: rest) ++ [c] := by
      rw [h, List.append_assoc]
      rfl
    obtain ⟨rfl, hc⟩ := List.append_inj' hsplit rfl
    exact ⟨rest, by rw [List.singleton_inj.mp hc], rfl⟩

theorem width_withSlash_le (t : Text) : width (withSlash t) ≤ width t + 1 := by
  unfold withSlash
  split
  · exact Nat.le_succ _
  · exact Nat.le_of_eq (Utf8.width_append_slash t)

/-- A header of POSIX has room for a name in UTF-8, whole or split. -/
def HasRoom (name : Text) : Prop :=
  width name ≤ Layout.name.width ∨ ∃ split ∈ candidates name, BothFit .utf8 split

theorem hasRoom_of_split (hbefore : width before ≤ Layout.Posix.namePrefix.width)
    (hname : width name ≤ Layout.name.width) (hbeforeNil : before ≠ []) (hnameNil : name ≠ []) :
    HasRoom (before ++ '/' :: name) :=
  .inr ⟨(before, name), mem_candidates.mpr ⟨rfl, hbeforeNil, hnameNil⟩,
    bothFit_utf8_iff.mpr ⟨hbefore, hname⟩⟩

/-- A prefix without a name that is too long for the name field, slash included, and cannot be split
    because too much of it stands behind each of its slashes. -/
def StrandedPrefix (before name : Text) : Prop :=
  name = [] ∧ Layout.name.width ≤ width before ∧
    ∀ split ∈ atSlashes before, split.1 ≠ [] → Layout.name.width ≤ width split.2

/-- The name of a directory that fills its field, so that there is no room for the slash that it is
    given, behind a prefix that cannot be extended to any slash in the name. -/
def StrandedDirectory (before name : Text) : Prop :=
  before ≠ [] ∧ width name = Layout.name.width ∧ endsInSlash name = false ∧
    ∀ split ∈ atSlashes name, Layout.Posix.namePrefix.width < width before + 1 + width split.1

instance (before name : Text) : Decidable (StrandedPrefix before name) := by
  unfold StrandedPrefix; infer_instance

instance (before name : Text) : Decidable (StrandedDirectory before name) := by
  unfold StrandedDirectory; infer_instance

theorem hasRoom_prefix_iff (hbefore : width before ≤ Layout.Posix.namePrefix.width) :
    HasRoom (before ++ ['/']) ↔ ¬ StrandedPrefix before [] := by
  have hwidth := Utf8.width_append_slash before
  constructor
  · rintro (hfits | ⟨⟨first, second⟩, hsplit, hfit⟩) ⟨-, hlong, hslashes⟩
    · omega
    · obtain ⟨hjoin, hfirst, hsecond⟩ := mem_candidates.mp hsplit
      obtain ⟨rest, rfl, hrest⟩ := exists_of_append_slash hjoin hsecond
      have hlate : Layout.name.width ≤ width rest :=
        hslashes (first, rest) (mem_atSlashes.mpr hrest) hfirst
      have hfit := (bothFit_utf8_iff.mp hfit).2
      rw [Utf8.width_append_slash] at hfit
      omega
  · intro hstranded
    by_contra hroom
    refine hstranded ⟨rfl, ?_, ?_⟩
    · by_contra hshort
      exact hroom (.inl (by omega))
    · rintro ⟨first, second⟩ hsplit hfirst
      by_contra hshort
      have hjoin : before = first ++ '/' :: second := mem_atSlashes.mp hsplit
      have hparts := Utf8.width_append first ('/' :: second)
      rw [← hjoin, Utf8.width_slash_cons] at hparts
      have hsecond := Utf8.width_append_slash second
      have hwhole : before ++ ['/'] = first ++ '/' :: (second ++ ['/']) := by
        rw [hjoin]
        simp
      apply hroom
      rw [hwhole]
      exact hasRoom_of_split (by omega) (by simp only at hshort; omega) hfirst (by simp)

/-- A slash later than a prefix and the slash after it is one of the name behind them. -/
theorem exists_of_late_slash {first second : Text}
    (h : before ++ '/' :: (name ++ ['/']) = first ++ '/' :: second) (hsecond : second ≠ [])
    (hlate : width before < width first) :
    ∃ inner rest, first = before ++ '/' :: inner ∧ name = inner ++ '/' :: rest := by
  rcases List.append_eq_append_iff.mp h with ⟨more, rfl, hmore⟩ | ⟨more, rfl, -⟩
  · cases more with
    | nil =>
      rw [List.append_nil] at hlate
      exact absurd hlate (Nat.lt_irrefl _)
    | cons c inner =>
      obtain ⟨rfl, hinner⟩ := List.cons.inj hmore
      obtain ⟨rest, -, hrest⟩ := exists_of_append_slash hinner hsecond
      exact ⟨inner, rest, rfl, hrest⟩
  · rw [Utf8.width_append] at hlate
    omega

/-- A prefix that is extended to a slash in the name leaves less of the name behind it. -/
theorem hasRoom_of_extended {inner rest : Text}
    (hinner : width before + 1 + width inner ≤ Layout.Posix.namePrefix.width)
    (hrest : width rest < Layout.name.width) :
    HasRoom (before ++ '/' :: ((inner ++ '/' :: rest) ++ ['/'])) := by
  have hfirst : width (before ++ '/' :: inner) = width before + 1 + width inner := by
    rw [Utf8.width_append, Utf8.width_slash_cons]
    omega
  have hsecond := Utf8.width_append_slash rest
  have hwhole : before ++ '/' :: ((inner ++ '/' :: rest) ++ ['/']) =
      (before ++ '/' :: inner) ++ '/' :: (rest ++ ['/']) := by
    simp
  rw [hwhole]
  exact hasRoom_of_split (by omega) (by omega) (by simp) (by simp)

theorem hasRoom_directory_iff (hbefore : width before ≤ Layout.Posix.namePrefix.width)
    (hname : width name ≤ Layout.name.width) (hbeforeNil : before ≠ [])
    (hslash : endsInSlash name = false) :
    HasRoom (before ++ '/' :: (name ++ ['/'])) ↔ ¬ StrandedDirectory before name := by
  have hlast := Utf8.width_append_slash name
  have hwidth : width (before ++ '/' :: (name ++ ['/'])) = width before + width name + 2 := by
    rw [Utf8.width_append, Utf8.width_slash_cons, hlast]
    omega
  constructor
  · rintro (hfits | ⟨⟨first, second⟩, hsplit, hfit⟩) ⟨-, hfull, -, hslashes⟩
    · omega
    · obtain ⟨hjoin, -, hsecond⟩ := mem_candidates.mp hsplit
      obtain ⟨hfirstFits, hsecondFits⟩ := bothFit_utf8_iff.mp hfit
      have hparts := Utf8.width_append first ('/' :: second)
      rw [← hjoin, Utf8.width_slash_cons, hwidth] at hparts
      -- The name and its slash do not fit, so the split is at a slash in the name.
      obtain ⟨inner, rest, rfl, hrest⟩ := exists_of_late_slash hjoin hsecond (by omega)
      have hlate : Layout.Posix.namePrefix.width < width before + 1 + width inner :=
        hslashes (inner, rest) (mem_atSlashes.mpr hrest)
      rw [Utf8.width_append, Utf8.width_slash_cons] at hfirstFits
      omega
  · intro hstranded
    by_contra hroom
    have hfull : width name = Layout.name.width := by
      by_contra hshort
      exact hroom (hasRoom_of_split hbefore (by omega) hbeforeNil (by simp))
    refine hstranded ⟨hbeforeNil, hfull, hslash, ?_⟩
    rintro ⟨inner, rest⟩ hsplit
    by_contra hearly
    have hjoin : name = inner ++ '/' :: rest := mem_atSlashes.mp hsplit
    have hparts := Utf8.width_append inner ('/' :: rest)
    rw [← hjoin, Utf8.width_slash_cons] at hparts
    apply hroom
    rw [hjoin]
    exact hasRoom_of_extended (Nat.le_of_not_lt hearly) (by omega)

/-- A name without room behind its prefix, of a directory or not. -/
def Stranded (isDirectory : Bool) (before name : Text) : Prop :=
  if isDirectory then StrandedDirectory before name else StrandedPrefix before name

instance (isDirectory : Bool) (before name : Text) :
    Decidable (Stranded isDirectory before name) := by
  unfold Stranded; infer_instance

/-- Without a prefix no name is stranded. -/
theorem not_stranded_nil (isDirectory : Bool) (name : Text) : ¬ Stranded isDirectory [] name := by
  cases isDirectory with
  | false =>
    rintro ⟨-, hlong, -⟩
    exact absurd hlong (by decide)
  | true => exact fun hstranded => hstranded.1 rfl

theorem hasRoom_join_iff (isDirectory : Bool)
    (hbefore : width before ≤ Layout.Posix.namePrefix.width)
    (hname : width name ≤ Layout.name.width) (hbeforeNil : before ≠ []) :
    HasRoom (before ++ '/' :: (if isDirectory then withSlash name else name)) ↔
      ¬ Stranded isDirectory before name := by
  have hsplit : name ≠ [] → HasRoom (before ++ '/' :: name) :=
    fun hnil => hasRoom_of_split hbefore hname hbeforeNil hnil
  cases isDirectory with
  | false =>
    rw [if_neg Bool.false_ne_true, Stranded, if_neg Bool.false_ne_true]
    by_cases hnil : name = []
    · rw [hnil]
      exact hasRoom_prefix_iff hbefore
    · exact iff_of_true (hsplit hnil) fun hstranded => hnil hstranded.1
  | true =>
    rw [if_pos rfl, Stranded, if_pos rfl]
    cases hslash : endsInSlash name with
    | true =>
      have hnil : name ≠ [] := by
        rintro rfl
        cases hslash
      rw [withSlash_of_endsInSlash hslash]
      refine iff_of_true (hsplit hnil) fun hstranded => ?_
      exact absurd (hslash.symm.trans hstranded.2.2.1) (by decide)
    | false =>
      rw [withSlash, hslash, if_neg Bool.false_ne_true]
      exact hasRoom_directory_iff hbefore hname hbeforeNil hslash

end TarHeader.NameSplit
