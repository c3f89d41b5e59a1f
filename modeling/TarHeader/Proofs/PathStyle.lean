import TarHeader.PathStyle
import TarHeader.Proofs.Charset.Laws

/- The form of names that were turned from a platform's form into that of archives
   (`normalized_normalize`). All that turning can add to a name are slashes. -/
namespace TarHeader.PathStyle

variable {style : PathStyle} {keepLeading : Bool} {t : Text} {c : Char}

/-- A name as entries are given it: without slashes in front unless they are kept, and without
    backslashes where these separate. -/
structure Normalized (style : PathStyle) (keepLeading : Bool) (t : Text) : Prop where
  head : keepLeading = false → t.head? ≠ some '/'
  separated : style ≠ .unix → '\\' ∉ t

theorem dropDrive_suffix (t : Text) : dropDrive t <:+ t := by
  unfold dropDrive
  split
  · next letter c rest =>
    split
    · exact ⟨[letter, ':'], rfl⟩
    · exact List.suffix_refl _
  · exact List.suffix_refl _

theorem dropVolume_suffix (t : Text) : dropVolume t <:+ t := by
  unfold dropVolume
  cases hrest : t.dropWhile (· != ':') with
  | nil => exact List.suffix_refl t
  | cons colon rest =>
    have hsuffix : colon :: rest <:+ t := hrest ▸ List.dropWhile_suffix _
    exact (List.suffix_cons colon rest).trans hsuffix

theorem dropDevice_suffix (style : PathStyle) (t : Text) : style.dropDevice t <:+ t := by
  cases style with
  | unix => exact List.suffix_refl t
  | windows => exact dropDrive_suffix t
  | netWare => exact dropVolume_suffix t

theorem toSlash_ne_backslash (h : style ≠ .unix) (c : Char) : style.toSlash c ≠ '\\' := by
  have hseparator : style.separator = '\\' := by
    cases style with
    | unix => exact absurd rfl h
    | windows | netWare => rfl
  unfold toSlash
  split
  · decide
  · next hc => exact hseparator ▸ hc

theorem mem_map_of_mem_normalize (h : c ∈ style.normalize keepLeading t) :
    c ∈ (style.dropDevice t).map style.toSlash := by
  cases keepLeading with
  | false => exact (List.dropWhile_sublist _).mem h
  | true => exact h

theorem eq_or_mem_of_mem_normalize (h : c ∈ style.normalize keepLeading t) : c = '/' ∨ c ∈ t := by
  obtain ⟨d, hd, rfl⟩ := List.mem_map.mp (mem_map_of_mem_normalize h)
  unfold toSlash
  split
  · exact .inl rfl
  · exact .inr ((dropDevice_suffix style t).subset hd)

theorem nulFree_normalize (style : PathStyle) (keepLeading : Bool) (h : NulFree t) :
    NulFree (style.normalize keepLeading t) := by
  intro c hc
  rcases eq_or_mem_of_mem_normalize hc with rfl | hc
  · decide
  · exact h c hc

theorem normalized_normalize (style : PathStyle) (keepLeading : Bool) (t : Text) :
    Normalized style keepLeading (style.normalize keepLeading t) where
  head := by
    rintro rfl hhead
    have hslash := List.head?_dropWhile_not (· == '/') ((style.dropDevice t).map style.toSlash)
    simp only [normalize, Bool.false_eq_true, if_false] at hhead
    rw [hhead] at hslash
    exact absurd hslash (by decide)
  separated := by
    intro hstyle hmem
    obtain ⟨c, -, hc⟩ := List.mem_map.mp (mem_map_of_mem_normalize hmem)
    exact toSlash_ne_backslash hstyle c hc

end TarHeader.PathStyle
