import TarHeader.Entry.Kind
import TarHeader.Proofs.PathStyle.Device

/- What kind of entry is made for a name. The slash or separator at the end of a platform's name
   marks a directory, and is still there when the name is normalized, unless it is one of the
   slashes in front that are not kept. So a name with nothing but separators behind the device,
   though it is that of a directory, makes a regular file without a name (`ofName_inference`). -/
namespace TarHeader

namespace PathStyle

variable {style : PathStyle} {keepLeading : Bool} {t : Text} {c : Char}

/-- A name that the platform has for a directory: its last character is a slash or separator. -/
def NamesDirectory (style : PathStyle) (t : Text) : Prop :=
  ∃ c, t.getLast? = some c ∧ (c = '/' ∨ c = style.separator)

/-- A name of which nothing is left: behind the device are only slashes and separators, and those
    in front are not kept. -/
def Vanishes (style : PathStyle) (keepLeading : Bool) (t : Text) : Prop :=
  keepLeading = false ∧ ∀ c ∈ style.dropDevice t, c = '/' ∨ c = style.separator

theorem toSlash_eq_slash_iff : style.toSlash c = '/' ↔ c = '/' ∨ c = style.separator := by
  unfold toSlash
  split
  · next hc => exact iff_of_true rfl (.inr hc)
  · next hc => exact (or_iff_left hc).symm

theorem normalize_eq_nil_iff : style.normalize keepLeading t = [] ↔
    style.dropDevice t = [] ∨ style.Vanishes keepLeading t := by
  unfold Vanishes
  cases keepLeading with
  | true =>
    show (style.dropDevice t).map style.toSlash = [] ↔ _
    simp
  | false =>
    show ((style.dropDevice t).map style.toSlash).dropWhile (· == '/') = [] ↔ _
    simp only [List.dropWhile_eq_nil_iff, List.forall_mem_map, beq_iff_eq, toSlash_eq_slash_iff,
      true_and]
    refine (or_iff_right_of_imp ?_).symm
    intro hnil
    rw [hnil]
    exact List.forall_mem_nil _

/-- The slash at the end of a name is behind the device. -/
theorem dropDevice_ne_nil (h : style.NamesDirectory t) : style.dropDevice t ≠ [] := by
  intro hnil
  obtain ⟨c, hlast, hc⟩ := h
  obtain ⟨device, ht, hdevice⟩ := device_dropDevice style t
  rw [hnil, List.append_nil] at ht
  subst ht
  rcases hdevice.eq_nil_or_concat with rfl | ⟨before, rfl⟩
  · cases hlast
  · rw [List.getLast?_concat] at hlast
    cases hlast
    cases style <;> exact absurd hc (by decide)

/-- What is left of a name ends as the name does. -/
theorem getLast?_normalize (h : style.normalize keepLeading t ≠ []) :
    (style.normalize keepLeading t).getLast? = t.getLast?.map style.toSlash := by
  have hsuffix : style.normalize keepLeading t <:+ (style.dropDevice t).map style.toSlash := by
    cases keepLeading with
    | true => exact List.suffix_refl _
    | false => exact List.dropWhile_suffix _
  have hwhole := hsuffix.trans ((dropDevice_suffix style t).map style.toSlash)
  obtain ⟨before, hbefore⟩ := hwhole
  rw [← List.getLast?_map, ← hbefore, List.getLast?_append_of_ne_nil _ h]

theorem endsInSlash_normalize_iff : endsInSlash (style.normalize keepLeading t) = true ↔
    style.NamesDirectory t ∧ ¬ style.Vanishes keepLeading t := by
  by_cases hnil : style.normalize keepLeading t = []
  · rw [hnil]
    refine iff_of_false Bool.false_ne_true fun ⟨hnames, hleft⟩ => hleft ?_
    exact (normalize_eq_nil_iff.mp hnil).resolve_left (dropDevice_ne_nil hnames)
  · have hleft : ¬ style.Vanishes keepLeading t :=
      fun hvanishes => hnil (normalize_eq_nil_iff.mpr (.inr hvanishes))
    rw [and_iff_left hleft, endsInSlash, beq_iff_eq, getLast?_normalize hnil,
      Option.map_eq_some_iff]
    simp only [toSlash_eq_slash_iff]
    rfl

end PathStyle

namespace Entry

variable {files : FileView} {now : Instant} {name : Text} {keepLeading : Bool} {style : PathStyle}

/-- A directory as it is made for a name. -/
structure IsNewDirectory (files : FileView) (e : Entry) : Prop where
  typeFlag : e.typeFlag = TypeFlag.directory.octet
  mode : e.mode = directoryMode
  isDirectory : e.isDirectory files = true
  isFile : e.isFile files = false

/-- A regular file as it is made for a name. -/
structure IsNewFile (files : FileView) (e : Entry) : Prop where
  typeFlag : e.typeFlag = TypeFlag.regular.octet
  mode : e.mode = fileMode
  isDirectory : e.isDirectory files = false
  isFile : e.isFile files = true

theorem IsNewDirectory.not_isNewFile {e : Entry} (h : IsNewDirectory files e) :
    ¬ IsNewFile files e :=
  fun h' => Bool.noConfusion (h.isFile.symm.trans h'.isFile)

theorem isNewDirectory_of_endsInSlash
    (h : endsInSlash (style.normalize keepLeading name) = true) :
    IsNewDirectory files (ofName now name keepLeading style) := by
  have hflag : (ofName now name keepLeading style).typeFlag = TypeFlag.directory.octet := by
    simp only [ofName, h, if_true]
  refine ⟨hflag, by simp only [ofName, h, if_true], ?_, ?_⟩
  · show ((ofName now name keepLeading style).hasFlag .directory || _) = true
    rw [Attributes.hasFlag, hflag, beq_self_eq_true, Bool.true_or]
  · show ((ofName now name keepLeading style).hasFlag .regular ||
      (ofName now name keepLeading style).hasFlag .oldRegular ||
      !endsInSlash (style.normalize keepLeading name)) = false
    rw [Attributes.hasFlag, Attributes.hasFlag, hflag, h]
    decide

theorem isNewFile_of_not_endsInSlash
    (h : endsInSlash (style.normalize keepLeading name) = false) :
    IsNewFile files (ofName now name keepLeading style) := by
  have hflag : (ofName now name keepLeading style).typeFlag = TypeFlag.regular.octet := by
    simp only [ofName, h, Bool.false_eq_true, if_false]
  refine ⟨hflag, by simp only [ofName, h, Bool.false_eq_true, if_false], ?_, ?_⟩
  · show ((ofName now name keepLeading style).hasFlag .directory ||
      endsInSlash (style.normalize keepLeading name)) = false
    rw [Attributes.hasFlag, hflag, h]
    decide
  · show ((ofName now name keepLeading style).hasFlag .regular || _ || _) = true
    rw [Attributes.hasFlag, hflag, beq_self_eq_true, Bool.true_or, Bool.true_or]

/-- What is made for a name: a directory if its last character is a slash or separator, unless
    nothing is left of it, and a regular file else. -/
theorem ofName_inference (files : FileView) (now : Instant) (name : Text) (keepLeading : Bool)
    (style : PathStyle) :
    (IsNewDirectory files (ofName now name keepLeading style) ↔
      style.NamesDirectory name ∧ ¬ style.Vanishes keepLeading name) ∧
    (IsNewFile files (ofName now name keepLeading style) ↔
      ¬ (style.NamesDirectory name ∧ ¬ style.Vanishes keepLeading name)) := by
  rw [← PathStyle.endsInSlash_normalize_iff]
  cases hends : endsInSlash (style.normalize keepLeading name) with
  | true =>
    have hdirectory : IsNewDirectory files (ofName now name keepLeading style) :=
      isNewDirectory_of_endsInSlash hends
    exact ⟨iff_of_true hdirectory rfl, iff_of_false hdirectory.not_isNewFile (not_not_intro rfl)⟩
  | false =>
    have hfile : IsNewFile files (ofName now name keepLeading style) :=
      isNewFile_of_not_endsInSlash hends
    exact ⟨iff_of_false (fun h => h.not_isNewFile hfile) Bool.false_ne_true,
      iff_of_true hfile Bool.false_ne_true⟩

/-- The names of root directories, here of POSIX and of a drive, make files without a name. -/
theorem root_becomes_file :
    PathStyle.unix.NamesDirectory ['/'] ∧
    IsNewFile .empty (ofName (.ofSeconds 0) ['/'] false .unix) ∧
    PathStyle.windows.NamesDirectory ['C', ':', '\\'] ∧
    IsNewFile .empty (ofName (.ofSeconds 0) ['C', ':', '\\'] false .windows) :=
  ⟨⟨'/', rfl, .inl rfl⟩, isNewFile_of_not_endsInSlash rfl,
    ⟨'\\', rfl, .inr rfl⟩, isNewFile_of_not_endsInSlash rfl⟩

end Entry

end TarHeader
