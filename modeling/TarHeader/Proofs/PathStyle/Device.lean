import Mathlib.Data.List.Forall2
import Mathlib.Data.List.TakeWhile
import TarHeader.Proofs.PathStyle

/- What a name loses and what it keeps when it is turned into the form of archives. It loses the
   device in front of it (`Device`), which is a drive by the octets of the name (`HasDrive`) or all
   through a colon, and slashes that are not to be kept. All else stands where it was, with a slash
   for each separator (`normalize_parts`). Only one device is lost: a name stays as it is exactly if
   it is normalized and has no device (`normalize_eq_self_iff`), and what is behind one device may
   look like another. -/
namespace TarHeader

open Utf8 (width)

/-- A letter of ASCII, as an octet. -/
def IsLetter (b : UInt8) : Prop := 0x41 ≤ b ∧ b ≤ 0x5A ∨ 0x61 ≤ b ∧ b ≤ 0x7A

theorem isLetter_iff {b : UInt8} :
    IsLetter b ↔ 0x41 ≤ b.toNat ∧ b.toNat ≤ 0x5A ∨ 0x61 ≤ b.toNat ∧ b.toNat ≤ 0x7A := by
  simp only [IsLetter, UInt8.le_iff_toNat_le]
  rfl

theorem isAlpha_iff {c : Char} : c.isAlpha = true ↔
    0x41 ≤ c.toNat ∧ c.toNat ≤ 0x5A ∨ 0x61 ≤ c.toNat ∧ c.toNat ≤ 0x7A := by
  have hranges : c.isAlpha = (decide (0x41 ≤ c.val ∧ c.val ≤ 0x5A) ||
      (decide (0x61 ≤ c.val) && decide (c.val ≤ 0x7A))) := rfl
  simp only [hranges, Bool.or_eq_true, Bool.and_eq_true, decide_eq_true_eq,
    UInt32.le_iff_toNat_le]
  rfl

namespace Utf8

theorem encode_cons (c : Char) (t : Text) : encode (c :: t) = encodeChar c ++ encode t := rfl

theorem encodeChar_of_ascii {c : Char} (h : c.toNat < 0x80) : encodeChar c = [.ofNat c.toNat] :=
  if_pos h

/-- The first octet of a longer character is no ASCII. -/
theorem encodeChar_of_not_ascii {c : Char} (h : ¬ c.toNat < 0x80) :
    ∃ b rest, encodeChar c = b :: rest ∧ 0x80 ≤ b.toNat := by
  have hbound := toNat_bounds c
  have hof : ∀ m, 0x80 ≤ m → m < 256 → 0x80 ≤ (UInt8.ofNat m).toNat := by
    intro m hlow hlt
    rwa [UInt8.toNat_ofNat_of_lt' hlt]
  unfold encodeChar
  simp only [if_neg h]
  split
  · exact ⟨_, _, rfl, hof _ (by omega) (by omega)⟩
  split
  · exact ⟨_, _, rfl, hof _ (by omega) (by omega)⟩
  · exact ⟨_, _, rfl, hof _ (by omega) (by omega)⟩

/-- An octet of ASCII in front is the whole of the first character. -/
theorem exists_cons_of_encode {t : Text} {b : UInt8} {bs : Bytes} (h : encode t = b :: bs)
    (hb : b.toNat < 0x80) : ∃ c rest, t = c :: rest ∧ c.toNat = b.toNat ∧ encode rest = bs := by
  cases t with
  | nil => cases h
  | cons c rest =>
    rw [encode_cons] at h
    by_cases hc : c.toNat < 0x80
    · rw [encodeChar_of_ascii hc, List.singleton_append] at h
      obtain ⟨rfl, hrest⟩ := List.cons.inj h
      have hlt : c.toNat < 256 := Nat.lt_trans hc (by decide)
      exact ⟨c, rest, rfl, (UInt8.toNat_ofNat_of_lt' hlt).symm, hrest⟩
    · obtain ⟨first, more, hchar, hfirst⟩ := encodeChar_of_not_ascii hc
      rw [hchar, List.cons_append] at h
      obtain ⟨rfl, -⟩ := List.cons.inj h
      omega

theorem width_pos_iff {t : Text} : 0 < width t ↔ t ≠ [] := by
  constructor
  · rintro h rfl
    exact absurd h (by decide)
  · intro h
    obtain ⟨c, rest, rfl⟩ := List.exists_cons_of_ne_nil h
    rw [width, encode_cons, List.length_append]
    by_cases hc : c.toNat < 0x80
    · rw [encodeChar_of_ascii hc, List.length_singleton]
      exact Nat.le_add_right 1 _
    · obtain ⟨first, more, hchar, -⟩ := encodeChar_of_not_ascii hc
      rw [hchar, List.length_cons]
      omega

end Utf8

namespace PathStyle

variable {style : PathStyle} {keepLeading : Bool} {t device rest : Text} {c d : Char}

/-- A name that starts with a drive, by its octets in UTF-8: a letter and a colon, and more. -/
def HasDrive (t : Text) : Prop :=
  2 < width t ∧ ∃ letter, IsLetter letter ∧ [letter, 0x3A] <+: Utf8.encode t

/-- A name that the style takes something off in front. -/
def HasDevice : PathStyle → Text → Prop
  | .unix, _ => False
  | .windows, t => HasDrive t
  | .netWare, t => ':' ∈ t

/-- The part in front of a name that says on which device a file is, and the rest. -/
inductive Device : PathStyle → Text → Text → Prop where
  | none {style : PathStyle} {t : Text} (h : ¬ style.HasDevice t) : Device style [] t
  | drive {letter : Char} {rest : Text} (hletter : letter.isAlpha = true)
      (h : HasDrive (letter :: ':' :: rest)) : Device .windows [letter, ':'] rest
  | volume {before rest : Text} (h : ':' ∉ before) : Device .netWare (before ++ [':']) rest

/-- A character of a platform's name and the one that stands for it in an archive. -/
def Turned (style : PathStyle) (c d : Char) : Prop :=
  c = style.separator ∧ d = '/' ∨ c ≠ style.separator ∧ d = c

/-! The device -/

/-- The octets of a drive are characters of their own. -/
theorem hasDrive_iff : HasDrive t ↔
    ∃ letter rest, letter.isAlpha = true ∧ rest ≠ [] ∧ t = letter :: ':' :: rest := by
  constructor
  · rintro ⟨hlong, b, hb, more, hmore⟩
    have hletter := isLetter_iff.mp hb
    obtain ⟨letter, behind, rfl, hnumber, hbehind⟩ :=
      Utf8.exists_cons_of_encode hmore.symm (by omega)
    obtain ⟨colon, rest, rfl, hcolon, -⟩ := Utf8.exists_cons_of_encode hbehind (by decide)
    obtain rfl : colon = ':' := Char.toNat_inj.mp hcolon
    have hascii : letter.isAlpha = true := isAlpha_iff.mpr (by omega)
    refine ⟨letter, rest, hascii, ?_, rfl⟩
    rintro rfl
    rw [width, Utf8.encode_cons, Utf8.encodeChar_of_ascii (by omega)] at hlong
    exact Nat.lt_irrefl 2 hlong
  · rintro ⟨letter, rest, hletter, hrest, rfl⟩
    have hnumber := isAlpha_iff.mp hletter
    have hoctets : Utf8.encode (letter :: ':' :: rest) =
        [.ofNat letter.toNat, 0x3A] ++ Utf8.encode rest := by
      rw [Utf8.encode_cons, Utf8.encodeChar_of_ascii (by omega), Utf8.encode_cons]
      rfl
    have hpos := Utf8.width_pos_iff.mpr hrest
    constructor
    · rw [width, hoctets, List.length_append]
      exact Nat.add_lt_add_left hpos 2
    · have hlt : letter.toNat < 256 := by omega
      refine ⟨_, isLetter_iff.mpr ?_, Utf8.encode rest, hoctets.symm⟩
      rwa [UInt8.toNat_ofNat_of_lt' hlt]

theorem dropDrive_of_hasDrive {letter : Char} (hletter : letter.isAlpha = true)
    (hrest : rest ≠ []) : dropDrive (letter :: ':' :: rest) = rest := by
  obtain ⟨c, more, rfl⟩ := List.exists_cons_of_ne_nil hrest
  exact if_pos hletter

theorem dropDrive_of_not_hasDrive (h : ¬ HasDrive t) : dropDrive t = t := by
  unfold dropDrive
  split
  · next letter c more =>
    split
    · next hletter => exact absurd (hasDrive_iff.mpr ⟨letter, c :: more, hletter, by simp, rfl⟩) h
    · rfl
  · rfl

theorem bne_colon_of_not_mem (h : ':' ∉ t) : ∀ c ∈ t, (c != ':') = true := by
  intro c hc
  rw [bne_iff_ne]
  rintro rfl
  exact h hc

theorem dropVolume_append (h : ':' ∉ device) : dropVolume (device ++ ':' :: rest) = rest := by
  rw [dropVolume, List.dropWhile_append_of_pos (bne_colon_of_not_mem h),
    List.dropWhile_cons_of_neg (by decide)]

theorem dropVolume_of_not_mem (h : ':' ∉ t) : dropVolume t = t := by
  have hnil : t.dropWhile (· != ':') = [] :=
    List.dropWhile_eq_nil_iff.mpr (bne_colon_of_not_mem h)
  rw [dropVolume, hnil]

/-- What is dropped is the device. -/
theorem device_dropDevice (style : PathStyle) (t : Text) :
    ∃ device, t = device ++ style.dropDevice t ∧ Device style device (style.dropDevice t) := by
  by_cases h : style.HasDevice t
  · cases style with
    | unix => exact h.elim
    | windows =>
      obtain ⟨letter, rest, hletter, hrest, rfl⟩ := hasDrive_iff.mp h
      have hdrop : PathStyle.windows.dropDevice (letter :: ':' :: rest) = rest :=
        dropDrive_of_hasDrive hletter hrest
      rw [hdrop]
      exact ⟨[letter, ':'], rfl, .drive hletter h⟩
    | netWare =>
      obtain ⟨before, rest, rfl, hbefore⟩ := List.eq_append_cons_of_mem h
      have hdrop : PathStyle.netWare.dropDevice (before ++ ':' :: rest) = rest :=
        dropVolume_append hbefore
      rw [hdrop]
      exact ⟨before ++ [':'], by simp, .volume hbefore⟩
  · have hdrop : style.dropDevice t = t := by
      cases style with
      | unix => rfl
      | windows => exact dropDrive_of_not_hasDrive h
      | netWare => exact dropVolume_of_not_mem h
    rw [hdrop]
    exact ⟨[], rfl, .none h⟩

/-- A device ends in a colon. -/
theorem Device.eq_nil_or_concat (h : Device style device rest) :
    device = [] ∨ ∃ before, device = before ++ [':'] := by
  cases h with
  | none h => exact .inl rfl
  | @drive letter => exact .inr ⟨[letter], rfl⟩
  | @volume before => exact .inr ⟨before, rfl⟩

theorem Device.eq_nil_iff (h : Device style device rest) :
    device = [] ↔ ¬ style.HasDevice (device ++ rest) := by
  cases h with
  | none h => exact iff_of_true rfl h
  | drive hletter h => exact iff_of_false (by simp) (not_not_intro h)
  | volume h => exact iff_of_false (by simp) (not_not_intro (by simp [HasDevice]))

theorem dropDevice_eq_self_iff : style.dropDevice t = t ↔ ¬ style.HasDevice t := by
  obtain ⟨device, ht, hdevice⟩ := device_dropDevice style t
  have hnil := hdevice.eq_nil_iff
  rw [← ht] at hnil
  rw [← hnil]
  constructor
  · intro hsame
    rw [hsame] at ht
    exact List.self_eq_append_left.mp ht
  · rintro rfl
    exact ht.symm

/-! What is left of a name -/

theorem turned_toSlash (style : PathStyle) (c : Char) : Turned style c (style.toSlash c) := by
  unfold toSlash
  split
  · next hc => exact .inl ⟨hc, rfl⟩
  · next hc => exact .inr ⟨hc, rfl⟩

theorem forall₂_turned_map (style : PathStyle) (t : Text) :
    List.Forall₂ style.Turned t (t.map style.toSlash) := by
  rw [List.forall₂_map_right_iff, List.forall₂_same]
  exact fun c _ => turned_toSlash style c

/-- Names with and without their slashes in front. -/
theorem exists_leading (style : PathStyle) (t : Text) :
    ∃ n, style.normalize true t = List.replicate n '/' ++ style.normalize false t := by
  let whole := (style.dropDevice t).map style.toSlash
  have hslashes : ∀ c ∈ whole.takeWhile (· == '/'), c = '/' := by
    intro c hc
    simpa using List.mem_takeWhile_imp hc
  refine ⟨(whole.takeWhile (· == '/')).length, ?_⟩
  rw [← List.eq_replicate_of_mem hslashes]
  exact (List.takeWhile_append_dropWhile).symm

/-- What a name becomes: behind the device each character stands for one of the name, and without
    the slashes in front, all of them, where these are not kept. -/
theorem normalize_parts (style : PathStyle) (t : Text) :
    (∀ keepLeading, Normalized style keepLeading (style.normalize keepLeading t)) ∧
      (∃ n, style.normalize true t = List.replicate n '/' ++ style.normalize false t) ∧
      ∃ device rest, t = device ++ rest ∧ Device style device rest ∧
        List.Forall₂ style.Turned rest (style.normalize true t) := by
  obtain ⟨device, ht, hdevice⟩ := device_dropDevice style t
  refine ⟨fun keepLeading => normalized_normalize style keepLeading t, exists_leading style t, ?_⟩
  exact ⟨device, style.dropDevice t, ht, hdevice, forall₂_turned_map style _⟩

/-- A letter beyond ASCII names no drive, and only a separator of the style is turned. -/
example : PathStyle.windows.normalize false ['é', ':', '\\', 'x'] = ['é', ':', '/', 'x'] ∧
    PathStyle.netWare.normalize false ['é', ':', '\\', 'x'] = ['x'] ∧
    PathStyle.unix.normalize false ['é', ':', '\\', 'x'] = ['é', ':', '\\', 'x'] := by decide

/-! Names that stay as they are -/

theorem length_normalize_le (style : PathStyle) (keepLeading : Bool) (t : Text) :
    (style.normalize keepLeading t).length ≤ (style.dropDevice t).length := by
  obtain ⟨n, hn⟩ := exists_leading style t
  have hlength := congrArg List.length hn
  have hkept : (style.normalize true t).length = (style.dropDevice t).length := List.length_map _
  rw [hkept, List.length_append] at hlength
  cases keepLeading with
  | false => omega
  | true => exact hkept.le

theorem toSlash_eq_self (h : style ≠ .unix → c ≠ '\\') : style.toSlash c = c := by
  unfold toSlash
  split
  · next hc =>
    cases style with
    | unix => exact hc.symm
    | windows | netWare => exact absurd hc (h nofun)
  · rfl

theorem normalize_eq_self_iff : style.normalize keepLeading t = t ↔
    Normalized style keepLeading t ∧ ¬ style.HasDevice t := by
  constructor
  · intro h
    refine ⟨h ▸ normalized_normalize style keepLeading t, dropDevice_eq_self_iff.mp ?_⟩
    -- What drops nothing in the end has dropped nothing in front.
    have hlength := length_normalize_le style keepLeading t
    rw [h] at hlength
    exact (dropDevice_suffix style t).eq_of_length_le hlength
  · rintro ⟨hnormalized, hdevice⟩
    have hturned : t.map style.toSlash = t := by
      refine (List.map_congr_left fun c hc => toSlash_eq_self ?_).trans (List.map_id t)
      rintro hstyle rfl
      exact hnormalized.separated hstyle hc
    rw [normalize, dropDevice_eq_self_iff.mpr hdevice, hturned]
    cases keepLeading with
    | true => rfl
    | false =>
      have hhead := hnormalized.head rfl
      cases t with
      | nil => rfl
      | cons c rest =>
        show (c :: rest).dropWhile (· == '/') = c :: rest
        rw [List.dropWhile_cons_of_neg]
        simpa using hhead

/-- A name changes a second time exactly if there is a device behind the first one. -/
theorem normalize_normalize_iff : style.normalize keepLeading (style.normalize keepLeading t) =
    style.normalize keepLeading t ↔ ¬ style.HasDevice (style.normalize keepLeading t) :=
  normalize_eq_self_iff.trans (and_iff_right (normalized_normalize style keepLeading t))

end PathStyle

end TarHeader
