import Mathlib.Algebra.Group.Nat.Defs
import Mathlib.Data.List.TakeWhile
import TarHeader.Numeral

/- The texts that are read as octal numbers. Stripping takes spaces from the front of a field and
   NULs and spaces from its end, and nothing else (`exists_around_strip`). So digits are left just if
   the field is spaces, digits and padding in that order (`spells_iff`). A blank or a NUL between
   digits stays, and is refused like any other octet. A field that starts with NUL is zero before any
   of this, whatever follows. -/
namespace TarHeader.Octal

variable {bs ds : Bytes}

/-- The octets are spaces, the digits `ds`, and NULs and spaces. -/
def Spells (bs ds : Bytes) : Prop :=
  ∃ spaces pad, bs = spaces ++ (ds ++ pad) ∧ (∀ b ∈ spaces, b = 0x20) ∧
    (∀ b ∈ ds, isDigit b = true) ∧ ∀ b ∈ pad, b = 0 ∨ b = 0x20

/-- The numbers that a field denotes. -/
inductive Denotes (bs : Bytes) : Nat → Prop where
  | empty (hnul : bs.head? = some 0) : Denotes bs 0
  | text {ds : Bytes} (hspells : Spells bs ds) (hle : value ds ≤ 2 ^ 63 - 1) : Denotes bs (value ds)

theorem isPadding_iff (b : UInt8) : isPadding b = true ↔ b = 0 ∨ b = 0x20 := by
  simp [isPadding]

/-- A digit is neither NUL nor a space. -/
theorem isPadding_of_isDigit {b : UInt8} (h : isDigit b = true) : isPadding b = false := by
  cases hp : isPadding b with
  | false => rfl
  | true =>
    have hb : b = 0 ∨ b = 0x20 := (isPadding_iff b).mp hp
    rcases hb with rfl | rfl <;> exact absurd h (by decide)

/-- Stripping takes all padding after the digits, and nothing else. -/
theorem strip_append {pad : Bytes} (hd : ∀ b ∈ ds, isDigit b = true)
    (hp : ∀ b ∈ pad, isPadding b = true) : strip (ds ++ pad) = ds := by
  -- Without a digit all of it is padding, and nothing is left.
  cases ds with
  | nil =>
    have hdrop : ∀ b ∈ pad.dropWhile (· == 0x20), isPadding b = true :=
      fun b hb => hp b ((List.dropWhile_sublist _).subset hb)
    simp only [strip, List.nil_append]
    rw [List.dropWhile_eq_nil_iff.mpr (by simpa using hdrop), List.reverse_nil]
  | cons d ds =>
    have hhead : isPadding d = false := isPadding_of_isDigit (hd d List.mem_cons_self)
    have hspace : (d == 0x20) = false := (Bool.or_eq_false_iff.mp hhead).2
    have hrev : ∀ b ∈ pad.reverse, isPadding b = true :=
      fun b hb => hp b (List.mem_reverse.mp hb)
    have hlast : ∀ b ∈ (d :: ds).reverse, isPadding b = false :=
      fun b hb => isPadding_of_isDigit (hd b (List.mem_reverse.mp hb))
    rw [strip, List.cons_append, List.dropWhile_cons, hspace, if_neg Bool.false_ne_true,
      ← List.cons_append, List.reverse_append, List.dropWhile_append_of_pos hrev]
    cases hr : (d :: ds).reverse with
    | nil => simp at hr
    | cons e es =>
      rw [List.dropWhile_cons, hlast e (by rw [hr]; simp), if_neg Bool.false_ne_true, ← hr,
        List.reverse_reverse]

theorem Spells.digits (h : Spells bs ds) : ∀ b ∈ ds, isDigit b = true := by
  obtain ⟨-, -, -, -, hdigits, -⟩ := h
  exact hdigits

theorem Spells.length_le (h : Spells bs ds) : ds.length ≤ bs.length := by
  obtain ⟨spaces, pad, rfl, -⟩ := h
  rw [List.length_append, List.length_append]
  omega

/-- Stripping takes nothing but spaces from the front and padding from the end. -/
theorem exists_around_strip (bs : Bytes) :
    ∃ spaces pad, bs = spaces ++ (strip bs ++ pad) ∧ (∀ b ∈ spaces, b = 0x20) ∧
      ∀ b ∈ pad, b = 0 ∨ b = 0x20 := by
  let rest := bs.dropWhile (· == 0x20)
  let pad := (rest.reverse.takeWhile isPadding).reverse
  have hrest : strip bs ++ pad = rest := by
    show (rest.reverse.dropWhile isPadding).reverse ++ (rest.reverse.takeWhile isPadding).reverse =
      rest
    rw [← List.reverse_append, List.takeWhile_append_dropWhile, List.reverse_reverse]
  refine ⟨bs.takeWhile (· == 0x20), pad, ?_, ?_, ?_⟩
  · rw [hrest]
    exact List.takeWhile_append_dropWhile.symm
  · intro b hb
    have hspace : (b == 0x20) = true := List.mem_takeWhile_imp (p := (· == 0x20)) hb
    exact beq_iff_eq.mp hspace
  · intro b hb
    exact (isPadding_iff b).mp (List.mem_takeWhile_imp (List.mem_reverse.mp hb))

theorem Spells.strip_eq (h : Spells bs ds) : strip bs = ds := by
  obtain ⟨spaces, pad, rfl, hspaces, hdigits, hpad⟩ := h
  have hdrop : (spaces ++ (ds ++ pad)).dropWhile (· == 0x20) = (ds ++ pad).dropWhile (· == 0x20) :=
    List.dropWhile_append_of_pos fun b hb => beq_iff_eq.mpr (hspaces b hb)
  calc strip (spaces ++ (ds ++ pad))
      = strip (ds ++ pad) := by rw [strip, hdrop, ← strip]
    _ = ds := strip_append hdigits fun b hb => (isPadding_iff b).mpr (hpad b hb)

theorem spells_iff : Spells bs ds ↔ strip bs = ds ∧ ∀ b ∈ ds, isDigit b = true := by
  constructor
  · intro h
    exact ⟨h.strip_eq, h.digits⟩
  · rintro ⟨rfl, hdigits⟩
    obtain ⟨spaces, pad, hbs, hspaces, hpad⟩ := exists_around_strip bs
    exact ⟨spaces, pad, hbs, hspaces, hdigits, hpad⟩

/-- No digits stand behind a NUL. -/
theorem Spells.eq_nil (h : Spells bs ds) (hnul : bs.head? = some 0) : ds = [] := by
  obtain ⟨spaces, pad, rfl, hspaces, hdigits, -⟩ := h
  cases spaces with
  | cons b spaces =>
    have hb : b = 0x20 := hspaces b List.mem_cons_self
    have hb' : b = 0 := Option.some.inj hnul
    exact absurd (hb'.symm.trans hb) (by decide)
  | nil =>
    cases ds with
    | nil => rfl
    | cons d ds =>
      have hd : isDigit d = true := hdigits d List.mem_cons_self
      have hd' : d = 0 := Option.some.inj hnul
      rw [hd'] at hd
      exact absurd hd (by decide)

theorem decode_eq_ok_iff {n : Nat} : decode bs = .ok n ↔ 2 ≤ bs.length ∧ Denotes bs n := by
  constructor
  · intro h
    simp only [decode] at h
    split at h
    · contradiction
    next hlen =>
    refine ⟨Nat.not_lt.mp hlen, ?_⟩
    split at h
    · next hnul =>
      cases h
      exact .empty hnul
    split at h
    · contradiction
    next hfind =>
    split at h
    · next hle =>
      cases h
      have hdigits : ∀ b ∈ strip bs, isDigit b = true := by
        simpa using List.find?_eq_none.mp hfind
      exact .text (spells_iff.mpr ⟨rfl, hdigits⟩) hle
    · contradiction
  · rintro ⟨hlen, h⟩
    rw [decode, if_neg (Nat.not_lt.mpr hlen)]
    cases h with
    | empty hnul => rw [if_pos hnul]
    | @text ds hspells hle =>
      split
      · next hnul =>
        rw [hspells.eq_nil hnul]
        rfl
      · obtain ⟨hstrip, hdigits⟩ := spells_iff.mp hspells
        have hfind : ds.find? (!isDigit ·) = none :=
          List.find?_eq_none.mpr fun b hb => by simp [hdigits b hb]
        simp only [hstrip, hfind]
        exact if_pos hle

/-- A field is read as the number it denotes, and refused under its name if it denotes none. -/
theorem read_denoted (name : String) (bs : Bytes) :
    (∀ n, read name bs = .ok n ↔ 2 ≤ bs.length ∧ Denotes bs n) ∧
    ((∃ cause, read name bs = .error (.invalidField name cause)) ↔
      ¬ ∃ n, 2 ≤ bs.length ∧ Denotes bs n) := by
  have hok : ∀ n, read name bs = .ok n ↔ 2 ≤ bs.length ∧ Denotes bs n := by
    intro n
    rw [← decode_eq_ok_iff, read]
    cases decode bs with
    | ok m => simp [Fault.mapError_ok]
    | error cause => simp [Fault.mapError_error]
  refine ⟨hok, ?_⟩
  simp only [← hok, read]
  cases decode bs with
  | ok n => simp [Fault.mapError_ok]
  | error cause => simp [Fault.mapError_error]

/-- A file's mode with blanks around it, and the same digits with a blank among them. -/
example : read "mode" [0x20, 0x20, 0x36, 0x34, 0x34, 0x20, 0, 0] = .ok 0o644 ∧
    read "mode" [0x36, 0x34, 0x20, 0x34, 0, 0, 0, 0] =
      .error (.invalidField "mode" (.notOctal 0x20 [0x36, 0x34, 0x20, 0x34, 0, 0, 0, 0])) := by
  decide

end TarHeader.Octal
