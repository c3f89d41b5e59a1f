import Mathlib.Algebra.Group.Nat.Defs
import Mathlib.Data.List.Induction
import TarHeader.Proofs.Entry.Merge

/- How merging an extended header ends. A number is spelled by ASCII digits, perhaps after one plus
   sign, and has to be one of 64 bits (`ExtendedHeader.Denotes`). What a dialect requires decides
   alone whether it is merged, the size before the name; then the dialect's mark, the real size and
   the name change, and nothing else of the entry does (`Merges`, `mergeSparse_eq_iff`). -/
namespace TarHeader

namespace ExtendedHeader

/-- The digits of a number. -/
inductive Spells : Text → Nat → Prop where
  | digit {d : Nat} (hd : d < 10) : Spells [Nat.digitChar d] d
  | snoc {ds : Text} {n d : Nat} (hds : Spells ds n) (hd : d < 10) :
      Spells (ds ++ [Nat.digitChar d]) (n * 10 + d)

/-- The number that a text denotes. -/
inductive Denotes : Text → Nat → Prop where
  | plain {ds : Text} {n : Nat} (hds : Spells ds n) (hlt : n < 2 ^ 64) : Denotes ds n
  | plus {ds : Text} {n : Nat} (hds : Spells ds n) (hlt : n < 2 ^ 64) : Denotes ('+' :: ds) n

variable {t ds : Text} {n : Nat}

theorem isDigit_digitChar {d : Nat} (hd : d < 10) : (Nat.digitChar d).isDigit = true :=
  (by decide : ∀ d < 10, (Nat.digitChar d).isDigit = true) d hd

theorem toNat_digitChar_sub {d : Nat} (hd : d < 10) : (Nat.digitChar d).toNat - '0'.toNat = d :=
  (by decide : ∀ d < 10, (Nat.digitChar d).toNat - '0'.toNat = d) d hd

/-- Every digit is the one of some number below ten. -/
theorem exists_digitChar {c : Char} (hc : c.isDigit = true) :
    ∃ d, d < 10 ∧ c = Nat.digitChar d := by
  simp only [Char.isDigit, Bool.and_eq_true, decide_eq_true_eq, UInt32.le_iff_toNat_le] at hc
  obtain ⟨hlow, hhigh⟩ := hc
  have hlow : 48 ≤ c.toNat := hlow
  have hhigh : c.toNat ≤ 57 := hhigh
  refine ⟨c.toNat - 48, by omega, Char.toNat_inj.mp ?_⟩
  rw [Nat.toNat_digitChar_of_lt_ten (by omega)]
  omega

theorem decimalValue_append_digitChar (ds : Text) {d : Nat} (hd : d < 10) :
    decimalValue (ds ++ [Nat.digitChar d]) = decimalValue ds * 10 + d := by
  simp only [decimalValue, List.map_append, List.map_cons, List.map_nil, toNat_digitChar_sub hd,
    Positional.ofDigits_append_singleton]

/-- Digits spell their value, and nothing but digits spells a number. -/
theorem spells_iff : Spells ds n ↔
    ds ≠ [] ∧ ds.all Char.isDigit = true ∧ decimalValue ds = n := by
  constructor
  · intro h
    induction h with
    | @digit d hd =>
      refine ⟨List.cons_ne_nil _ _, ?_, ?_⟩
      · rw [List.all_cons, isDigit_digitChar hd, List.all_nil, Bool.and_self]
      · exact (decimalValue_append_digitChar [] hd).trans (Nat.zero_add d)
    | @snoc ds n d _ hd ih =>
      obtain ⟨-, hdigits, hvalue⟩ := ih
      refine ⟨List.append_ne_nil_of_right_ne_nil _ (List.cons_ne_nil _ _), ?_, ?_⟩
      · rw [List.all_append, hdigits, List.all_cons, isDigit_digitChar hd]
        rfl
      · rw [decimalValue_append_digitChar ds hd, hvalue]
  · rintro ⟨hne, hdigits, rfl⟩
    -- From the last digit, which is the low one, to the front.
    induction ds using List.reverseRecOn with
    | nil => exact absurd rfl hne
    | append_singleton ds c ih =>
      rw [List.all_append, Bool.and_eq_true] at hdigits
      obtain ⟨hfront, hlast⟩ := hdigits
      obtain ⟨d, hd, rfl⟩ := exists_digitChar (List.all_eq_true.mp hlast c List.mem_cons_self)
      rw [decimalValue_append_digitChar ds hd]
      by_cases hnil : ds = []
      · rw [hnil]
        have hzero : decimalValue [] * 10 + d = d := Nat.zero_add d
        rw [hzero]
        exact .digit hd
      · exact .snoc (ih hnil hfront) hd

/-- Digits have no sign in front. -/
theorem Spells.unsigned_eq (h : Spells ds n) : unsigned ds = ds := by
  obtain ⟨-, hdigits, -⟩ := spells_iff.mp h
  unfold unsigned
  split
  · next rest =>
    have hplus : Char.isDigit '+' = true := List.all_eq_true.mp hdigits _ List.mem_cons_self
    exact absurd hplus (by decide)
  · rfl

theorem denotes_iff : Denotes t n ↔ Spells (unsigned t) n ∧ n < 2 ^ 64 := by
  constructor
  · intro h
    cases h with
    | plain hds hlt => exact ⟨hds.unsigned_eq.symm ▸ hds, hlt⟩
    | plus hds hlt => exact ⟨hds, hlt⟩
  · rintro ⟨hds, hlt⟩
    unfold unsigned at hds
    split at hds
    · exact .plus hds hlt
    · exact .plain hds hlt

theorem decimal?_eq_some_iff {m : UInt64} : decimal? t = some m ↔ Denotes t m.toNat := by
  have hm := m.toNat_lt
  rw [denotes_iff, spells_iff, and_iff_left hm]
  unfold decimal?
  simp only
  constructor
  · intro h
    split at h
    · next hdigits =>
      obtain ⟨hne, hall, hlt⟩ := hdigits
      cases h
      rw [UInt64.toNat_ofNat_of_lt' hlt]
      exact ⟨hne, hall, rfl⟩
    · contradiction
  · rintro ⟨hne, hall, hvalue⟩
    rw [hvalue, if_pos ⟨hne, hall, hm⟩, UInt64.ofNat_toNat]

theorem decimal?_eq_none_iff : decimal? t = none ↔ ¬ ∃ n, Denotes t n := by
  rw [← not_iff_not, Classical.not_not]
  constructor
  · intro h
    obtain ⟨m, hm⟩ := Option.ne_none_iff_exists'.mp h
    exact ⟨m.toNat, decimal?_eq_some_iff.mp hm⟩
  · rintro ⟨n, hn⟩ hnone
    have hlt : n < 2 ^ 64 := (denotes_iff.mp hn).2
    have hsome : decimal? t = some (.ofNat n) := by
      rw [decimal?_eq_some_iff, UInt64.toNat_ofNat_of_lt' hlt]
      exact hn
    rw [hnone] at hsome
    contradiction

theorem exists_uint64_of_denotes (h : ∃ n, Denotes t n) : ∃ m : UInt64, Denotes t m.toNat := by
  obtain ⟨n, hn⟩ := h
  refine ⟨.ofNat n, ?_⟩
  rwa [UInt64.toNat_ofNat_of_lt' (denotes_iff.mp hn).2]

theorem decimal_of_denotes (key : String) {m : UInt64} (h : Denotes t m.toNat) :
    decimal key t = .ok m := by
  rw [decimal, decimal?_eq_some_iff.mpr h]

theorem decimal_of_not_denotes (key : String) (h : ¬ ∃ n, Denotes t n) :
    decimal key t = .error (.invalidValue key t) := by
  rw [decimal, decimal?_eq_none_iff.mpr h]

variable {keys keys' : ExtendedHeader} {key : String}

theorem required_of_some (h : keys.lookup key = some t) : keys.required key = .ok t := by
  rw [required, h]

theorem required_of_none (h : keys.lookup key = none) :
    keys.required key = .error (.missingKey key) := by
  rw [required, h]

theorem decimalIfPresent_of_some (h : keys.lookup key = some t) :
    keys.decimalIfPresent key = (decimal key t).map some := by
  rw [decimalIfPresent, h]

theorem decimalIfPresent_of_none (h : keys.lookup key = none) :
    keys.decimalIfPresent key = .ok none := by
  rw [decimalIfPresent, h]

end ExtendedHeader

namespace SparseDialect

open ExtendedHeader

/-- The key of the real size. -/
def sizeKey : SparseDialect → String
  | .gnu0 => gnuSize
  | .gnu1 => gnuRealSize
  | .star => starRealSize

/-- The keys that a dialect looks at. -/
def keys : SparseDialect → List String
  | .gnu0 => [gnuSize, gnuName]
  | .gnu1 => [gnuRealSize, gnuName]
  | .star => [starRealSize]

end SparseDialect

namespace Entry

open ExtendedHeader

variable {keys keys' : ExtendedHeader} {dialect : SparseDialect} {e : Entry}
  {outcome : EStateM.Result Fault Entry Unit}

/-- How merging an extended header into an entry ends. -/
inductive Merges (keys : ExtendedHeader) (e : Entry) :
    SparseDialect → EStateM.Result Fault Entry Unit → Prop where
  | gnu0 {t : Text} {realSize : UInt64} (hsize : keys.lookup gnuSize = some t)
      (hdenotes : Denotes t realSize.toNat) :
      Merges keys e .gnu0 (.ok ()
        { e with paxSparse := true, realSize, name := (keys.lookup gnuName).getD e.name })
  | gnu1 {t name : Text} {realSize : UInt64} (hsize : keys.lookup gnuRealSize = some t)
      (hdenotes : Denotes t realSize.toNat) (hname : keys.lookup gnuName = some name) :
      Merges keys e .gnu1 (.ok () { e with paxSparse := true, realSize, name })
  | starSized {t : Text} {realSize : UInt64} (hsize : keys.lookup starRealSize = some t)
      (hdenotes : Denotes t realSize.toNat) :
      Merges keys e .star (.ok () { e with starSparse := true, realSize })
  | starUnsized (hsize : keys.lookup starRealSize = none) :
      Merges keys e .star (.ok () { e with starSparse := true })
  | sizeMissing {dialect : SparseDialect} (hdialect : dialect ≠ .star)
      (hsize : keys.lookup dialect.sizeKey = none) :
      Merges keys e dialect (.error (.missingKey dialect.sizeKey) e)
  | sizeInvalid {dialect : SparseDialect} {t : Text}
      (hsize : keys.lookup dialect.sizeKey = some t) (hdenotes : ¬ ∃ n, Denotes t n) :
      Merges keys e dialect (.error (.invalidValue dialect.sizeKey t) e)
  | nameMissing {t : Text} {realSize : UInt64} (hsize : keys.lookup gnuRealSize = some t)
      (hdenotes : Denotes t realSize.toNat) (hname : keys.lookup gnuName = none) :
      Merges keys e .gnu1 (.error (.missingKey gnuName) e)

/-- Merging ends as the keys say. -/
theorem Merges.eq (h : Merges keys e dialect outcome) : mergeSparse dialect keys e = outcome := by
  cases h with
  | gnu0 hsize hdenotes =>
    rw [mergeSparse, mergeGnu0, required_of_some hsize, Edit.lift_ok_bind,
      decimal_of_denotes _ hdenotes, Edit.lift_ok_bind]
    cases keys.lookup gnuName with
    | none => rfl
    | some name => rfl
  | gnu1 hsize hdenotes hname =>
    rw [mergeSparse, mergeGnu1, required_of_some hsize, Edit.lift_ok_bind,
      decimal_of_denotes _ hdenotes, Edit.lift_ok_bind, required_of_some hname]
    rfl
  | starSized hsize hdenotes =>
    rw [mergeSparse, mergeStar, decimalIfPresent_of_some hsize, decimal_of_denotes _ hdenotes]
    rfl
  | starUnsized hsize =>
    rw [mergeSparse, mergeStar, decimalIfPresent_of_none hsize]
    rfl
  | sizeMissing hdialect hsize =>
    cases dialect with
    | gnu0 =>
      have hmissing : keys.required gnuSize = .error (.missingKey gnuSize) :=
        required_of_none hsize
      rw [mergeSparse, mergeGnu0, hmissing]
      rfl
    | gnu1 =>
      have hmissing : keys.required gnuRealSize = .error (.missingKey gnuRealSize) :=
        required_of_none hsize
      rw [mergeSparse, mergeGnu1, hmissing]
      rfl
    | star => exact absurd rfl hdialect
  | @sizeInvalid dialect t hsize hdenotes =>
    cases dialect with
    | gnu0 =>
      have hsize : keys.required gnuSize = .ok t := required_of_some hsize
      rw [mergeSparse, mergeGnu0, hsize, Edit.lift_ok_bind, decimal_of_not_denotes _ hdenotes]
      rfl
    | gnu1 =>
      have hsize : keys.required gnuRealSize = .ok t := required_of_some hsize
      rw [mergeSparse, mergeGnu1, hsize, Edit.lift_ok_bind, decimal_of_not_denotes _ hdenotes]
      rfl
    | star =>
      have hsize : keys.decimalIfPresent starRealSize = (decimal starRealSize t).map some :=
        decimalIfPresent_of_some hsize
      rw [mergeSparse, mergeStar, hsize, decimal_of_not_denotes _ hdenotes]
      rfl
  | nameMissing hsize hdenotes hname =>
    rw [mergeSparse, mergeGnu1, required_of_some hsize, Edit.lift_ok_bind,
      decimal_of_denotes _ hdenotes, Edit.lift_ok_bind, required_of_none hname]
    rfl

/-- The keys leave a way to end. -/
theorem exists_merges (keys : ExtendedHeader) (e : Entry) (dialect : SparseDialect) :
    ∃ outcome, Merges keys e dialect outcome := by
  cases hsize : keys.lookup dialect.sizeKey with
  | none =>
    cases dialect with
    | gnu0 | gnu1 => exact ⟨_, .sizeMissing (by decide) hsize⟩
    | star => exact ⟨_, .starUnsized hsize⟩
  | some t =>
    by_cases hdenotes : ∃ n : UInt64, Denotes t n.toNat
    · obtain ⟨n, hn⟩ := hdenotes
      cases dialect with
      | gnu0 => exact ⟨_, .gnu0 hsize hn⟩
      | gnu1 =>
        cases hname : keys.lookup gnuName with
        | none => exact ⟨_, .nameMissing hsize hn hname⟩
        | some name => exact ⟨_, .gnu1 hsize hn hname⟩
      | star => exact ⟨_, .starSized hsize hn⟩
    · exact ⟨_, .sizeInvalid hsize (mt exists_uint64_of_denotes hdenotes)⟩

theorem mergeSparse_eq_iff :
    mergeSparse dialect keys e = outcome ↔ Merges keys e dialect outcome := by
  constructor
  · rintro rfl
    obtain ⟨outcome, h⟩ := exists_merges keys e dialect
    rwa [h.eq]
  · exact Merges.eq

/-- No key but those of the dialect has a part in how merging ends. -/
theorem Merges.congr (hkeys : ∀ key ∈ dialect.keys, keys'.lookup key = keys.lookup key)
    (h : Merges keys e dialect outcome) : Merges keys' e dialect outcome := by
  have hsizeKey : keys'.lookup dialect.sizeKey = keys.lookup dialect.sizeKey :=
    hkeys _ (by cases dialect <;> exact List.mem_cons_self)
  have hnameKey : dialect ≠ .star → keys'.lookup gnuName = keys.lookup gnuName :=
    fun hdialect => hkeys _ (by cases dialect <;> simp_all [SparseDialect.keys])
  cases h with
  | gnu0 hsize hdenotes =>
    rw [← hnameKey (by decide)]
    exact .gnu0 (hsizeKey.trans hsize) hdenotes
  | gnu1 hsize hdenotes hname =>
    exact .gnu1 (hsizeKey.trans hsize) hdenotes ((hnameKey (by decide)).trans hname)
  | starSized hsize hdenotes => exact .starSized (hsizeKey.trans hsize) hdenotes
  | starUnsized hsize => exact .starUnsized (hsizeKey.trans hsize)
  | sizeMissing hdialect hsize => exact .sizeMissing hdialect (hsizeKey.trans hsize)
  | sizeInvalid hsize hdenotes => exact .sizeInvalid (hsizeKey.trans hsize) hdenotes
  | nameMissing hsize hdenotes hname =>
    exact .nameMissing (hsizeKey.trans hsize) hdenotes ((hnameKey (by decide)).trans hname)

/-- Merging ends in the one way that the keys of the dialect allow. -/
theorem mergeSparse_outcome (keys : ExtendedHeader) (e : Entry) (dialect : SparseDialect) :
    (∀ outcome, mergeSparse dialect keys e = outcome ↔ Merges keys e dialect outcome) ∧
      (∀ keys' : ExtendedHeader, (∀ key ∈ dialect.keys, keys'.lookup key = keys.lookup key) →
        mergeSparse dialect keys' e = mergeSparse dialect keys e) ∧
      mergeSparse .gnu0 = mergeGnu0 ∧ mergeSparse .gnu1 = mergeGnu1 ∧
      mergeSparse .star = mergeStar := by
  refine ⟨fun outcome => mergeSparse_eq_iff, ?_, rfl, rfl, rfl⟩
  intro keys' hkeys
  exact mergeSparse_eq_iff.mpr ((mergeSparse_eq_iff.mp rfl).congr hkeys)

/-- Zeros in front of a number count for nothing, and neither does the size key of another dialect. -/
theorem paddedSize_merged :
    mergeSparse .gnu0 [("GNU.sparse.realsize", ['x']), ("GNU.sparse.size", ['+', '0', '7'])]
        { name := ['a'] } = .ok () { name := ['a'], paxSparse := true, realSize := 7 } := by
  obtain ⟨hends, hother, -⟩ := mergeSparse_outcome [("GNU.sparse.size", ['+', '0', '7'])]
    { name := ['a'] } .gnu0
  have hdigits : Spells ['0', '7'] 7 :=
    .snoc (d := 7) (.digit (d := 0) (by decide)) (by decide)
  rw [hother _ (by decide), hends]
  exact .gnu0 rfl (.plus hdigits (by decide))

end Entry

end TarHeader
