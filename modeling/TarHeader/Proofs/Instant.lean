import TarHeader.Instant

/- Points in time and durations as numbers of nanoseconds. Each number within the range of points
   in time is that of one of them (`ofNanos?_eq_some_iff`), and none lies further from the start of
   1970 than a duration reaches, so the distance between them is never cut (`since_epoch`). Counted
   in whole seconds toward 1970, every point in time then has a signed word of its own second
   (`toInt_wholeSeconds`), also the earliest, whose distance in seconds has none. -/
namespace TarHeader

theorem int64?_natCast {n : Nat} (h : n < 0x8000000000000000) : int64? n = some (.ofInt n) :=
  if_pos ⟨by omega, by omega⟩

/-- The negative of a word is cut at the lowest one only. -/
theorem toInt_neg_of_nonneg {s : Int64} (h : 0 ≤ s.toInt) : (-s).toInt = -s.toInt := by
  have hlt := s.toInt_lt
  rw [Int64.toInt_neg]
  exact Int.bmod_eq_of_le (by omega) (by omega)

/-- The seconds of a number of nanoseconds. -/
theorem tdiv_nanos {secs nanos : Nat} (h : nanos < 1_000_000_000) :
    (secs * 1_000_000_000 + nanos : Int).tdiv 1_000_000_000 = secs := by
  rw [Int.tdiv_eq_ediv_of_nonneg (by omega)]
  omega

namespace Duration

theorem toNat_seconds_ofNanos {n : Nat} (h : n / 1_000_000_000 < 0x10000000000000000) :
    (ofNanos n).seconds.toNat = n / 1_000_000_000 :=
  UInt64.toNat_ofNat_of_lt' h

/-- Where no second is cut, a duration has the nanoseconds it is made of. -/
theorem toNanos_ofNanos {n : Nat} (h : n / 1_000_000_000 < 0x10000000000000000) :
    (ofNanos n).toNanos = n := by
  rw [toNanos, toNat_seconds_ofNanos h, Nat.mul_comm]
  exact Nat.div_add_mod n 1_000_000_000

@[simp] theorem toNanos_ofSeconds (s : UInt64) :
    (ofSeconds s).toNanos = s.toNat * 1_000_000_000 := Nat.add_zero _

theorem toNanos_tdiv (d : Duration) :
    (d.toNanos : Int).tdiv 1_000_000_000 = d.seconds.toNat := by
  rw [toNanos, Int.natCast_add, Int.natCast_mul]
  exact tdiv_nanos d.nanos_lt

end Duration

namespace Instant

variable {t t' : Instant} {n : Int}

theorem ext_toNanos (h : t.toNanos = t'.toNanos) : t = t' := by
  have hlt := t.nanos_lt
  have hlt' := t'.nanos_lt
  simp only [toNanos] at h
  have hseconds : t.seconds.toInt = t'.seconds.toInt := by omega
  have hnanos : t.nanos = t'.nanos := by omega
  cases t
  cases t'
  simp only [mk.injEq]
  exact ⟨Int64.toInt_inj.mp hseconds, hnanos⟩

/-- Points in time lie within 2^63 seconds of the start of 1970. -/
theorem toNanos_bounds (t : Instant) :
    -0x8000000000000000 * 1_000_000_000 ≤ t.toNanos ∧
      t.toNanos < 0x8000000000000000 * 1_000_000_000 := by
  have hlow := t.seconds.le_toInt
  have hhigh := t.seconds.toInt_lt
  have hlt := t.nanos_lt
  rw [toNanos]
  omega

theorem ofNanos?_eq_some_iff : ofNanos? n = some t ↔ t.toNanos = n := by
  unfold ofNanos?
  split
  · next h =>
    obtain ⟨hlow, hhigh⟩ := h
    have hmade : ∀ hlt,
        (mk (.ofInt (n / 1_000_000_000)) (n % 1_000_000_000).toNat hlt).toNanos = n := by
      intro hlt
      have hnonneg := Int.emod_nonneg n (show (1_000_000_000 : Int) ≠ 0 by decide)
      show (Int64.ofInt (n / 1_000_000_000)).toInt * 1_000_000_000 +
        ((n % 1_000_000_000).toNat : Int) = n
      rw [Int64.toInt_ofInt_of_le (by omega) (by omega), Int.toNat_of_nonneg hnonneg, Int.mul_comm]
      exact Int.mul_ediv_add_emod n 1_000_000_000
    constructor
    · intro hsome
      cases hsome
      exact hmade _
    · intro ht
      exact congrArg some (ext_toNanos ((hmade _).trans ht.symm))
  · next h =>
    have hbounds := t.toNanos_bounds
    refine iff_of_false nofun fun ht => h ?_
    omega

@[simp] theorem toNanos_ofSeconds (s : Int64) :
    (ofSeconds s).toNanos = s.toInt * 1_000_000_000 := Int.add_zero _

@[simp] theorem toNanos_epoch : epoch.toNanos = 0 := rfl

/-- The duration to or from the start of 1970 is exact. -/
theorem since_epoch (t : Instant) :
    (∃ d, t.since epoch = .ok d ∧ t.toNanos = d.toNanos) ∨
      ∃ d, t.since epoch = .error d ∧ t.toNanos = -d.toNanos := by
  have hbounds := t.toNanos_bounds
  have hexact : ∀ m : Int, 0 ≤ m → m ≤ 0x8000000000000000 * 1_000_000_000 →
      ((Duration.ofNanos m.toNat).toNanos : Int) = m := by
    intro m hm hle
    rw [Duration.toNanos_ofNanos (by omega), Int.toNat_of_nonneg hm]
  rw [since, toNanos_epoch, Int.sub_zero, Int.zero_sub]
  by_cases h : epoch ≤ t
  · rw [if_pos h]
    have hpos : 0 ≤ t.toNanos := h
    exact .inl ⟨_, rfl, (hexact _ hpos (by omega)).symm⟩
  · rw [if_neg h]
    have hneg : ¬ 0 ≤ t.toNanos := h
    refine .inr ⟨_, rfl, ?_⟩
    rw [hexact _ (by omega) (by omega), Int.neg_neg]

theorem toInt_wholeSeconds_of_ok {d : Duration} (h : t.since epoch = .ok d)
    (hlt : d.seconds.toNat < 0x8000000000000000) : t.wholeSeconds.toInt = d.seconds.toNat := by
  have hword := int64?_natCast hlt
  rw [wholeSeconds, h]
  show ((int64? d.seconds.toNat).getD Int64.maxValue).toInt = d.seconds.toNat
  rw [hword]
  exact toInt_of_int64? hword

theorem toInt_wholeSeconds_of_error {d : Duration} (h : t.since epoch = .error d)
    (hle : d.seconds.toNat ≤ 0x8000000000000000) : t.wholeSeconds.toInt = -d.seconds.toNat := by
  rw [wholeSeconds, h]
  show ((int64? d.seconds.toNat).elim Int64.minValue fun s => -s).toInt = -d.seconds.toNat
  by_cases hlt : d.seconds.toNat < 0x8000000000000000
  · have hword := int64?_natCast hlt
    have hvalue := toInt_of_int64? hword
    rw [hword, Option.elim_some, toInt_neg_of_nonneg (by omega), hvalue]
  · -- The earliest second is the one whose distance has no signed word.
    have hword : int64? d.seconds.toNat = none := if_neg (by omega)
    have hend : d.seconds.toNat = 0x8000000000000000 := by omega
    rw [hword, Option.elim_none, Int64.toInt_minValue, hend]
    decide

/-- Whole seconds are counted toward the start of 1970, and have a word of their own at both ends.
    -/
theorem toInt_wholeSeconds (t : Instant) :
    t.wholeSeconds.toInt = t.toNanos.tdiv 1_000_000_000 := by
  have hbounds := t.toNanos_bounds
  rcases t.since_epoch with ⟨d, hsince, ht⟩ | ⟨d, hsince, ht⟩
  · rw [ht, Duration.toNanos] at hbounds
    rw [toInt_wholeSeconds_of_ok hsince (by omega), ht, d.toNanos_tdiv]
  · rw [ht, Duration.toNanos] at hbounds
    rw [toInt_wholeSeconds_of_error hsince (by omega), ht, Int.neg_tdiv, d.toNanos_tdiv]

@[simp] theorem wholeSeconds_ofSeconds (s : Int64) : (ofSeconds s).wholeSeconds = s := by
  apply Int64.toInt_inj.mp
  rw [toInt_wholeSeconds, toNanos_ofSeconds]
  exact Int.mul_tdiv_cancel s.toInt (by decide)

theorem wholeSeconds_mono (h : t ≤ t') : t.wholeSeconds ≤ t'.wholeSeconds := by
  rw [Int64.le_iff_toInt_le, toInt_wholeSeconds, toInt_wholeSeconds]
  exact Int.tdiv_le_tdiv (by decide) h

end Instant

end TarHeader
