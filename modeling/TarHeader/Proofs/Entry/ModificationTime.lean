import TarHeader.Entry.Change
import TarHeader.Proofs.Instant

/- Modification times as seconds and as points in time. Seconds become the point in time at a
   duration before or after the start of 1970; the seconds of the duration are unsigned, so they
   reach the earliest time as well, and no seconds are too far away (`lastModified_eq`). A point in
   time becomes its whole seconds. So nothing is lost on the way from seconds and back, and on the
   way from a point in time only the fraction of a second, toward 1970 (`modTime_conversions`). -/
namespace TarHeader.Entry

/-- Every modification time is a point in time. -/
theorem lastModified_eq (e : Entry) : e.lastModified = some (.ofSeconds e.modTime) := by
  have hlow := e.modTime.le_toInt
  have hhigh := e.modTime.toInt_lt
  have hdistance : ((Duration.ofSeconds (.ofNat e.modTime.toInt.natAbs)).toNanos : Int) =
      e.modTime.toInt.natAbs * 1_000_000_000 := by
    rw [Duration.toNanos_ofSeconds, UInt64.toNat_ofNat_of_lt' (by simp [UInt64.size]; omega)]
    exact Int.natCast_mul _ _
  simp only [lastModified]
  split
  · next hsign =>
    have hpos : 0 ≤ e.modTime.toInt := Int64.le_iff_toInt_le.mp hsign
    apply Instant.ofNanos?_eq_some_iff.mpr
    rw [hdistance, Instant.toNanos_ofSeconds, Instant.toNanos_epoch]
    omega
  · next hsign =>
    have hneg : ¬ 0 ≤ e.modTime.toInt := fun h => hsign (Int64.le_iff_toInt_le.mpr h)
    apply Instant.ofNanos?_eq_some_iff.mpr
    rw [hdistance, Instant.toNanos_ofSeconds, Instant.toNanos_epoch]
    omega

/-- Seconds, all of them, become a point in time that becomes the same seconds. A point in time
    becomes the seconds of its distance from the start of 1970, negative before it, and an earlier
    one never more than a later one. -/
theorem modTime_conversions (files : FileView) :
    (∀ (e : Entry) (s : Int64), ∃ e₁ t, (Change.modTime s).run files e = .ok () e₁ ∧
      e₁.lastModified = some t ∧ t.toNanos = s.toInt * 1_000_000_000 ∧
      ∀ e' : Entry, ∃ e₂, (Change.lastModified t).run files e' = .ok () e₂ ∧ e₂.modTime = s) ∧
    (∀ (e : Entry) (t : Instant), ∃ e₁, (Change.lastModified t).run files e = .ok () e₁ ∧
      ∀ secs nanos : Nat, nanos < 1_000_000_000 →
        (t.toNanos = secs * 1_000_000_000 + nanos → e₁.modTime.toInt = secs) ∧
        (t.toNanos = -(secs * 1_000_000_000 + nanos) → e₁.modTime.toInt = -secs)) ∧
    ∀ (e e' : Entry) (t t' : Instant), t ≤ t' →
      ∃ e₁ e₂, (Change.lastModified t).run files e = .ok () e₁ ∧
        (Change.lastModified t').run files e' = .ok () e₂ ∧ e₁.modTime ≤ e₂.modTime := by
  -- Both changes replace the modification time and always succeed.
  have hset : ∀ (e : Entry) (t : Instant),
      (Change.lastModified t).run files e = .ok () { e with modTime := t.wholeSeconds } :=
    fun _ _ => rfl
  refine ⟨fun e s => ?_, fun e t => ?_, fun e e' t t' hle => ?_⟩
  · refine ⟨{ e with modTime := s }, .ofSeconds s, rfl, lastModified_eq _,
      Instant.toNanos_ofSeconds s, fun e' => ?_⟩
    exact ⟨_, hset e' (.ofSeconds s), Instant.wholeSeconds_ofSeconds s⟩
  · refine ⟨_, hset e t, fun secs nanos hlt => ?_⟩
    have hsecs : (secs * 1_000_000_000 + nanos : Int).tdiv 1_000_000_000 = secs := tdiv_nanos hlt
    show (_ → t.wholeSeconds.toInt = secs) ∧ (_ → t.wholeSeconds.toInt = -secs)
    rw [Instant.toInt_wholeSeconds]
    constructor
    · intro hafter
      rw [hafter, hsecs]
    · intro hbefore
      rw [hbefore, Int.neg_tdiv, hsecs]
  · exact ⟨_, _, hset e t, hset e' t', Instant.wholeSeconds_mono hle⟩

/-- A second and a half before 1970. -/
def newYearsEve : Instant := { seconds := -2, nanos := 500_000_000 }

/-- The half second is dropped, toward 1970, and the time stays no later than the start of it. -/
theorem newYearsEve_converted :
    (∃ e, (Change.lastModified newYearsEve).run .empty {} = .ok () e ∧ e.modTime.toInt = -1) ∧
    ∃ e₁ e₂, (Change.lastModified newYearsEve).run .empty {} = .ok () e₁ ∧
      (Change.lastModified .epoch).run .empty {} = .ok () e₂ ∧ e₁.modTime ≤ e₂.modTime := by
  obtain ⟨-, hseconds, horder⟩ := modTime_conversions .empty
  obtain ⟨e, he, htime⟩ := hseconds {} newYearsEve
  have hdistance : newYearsEve.toNanos = -((1 : Nat) * 1_000_000_000 + (500_000_000 : Nat)) := by
    decide
  exact ⟨⟨e, he, (htime 1 500_000_000 (by decide)).2 hdistance⟩, horder {} {} _ _ (by decide)⟩

/-- The earliest second, whose distance from 1970 is no signed word. -/
example : (Entry.lastModified { modTime := Int64.minValue }).map Instant.wholeSeconds =
    some Int64.minValue := by decide

end TarHeader.Entry
