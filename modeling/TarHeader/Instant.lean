import TarHeader.Numeral.Word

/- Points in time, as whole seconds since the start of 1970, rounded down, and the nanoseconds on
   top of them, and the durations between them. A point in time has signed seconds and a duration
   unsigned ones, so a second is counted by one of two words. An entry keeps whole seconds only: the
   fraction is dropped, so that a time before 1970 moves forward and one after it moves back. -/
namespace TarHeader

/-- A length of time. -/
structure Duration where
  seconds : UInt64
  nanos : Nat
  nanos_lt : nanos < 1_000_000_000 := by decide
  deriving DecidableEq

namespace Duration

def ofSeconds (s : UInt64) : Duration := { seconds := s, nanos := 0 }

def toNanos (d : Duration) : Nat := d.seconds.toNat * 1_000_000_000 + d.nanos

/-- The duration of `n` nanoseconds. Seconds that have no word are cut to one. -/
def ofNanos (n : Nat) : Duration where
  seconds := .ofNat (n / 1_000_000_000)
  nanos := n % 1_000_000_000
  nanos_lt := Nat.mod_lt n (by decide)

end Duration

structure Instant where
  seconds : Int64
  nanos : Nat
  nanos_lt : nanos < 1_000_000_000 := by decide
  deriving DecidableEq

namespace Instant

def ofSeconds (s : Int64) : Instant := { seconds := s, nanos := 0 }

/-- The start of 1970. -/
def epoch : Instant := ofSeconds 0

/-- The distance from the start of 1970 in nanoseconds. -/
def toNanos (t : Instant) : Int := t.seconds.toInt * 1_000_000_000 + t.nanos

/-- The point in time at a distance from the start of 1970, unless it is too far away. -/
def ofNanos? (n : Int) : Option Instant :=
  if -0x8000000000000000 ≤ n / 1_000_000_000 ∧ n / 1_000_000_000 < 0x8000000000000000 then
    some
      { seconds := .ofInt (n / 1_000_000_000)
        nanos := (n % 1_000_000_000).toNat
        nanos_lt := by
          have := Int.emod_lt_of_pos n (show (0 : Int) < 1_000_000_000 by decide)
          omega }
  else none

/-- An earlier point in time, or the same. -/
instance : LE Instant := ⟨fun t t' => t.toNanos ≤ t'.toNanos⟩

instance (t t' : Instant) : Decidable (t ≤ t') := inferInstanceAs (Decidable (_ ≤ (_ : Int)))

/-- The point in time a duration after `t`, unless it is too far away. -/
def later? (t : Instant) (d : Duration) : Option Instant := ofNanos? (t.toNanos + d.toNanos)

/-- The point in time a duration before `t`, unless it is too far away. -/
def earlier? (t : Instant) (d : Duration) : Option Instant := ofNanos? (t.toNanos - d.toNanos)

/-- The duration since `origin`, or as a failure the duration until then, where `t` is before it. -/
def since (t origin : Instant) : Except Duration Duration :=
  if origin ≤ t then .ok (.ofNanos (t.toNanos - origin.toNanos).toNat)
  else .error (.ofNanos (origin.toNanos - t.toNanos).toNat)

/-- Whole seconds since the start of 1970, rounded toward it. For seconds beyond the signed word its
    end on that side is taken. -/
def wholeSeconds (t : Instant) : Int64 :=
  match t.since epoch with
  | .ok after => (int64? after.seconds.toNat).getD Int64.maxValue
  | .error before => (int64? before.seconds.toNat).elim Int64.minValue fun s => -s

end Instant

end TarHeader
