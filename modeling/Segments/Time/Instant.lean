import Segments.Time.Calendar

namespace Segments.Time

/-- A time of day: seconds since midnight, and nanoseconds, from 10 ^ 9 on in a leap second. -/
structure TimeOfDay where
  seconds : Nat
  nanos : Nat
  deriving DecidableEq, Repr

/-- Seconds since 1970 began, and nanoseconds. A leap second is the second 59 with a whole second
more of nanoseconds, so that it sorts after its 59 and before the next minute. -/
structure Instant where
  seconds : Int
  nanos : Nat
  deriving DecidableEq, Repr

instance : Inhabited Instant :=
  ⟨⟨0, 0⟩⟩

def Instant.compare (a b : Instant) : Ordering :=
  (Ord.compare a.seconds b.seconds).then (Ord.compare a.nanos b.nanos)

def secondsPerDay : Int := 86400

def Instant.ofParts (d : Date) (t : TimeOfDay) : Instant :=
  ⟨d.number * secondsPerDay + t.seconds, t.nanos⟩

def Instant.date (i : Instant) : Date :=
  Date.ofNumber (i.seconds / secondsPerDay)

def Instant.time (i : Instant) : TimeOfDay :=
  ⟨(i.seconds % secondsPerDay).toNat, i.nanos⟩

def Instant.earliest : Int :=
  (Date.mk firstYear 1 1).number * secondsPerDay

def Instant.latest : Int :=
  (Date.mk lastYear 12 31).number * secondsPerDay + 86399

/-- The instant at which a clock `offset` seconds ahead shows the date and time, if it lies
within the supported years. -/
def Instant.ofLocal? (d : Date) (t : TimeOfDay) (offset : Int) : Option Instant :=
  let i := Instant.ofParts d t
  let shifted := i.seconds - offset
  if earliest ≤ shifted && shifted ≤ latest then some ⟨shifted, i.nanos⟩ else none

end Segments.Time
