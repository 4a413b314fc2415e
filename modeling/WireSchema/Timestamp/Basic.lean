/-! # Timestamps

Instants with nanoseconds. A leap second is counted as part of the second before it, with a billion
nanoseconds more. -/

namespace WireSchema

/-- **A timestamp** in universal time. -/
structure Timestamp where
  /-- The seconds since 1970-01-01, without leap seconds. -/
  seconds : Int
  /-- The nanoseconds within the second, from a billion on within the leap second that follows. -/
  nanos : Nat
  deriving DecidableEq

namespace Timestamp

/-- The number of nanoseconds in a second. -/
def nanosPerSecond : Nat := 1000000000

/-- The number of seconds in a day. -/
def secondsPerDay : Nat := 86400

/-- The timestamp with its nanoseconds cut to whole milliseconds. -/
def cutToMillis (timestamp : Timestamp) : Timestamp :=
  ⟨timestamp.seconds, timestamp.nanos / 1000000 * 1000000⟩

end Timestamp

end WireSchema
