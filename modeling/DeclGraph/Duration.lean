import DeclGraph.Decimal.Fixed

/-!
# Durations

A span of time, shown in the largest unit that suits it: whole microseconds below a millisecond,
whole milliseconds below a second, seconds with two places below a minute, and then minutes and
seconds.
-/

namespace DeclGraph

open Decimal

/-- A span of time. -/
structure Duration where
  seconds : Nat
  /-- The part below a second. -/
  nanos : Nat
  deriving DecidableEq, Repr

namespace Duration

/-- The span of `seconds` and `nanos` together. -/
def make (seconds nanos : Nat) : Duration := ⟨seconds + nanos / 1000000000, nanos % 1000000000⟩

variable (d : Duration)

/-- All nanoseconds. -/
def totalNanos : Nat := d.seconds * 1000000000 + d.nanos

/-- All seconds, as a float. -/
def totalSeconds : Float := d.seconds.toUInt64.toFloat + d.nanos.toUInt64.toFloat / 1000000000.0

/-- The seconds of a float after its whole minutes, with one place. The remainder is exact. -/
def secondsInMinute (seconds : Float) : String :=
  let x := Binary64.ofFloat seconds
  fixed 1 (x.num % (60 * x.den)) x.den

/-- The span as text. -/
def display : String :=
  let seconds := d.totalSeconds
  if seconds < 0.001 then toString (d.totalNanos / 1000) ++ "µs"
  else if seconds < 1.0 then toString (d.totalNanos / 1000000) ++ "ms"
  else if seconds < 60.0 then fixedFloat 2 seconds ++ "s"
  else fixedFloat 0 (seconds / 60.0).floor ++ "m " ++ secondsInMinute seconds ++ "s"

end Duration

end DeclGraph
