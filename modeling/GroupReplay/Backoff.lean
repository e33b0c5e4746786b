/-!
The waiting times between attempts to connect.  They double up to a limit, and each is drawn out by
a random time that is at most as long as itself.
-/

namespace GroupReplay

/-- A schedule of waiting times, in milliseconds. -/
structure Backoff where
  shortest : Nat
  longest : Nat
  /-- How often there is another attempt. -/
  times : Nat
  deriving DecidableEq, Repr

namespace Backoff

/-- The schedule by which the service is connected to. -/
def connection : Backoff := { shortest := 100, longest := 5000, times := 30 }

/-- The waiting time before an attempt, without what chance adds to it. -/
def delay (backoff : Backoff) : Nat → Nat
  | 0 => min backoff.shortest backoff.longest
  | attempt + 1 => min (2 * delay backoff attempt) backoff.longest

/-- Whether there is an attempt of a number and the waiting time before it is sure to lie in a
range, whatever chance adds to it. -/
def surelyWithin (backoff : Backoff) (attempt least most : Nat) : Bool :=
  attempt < backoff.times && least ≤ backoff.delay attempt && 2 * backoff.delay attempt ≤ most

end Backoff

end GroupReplay
