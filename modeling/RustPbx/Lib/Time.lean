import Mathlib.Algebra.Ring.Nat

/-!
Instants and durations, in nanoseconds.

A library that computes with signed milliseconds takes durations up to `maxTimeDelta`; a longer one
is replaced by a default.
-/

namespace Time

def secs (n : Nat) : Nat := n * 10 ^ 9

def hours (n : Nat) : Nat := secs (n * 3600)

def maxTimeDelta : Nat := (2 ^ 63 - 1) * 10 ^ 6

def fromStd (duration : Nat) : Option Nat :=
  if duration ≤ maxTimeDelta then some duration else none

/-- An instant some time earlier, unless it is before the first one that can be written. -/
def before (first instant : Int) (duration : Nat) : Option Int :=
  if first ≤ instant - duration then some (instant - duration) else none

end Time
