import Switchboard.Instances

/-!
# Durations

A length of time, counted in nanoseconds, and its text: the largest unit that leaves a whole part,
then the fraction without trailing zeros.
-/

namespace Switchboard

structure Duration where
  nanos : Nat
  deriving DecidableEq, Repr, Inhabited

namespace Duration

def ofSecs (n : Nat) : Duration := ⟨n * 1000000000⟩

def ofMillis (n : Nat) : Duration := ⟨n * 1000000⟩

/-- The whole milliseconds needed to cover a duration. -/
def millis (d : Duration) : Nat := (d.nanos + 999999) / 1000000

/-- The digits of a fraction with `places` decimal places, without trailing zeros. -/
def fraction (places part : Nat) : List Char :=
  let digits := (toString part).toList
  let padded := List.replicate (places - digits.length) '0' ++ digits
  (padded.reverse.dropWhile (· = '0')).reverse

/-- A number of nanoseconds in a unit of `10 ^ places` nanoseconds. -/
def inUnit (places : Nat) (name : String) (nanos : Nat) : String :=
  let whole := nanos / 10 ^ places
  let digits := fraction places (nanos % 10 ^ places)
  if digits.isEmpty then toString whole ++ name
  else toString whole ++ "." ++ String.ofList digits ++ name

def text (d : Duration) : String :=
  if 1000000000 ≤ d.nanos then inUnit 9 "s" d.nanos
  else if 1000000 ≤ d.nanos then inUnit 6 "ms" d.nanos
  else if 1000 ≤ d.nanos then inUnit 3 "µs" d.nanos
  else inUnit 0 "ns" d.nanos

end Duration

end Switchboard
