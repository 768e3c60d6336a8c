import FlowGraph.Decimal.Shortest
import FlowGraph.Powers

/-! # Durations

    How long a wait lasts that is given as a number of seconds.  Durations count whole
    nanoseconds, the clock whole milliseconds: a duration is rounded to the nearest
    nanosecond, and a wait never ends before its duration is over. -/

namespace FlowGraph.Duration

/-- The natural number nearest to `num / den`; of two the even one. -/
def roundDiv (num den : Nat) : Nat :=
  let below := num / den
  let rest := num % den
  if 2 * rest < den || (2 * rest = den && below % 2 = 0) then below else below + 1

/-- The nanoseconds of a finite number of seconds without its sign. -/
def magnitude (seconds : Float) : Nat :=
  let b := Decimal.Binary.ofFloat seconds
  roundDiv (b.mantissa * tenTo 9 * twoTo b.exponent.toNat) (twoTo (-b.exponent).toNat)

/-- The nanoseconds of a number of seconds.  Only numbers that are not negative and
    below `2 ^ 64` are durations. -/
def nanoseconds? (seconds : Float) : Option Nat :=
  if seconds.isFinite && !(seconds < 0) then
    let n := magnitude seconds
    if n < twoTo 64 * tenTo 9 then some n else none
  else none

/-- The seconds that the clock cannot hold any more.  It holds less than `2 ^ 63` and has
    been running for a while when a wait starts. -/
def clockSeconds : Nat := twoTo 63 - twoTo 10

/-- The milliseconds of thirty years of 365 days. -/
def thirtyYears : Nat := 30 * 365 * 86400 * 1000

/-- The milliseconds after which a number of seconds is over.  What is no duration is
    over at once, and what the clock cannot hold after thirty years. -/
def milliseconds (seconds : Float) : Nat :=
  match nanoseconds? seconds with
  | none => 0
  | some n => if clockSeconds * tenTo 9 ≤ n then thirtyYears else (n + 999999) / 1000000

end FlowGraph.Duration
