import NoteSearch.Decimal.Binary64
import NoteSearch.Text.Numeral

/-!
# Shortest digits

Of the decimals that round to a double, the ones with the fewest digits are considered, and of those
the one nearest to the double is taken. The search walks the grids of one, two, … seventeen digits
and tests on each grid the two neighbours of the double.
-/

namespace NoteSearch
namespace Shortest

structure Decimal where
  significand : Nat
  exponent : Int
deriving DecidableEq, Repr

/-- The reals that round to a double: `low / scale` to `high / scale`, ends included or not. -/
structure Interval where
  low : Nat
  middle : Nat
  high : Nat
  scale : Nat
  closed : Bool

/-- The neighbour below a power of two is only half as far away as the one above. -/
def interval (x : Binary64) : Interval :=
  let power := Nat.pow 2 x.exponent.toNat
  let below :=
    if x.significand = Nat.pow 2 (Binary64.precision - 1) &&
      Binary64.minExponent < x.exponent then 1
    else 2
  { low := (4 * x.significand - below) * power
    middle := 4 * x.significand * power
    high := (4 * x.significand + 2) * power
    scale := 4 * Nat.pow 2 (-x.exponent).toNat
    closed := x.significand % 2 == 0 }

/-- `n · 10^exponent` over `scale`, as a fraction with the interval's denominator cleared. -/
def Interval.contains (i : Interval) (n : Nat) (exponent : Int) : Bool :=
  let value := n * Nat.pow 10 exponent.toNat * i.scale
  let unit := Nat.pow 10 (-exponent).toNat
  if i.closed then i.low * unit ≤ value && value ≤ i.high * unit
  else i.low * unit < value && value < i.high * unit

/-- The greatest `k` with `10^k ≤ num / den`, for a positive fraction. -/
def magnitude (num den : Nat) : Int :=
  let guess := ((Numeral.digitsOf num).length : Int) - (Numeral.digitsOf den).length
  if den * Nat.pow 10 guess.toNat ≤ num * Nat.pow 10 (-guess).toNat then guess else guess - 1

/-- The better of the two neighbours of the interval's middle on the grid of `10^exponent`. -/
def candidate? (i : Interval) (exponent : Int) : Option Nat :=
  let num := i.middle * Nat.pow 10 (-exponent).toNat
  let den := i.scale * Nat.pow 10 exponent.toNat
  let below := num / den
  let rest := num % den
  match i.contains below exponent, i.contains (below + 1) exponent with
  | true, true =>
    if 2 * rest < den || (2 * rest = den && below % 2 = 0) then some below else some (below + 1)
  | true, false => some below
  | false, true => some (below + 1)
  | false, false => none

/-- Tries grids of growing fineness, `exponent` being that of the next one. -/
def search (i : Interval) : Nat → Int → Decimal
  | 0, exponent =>
    ⟨i.middle * Nat.pow 10 (-exponent).toNat / (i.scale * Nat.pow 10 exponent.toNat), exponent⟩
  | fuel + 1, exponent =>
    match candidate? i exponent with
    | some n => ⟨n, exponent⟩
    | none => search i fuel (exponent - 1)

def decimal (x : Binary64) : Decimal :=
  let i := interval x
  search i 17 (magnitude i.middle i.scale)

end Shortest
end NoteSearch
