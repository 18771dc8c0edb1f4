/-!
# Double-precision numbers

Finite doubles as a sign and an exact product `significand · 2^exponent`, each value in one form:
the significand has 53 bits unless the exponent is the least one. Results of arithmetic are the
exact rational results, rounded to the nearest double with ties to the even significand.
-/

namespace NoteSearch

structure Binary64 where
  negative : Bool
  significand : Nat
  exponent : Int
deriving DecidableEq, Repr

namespace Binary64

def precision : Nat := 53

def minExponent : Int := -1074

def maxExponent : Int := 971

def zero (negative : Bool) : Binary64 := ⟨negative, 0, minExponent⟩

/-- The quotient rounded to the nearest natural number, a half to the even neighbour. -/
def roundQuotient (num den : Nat) : Nat :=
  let q := num / den
  let r := num % den
  if 2 * r < den then q else if den < 2 * r then q + 1 else q + q % 2

/-- `num / den` counted in units of `2^exponent`, as a new numerator and denominator. -/
def inUnits (num den : Nat) (exponent : Int) : Nat × Nat :=
  (num * Nat.pow 2 (-exponent).toNat, den * Nat.pow 2 exponent.toNat)

/-- The exponent at which `num / den` has 53 bits before the point, or the least exponent. -/
def unitExponent (num den : Nat) : Int :=
  let guess := max ((num.log2 : Int) - (den.log2 : Int) - precision) minExponent
  let scaled := inUnits num den guess
  if Nat.pow 2 precision * scaled.2 ≤ scaled.1 then guess + 1 else guess

/-- The double nearest to `num / den`; none if it is out of range. -/
def ofRatio? (negative : Bool) (num den : Nat) : Option Binary64 :=
  if num = 0 then some (zero negative)
  else
    let exponent := unitExponent num den
    let scaled := inUnits num den exponent
    let significand := roundQuotient scaled.1 scaled.2
    let result : Binary64 :=
      if significand = Nat.pow 2 precision then
        ⟨negative, Nat.pow 2 (precision - 1), exponent + 1⟩
      else ⟨negative, significand, exponent⟩
    if result.exponent ≤ maxExponent then some result else none

def ofNat? (n : Nat) : Option Binary64 := ofRatio? false n 1

def neg (x : Binary64) : Binary64 := { x with negative := !x.negative }

def isZero (x : Binary64) : Bool := x.significand == 0

/-- Numerator and denominator of the absolute value. -/
def ratio (x : Binary64) : Nat × Nat :=
  (x.significand * Nat.pow 2 x.exponent.toNat, Nat.pow 2 (-x.exponent).toNat)

def mul? (x y : Binary64) : Option Binary64 :=
  ofRatio? (x.negative != y.negative) (x.ratio.1 * y.ratio.1) (x.ratio.2 * y.ratio.2)

/-- The divisor is not zero. -/
def div? (x y : Binary64) : Option Binary64 :=
  ofRatio? (x.negative != y.negative) (x.ratio.1 * y.ratio.2) (x.ratio.2 * y.ratio.1)

/-- The natural number a double stands for; none for fractions and negative numbers. -/
def toNat? (x : Binary64) : Option Nat :=
  if x.negative && !x.isZero then none
  else if x.ratio.1 % x.ratio.2 = 0 then some (x.ratio.1 / x.ratio.2) else none

/-- The nearest natural number to the absolute value, halves upwards. -/
def roundAbs (x : Binary64) : Nat := (2 * x.ratio.1 + x.ratio.2) / (2 * x.ratio.2)

@[simp] theorem neg_neg (x : Binary64) : x.neg.neg = x := by
  simp [neg]

end Binary64
end NoteSearch
