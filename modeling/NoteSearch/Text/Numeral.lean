/-!
# Integers in text

Decimal digits read as a natural number, signs in front of them, and the ranges of 32 and 64 bit
words. A text is a numeral only as a whole: nothing around the digits is skipped.
-/

namespace NoteSearch
namespace Numeral

def isDigit (c : Char) : Bool := '0' ≤ c && c ≤ '9'

def digitValue (c : Char) : Nat := c.toNat - '0'.toNat

/-- The number written by decimal digits, the most significant first. -/
def ofDigits (cs : List Char) : Nat := cs.foldl (fun n c => 10 * n + digitValue c) 0

/-- At least one digit and nothing else. -/
def readDigits? (cs : List Char) : Option Nat :=
  if cs.isEmpty || !cs.all isDigit then none else some (ofDigits cs)

/-- Digits after an optional plus sign. -/
def readNat? : List Char → Option Nat
  | '+' :: cs => readDigits? cs
  | cs => readDigits? cs

def readInt? : List Char → Option Int
  | '-' :: cs => (readDigits? cs).map fun n => -(n : Int)
  | '+' :: cs => (readDigits? cs).map Int.ofNat
  | cs => (readDigits? cs).map Int.ofNat

def minInt64 : Int := -9223372036854775808

def maxInt64 : Int := 9223372036854775807

def maxWord64 : Nat := 18446744073709551615

def maxWord32 : Nat := 4294967295

def fitsInt64 (n : Int) : Bool := minInt64 ≤ n && n ≤ maxInt64

def readInt64? (cs : List Char) : Option Int := (readInt? cs).filter fitsInt64

def readWord64? (cs : List Char) : Option Nat := (readNat? cs).filter (· ≤ maxWord64)

def readWord32? (cs : List Char) : Option Nat := (readNat? cs).filter (· ≤ maxWord32)

/-- The last `width` decimal digits of a number, the most significant first. -/
def padded : Nat → Nat → List Char
  | 0, _ => []
  | width + 1, n => padded width (n / 10) ++ [Char.ofNat ('0'.toNat + n % 10)]

/-- Decimal digits without leading zeros. -/
def digitsOf (n : Nat) : List Char := Nat.toDigits 10 n

def writeInt (n : Int) : String :=
  match n with
  | .ofNat n => String.ofList (digitsOf n)
  | .negSucc n => String.ofList ('-' :: digitsOf (n + 1))

@[simp] theorem length_padded (width n : Nat) : (padded width n).length = width := by
  induction width generalizing n with
  | zero => rfl
  | succ width ih => simp [padded, ih]

end Numeral
end NoteSearch
