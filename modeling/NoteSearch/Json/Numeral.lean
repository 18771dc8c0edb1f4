import NoteSearch.Json.Basic
import NoteSearch.Text.Numeral

/-!
# JSON numerals

A numeral without fraction and power of ten is an integer if a 64 bit word holds it. Every other one
is a double: its digits are gathered into a 64 bit significand, digits that no longer fit are
dropped, and the significand is scaled by powers of ten in double arithmetic. A numeral beyond the
doubles is no number; minus zero is a double.
-/

namespace NoteSearch
namespace JsonNumeral

open Numeral

structure Parts where
  negative : Bool
  whole : List Char
  fraction : Option (List Char)
  power : Option Int

def power? : List Char → Option (Option Int)
  | [] => some none
  | 'e' :: cs => (readInt? cs).map some
  | 'E' :: cs => (readInt? cs).map some
  | _ => none

/-- No zero comes before other digits. -/
def isWhole : List Char → Bool
  | [] => false
  | ['0'] => true
  | c :: cs => c != '0' && isDigit c && cs.all isDigit

def unsignedParts? (negative : Bool) (cs : List Char) : Option Parts :=
  let whole := cs.takeWhile isDigit
  if !isWhole whole then none
  else
    match cs.dropWhile isDigit with
    | '.' :: rest =>
      let fraction := rest.takeWhile isDigit
      if fraction.isEmpty then none
      else (power? (rest.dropWhile isDigit)).map fun power =>
        ⟨negative, whole, some fraction, power⟩
    | rest => (power? rest).map fun power => ⟨negative, whole, none, power⟩

def parts? : List Char → Option Parts
  | '-' :: cs => unsignedParts? true cs
  | cs => unsignedParts? false cs

/-- Appends digits to a significand while it stays a 64 bit word; the rest is handed back. -/
def gather (significand : Nat) : List Char → Nat × List Char
  | [] => (significand, [])
  | c :: cs =>
    let next := 10 * significand + digitValue c
    if next ≤ maxWord64 then gather next cs else (significand, c :: cs)

def powerOfTen (k : Nat) : Binary64 := (Binary64.ofNat? (Nat.pow 10 k)).getD (Binary64.zero false)

def greatestPower : Nat := 308

/-- Scales by a power of ten in steps that stay within the doubles. Two steps down already reach
zero, so three suffice. -/
def scaleWithin : Nat → Binary64 → Int → Option Binary64
  | 0, _, _ => some (Binary64.zero false)
  | steps + 1, x, power =>
    if power.natAbs ≤ greatestPower then
      if 0 ≤ power then x.mul? (powerOfTen power.natAbs) else x.div? (powerOfTen power.natAbs)
    else if x.isZero then some x
    else if 0 ≤ power then none
    else (x.div? (powerOfTen greatestPower)).bind fun y =>
      scaleWithin steps y (power + greatestPower)

def scale (significand : Nat) (power : Int) : Option Binary64 :=
  (Binary64.ofNat? significand).bind fun x => scaleWithin 3 x power

/-- The value of the digits as a double. -/
def double? (p : Parts) : Option Binary64 :=
  let whole := gather 0 p.whole
  let fraction := p.fraction.getD []
  let all := gather whole.1 fraction
  let shift : Int := (whole.2.length : Int) - ((fraction.length - all.2.length : Nat) : Int)
  (scale all.1 (shift + p.power.getD 0)).map fun x => if p.negative then x.neg else x

/-- The integer a 64 bit word holds; minus zero is none. -/
def integer? (p : Parts) : Option Int :=
  match p.fraction, p.power with
  | none, none =>
    let n := ofDigits p.whole
    if p.negative then
      if n ≠ 0 && fitsInt64 (-(n : Int)) then some (-(n : Int)) else none
    else if n ≤ maxWord64 then some (n : Int) else none
  | _, _ => none

def read? (cs : List Char) : Option Json :=
  (parts? cs).bind fun p =>
    match integer? p with
    | some n => some (.integer n)
    | none => (double? p).map .double

end JsonNumeral
end NoteSearch
