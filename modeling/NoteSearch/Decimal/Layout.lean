import NoteSearch.Decimal.Literal
import NoteSearch.Decimal.Shortest

/-!
# Layouts of decimals

How the shortest digits of a double are written: with a decimal point where it falls, or with one
digit before the point and a power of ten.
-/

namespace NoteSearch

/-- `positional` tells for the power of ten of the first digit whether the point is written in
place. Whole numbers end in `wholeMark`. -/
structure DecimalLayout where
  positional : Int → Bool
  wholeMark : List Char
  plusSign : List Char

namespace DecimalLayout

def stripZeros (cs : List Char) : List Char := (cs.reverse.dropWhile (· == '0')).reverse

/-- The digits of a double and the power of ten of the first one. -/
def digits (x : Binary64) : List Char × Int :=
  if x.isZero then (['0'], 0)
  else
    let d := Shortest.decimal x
    let written := Numeral.digitsOf d.significand
    (stripZeros written, d.exponent + (written.length : Int) - 1)

def withPoint (layout : DecimalLayout) (digits : List Char) (power : Int) : List Char :=
  if power < 0 then
    '0' :: '.' :: List.replicate (-power - 1).toNat '0' ++ digits
  else
    let whole := power.toNat + 1
    if digits.length ≤ whole then
      digits ++ List.replicate (whole - digits.length) '0' ++ layout.wholeMark
    else digits.take whole ++ '.' :: digits.drop whole

def withPower (layout : DecimalLayout) (digits : List Char) (power : Int) : List Char :=
  let fraction :=
    match digits with
    | first :: second :: rest => first :: '.' :: second :: rest
    | short => short
  let sign := if power < 0 then ['-'] else layout.plusSign
  fraction ++ 'e' :: sign ++ Numeral.digitsOf power.natAbs

def write (layout : DecimalLayout) (x : Binary64) : String :=
  let (digits, power) := digits x
  let body :=
    if layout.positional power then layout.withPoint digits power
    else layout.withPower digits power
  String.ofList (if x.negative then '-' :: body else body)

/-- Every digit in place, whole numbers without a point. -/
def plain : DecimalLayout := ⟨fun _ => true, [], []⟩

end DecimalLayout

/-- Values that are not finite are written as words. -/
def Real64.write (layout : DecimalLayout) : Real64 → String
  | .finite x => layout.write x
  | .infinite false => "inf"
  | .infinite true => "-inf"
  | .notANumber => "NaN"

end NoteSearch
