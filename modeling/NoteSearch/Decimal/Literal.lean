import NoteSearch.Decimal.Binary64
import NoteSearch.Text.Ascii
import NoteSearch.Text.Numeral

/-!
# Decimal literals

A literal is digits with an optional fraction and power of ten; at least one digit stands before the
power. It denotes the nearest double. The words for infinity and for no number denote values outside
the finite doubles.
-/

namespace NoteSearch

/-- A double, or one of the values that are not finite. -/
inductive Real64 where
  | finite (x : Binary64)
  | infinite (negative : Bool)
  | notANumber
deriving DecidableEq, Repr

namespace Literal

open Numeral

/-- A significand, the power of ten it is multiplied by, and the text that follows. -/
structure Mantissa where
  digits : List Char
  shift : Int
  rest : List Char

def mantissa (cs : List Char) : Mantissa :=
  let whole := cs.takeWhile isDigit
  match cs.dropWhile isDigit with
  | '.' :: rest =>
    let fraction := rest.takeWhile isDigit
    ⟨whole ++ fraction, -(fraction.length : Int), rest.dropWhile isDigit⟩
  | rest => ⟨whole, 0, rest⟩

/-- The power of ten behind a mantissa, as the whole rest of the literal. -/
def power? : List Char → Option Int
  | [] => some 0
  | 'e' :: cs => readInt? cs
  | 'E' :: cs => readInt? cs
  | _ => none

/-- The double nearest to `digits · 10^power`; none when it is out of range. -/
def nearest? (negative : Bool) (digits : Nat) (power : Int) : Option Binary64 :=
  let size : Int := (digitsOf digits).length + power
  if digits = 0 || size < -400 then some (Binary64.zero negative)
  else if 400 < size then none
  else Binary64.ofRatio? negative (digits * Nat.pow 10 power.toNat) (Nat.pow 10 (-power).toNat)

def readUnsigned? (negative : Bool) (cs : List Char) : Option Real64 :=
  match Text.lowerAsciiAll cs with
  | ['i', 'n', 'f'] => some (.infinite negative)
  | ['i', 'n', 'f', 'i', 'n', 'i', 't', 'y'] => some (.infinite negative)
  | ['n', 'a', 'n'] => some .notANumber
  | _ =>
    let m := mantissa cs
    if m.digits.isEmpty then none
    else (power? m.rest).map fun power =>
      match nearest? negative (ofDigits m.digits) (m.shift + power) with
      | some x => .finite x
      | none => .infinite negative

def read? : List Char → Option Real64
  | '-' :: cs => readUnsigned? true cs
  | '+' :: cs => readUnsigned? false cs
  | cs => readUnsigned? false cs

def readFinite? (cs : List Char) : Option Binary64 :=
  match read? cs with
  | some (.finite x) => some x
  | _ => none

end Literal
end NoteSearch
