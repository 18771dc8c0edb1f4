import NoteSearch.Json.Basic
import NoteSearch.Decimal.Layout

/-!
# Writing JSON text

The compact form has no blanks; the indented form puts every item and field on a line of its own.
Both escape quotes, backslashes and control characters and leave all other characters as they are.
-/

namespace NoteSearch
namespace JsonText

/-- Doubles are positional from `0.00001` to below `10^16`, and always look like doubles. -/
def doubleLayout : DecimalLayout :=
  { positional := fun power => -5 ≤ power && power ≤ 15
    wholeMark := ['.', '0']
    plusSign := ['+'] }

def hexDigit (n : Nat) : Char := if n < 10 then Char.ofNat (48 + n) else Char.ofNat (87 + n)

def escapeChar (c : Char) : List Char :=
  if c = '"' then ['\\', '"']
  else if c = '\\' then ['\\', '\\']
  else if c = '\x08' then ['\\', 'b']
  else if c = '\x0c' then ['\\', 'f']
  else if c = '\n' then ['\\', 'n']
  else if c = '\r' then ['\\', 'r']
  else if c = '\t' then ['\\', 't']
  else if c.toNat < 0x20 then
    ['\\', 'u', '0', '0', hexDigit (c.toNat / 16), hexDigit (c.toNat % 16)]
  else [c]

def quote (s : String) : List Char := '"' :: s.toList.flatMap escapeChar ++ ['"']

mutual

def compact : Json → List Char
  | .null => ['n', 'u', 'l', 'l']
  | .bool true => ['t', 'r', 'u', 'e']
  | .bool false => ['f', 'a', 'l', 's', 'e']
  | .integer n => (Numeral.writeInt n).toList
  | .double x => (doubleLayout.write x).toList
  | .text s => quote s
  | .array items => '[' :: compactItems items ++ [']']
  | .object fields => '\x7b' :: compactFields fields ++ ['\x7d']

def compactItems : List Json → List Char
  | [] => []
  | [j] => compact j
  | j :: js => compact j ++ ',' :: compactItems js

def compactFields : List (String × Json) → List Char
  | [] => []
  | [(key, value)] => quote key ++ ':' :: compact value
  | (key, value) :: rest => quote key ++ ':' :: compact value ++ ',' :: compactFields rest

end

def newLine (depth : Nat) : List Char := '\n' :: List.replicate (2 * depth) ' '

mutual

def indented (depth : Nat) : Json → List Char
  | .array (j :: js) =>
    '[' :: indentedItems (depth + 1) (j :: js) ++ newLine depth ++ [']']
  | .object (f :: fs) =>
    '\x7b' :: indentedFields (depth + 1) (f :: fs) ++ newLine depth ++ ['\x7d']
  | j => compact j

def indentedItems (depth : Nat) : List Json → List Char
  | [] => []
  | [j] => newLine depth ++ indented depth j
  | j :: js => newLine depth ++ indented depth j ++ ',' :: indentedItems depth js

def indentedFields (depth : Nat) : List (String × Json) → List Char
  | [] => []
  | [(key, value)] => newLine depth ++ quote key ++ ':' :: ' ' :: indented depth value
  | (key, value) :: rest =>
    newLine depth ++ quote key ++ ':' :: ' ' :: indented depth value ++
      ',' :: indentedFields depth rest

end

end JsonText

namespace Json

def toText (j : Json) : String := String.ofList (JsonText.compact j)

def toIndentedText (j : Json) : String := String.ofList (JsonText.indented 0 j)

end Json
end NoteSearch
