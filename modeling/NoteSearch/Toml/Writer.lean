import NoteSearch.Text.Numeral

/-!
# Writing TOML

Texts are written in the first kind of quotes that holds them as they are: basic, literal, basic
over several lines, literal over several lines. A text that no kind holds is written with escapes.
-/

namespace NoteSearch
namespace TomlText

def longestRun (c : Char) (run best : Nat) : List Char → Nat
  | [] => best
  | d :: cs =>
    if d = c then longestRun c (run + 1) (max best (run + 1)) cs else longestRun c 0 best cs

/-- Control characters other than tabs and line feeds, which only escapes can write. -/
def needsCode (c : Char) : Bool := (c.toNat < 0x20 && c != '\t' && c != '\n') || c.toNat == 0x7F

def hexDigitUpper (n : Nat) : Char := if n < 10 then Char.ofNat (48 + n) else Char.ofNat (55 + n)

def codeEscape (c : Char) : List Char :=
  ['\\', 'u', '0', '0', hexDigitUpper (c.toNat / 16), hexDigitUpper (c.toNat % 16)]

/-- The escape of a character other than a quote, where it needs one. -/
def escapeChar (manyLines : Bool) (c : Char) : List Char :=
  if c = '\x08' then ['\\', 'b']
  else if c = '\t' then ['\\', 't']
  else if c = '\n' then if manyLines then ['\n'] else ['\\', 'n']
  else if c = '\x0c' then ['\\', 'f']
  else if c = '\r' then ['\\', 'r']
  else if c = '\\' then ['\\', '\\']
  else if needsCode c then codeEscape c
  else [c]

/-- Escapes characters, and a quote after `allowed` others in a row. -/
def escapeAll (manyLines : Bool) (allowed run : Nat) : List Char → List Char
  | [] => []
  | c :: cs =>
    if c = '"' then
      if run < allowed then '"' :: escapeAll manyLines allowed (run + 1) cs
      else '\\' :: '"' :: escapeAll manyLines allowed 0 cs
    else escapeChar manyLines c ++ escapeAll manyLines allowed 0 cs

def isOneLine (cs : List Char) : Bool := !cs.contains '\n'

/-- A line feed behind the opening quotes keeps the lines of the text together. -/
def firstBreak (cs : List Char) : List Char := if isOneLine cs then [] else ['\n']

def writeBasic (cs : List Char) : List Char := '"' :: escapeAll false 0 0 cs ++ ['"']

def writeLiteral (cs : List Char) : List Char := '\'' :: cs ++ ['\'']

def writeBasicLines (cs : List Char) : List Char :=
  '"' :: '"' :: '"' :: firstBreak cs ++ escapeAll true 2 0 cs ++ ['"', '"', '"']

def writeLiteralLines (cs : List Char) : List Char :=
  '\'' :: '\'' :: '\'' :: firstBreak cs ++ cs ++ ['\'', '\'', '\'']

def write (cs : List Char) : List Char :=
  let coded := cs.any needsCode
  let slashed := cs.contains '\\'
  let quotes := longestRun '"' 0 0 cs
  let apostrophes := longestRun '\'' 0 0 cs
  if !coded && !slashed && quotes = 0 && isOneLine cs then writeBasic cs
  else if !coded && apostrophes = 0 && isOneLine cs then writeLiteral cs
  else if !coded && !slashed && quotes ≤ 2 then writeBasicLines cs
  else if !coded && apostrophes ≤ 2 then writeLiteralLines cs
  else if isOneLine cs then writeBasic cs
  else writeBasicLines cs

end TomlText

namespace TomlLine

def pair (key value : String) : String := key ++ " = " ++ value ++ "\n"

def text (key value : String) : String :=
  pair key (String.ofList (TomlText.write value.toList))

def nat (key : String) (value : Nat) : String := pair key (Numeral.writeInt value)

def boolean (key : String) (value : Bool) : String := pair key (if value then "true" else "false")

end TomlLine
end NoteSearch
