import NoteSearch.Text.Numeral

/-!
# Quoted TOML texts

Four kinds of quotes: basic texts know escapes, literal ones do not, and both have a form over
several lines. Readers start behind the opening quotes and hand back the text and what follows the
closing ones. A line break in a text is a line feed, however it is written.
-/

namespace NoteSearch
namespace TomlText

abbrev Read := Option (List Char × List Char)

def prepend (c : Char) (read : Read) : Read := read.map fun r => (c :: r.1, r.2)

/-- Characters that may stand in a text: tabs, and all that are no control characters. -/
def isPlain (c : Char) : Bool := c == '\t' || (0x20 ≤ c.toNat && c.toNat != 0x7F)

def hexValue? (c : Char) : Option Nat :=
  if Numeral.isDigit c then some (c.toNat - '0'.toNat)
  else if 'a' ≤ c ∧ c ≤ 'f' then some (c.toNat - 'a'.toNat + 10)
  else if 'A' ≤ c ∧ c ≤ 'F' then some (c.toNat - 'A'.toNat + 10)
  else none

def ofCode? (digits : List Char) : Option Char := do
  let values ← digits.mapM hexValue?
  let code := values.foldl (fun n d => 16 * n + d) 0
  if code.isValidChar then return Char.ofNat code else none

/-- The character that a letter stands for behind a backslash. -/
def escaped? : Char → Option Char
  | 'b' => some '\x08'
  | 't' => some '\t'
  | 'n' => some '\n'
  | 'f' => some '\x0c'
  | 'r' => some '\r'
  | '"' => some '"'
  | '\\' => some '\\'
  | _ => none

def basic : List Char → Read
  | [] => none
  | '"' :: cs => some ([], cs)
  | '\\' :: 'u' :: a :: b :: c :: d :: cs =>
    (ofCode? [a, b, c, d]).bind fun x => prepend x (basic cs)
  | '\\' :: 'U' :: a :: b :: c :: d :: e :: f :: g :: h :: cs =>
    (ofCode? [a, b, c, d, e, f, g, h]).bind fun x => prepend x (basic cs)
  | '\\' :: c :: cs => (escaped? c).bind fun x => prepend x (basic cs)
  | c :: cs => if c != '\\' && isPlain c then prepend c (basic cs) else none

def literal : List Char → Read
  | [] => none
  | '\'' :: cs => some ([], cs)
  | c :: cs => if isPlain c then prepend c (literal cs) else none

/-- Up to two quotes before the closing ones belong to the text. -/
def closing (quote : Char) (cs : List Char) : List Char × List Char :=
  let extra := min (cs.takeWhile (· == quote)).length 2
  (List.replicate extra quote, cs.drop extra)

def startsBlankLine (cs : List Char) : Bool :=
  match cs.dropWhile fun c => c == ' ' || c == '\t' with
  | '\n' :: _ => true
  | '\r' :: '\n' :: _ => true
  | _ => false

/-- A basic text over several lines. Behind a backslash at the end of a line, blanks and line breaks
are skipped. -/
def basicLines (skipping : Bool) : List Char → Read
  | [] => none
  | '"' :: '"' :: '"' :: cs => some (closing '"' cs)
  | '\r' :: '\n' :: cs =>
    if skipping then basicLines true cs else prepend '\n' (basicLines false cs)
  | '\\' :: 'u' :: a :: b :: c :: d :: cs =>
    (ofCode? [a, b, c, d]).bind fun x => prepend x (basicLines false cs)
  | '\\' :: 'U' :: a :: b :: c :: d :: e :: f :: g :: h :: cs =>
    (ofCode? [a, b, c, d, e, f, g, h]).bind fun x => prepend x (basicLines false cs)
  | '\\' :: c :: cs =>
    match escaped? c with
    | some x => prepend x (basicLines false cs)
    | none => if startsBlankLine (c :: cs) then basicLines true cs else none
  | c :: cs =>
    if c == '\n' || c == ' ' || c == '\t' then
      if skipping then basicLines true cs else prepend c (basicLines false cs)
    else if c != '\\' && isPlain c then prepend c (basicLines false cs)
    else none

def literalLines : List Char → Read
  | [] => none
  | '\'' :: '\'' :: '\'' :: cs => some (closing '\'' cs)
  | '\r' :: '\n' :: cs => prepend '\n' (literalLines cs)
  | c :: cs => if c == '\n' || isPlain c then prepend c (literalLines cs) else none

/-- A line break right behind the opening quotes does not count. -/
def dropFirstBreak : List Char → List Char
  | '\n' :: cs => cs
  | '\r' :: '\n' :: cs => cs
  | cs => cs

def value? : List Char → Read
  | '"' :: '"' :: '"' :: cs => basicLines false (dropFirstBreak cs)
  | '\'' :: '\'' :: '\'' :: cs => literalLines (dropFirstBreak cs)
  | '"' :: cs => basic cs
  | '\'' :: cs => literal cs
  | _ => none

end TomlText
end NoteSearch
