/-!
# Blank characters, trimming, words and lines

A character is blank when it has the Unicode property `White_Space`. Texts are cut on the list of
their characters; the functions on `String` are the same cuts read back.
-/

namespace NoteSearch
namespace Text

def isBlank (c : Char) : Bool :=
  (9 ≤ c.toNat && c.toNat ≤ 13) || c.toNat == 0x20 || c.toNat == 0x85 || c.toNat == 0xA0 ||
    c.toNat == 0x1680 || (0x2000 ≤ c.toNat && c.toNat ≤ 0x200A) || c.toNat == 0x2028 ||
    c.toNat == 0x2029 || c.toNat == 0x202F || c.toNat == 0x205F || c.toNat == 0x3000

def trimStart (cs : List Char) : List Char := cs.dropWhile isBlank

def trimEnd (cs : List Char) : List Char := (cs.reverse.dropWhile isBlank).reverse

def trim (cs : List Char) : List Char := trimEnd (trimStart cs)

/-- Prepends a word, given last character first, unless it is empty. -/
def flush (word : List Char) (rest : List (List Char)) : List (List Char) :=
  if word.isEmpty then rest else word.reverse :: rest

def wordsFrom (word : List Char) : List Char → List (List Char)
  | [] => flush word []
  | c :: cs => if isBlank c then flush word (wordsFrom [] cs) else wordsFrom (c :: word) cs

/-- Maximal runs of characters that are not blank. -/
def words (cs : List Char) : List (List Char) := wordsFrom [] cs

/-- A carriage return counts as part of the line feed after it. -/
def dropReturn : List Char → List Char
  | '\r' :: line => line
  | line => line

def linesFrom (line : List Char) : List Char → List (List Char)
  | [] => if line.isEmpty then [] else [line.reverse]
  | c :: cs =>
    if c = '\n' then (dropReturn line).reverse :: linesFrom [] cs else linesFrom (c :: line) cs

/-- Lines end at line feeds; nothing follows a final line feed. -/
def lines (cs : List Char) : List (List Char) := linesFrom [] cs

/-- The text before and after the first occurrence of `mark`. -/
def splitOnce (mark : List Char) : List Char → Option (List Char × List Char)
  | [] => if mark.isEmpty then some ([], []) else none
  | c :: cs =>
    if mark.isPrefixOf (c :: cs) then some ([], (c :: cs).drop mark.length)
    else (splitOnce mark cs).map fun cut => (c :: cut.1, cut.2)

def joinWith (mark : List Char) : List (List Char) → List Char
  | [] => []
  | [cs] => cs
  | cs :: rest => cs ++ mark ++ joinWith mark rest

@[simp] theorem words_nil : words [] = [] := rfl

@[simp] theorem lines_nil : lines [] = [] := rfl

end Text

/-- Without the blanks at both ends. -/
def trimmed (s : String) : String := String.ofList (Text.trim s.toList)

def isBlankText (s : String) : Bool := (Text.trim s.toList).isEmpty

def textLines (s : String) : List String := (Text.lines s.toList).map String.ofList

def joinLines (lines : List String) : String :=
  String.ofList (Text.joinWith ['\n'] (lines.map String.toList))

end NoteSearch
