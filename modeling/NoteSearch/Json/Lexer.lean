import NoteSearch.Json.Numeral

/-!
# Tokens of JSON text

The text is read one character at a time. Punctuation stands for itself, quoted texts are unescaped,
and every other run of characters up to a blank, a quote or punctuation has to be a literal word or
a numeral.
-/

namespace NoteSearch
namespace JsonText

inductive Token where
  | openArray
  | closeArray
  | openObject
  | closeObject
  | comma
  | colon
  | scalar (value : Json)
deriving DecidableEq

/-- What the characters read last belong to; texts are kept last character first. -/
inductive Mode where
  | between
  | word (done : List Char)
  | quoted (done : List Char)
  | escape (done : List Char)
  | code (done : List Char) (high : Option Nat) (missing : Nat) (value : Nat)
  | lowEscape (done : List Char) (high : Nat)
  | lowMark (done : List Char) (high : Nat)

def isSpace (c : Char) : Bool := c == ' ' || c == '\n' || c == '\t' || c == '\r'

def punctuation? (c : Char) : Option Token :=
  match c with
  | '[' => some .openArray
  | ']' => some .closeArray
  | '\x7b' => some .openObject
  | '\x7d' => some .closeObject
  | ',' => some .comma
  | ':' => some .colon
  | _ => none

def wordValue? (cs : List Char) : Option Json :=
  if cs = ['n', 'u', 'l', 'l'] then some .null
  else if cs = ['t', 'r', 'u', 'e'] then some (.bool true)
  else if cs = ['f', 'a', 'l', 's', 'e'] then some (.bool false)
  else JsonNumeral.read? cs

/-- The token of a finished word, given last character first. -/
def finishWord (done : List Char) : Option (List Token) :=
  (wordValue? done.reverse).map fun v => [.scalar v]

/-- The start of whatever comes next, after the tokens of what came before. -/
def start (before : List Token) (c : Char) : Option (Mode × List Token) :=
  if isSpace c then some (.between, before)
  else if c = '"' then some (.quoted [], before)
  else
    match punctuation? c with
    | some t => some (.between, t :: before)
    | none => some (.word [c], before)

def endsWord (c : Char) : Bool := isSpace c || c == '"' || (punctuation? c).isSome

def simpleEscape? (c : Char) : Option Char :=
  match c with
  | '"' => some '"'
  | '\\' => some '\\'
  | '/' => some '/'
  | 'b' => some '\x08'
  | 'f' => some '\x0c'
  | 'n' => some '\n'
  | 'r' => some '\r'
  | 't' => some '\t'
  | _ => none

def hexValue? (c : Char) : Option Nat :=
  if '0' ≤ c ∧ c ≤ '9' then some (c.toNat - '0'.toNat)
  else if 'a' ≤ c ∧ c ≤ 'f' then some (c.toNat - 'a'.toNat + 10)
  else if 'A' ≤ c ∧ c ≤ 'F' then some (c.toNat - 'A'.toNat + 10)
  else none

def isHighHalf (code : Nat) : Bool := 0xD800 ≤ code && code < 0xDC00

def isLowHalf (code : Nat) : Bool := 0xDC00 ≤ code && code < 0xE000

/-- Two halves in a row stand for one character; a half alone is no text. -/
def finishCode (done : List Char) (high : Option Nat) (code : Nat) : Option Mode :=
  match high with
  | some h =>
    if isLowHalf code then
      some (.quoted (Char.ofNat (0x10000 + (h - 0xD800) * 0x400 + (code - 0xDC00)) :: done))
    else none
  | none =>
    if isHighHalf code then some (.lowEscape done code)
    else if isLowHalf code then none
    else some (.quoted (Char.ofNat code :: done))

/-- One character: the next mode, and the tokens that are finished, last first. -/
def step : Mode → Char → Option (Mode × List Token)
  | .between, c => start [] c
  | .word done, c =>
    if endsWord c then (finishWord done).bind fun tokens => start tokens c
    else some (.word (c :: done), [])
  | .quoted done, c =>
    if c = '"' then some (.between, [.scalar (.text (String.ofList done.reverse))])
    else if c = '\\' then some (.escape done, [])
    else if c.toNat < 0x20 then none
    else some (.quoted (c :: done), [])
  | .escape done, c =>
    if c = 'u' then some (.code done none 4 0, [])
    else (simpleEscape? c).map fun e => (.quoted (e :: done), [])
  | .code done high missing value, c =>
    (hexValue? c).bind fun digit =>
      let code := 16 * value + digit
      if missing ≤ 1 then (finishCode done high code).map fun mode => (mode, [])
      else some (.code done high (missing - 1) code, [])
  | .lowEscape done high, c => if c = '\\' then some (.lowMark done high, []) else none
  | .lowMark done high, c => if c = 'u' then some (.code done (some high) 4 0, []) else none

/-- Reads on from a mode, with the tokens so far last first. -/
def tokensFrom : Mode → List Token → List Char → Option (List Token)
  | .between, done, [] => some done.reverse
  | .word word, done, [] => (finishWord word).map fun tokens => (tokens ++ done).reverse
  | _, _, [] => none
  | mode, done, c :: cs =>
    match step mode c with
    | some (next, tokens) => tokensFrom next (tokens ++ done) cs
    | none => none

def tokens? (cs : List Char) : Option (List Token) := tokensFrom .between [] cs

end JsonText
end NoteSearch
