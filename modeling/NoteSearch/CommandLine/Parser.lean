import NoteSearch.CommandLine.Given

/-!
# Reading a command line

Options stand before the command and after it; those that all commands know may stand in either
place, and the later place wins. What is given is accepted one argument late, once it is known that
nothing more belongs to it: an error in the shape of an argument comes before an error in the value
of the one before it, and the errors of a command before those of the options in front of it.
-/

namespace NoteSearch
namespace CommandLine

inductive Form where
  | plain
  | endOfOptions
  | long (name : List Char) (value : Option (List Char))
  | letters (letters : List Char)
deriving DecidableEq, Repr

/-- A name and what follows the first `=`. -/
def longForm (cs : List Char) : Form :=
  match Text.splitOnce ['='] cs with
  | some (name, value) => .long name (some value)
  | none => .long cs none

/-- One hyphen alone is plain. -/
def formOf (s : String) : Form :=
  match s.toList with
  | ['-', '-'] => .endOfOptions
  | '-' :: '-' :: cs => longForm cs
  | ['-'] => .plain
  | '-' :: cs => .letters cs
  | _ => .plain

/-- What the last arguments gave and has not been accepted. -/
inductive Pending where
  | option (name : OptionName) (value : Option String)
  | operand (operand : Operand) (value : String)
deriving DecidableEq, Repr

structure Progress where
  given : Given
  pending : Option Pending
  operandSeen : Bool
deriving DecidableEq, Repr

namespace Progress

def start : Progress := ⟨.nothing, none, false⟩

def settle (p : Progress) : Except UsageFault Progress :=
  match p.pending with
  | none => .ok p
  | some (.option _ none) => .error .missingValue
  | some (.option name (some value)) => do
    return { p with given := ← p.given.acceptValue name value, pending := none }
  | some (.operand operand value) => do
    return { p with given := ← p.given.acceptOperand operand value, pending := none }

/-- The option whose value an argument is. -/
def awaiting? (p : Progress) (form : Form) : Option OptionName :=
  match p.pending with
  | some (.option name none) => if name.allowsHyphen || form = .plain then some name else none
  | _ => none

def withFlag (p : Progress) (name : OptionName) : Except UsageFault Progress := do
  let p ← p.settle
  return { p with given := ← p.given.acceptFlag name }

def withValue (p : Progress) (name : OptionName) (value : List Char) :
    Except UsageFault Progress := do
  let p ← p.settle
  return { p with given := ← p.given.acceptValue name (String.ofList value) }

def withOption (p : Progress) (name : OptionName) : Except UsageFault Progress := do
  let p ← p.settle
  return { p with pending := some (.option name none) }

def withOperand (p : Progress) (operand : Operand) (value : String) :
    Except UsageFault Progress := do
  let p ← p.settle
  return { p with pending := some (.operand operand value), operandSeen := true }

def withLong (known : List OptionName) (p : Progress) (name : List Char)
    (value : Option (List Char)) : Except UsageFault Progress :=
  match known.find? fun option => option.word.toList == name with
  | none => .error .unknownArgument
  | some option =>
    match option.takesValue, value with
    | true, some value => p.withValue option value
    | true, none => p.withOption option
    | false, some _ => .error .unexpectedValue
    | false, none => p.withFlag option

/-- Options by their letters; what follows one that takes a value is the value. -/
def withLetters (known : List OptionName) (p : Progress) : List Char → Except UsageFault Progress
  | [] => .ok p
  | c :: cs =>
    match known.find? fun option => option.letter? == some c with
    | none => .error .unknownArgument
    | some option =>
      if option.takesValue then
        match cs with
        | [] => p.withOption option
        | '=' :: value => p.withValue option value
        | value => p.withValue option value
      else
        match p.withFlag option with
        | .ok p => withLetters known p cs
        | .error e => .error e

end Progress

/-- A word after which a command line belongs to a command. -/
inductive CommandWord where
  | command (name : CommandName)
  | help
deriving DecidableEq, Repr

def CommandWord.ofWord? (s : String) : Option CommandWord :=
  if s = "help" then some .help else (CommandName.ofWord? s).map .command

def strayFault (level : Option CommandName) (optionsEnded : Bool) (s : String) : UsageFault :=
  if level.isSome || optionsEnded && (CommandWord.ofWord? s).isSome then .unknownArgument
  else .unknownCommand

def operandAt (level : Option CommandName) (optionsEnded : Bool) (p : Progress) (s : String) :
    Except UsageFault Progress :=
  match level.bind CommandName.operand?, p.operandSeen with
  | some operand, false => p.withOperand operand s
  | _, _ => .error (strayFault level optionsEnded s)

/-- How far arguments were read, and the command at which that ended with its arguments. -/
abbrev Scanned := Progress × Option (CommandWord × List String)

def scan (level : Option CommandName) (optionsEnded : Bool) (p : Progress) :
    List String → Except UsageFault Scanned
  | [] => .ok (p, none)
  | s :: rest =>
    let next (step : Except UsageFault Progress) : Except UsageFault Scanned :=
      match step with
      | .ok p => scan level optionsEnded p rest
      | .error e => .error e
    if optionsEnded then next (operandAt level true p s)
    else
      let form := formOf s
      match p.awaiting? form with
      | some name => scan level false { p with pending := some (.option name (some s)) } rest
      | none =>
        match form with
        | .endOfOptions => scan level true p rest
        | .long name value => next (p.withLong (OptionName.known level) name value)
        | .letters letters => next (p.withLetters (OptionName.known level) letters)
        | .plain =>
          match level, CommandWord.ofWord? s with
          | none, some word => .ok (p, some (word, rest))
          | _, _ => next (operandAt level false p s)

def required {α : Type} : Option α → Except UsageFault α
  | some a => .ok a
  | none => .error .missingArgument

def rangeOf : Option DateSpec → Option DateSpec → Except UsageFault (Option DateRange)
  | some start, some finish => .ok (some ⟨start, finish⟩)
  | none, none => .ok none
  | _, _ => .error .missingArgument

/-- Tasks are either completed or open. -/
def completion (g : Given) : Except UsageFault (Option Bool) :=
  match g.onlyCompleted, g.onlyOpen with
  | true, true => .error .conflict
  | true, false => .ok (some true)
  | false, true => .ok (some false)
  | false, false => .ok none

def commandOf (g : Given) : CommandName → Except UsageFault Command
  | .tag => do return .tag (← required g.text) g.filters g.query
  | .text => do return .text (← required g.text)
  | .tasks => do
    let completed ← completion g
    return .tasks ⟨completed, ← rangeOf g.rangeStart g.rangeEnd⟩ g.query
  | .journal => do
    return .journal ⟨← required g.rangeStart, g.rangeEnd.getD .today⟩ g.query
  | .references => do return .references (← required g.blockId) g.query
  | .advanced => do return .advanced (← required g.file) g.mode
  | .schema => do return .schema (← required g.text)
  | .settings => .ok .settings

def parseCommand (name : CommandName) (args : List String) :
    Except UsageFault (GlobalOptions × Command) := do
  let (p, _) ← scan (some name) false .start args
  let p ← p.settle
  return (p.given.options, ← commandOf p.given name)

/-- Help on everything, or on one command. -/
def helpFault : List String → UsageFault
  | [] => .help
  | [s] => if (CommandWord.ofWord? s).isSome then .help else .unknownCommand
  | _ => .unknownCommand

def parse (args : List String) : Except UsageFault CommandLine := do
  let (p, word) ← scan none false .start args
  match word with
  | some (.command name, rest) =>
    let (options, command) ← parseCommand name rest
    let p ← p.settle
    return ⟨options.above p.given.options, command⟩
  | some (.help, rest) => .error (helpFault rest)
  | none =>
    let p ← p.settle
    if p.given = .nothing then .error .nothingGiven else .error .missingCommand

end CommandLine
end NoteSearch
