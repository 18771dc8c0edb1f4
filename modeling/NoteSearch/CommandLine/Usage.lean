import NoteSearch.CommandLine.Given

/-!
# Usage

What a user is told about the form of a command line.
-/

namespace NoteSearch

namespace UsageFault

def message : UsageFault → String
  | unknownArgument => "unexpected argument"
  | unknownCommand => "unrecognized command"
  | missingValue => "an option needs a value"
  | invalidValue => "a value cannot be read"
  | unexpectedValue => "an option takes no value"
  | conflict => "options cannot be used together"
  | missingArgument => "an argument is missing"
  | missingCommand => "a command is missing"
  | nothingGiven => "a command is missing"
  | help => "help"
  | version => "version"

end UsageFault

namespace CommandLine

def programName : String := "notequery"

def version : String := programName ++ " 0.3.0"

def optionText (name : OptionName) : String :=
  let letter :=
    match name.letter? with
    | some c => String.ofList ['-', c, ',', ' ']
    | none => ""
  letter ++ "--" ++ name.word ++ (if name.takesValue then " <VALUE>" else "")

def operandText (name : CommandName) : String :=
  match name.operand? with
  | some .tag => " <TAG>"
  | some .query => " <TEXT>"
  | some .blockId => " <BLOCK_ID>"
  | none => ""

/-- The options that a command has for itself. -/
def ownOptions (name : CommandName) : List OptionName :=
  (OptionName.known (some name)).filter fun option => !OptionName.common.contains option

def commandLines (name : CommandName) : List String :=
  ("  " ++ name.word ++ operandText name) ::
    (ownOptions name).map fun option => "      " ++ optionText option

/-- The commands and their options. -/
def usage : String :=
  joinLines <|
    ["Usage: " ++ programName ++ " [OPTIONS] <COMMAND>", "", "Options:"] ++
      (OptionName.known none).map (fun option => "  " ++ optionText option) ++
        ["", "Commands:"] ++ CommandName.all.flatMap commandLines

end CommandLine
end NoteSearch
