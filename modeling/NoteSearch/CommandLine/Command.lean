import NoteSearch.Filter.PropertyFilter
import NoteSearch.Query.CombineMode
import NoteSearch.Query.Options
import NoteSearch.Query.TaskQuery

/-!
# Commands

What a command line asks for: one search or report, and options that hold for all commands.
-/

namespace NoteSearch

inductive Command where
  | tag (name : String) (filters : List PropertyFilter) (options : QueryOptions)
  | text (query : String)
  | tasks (task : TaskQuery) (options : QueryOptions)
  | journal (range : DateRange) (options : QueryOptions)
  | references (id : Int) (options : QueryOptions)
  | advanced (file : String) (mode : Option CombineMode)
  | schema (tag : String)
  | settings
deriving DecidableEq, Repr

structure GlobalOptions where
  settingsFile : Option String
  logLevel : Option String
  backendUrl : Option String
  json : Bool
  noContent : Bool
  limit : Option Nat
deriving DecidableEq, Repr

namespace GlobalOptions

def standard : GlobalOptions := ⟨none, none, none, false, false, none⟩

/-- What is given in `upper`, and in `lower` where that has nothing. -/
def above (upper lower : GlobalOptions) : GlobalOptions :=
  { settingsFile := upper.settingsFile <|> lower.settingsFile
    logLevel := upper.logLevel <|> lower.logLevel
    backendUrl := upper.backendUrl <|> lower.backendUrl
    json := upper.json || lower.json
    noContent := upper.noContent || lower.noContent
    limit := upper.limit <|> lower.limit }

@[simp] theorem standard_above (o : GlobalOptions) : standard.above o = o := by
  simp [standard, above]

@[simp] theorem above_standard (o : GlobalOptions) : o.above standard = o := by
  simp [standard, above]

end GlobalOptions

structure CommandLine where
  options : GlobalOptions
  command : Command
deriving DecidableEq, Repr

/-- Why a command line is not run; help and version are asked for. -/
inductive UsageFault where
  | unknownArgument
  | unknownCommand
  | missingValue
  | invalidValue
  | unexpectedValue
  | conflict
  | missingArgument
  | missingCommand
  | nothingGiven
  | help
  | version
deriving DecidableEq, Repr

end NoteSearch
