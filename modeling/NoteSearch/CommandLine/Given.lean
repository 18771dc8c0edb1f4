import NoteSearch.CommandLine.Command
import NoteSearch.CommandLine.FilterText

/-!
# Options and operands

The words of a command line that stand for options, the operand of each command, and the values that
they are given. A value is read when it is accepted; an option that is not repeatable is accepted
once.
-/

namespace NoteSearch

inductive CommandName where
  | tag
  | text
  | tasks
  | journal
  | references
  | advanced
  | schema
  | settings
deriving DecidableEq, Repr

namespace CommandName

def all : List CommandName :=
  [tag, text, tasks, journal, references, advanced, schema, settings]

def word : CommandName → String
  | tag => "tag"
  | text => "text"
  | tasks => "tasks"
  | journal => "journal"
  | references => "refs"
  | advanced => "advanced"
  | schema => "schema"
  | settings => "config"

def ofWord? (s : String) : Option CommandName := all.find? (·.word == s)

@[simp] theorem ofWord?_word (c : CommandName) : ofWord? c.word = some c := by
  cases c <;> rfl

end CommandName

inductive OptionName where
  | settingsFile
  | logLevel
  | backendUrl
  | json
  | noContent
  | limit
  | filter
  | sort
  | page
  | pageSize
  | exclude
  | onlyCompleted
  | onlyOpen
  | rangeStart
  | rangeEnd
  | file
  | mode
  | help
  | version
deriving DecidableEq, Repr

namespace OptionName

def word : OptionName → String
  | settingsFile => "config"
  | logLevel => "log-level"
  | backendUrl => "backend-url"
  | json => "json"
  | noContent => "no-content"
  | limit => "limit"
  | filter => "filter"
  | sort => "sort"
  | page => "page"
  | pageSize => "page-size"
  | exclude => "exclude"
  | onlyCompleted => "completed"
  | onlyOpen => "open"
  | rangeStart => "from"
  | rangeEnd => "to"
  | file => "file"
  | mode => "mode"
  | help => "help"
  | version => "version"

def letter? : OptionName → Option Char
  | settingsFile => some 'c'
  | logLevel => some 'l'
  | filter => some 'f'
  | help => some 'h'
  | version => some 'V'
  | _ => none

def takesValue : OptionName → Bool
  | json => false
  | noContent => false
  | onlyCompleted => false
  | onlyOpen => false
  | help => false
  | version => false
  | _ => true

def isRepeatable : OptionName → Bool
  | filter => true
  | sort => true
  | _ => false

/-- Whether what looks like an option may be the value. -/
def allowsHyphen : OptionName → Bool
  | rangeStart => true
  | rangeEnd => true
  | _ => false

/-- Options known everywhere. -/
def common : List OptionName :=
  [settingsFile, logLevel, backendUrl, json, noContent, limit, help]

def paging : List OptionName := [sort, page, pageSize, exclude]

/-- The options before a command, or those of a command. -/
def known : Option CommandName → List OptionName
  | none => version :: common
  | some .tag => filter :: paging ++ common
  | some .text => common
  | some .tasks => [onlyCompleted, onlyOpen, rangeStart, rangeEnd] ++ paging ++ common
  | some .journal => [rangeStart, rangeEnd] ++ paging ++ common
  | some .references => paging ++ common
  | some .advanced => [file, mode] ++ common
  | some .schema => common
  | some .settings => common

end OptionName

inductive Operand where
  | tag
  | query
  | blockId
deriving DecidableEq, Repr

/-- The one operand of a command. -/
def CommandName.operand? : CommandName → Option Operand
  | .tag => some .tag
  | .text => some .query
  | .references => some .blockId
  | .schema => some .tag
  | _ => none

/-- What has been accepted at one level of a command line. -/
structure Given where
  options : GlobalOptions
  filters : List PropertyFilter
  query : QueryOptions
  onlyCompleted : Bool
  onlyOpen : Bool
  rangeStart : Option DateSpec
  rangeEnd : Option DateSpec
  file : Option String
  mode : Option CombineMode
  text : Option String
  blockId : Option Int
deriving DecidableEq, Repr

namespace Given

def nothing : Given :=
  ⟨.standard, [], .standard, false, false, none, none, none, none, none, none⟩

def has (g : Given) : OptionName → Bool
  | .settingsFile => g.options.settingsFile.isSome
  | .logLevel => g.options.logLevel.isSome
  | .backendUrl => g.options.backendUrl.isSome
  | .json => g.options.json
  | .noContent => g.options.noContent
  | .limit => g.options.limit.isSome
  | .filter => !g.filters.isEmpty
  | .sort => !g.query.sort.isEmpty
  | .page => g.query.page.isSome
  | .pageSize => g.query.pageSize.isSome
  | .exclude => g.query.excludeId.isSome
  | .onlyCompleted => g.onlyCompleted
  | .onlyOpen => g.onlyOpen
  | .rangeStart => g.rangeStart.isSome
  | .rangeEnd => g.rangeEnd.isSome
  | .file => g.file.isSome
  | .mode => g.mode.isSome
  | .help => false
  | .version => false

def valid {α : Type} : Option α → Except UsageFault α
  | some a => .ok a
  | none => .error .invalidValue

def word64 (s : String) : Except UsageFault Nat := valid (Numeral.readWord64? s.toList)

/-- A 32 bit word with any sign that makes no difference. -/
def word32 (s : String) : Except UsageFault Nat :=
  let within := fun n : Int => decide (0 ≤ n ∧ n ≤ Numeral.maxWord32)
  valid (((Numeral.readInt64? s.toList).filter within).map Int.toNat)

def int64 (s : String) : Except UsageFault Int := valid (Numeral.readInt64? s.toList)

def date (s : String) : Except UsageFault DateSpec := valid (DateSpec.parse s).toOption

def assign (g : Given) (name : OptionName) (s : String) : Except UsageFault Given :=
  match name with
  | .settingsFile => .ok { g with options := { g.options with settingsFile := some s } }
  | .logLevel => .ok { g with options := { g.options with logLevel := some s } }
  | .backendUrl => .ok { g with options := { g.options with backendUrl := some s } }
  | .limit => do return { g with options := { g.options with limit := some (← word64 s) } }
  | .filter => do
    return { g with filters := g.filters ++ [← valid (PropertyFilter.parse s).toOption] }
  | .sort => .ok { g with query := g.query.withSort (SortSpec.parse s) }
  | .page => do return { g with query := { g.query with page := some (← word32 s) } }
  | .pageSize => do return { g with query := { g.query with pageSize := some (← word32 s) } }
  | .exclude => do return { g with query := g.query.excluding (← int64 s) }
  | .rangeStart => do return { g with rangeStart := some (← date s) }
  | .rangeEnd => do return { g with rangeEnd := some (← date s) }
  | .file => if s.isEmpty then .error .missingValue else .ok { g with file := some s }
  | .mode => do return { g with mode := some (← valid (CombineMode.parse s).toOption) }
  | _ => .error .unexpectedValue

def set (g : Given) : OptionName → Except UsageFault Given
  | .json => .ok { g with options := { g.options with json := true } }
  | .noContent => .ok { g with options := { g.options with noContent := true } }
  | .onlyCompleted => .ok { g with onlyCompleted := true }
  | .onlyOpen => .ok { g with onlyOpen := true }
  | .help => .error .help
  | .version => .error .version
  | _ => .error .missingValue

/-- Refuses an option that has been accepted and is not repeatable. -/
def allow (g : Given) (name : OptionName) : Except UsageFault Unit :=
  if g.has name && !name.isRepeatable then .error .conflict else .ok ()

def acceptFlag (g : Given) (name : OptionName) : Except UsageFault Given := do
  g.allow name
  g.set name

def acceptValue (g : Given) (name : OptionName) (s : String) : Except UsageFault Given := do
  g.allow name
  g.assign name s

def acceptOperand (g : Given) (operand : Operand) (s : String) : Except UsageFault Given :=
  match operand with
  | .tag => .ok { g with text := some s }
  | .query => .ok { g with text := some s }
  | .blockId => do return { g with blockId := some (← int64 s) }

end Given
end NoteSearch
