import NoteSearch.Filter.Coercion
import NoteSearch.Query.TaskQuery
import NoteSearch.Wire.Description

/-!
# Compiling searches

Conditions become items one by one, and a search becomes a group of them. A date range of a task
search is a chain group of its own, since the task and the dated entry are different blocks of one
chain of ancestors.
-/

namespace NoteSearch

/-- Tags are matched without the blanks around them and one leading hash sign. -/
def wireTagName (name : String) : String :=
  match Text.trim name.toList with
  | '#' :: cs => String.ofList cs
  | cs => String.ofList cs

namespace PropertyFilter

/-- The value in the form that the declared type, or else the operator, asks for. -/
def convertedValue (f : PropertyFilter) : Option Json :=
  if f.op.isNullCheck then none
  else
    f.value.map fun v =>
      match f.type with
      | some type => Coercion.convert type v
      | none => Coercion.convertFor f.op v

def compile (f : PropertyFilter) : PropertyClause :=
  { name := f.name
    type := f.type.map PropertyType.code
    typeArgs := f.typeArgs
    op := f.op.code
    value := f.convertedValue }

end PropertyFilter

namespace Condition

def compile : Condition → WireItem
  | tag name properties => .tag ⟨wireTagName name, properties.map PropertyFilter.compile⟩
  | text content raw => .text content raw
  | task completed => .task completed
  | journal range =>
    .journal (WireDate.ofDateSpec range.start) (WireDate.ofDateSpec range.finish)
  | reference id => .reference id
  | structural topology => .structural topology
  | blockMatch id => .blockMatch id

end Condition

namespace QueryDescription

def ofTag (name : String) (filters : List PropertyFilter) (options : QueryOptions) :
    QueryDescription :=
  describe (.group .and [(Condition.tag name filters).compile]) options

/-- At least one condition, joined by a mode. -/
def ofConditions (conditions : List Condition) (mode : CombineMode) (options : QueryOptions) :
    Except SearchError QueryDescription :=
  match conditions with
  | [] => .error (.invalidQuery .noConditions)
  | conditions =>
    .ok (describe (.group (GroupKind.ofMode mode) (conditions.map Condition.compile)) options)

def ofTask (task : TaskQuery) (options : QueryOptions) : QueryDescription :=
  let dated : List WireItem :=
    match task.range with
    | some range => [.group .chainAnd [(Condition.journal range).compile]]
    | none => []
  describe (.group .and ((Condition.task task.completed).compile :: dated)) options

def ofJournal (range : DateRange) (options : QueryOptions) : QueryDescription :=
  describe (.group .and [(Condition.journal range).compile]) options

end QueryDescription
end NoteSearch
