import NoteSearch.Filter.PropertyFilter
import NoteSearch.Schema.Basic

/-!
# Enhancing filters by a schema

A filter as users write it becomes one as the tag's schema means it: the property's name as it was
authored, its type, and for choice properties the labels of the options. Choices are stored as sets,
so that equality with one becomes membership.
-/

namespace NoteSearch
namespace PropertySchema

/-- The position that a whole number names. Doubles beyond the words name the last one. -/
def indexOf? : Json → Option Nat
  | .integer n => if 0 ≤ n then some n.toNat else none
  | .double x =>
    (x.toNat?.filter (· ≤ Numeral.maxWord64 + 1)).map (min Numeral.maxWord64)
  | _ => none

/-- The option that a text names: a position comes before a label. -/
def optionNamed? (p : PropertySchema) (cs : List Char) : Option ChoiceOption :=
  (Numeral.readWord64? cs).bind p.optionAt? <|> p.optionLabelled? (String.ofList cs)

def optionFor? (p : PropertySchema) : Json → Option ChoiceOption
  | .text s => p.optionNamed? (Text.trim s.toList)
  | j => (indexOf? j).bind p.optionAt?

mutual

/-- Replaces positions and labels by the labels as authored; other values stay as they are. -/
def resolveChoice (p : PropertySchema) : Json → Json
  | .array items => .array (resolveChoices p items)
  | j =>
    match p.optionFor? j with
    | some o => .text o.label
    | none => j

def resolveChoices (p : PropertySchema) : List Json → List Json
  | [] => []
  | j :: js => resolveChoice p j :: resolveChoices p js

end

@[simp] theorem resolveChoices_eq_map (p : PropertySchema) (items : List Json) :
    p.resolveChoices items = items.map p.resolveChoice := by
  induction items with
  | nil => rfl
  | cons j js ih => simp [resolveChoices, ih]

end PropertySchema

namespace PropertyFilter

def enhanceBy (p : PropertySchema) (f : PropertyFilter) : PropertyFilter :=
  let typed := { f with name := p.name, type := some p.type }
  if p.type = .textChoices then
    { typed with
      op := if f.op = .equal then .includes else f.op
      value := f.value.map p.resolveChoice }
  else typed

/-- Filters on properties that the schema does not have stay as they are. -/
def enhance (s : TagSchema) (f : PropertyFilter) : PropertyFilter :=
  match s.property? f.name with
  | some p => f.enhanceBy p
  | none => f

end PropertyFilter
end NoteSearch
