import NoteSearch.Decimal.Layout
import NoteSearch.Settings.Basic
import NoteSearch.Settings.Tree

/-!
# Reading settings from a tree

Scalars of one kind are taken for another where that makes sense: any scalar as a text, numbers and
words as truth values, and the other way round.
-/

namespace NoteSearch
namespace SettingsTree

def toText? : SettingsTree → Option String
  | boolean b => some (if b then "true" else "false")
  | integer n => some (Numeral.writeInt n)
  | real x => some (x.write .plain)
  | text s => some s
  | _ => none

def truth? (s : String) : Option Bool :=
  match lowered s with
  | "true" => some true
  | "on" => some true
  | "yes" => some true
  | "false" => some false
  | "off" => some false
  | "no" => some false
  | _ => none

def toBool? : SettingsTree → Option Bool
  | boolean b => some b
  | integer n => some (n != 0)
  | real (.finite x) => some !x.isZero
  | real _ => some true
  | text "1" => some true
  | text "0" => some false
  | text s => truth? s
  | _ => none

/-- The nearest 64 bit word, halves upwards. -/
def roundedWord : Real64 → Nat
  | .finite x => if x.negative then 0 else min x.roundAbs Numeral.maxWord64
  | .infinite negative => if negative then 0 else Numeral.maxWord64
  | .notANumber => 0

def toWord64? : SettingsTree → Option Nat
  | boolean b => some b.toNat
  | integer n => if 0 ≤ n then some n.toNat else none
  | real x => some (roundedWord x)
  | text s => (truth? s).map Bool.toNat <|> Numeral.readWord64? s.toList
  | _ => none

/-- The last 32 bits of a 64 bit word. -/
def toWord32? (t : SettingsTree) : Option Nat := t.toWord64?.map (· % (Numeral.maxWord32 + 1))

/-- Null for no value. -/
def toOptional? {α : Type} (read : SettingsTree → Option α) : SettingsTree → Option (Option α)
  | null => some none
  | t => (read t).map some

/-- A value that stands for itself where it is missing. -/
def orStandard {α : Type} (standard : α) (read : SettingsTree → Option α) :
    Option SettingsTree → Option α
  | none => some standard
  | some t => read t

def resultsOf (part : Nat → String → Option SettingsTree) : Option ResultOptions := do
  let standard := ResultOptions.standard
  let includeFullContent ←
    orStandard standard.includeFullContent toBool? (part 0 "include_full_content")
  let treeMaxBlocks ← orStandard standard.treeMaxBlocks toWord64? (part 1 "tree_max_blocks")
  let treeMaxDepth ← orStandard standard.treeMaxDepth toWord64? (part 2 "tree_max_depth")
  let maxResults ← orStandard none (toOptional? toWord64?) (part 3 "max_results")
  return ⟨includeFullContent, treeMaxBlocks, treeMaxDepth, maxResults⟩

/-- Result options by name, or as a list in declared order. -/
def toResults? : SettingsTree → Option ResultOptions
  | table entries => resultsOf fun _ name => entries.lookup name
  | list items => resultsOf fun index _ => items[index]?
  | _ => none

def toSettings? (t : SettingsTree) : Option Settings := do
  let part := fun name => t.entries.lookup name
  let s := Settings.standard
  let backendUrl ← orStandard s.backendUrl toText? (part "backend_url")
  let apiToken ← orStandard none (toOptional? toText?) (part "api_token")
  let timeoutSeconds ←
    orStandard s.timeoutSeconds toWord64? (part "request_timeout_secs")
  let maxRetries ← orStandard s.maxRetries toWord32? (part "max_retries")
  let schemaLifetime ←
    orStandard s.schemaLifetime toWord64? (part "schema_cache_ttl_secs")
  let logLevel ← orStandard s.logLevel toText? (part "log_level")
  let results ← orStandard s.results toResults? (part "results")
  return ⟨backendUrl, apiToken, timeoutSeconds, maxRetries, schemaLifetime, logLevel, results⟩

end SettingsTree
end NoteSearch
