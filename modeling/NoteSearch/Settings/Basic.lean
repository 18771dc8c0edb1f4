import NoteSearch.Failure
import NoteSearch.Http.Client
import NoteSearch.Result.Options
import NoteSearch.Text.Blank
import NoteSearch.Toml.Writer

/-!
# Settings

Where the backend is, how requests are made and results are shown. The token is read but never
written.
-/

namespace NoteSearch

structure Settings where
  backendUrl : String
  apiToken : Option String
  timeoutSeconds : Nat
  maxRetries : Nat
  schemaLifetime : Nat
  logLevel : String
  results : ResultOptions
deriving DecidableEq, Repr

namespace Settings

def standard : Settings :=
  { backendUrl := "http://127.0.0.1:18088"
    apiToken := none
    timeoutSeconds := 30
    maxRetries := 3
    schemaLifetime := 1800
    logLevel := "info"
    results := .standard }

/-- The first thing that is wrong with some settings. -/
def fault? (s : Settings) : Option SettingsFault :=
  if isBlankText s.backendUrl then some .blankUrl
  else if s.timeoutSeconds = 0 then some .zeroTimeout
  else if s.results.treeMaxBlocks = 0 ∨ s.results.treeMaxDepth = 0 then some .zeroTreeLimit
  else none

def validate (s : Settings) : Except SettingsFault Settings :=
  match s.fault? with
  | some fault => .error fault
  | none => .ok s

def ofRecord (r : Record) : Decoded Settings := do
  let backendUrl ← r.field 0 "backend_url" Json.asText
  let apiToken ← r.optional 1 "api_token" Json.asText
  let timeoutSeconds ← r.field 2 "request_timeout_secs" Json.asWord64
  let maxRetries ← r.field 3 "max_retries" Json.asWord32
  let schemaLifetime ← r.field 4 "schema_cache_ttl_secs" Json.asWord64
  let logLevel ← r.field 5 "log_level" Json.asText
  let results ← r.field 6 "results" ResultOptions.ofJson
  r.close 7
  return {
    backendUrl := backendUrl.getD standard.backendUrl
    apiToken
    timeoutSeconds := timeoutSeconds.getD standard.timeoutSeconds
    maxRetries := maxRetries.getD standard.maxRetries
    schemaLifetime := schemaLifetime.getD standard.schemaLifetime
    logLevel := logLevel.getD standard.logLevel
    results := results.getD standard.results }

def ofJson (j : Json) : Decoded Settings := Record.ofJson j >>= ofRecord

def toJson (s : Settings) : Json :=
  .object
    [ ("backend_url", .text s.backendUrl)
    , ("request_timeout_secs", .integer s.timeoutSeconds)
    , ("max_retries", .integer s.maxRetries)
    , ("schema_cache_ttl_secs", .integer s.schemaLifetime)
    , ("log_level", .text s.logLevel)
    , ("results", s.results.toJson) ]

def numbers (s : Settings) : List Nat :=
  [s.timeoutSeconds, s.maxRetries, s.schemaLifetime, s.results.treeMaxBlocks,
    s.results.treeMaxDepth] ++ s.results.maxResults.toList

def tomlLines (s : Settings) : List String :=
  [ TomlLine.text "backend_url" s.backendUrl
  , TomlLine.nat "request_timeout_secs" s.timeoutSeconds
  , TomlLine.nat "max_retries" s.maxRetries
  , TomlLine.nat "schema_cache_ttl_secs" s.schemaLifetime
  , TomlLine.text "log_level" s.logLevel
  , "\n[results]\n"
  , TomlLine.boolean "include_full_content" s.results.includeFullContent
  , TomlLine.nat "tree_max_blocks" s.results.treeMaxBlocks
  , TomlLine.nat "tree_max_depth" s.results.treeMaxDepth ] ++
    (s.results.maxResults.map (TomlLine.nat "max_results")).toList

/-- The settings as a document; none if a number is beyond the integers of documents. -/
def toToml? (s : Settings) : Option String :=
  if s.numbers.all fun n => Numeral.fitsInt64 n then some (String.join s.tomlLines) else none

def clientConfig (s : Settings) : ClientConfig :=
  { ClientConfig.standard s.backendUrl with
    token := s.apiToken
    timeoutSeconds := s.timeoutSeconds
    maxRetries := s.maxRetries }

end Settings
end NoteSearch
