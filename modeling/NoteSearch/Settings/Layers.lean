import NoteSearch.Json.Parser
import NoteSearch.Settings.Reading
import NoteSearch.Toml.Parser

/-!
# Layers of settings

Settings are put together from layers, later ones above earlier ones: built-in values, the default
file, a file that is asked for, and variables of the environment.
-/

namespace NoteSearch

/-- The files and variables around a run; a path that is not absolute starts where the run does. -/
structure Surroundings where
  content? : String → Option String
  environment : List (String × String)

def Surroundings.valueOf? (w : Surroundings) (name : String) : Option String :=
  w.environment.lookup name

namespace SettingsLayer

abbrev Entries := List (String × SettingsTree)

/-- The built-in values. A token and a limit on results have none. -/
def builtIn : Entries :=
  let s := Settings.standard
  [ ("backend_url", .text s.backendUrl)
  , ("request_timeout_secs", .integer s.timeoutSeconds)
  , ("max_retries", .integer s.maxRetries)
  , ("schema_cache_ttl_secs", .integer s.schemaLifetime)
  , ("log_level", .text s.logLevel)
  , ("results.include_full_content", .boolean s.results.includeFullContent)
  , ("results.tree_max_blocks", .integer s.results.treeMaxBlocks)
  , ("results.tree_max_depth", .integer s.results.treeMaxDepth) ]

/-- The endings of files of one kind, and the entries of such a file, which holds one table. -/
structure FileFormat where
  endings : List String
  read? : String → Option Entries

namespace FileFormat

def toml : FileFormat where
  endings := ["toml"]
  read? content := (TomlValue.parse? content).map SettingsTree.ofTomlFields

def json : FileFormat where
  endings := ["json"]
  read? content :=
    match Json.read? content with
    | some (.object fields) => some (SettingsTree.ofJsonFields fields)
    | _ => none

end FileFormat

/-- The formats that files are read in where nothing else is said. -/
def knownFormats : List FileFormat := [.toml, .json]

/-- What stands behind the last point of the last part of a path, if something is before it. -/
def extension? (path : String) : Option String :=
  let name := (path.toList.reverse.takeWhile (· != '/')).reverse
  match (name.reverse.dropWhile (· != '.')).drop 1 with
  | [] => none
  | _ => some (String.ofList (name.reverse.takeWhile (· != '.')).reverse)

-- Which formats there are, and in which order they are tried, may differ from run to run.
variable (formats : List FileFormat) (w : Surroundings)

def formatOf? (path : String) : Option FileFormat :=
  (extension? path).bind fun ending => formats.find? fun format => format.endings.contains ending

/-- Of a path that is given last character first, what is left without slashes and single points
behind its last part. -/
def dropEmptyParts : List Char → List Char
  | '/' :: cs => dropEmptyParts cs
  | '.' :: '/' :: cs => dropEmptyParts cs
  | cs => cs

/-- A path that an ending can be added to; one that leads upwards has no name at its end. -/
def bareName? (name : String) : Option String :=
  let path := dropEmptyParts name.toList.reverse
  match path.takeWhile (· != '/') with
  | [] => none
  | ['.'] => none
  | ['.', '.'] => none
  | _ => some (String.ofList path.reverse)

def withEndings (name : String) : List (FileFormat × String) :=
  match bareName? name with
  | some bare =>
    formats.flatMap fun format => format.endings.map fun ending => (format, bare ++ "." ++ ending)
  | none => []

/-- The file of a name, or with the ending of a format. A file of no known format is none. -/
def findFile? (name : String) : Option (FileFormat × String) :=
  match w.content? name with
  | some content => (formatOf? formats name).map fun format => (format, content)
  | none => (withEndings formats name).findSome? fun file =>
      (w.content? file.2).map fun content => (file.1, content)

def candidates (name : String) : List String := name :: (withEndings formats name).map Prod.snd

def ofFile? (file : FileFormat × String) : Option Entries := file.1.read? file.2

def isAbsolute (path : String) : Bool :=
  match path.toList with
  | '/' :: _ => true
  | _ => false

/-- The name of the default file, in the user's directory for configurations. -/
def defaultName : String :=
  let directory :=
    match (w.valueOf? "XDG_CONFIG_HOME").filter isAbsolute with
    | some directory => directory ++ "/notequery"
    | none =>
      match (w.valueOf? "HOME").filter fun home => !home.isEmpty with
      | some home => home ++ "/.config/notequery"
      | none => "."
  directory ++ "/config"

/-- The default file need not be there. -/
def defaultFile? : Option Entries :=
  match findFile? formats w (defaultName w) with
  | some file => ofFile? file
  | none => some []

/-- A file that is asked for must be there. -/
def namedFile? : Option String → Option Entries
  | some name => (findFile? formats w name).bind ofFile?
  | none => some []

def valueOf (s : String) : SettingsTree :=
  match lowered s with
  | "true" => .boolean true
  | "false" => .boolean false
  | _ =>
    match Numeral.readInt64? s.toList with
    | some n => .integer n
    | none =>
      match Literal.read? s.toList with
      | some x => .real x
      | none => .text s

def variableStart : List Char := "notequery_".toList

/-- Two underscores lead into a table. -/
def nested : List Char → List Char
  | '_' :: '_' :: cs => '.' :: nested cs
  | c :: cs => c :: nested cs
  | [] => []

/-- The entry of a variable whose name begins as it should, in any case. -/
def ofVariable? (v : String × String) : Option (String × SettingsTree) :=
  let name := (lowered v.1).toList
  if variableStart.isPrefixOf name then
    some (String.ofList (nested (name.drop variableStart.length)), valueOf v.2)
  else none

def ofVariables : Entries := w.environment.filterMap ofVariable?

/-- The layers above the built-in values, the lowest first. -/
def given? (file : Option String) : Option (List Entries) := do
  let defaults ← defaultFile? formats w
  let named ← namedFile? formats w file
  return [defaults, named, ofVariables w]

end SettingsLayer

namespace Settings

/-- The settings of some layers, which are put together before they go on top of the built-in
values. -/
def ofLayers? (layers : List SettingsLayer.Entries) : Option Settings := do
  let given ← layers.foldlM SettingsTree.layer? (.table [])
  let builtIn ← SettingsTree.layer? (.table []) SettingsLayer.builtIn
  let tree ← builtIn.layer? given.entries
  tree.toSettings?

def load (formats : List SettingsLayer.FileFormat) (w : Surroundings) (file : Option String) :
    Except SettingsFault Settings :=
  match (SettingsLayer.given? formats w file).bind ofLayers? with
  | some s => s.validate
  | none => .error .unreadable

end Settings
end NoteSearch
