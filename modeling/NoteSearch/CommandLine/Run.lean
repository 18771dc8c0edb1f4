import NoteSearch.CommandLine.Parser
import NoteSearch.CommandLine.Report
import NoteSearch.CommandLine.Request
import NoteSearch.Settings.Layers

/-!
# Running a command line

The settings are loaded and overridden by what the command line gives. A command then prints them,
or makes one search and prints its answer as a report or as JSON.
-/

namespace NoteSearch

inductive RunFault where
  | settingsNotLoaded (fault : SettingsFault)
  | settingsInvalid (fault : SettingsFault)
  | settingsUnprintable
  | noClient (e : RequestError)
  | fileUnreadable (path : String)
  | fileInvalid (path : String)
  | search (e : SearchError)
deriving DecidableEq, Repr

def RunFault.message : RunFault → String
  | settingsNotLoaded _ => "Failed to load configuration"
  | settingsInvalid _ => "Invalid configuration"
  | settingsUnprintable => "Failed to render configuration"
  | noClient _ => "Failed to create backend client"
  | fileUnreadable path => "Failed to read " ++ path
  | fileInvalid path => "Invalid query file " ++ path
  | search e => e.message

def GlobalOptions.override (o : GlobalOptions) (s : Settings) : Settings :=
  { s with
    logLevel := o.logLevel.getD s.logLevel
    backendUrl := o.backendUrl.getD s.backendUrl
    results :=
      { s.results with
        includeFullContent := s.results.includeFullContent && !o.noContent
        maxResults := o.limit <|> s.results.maxResults } }

/-- The settings of a run that reads files in some formats. -/
def GlobalOptions.loadSettings (o : GlobalOptions) (w : Surroundings)
    (formats : List SettingsLayer.FileFormat := SettingsLayer.knownFormats) :
    Except RunFault Settings :=
  match Settings.load formats w o.settingsFile with
  | .error fault => .error (.settingsNotLoaded fault)
  | .ok s =>
    match (o.override s).validate with
    | .error fault => .error (.settingsInvalid fault)
    | .ok s => .ok s

def AdvancedRequest.load (w : Surroundings) (path : String) : Except RunFault AdvancedRequest :=
  match w.content? path with
  | none => .error (.fileUnreadable path)
  | some content =>
    match parse? content with
    | none => .error (.fileInvalid path)
    | some r => .ok r

namespace Settings

def client (s : Settings) : Except RunFault HttpClient :=
  (HttpClient.make s.clientConfig).mapError .noClient

def service {ω : Type} (s : Settings) (backend : Backend ω) (source : SchemaSource ω) :
    SearchService ω :=
  { SearchService.standard backend source with options := s.results }

def resolving {ω : Type} (s : Settings) (world : ω) : Resolving ω :=
  ⟨.empty s.schemaLifetime, world⟩

end Settings

namespace Command

abbrev Printing (ω : Type) := StateM (Resolving ω) (Except RunFault String)

def printJson (j : Json) : String := Report.line j.toIndentedText

def printResponse (json : Bool) (r : SearchResponse) : String :=
  if json then printJson (.array (r.results.map SearchResult.toJson)) else Report.ofResponse r

def printSchema (json : Bool) (s : TagSchema) : String :=
  if json then printJson s.toJson else Report.ofSchema s

def printing {ω α : Type} (print : α → String) (search : SearchService.Answer ω α) :
    Printing ω := fun s =>
  match search s with
  | (.ok a, s) => (.ok (print a), s)
  | (.error e, s) => (.error (.search e), s)

variable {ω : Type} (service : SearchService ω)

/-- Makes the search of a request; a mode that is asked for comes before that of the file. -/
def searchRequest (mode : Option CombineMode) (r : AdvancedRequest) :
    SearchService.Answer ω SearchResponse :=
  service.searchAdvanced r.conditions ((mode <|> r.mode).getD .and) r.options

def search (w : Surroundings) (json : Bool) : Command → Printing ω
  | tag name filters options =>
    printing (printResponse json) (service.searchByTag name filters options)
  | text query => printing (printResponse json) (service.searchText query)
  | tasks task options => printing (printResponse json) (service.searchTasks task options)
  | journal range options => printing (printResponse json) (service.searchJournal range options)
  | references id options => printing (printResponse json) (service.searchReferences id options)
  | advanced file mode => fun s =>
    match AdvancedRequest.load w file with
    | .error e => (.error e, s)
    | .ok r => printing (printResponse json) (searchRequest service mode r) s
  | schema name => printing (printSchema json) (service.tagSchema name)
  | settings => fun s => (.ok "", s)

end Command

inductive RunOutcome where
  | printed (output : String)
  | failed (fault : RunFault)
  | misused (fault : UsageFault)
deriving DecidableEq, Repr

namespace RunOutcome

def ofPrinting : Except RunFault String → RunOutcome
  | .ok output => printed output
  | .error fault => failed fault

/-- Help and version are answers to a question. -/
def exitCode : RunOutcome → Nat
  | printed _ => 0
  | failed _ => 1
  | misused .help => 0
  | misused .version => 0
  | misused _ => 2

end RunOutcome

namespace CommandLine

variable {ω : Type} (transport : Transport ω) (w : Surroundings)
  (formats : List SettingsLayer.FileFormat)

def runWith (json : Bool) (s : Settings) (c : Command) : StateM ω (Except RunFault String) :=
  fun world =>
    match c with
    | .settings =>
      match s.toToml? with
      | some output => (.ok output, world)
      | none => (.error .settingsUnprintable, world)
    | c =>
      match s.client with
      | .error e => (.error e, world)
      | .ok client =>
        let service := s.service (client.backend transport) (client.source transport)
        let (output, left) := c.search service w json (s.resolving world)
        (output, left.world)

/-- The files that a run looks for, given its variables. -/
def paths (c : CommandLine) : List String :=
  let settings := SettingsLayer.defaultName w :: c.options.settingsFile.toList
  let request :=
    match c.command with
    | .advanced file _ => [file]
    | _ => []
  settings.flatMap (SettingsLayer.candidates formats) ++ request

def run (c : CommandLine) : StateM ω (Except RunFault String) := fun world =>
  match c.options.loadSettings w formats with
  | .error e => (.error e, world)
  | .ok s => runWith transport w c.options.json s c.command world

def runArguments (args : List String) : StateM ω RunOutcome := fun world =>
  match parse args with
  | .error fault => (.misused fault, world)
  | .ok c =>
    let (output, world) := c.run transport w SettingsLayer.knownFormats world
    (.ofPrinting output, world)

end CommandLine
end NoteSearch
