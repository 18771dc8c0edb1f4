import NoteSearch.CommandLine.Run
import NoteSearch.Proofs.BuiltInSettings
import NoteSearch.Proofs.VariableTexts

/-!
# Layers of settings

Each setting of a run is the one that the command line gives, or what the highest layer with a value
for it says: the variables, the file that is asked for, the default file. Only if none of them has
one, it is the built-in value. The texts of variables are read as other values first, so they are
kept only in the form in which these are written.
-/

namespace NoteSearch
namespace SettingsLayer

open SettingsTree PathStep Placing

/-- The scalar that some names lead to in a tree. The last of equal names counts. -/
def valueAt? : List String → SettingsTree → Option SettingsTree
  | [], v => if v.isScalar then some v else none
  | name :: names, .table fields =>
    fields.reverse.findSome? fun field =>
      if lowered field.1 = name then valueAt? names field.2 else none
  | _ :: _, _ => none

/-- The value of an entry for a setting: under its names, or in the table of the first of them. -/
def valueIn? (names : List String) (entry : String × SettingsTree) : Option SettingsTree :=
  (keyNames? entry.1).bind fun path =>
    if path <+: names then valueAt? (names.drop path.length) entry.2 else none

/-- The value that the last of some entries has for a setting. -/
def value? (names : List String) (entries : Entries) : Option SettingsTree :=
  entries.reverse.findSome? (valueIn? names)

/-- The value of the highest layer that has one. -/
def highest? (layers : List Entries) (names : List String) : Option SettingsTree :=
  layers.reverse.findSome? (value? names)

/-- A setting is what the command line gives, or what is read in the highest layer with a value. -/
def Settled {α : Type} (flag : Option α) (layers : List Entries) (names : List String)
    (standard : α) (read : SettingsTree → Option α) (a : α) : Prop :=
  match flag, highest? layers names with
  | some b, _ => a = b
  | none, some v => read v = some a
  | none, none => a = standard

theorem settled_of_highest? {α : Type} {layers : List Entries} {names : List String}
    {standard a : α} {read : SettingsTree → Option α} {v : SettingsTree}
    (h : highest? layers names = some v) :
    Settled none layers names standard read a ↔ read v = some a := by
  unfold Settled
  rw [h]

theorem settled_getD {α : Type} {layers : List Entries} {names : List String} {standard a : α}
    {read : SettingsTree → Option α}
    (h : orStandard standard read (highest? layers names) = some a) (flag : Option α) :
    Settled flag layers names standard read (flag.getD a) := by
  unfold Settled
  cases flag with
  | some b => rfl
  | none =>
    cases hv : highest? layers names with
    | some v =>
      rw [hv] at h
      exact h
    | none =>
      rw [hv] at h
      exact (Option.some.inj h).symm

theorem value?_append (names : List String) (entries entries' : Entries) :
    value? names (entries ++ entries') = (value? names entries').or (value? names entries) := by
  simp [value?, List.findSome?_append]

theorem highest?_eq (layers : List Entries) (names : List String) :
    highest? layers names = value? names layers.flatten := by
  induction layers with
  | nil => rfl
  | cons entries layers ih =>
    rw [List.flatten_cons, value?_append, ← ih]
    simp [highest?, List.findSome?_append]

theorem valueIn?_eq_none {names : List String} {entry : String × SettingsTree}
    (h : ∀ path, keyNames? entry.1 = some path → ¬path <+: names) :
    valueIn? names entry = none := by
  rw [valueIn?, Option.bind_eq_none_iff]
  exact fun path hpath => if_neg (h path hpath)

theorem valueIn?_single (name : String) (entry : String × SettingsTree) :
    valueIn? [name] entry = byPath.given? name entry := by
  by_cases h : keyNames? entry.1 = some [name]
  · obtain ⟨hone, hkey⟩ := keyNames?_eq_singleton_iff.mp h
    simp [valueIn?, h, valueAt?, Placing.given?, hone, hkey]
  · have hgiven : byPath.given? name entry = none := by
      refine Option.eq_none_iff_forall_ne_some.mpr fun v hv => ?_
      obtain ⟨hone, hkey, -⟩ := given?_eq_some_iff.mp hv
      exact h (keyNames?_eq_singleton_iff.mpr ⟨hone, hkey⟩)
    rw [hgiven]
    refine valueIn?_eq_none fun path hpath hprefix => ?_
    rcases List.prefix_cons_iff.mp hprefix with rfl | ⟨rest, rfl, hrest⟩
    · exact keyNames?_ne_nil _ hpath
    · rw [List.prefix_nil.mp hrest] at hpath
      exact h hpath

theorem value?_single (name : String) (entries : Entries) :
    value? [name] entries = byPath.last? name entries := by
  rw [value?, last?, funext (valueIn?_single name)]

theorem valueAt?_field (name : String) (v : SettingsTree) :
    valueAt? [name] v = byName.last? name v.entries := by
  cases v with
  | table fields =>
    rw [valueAt?, last?, entries_table]
    congr 1
    funext field
    by_cases hkey : lowered field.1 = name <;> simp [Placing.given?, byName, valueAt?, hkey]
  | _ => rfl

theorem valueIn?_pair (first name : String) (entry : String × SettingsTree) :
    valueIn? [first, name] entry = byName.last? name (fieldsOf first entry) := by
  by_cases hone : keyNames? entry.1 = some [first]
  · obtain ⟨hname, hkey⟩ := keyNames?_eq_singleton_iff.mp hone
    rw [fieldsOf_of_isName hname hkey, ← valueAt?_field]
    simp [valueIn?, hone]
  · by_cases htwo : ∃ last, path? entry.1 = some [.key first, .key last]
    · obtain ⟨last, hpath⟩ := htwo
      have hnames : keyNames? entry.1 = some [first, lowered last] :=
        keyNames?_eq_pair_iff.mpr ⟨last, hpath, rfl⟩
      rw [fieldsOf_of_path? hpath]
      by_cases hkey : lowered last = name <;>
        simp [valueIn?, hnames, valueAt?, last?, Placing.given?, byName, hkey]
    · have hfields : fieldsOf first entry = [] := by
        unfold fieldsOf
        split
        · rename_i first' last hpath
          exact if_neg fun hfirst : first' = first => htwo ⟨last, hfirst ▸ hpath⟩
        · refine if_neg fun hkey => hone (keyNames?_eq_singleton_iff.mpr ?_)
          simpa using hkey
      rw [hfields]
      refine valueIn?_eq_none fun path hpath hprefix => ?_
      rcases List.prefix_cons_iff.mp hprefix with rfl | ⟨rest, rfl, hrest⟩
      · exact keyNames?_ne_nil _ hpath
      · rcases List.prefix_cons_iff.mp hrest with rfl | ⟨rest', rfl, hrest'⟩
        · exact hone hpath
        · rw [List.prefix_nil.mp hrest'] at hpath
          obtain ⟨last, hpath, -⟩ := keyNames?_eq_pair_iff.mp hpath
          exact htwo ⟨last, hpath⟩

theorem value?_pair (first name : String) (entries : Entries) :
    value? [first, name] entries = byName.last? name (entries.flatMap (fieldsOf first)) := by
  induction entries with
  | nil => rfl
  | cons entry entries ih =>
    have hcons : value? [first, name] (entry :: entries) =
        (value? [first, name] entries).or (valueIn? [first, name] entry) := by
      simp [value?, List.findSome?_append]
    rw [hcons, ih, valueIn?_pair, List.flatMap_cons]
    simp [last?, List.findSome?_append]

structure Layering (layers : List Entries) (given tree : SettingsTree) : Prop where
  given_eq : layer? (table []) layers.flatten = some given
  tree_eq : layer? standardTree given.entries = some tree

/-- Every entry for the results is a table of them or has one of their keys. -/
def TabularResults (layers : List Entries) : Prop :=
  layers.flatten.all (isTabular "results") = true

theorem foldlM_layer? (root : SettingsTree) (layers : List Entries) :
    layers.foldlM layer? root = layer? root layers.flatten := by
  induction layers generalizing root with
  | nil => rfl
  | cons entries layers ih =>
    rw [List.foldlM_cons, List.flatten_cons, layer?, layer?, List.foldlM_append]
    congr 1
    funext next
    exact ih next

theorem ofLayers?_eq (layers : List Entries) :
    Settings.ofLayers? layers =
      (layers.foldlM layer? (table [])).bind fun given =>
        (layer? standardTree given.entries).bind toSettings? := by
  simp only [Settings.ofLayers?, layer?_builtIn]
  rfl

theorem ofLayers?_eq_some {layers : List Entries} {s : Settings}
    (h : Settings.ofLayers? layers = some s) :
    ∃ given tree, Layering layers given tree ∧ tree.toSettings? = some s := by
  rw [ofLayers?_eq, foldlM_layer?] at h
  obtain ⟨given, hgiven, h⟩ := Option.bind_eq_some_iff.mp h
  obtain ⟨tree, htree, h⟩ := Option.bind_eq_some_iff.mp h
  exact ⟨given, tree, ⟨hgiven, htree⟩, h⟩

variable {layers : List Entries} {given tree : SettingsTree}

namespace Layering

variable {α : Type} {read : SettingsTree → Option α} {standard a : α} {name : String}

theorem placeAll?_given (h : Layering layers given tree) :
    byPath.placeAll? (table []) layers.flatten = some given := by
  rw [byPath_placeAll?, h.given_eq]

theorem placeAll?_tree (h : Layering layers given tree) :
    byPath.placeAll? standardTree given.entries = some tree := by
  rw [byPath_placeAll?, h.tree_eq]

theorem settled (h : Layering layers given tree) (hname : isSmallName name = true)
    (hread : ReadsScalars read)
    (hstandard : orStandard standard read (standardTree.entries.lookup name) = some standard)
    (ha : orStandard standard read (tree.entries.lookup name) = some a) (flag : Option α) :
    Settled flag layers [name] standard read (flag.getD a) := by
  apply settled_getD
  rw [highest?_eq, value?_single]
  exact read_last? hread hname (isName_of_isSmallName hname) hstandard h.placeAll?_given
    h.placeAll?_tree ha

theorem tables (h : Layering layers given tree) (htabular : TabularResults layers) :
    tableAt "results" given =
        setAll (table []) (layers.flatten.flatMap (fieldsOf "results")) ∧
      tableAt "results" tree =
        setAll (tableAt "results" standardTree) (tableAt "results" given).entries ∧
      IsTable (tree.entries.lookup "results") :=
  tableAt_twice (by decide) htabular h.placeAll?_given h.placeAll?_tree isTable_standardTree

theorem settled_results (h : Layering layers given tree) (htabular : TabularResults layers)
    (hname : isSmallName name = true) (hread : ReadsScalars read)
    (hstandard : orStandard standard read
      ((tableAt "results" standardTree).entries.lookup name) = some standard)
    (ha : orStandard standard read ((tableAt "results" tree).entries.lookup name) = some a)
    (flag : Option α) :
    Settled flag layers ["results", name] standard read (flag.getD a) := by
  obtain ⟨hgiven, htree, -⟩ := h.tables htabular
  apply settled_getD
  rw [highest?_eq, value?_pair]
  have hfields : byName.placeAll? (table []) (layers.flatten.flatMap (fieldsOf "results")) =
      some (tableAt "results" given) := by
    rw [byName_placeAll?, hgiven]
  have hresults : byName.placeAll? (tableAt "results" standardTree)
      (tableAt "results" given).entries = some (tableAt "results" tree) := by
    rw [byName_placeAll?, htree]
  exact read_last? hread hname rfl hstandard hfields hresults ha

end Layering

/-- The settings of a run, apart from the results, from its command line and layers. -/
structure Layered (o : GlobalOptions) (layers : List Entries) (s : Settings) : Prop where
  backendUrl : Settled o.backendUrl layers ["backend_url"] Settings.standard.backendUrl toText?
    s.backendUrl
  apiToken : Settled none layers ["api_token"] none (toOptional? toText?) s.apiToken
  timeoutSeconds : Settled none layers ["request_timeout_secs"] Settings.standard.timeoutSeconds
    toWord64? s.timeoutSeconds
  maxRetries : Settled none layers ["max_retries"] Settings.standard.maxRetries toWord32?
    s.maxRetries
  schemaLifetime : Settled none layers ["schema_cache_ttl_secs"] Settings.standard.schemaLifetime
    toWord64? s.schemaLifetime
  logLevel : Settled o.logLevel layers ["log_level"] Settings.standard.logLevel toText? s.logLevel

/-- The options of results from the command line and layers. -/
structure LayeredResults (o : GlobalOptions) (layers : List Entries) (results : ResultOptions) :
    Prop where
  includeFullContent : Settled (if o.noContent then some false else none) layers
    ["results", "include_full_content"] ResultOptions.standard.includeFullContent toBool?
    results.includeFullContent
  treeMaxBlocks : Settled none layers ["results", "tree_max_blocks"]
    ResultOptions.standard.treeMaxBlocks toWord64? results.treeMaxBlocks
  treeMaxDepth : Settled none layers ["results", "tree_max_depth"]
    ResultOptions.standard.treeMaxDepth toWord64? results.treeMaxDepth
  maxResults : Settled (o.limit.map some) layers ["results", "max_results"] none
    (toOptional? toWord64?) results.maxResults

theorem Layering.layered (h : Layering layers given tree) {s : Settings}
    (hs : ReadFrom tree s) (o : GlobalOptions) : Layered o layers (o.override s) := by
  have hstandard := readFrom_of_toSettings? toSettings?_standardTree
  constructor
  case backendUrl =>
    exact h.settled (by decide) readsScalars_toText? hstandard.backendUrl hs.backendUrl _
  case apiToken =>
    exact h.settled (by decide) readsScalars_toText?.toOptional? hstandard.apiToken hs.apiToken none
  case timeoutSeconds =>
    exact h.settled (by decide) readsScalars_toWord64? hstandard.timeoutSeconds hs.timeoutSeconds
      none
  case maxRetries =>
    exact h.settled (by decide) readsScalars_toWord32? hstandard.maxRetries hs.maxRetries none
  case schemaLifetime =>
    exact h.settled (by decide) readsScalars_toWord64? hstandard.schemaLifetime hs.schemaLifetime
      none
  case logLevel =>
    exact h.settled (by decide) readsScalars_toText? hstandard.logLevel hs.logLevel _

theorem Layering.layeredResults (h : Layering layers given tree) {s : Settings}
    (hs : ReadFrom tree s) (htabular : TabularResults layers) (o : GlobalOptions) :
    LayeredResults o layers (o.override s).results := by
  obtain ⟨-, -, htable⟩ := h.tables htabular
  have hstandard :=
    (readFrom_of_toSettings? toSettings?_standardTree).resultsReadFrom isTable_standardTree
  have hresults := hs.resultsReadFrom htable
  constructor
  case includeFullContent =>
    have hflag : (if o.noContent then some false else none).getD s.results.includeFullContent =
        (s.results.includeFullContent && !o.noContent) := by
      cases o.noContent <;> simp
    have hcontent := h.settled_results htabular (by decide) readsScalars_toBool?
      hstandard.includeFullContent hresults.includeFullContent
      (if o.noContent then some false else none)
    rw [hflag] at hcontent
    exact hcontent
  case treeMaxBlocks =>
    exact h.settled_results htabular (by decide) readsScalars_toWord64? hstandard.treeMaxBlocks
      hresults.treeMaxBlocks none
  case treeMaxDepth =>
    exact h.settled_results htabular (by decide) readsScalars_toWord64? hstandard.treeMaxDepth
      hresults.treeMaxDepth none
  case maxResults =>
    have hflag : (o.limit.map some).getD s.results.maxResults =
        (o.limit <|> s.results.maxResults) := by
      cases o.limit <;> rfl
    have hmax := h.settled_results htabular (by decide) readsScalars_toWord64?.toOptional?
      hstandard.maxResults hresults.maxResults (o.limit.map some)
    rw [hflag] at hmax
    exact hmax

/-- A text setting that no flag gives has the text of its variable exactly if it is kept. -/
structure KeepsTexts (o : GlobalOptions) (w : Surroundings) (s : Settings) : Prop where
  backendUrl : o.backendUrl = none → ∀ x, variableText? w "backend_url" = some x →
    (s.backendUrl = x ↔ Kept x)
  apiToken : ∀ x, variableText? w "api_token" = some x → (s.apiToken = some x ↔ Kept x)
  logLevel : o.logLevel = none → ∀ x, variableText? w "log_level" = some x →
    (s.logLevel = x ↔ Kept x)

theorem highest?_of_variableText? {w : Surroundings} {name x : String} (lower : List Entries)
    (hname : isSmallName name = true) (hnested : nested name.toList = name.toList)
    (hx : variableText? w name = some x) :
    highest? (lower ++ [ofVariables w]) [name] = some (valueOf x) := by
  have hvalue : value? [name] (ofVariables w) = some (valueOf x) := by
    rw [value?_single, last?_ofVariables hname hnested, hx]
    rfl
  rw [highest?, List.reverse_append]
  simp [hvalue]

theorem toOptional?_valueOf (x : String) :
    toOptional? toText? (valueOf x) = (valueOf x).toText?.map some := by
  unfold valueOf
  repeat' split
  all_goals rfl

theorem Layered.keepsTexts {o : GlobalOptions} {w : Surroundings} {s : Settings}
    (lower : List Entries) (h : Layered o (lower ++ [ofVariables w]) s) : KeepsTexts o w s where
  backendUrl hflag x hx := by
    have hread := h.backendUrl
    rw [hflag, settled_of_highest? (highest?_of_variableText? lower (by decide) (by decide) hx)]
      at hread
    rw [kept_iff, hread, Option.some.injEq]
  apiToken x hx := by
    have hread := h.apiToken
    rw [settled_of_highest? (highest?_of_variableText? lower (by decide) (by decide) hx),
      toOptional?_valueOf, Option.map_eq_some_iff] at hread
    obtain ⟨text, htext, htoken⟩ := hread
    rw [kept_iff, htext, ← htoken]
  logLevel hflag x hx := by
    have hread := h.logLevel
    rw [hflag, settled_of_highest? (highest?_of_variableText? lower (by decide) (by decide) hx)]
      at hread
    rw [kept_iff, hread, Option.some.injEq]

end SettingsLayer

namespace GlobalOptions

open SettingsLayer

theorem eq_of_validate {s s' : Settings} (h : s.validate = .ok s') : s' = s := by
  unfold Settings.validate at h
  split at h
  · cases h
  · exact (Except.ok.inj h).symm

variable {o : GlobalOptions} {formats : List FileFormat} {w : Surroundings} {s : Settings}

/-- The order of the formats plays no part where a name has one file only. -/
theorem findFile?_of_unique {name : String} {file : FileFormat × String} {content : String}
    (hname : w.content? name = none) (hfile : file ∈ withEndings formats name)
    (hcontent : w.content? file.2 = some content)
    (honly : ∀ other ∈ withEndings formats name, other ≠ file → w.content? other.2 = none) :
    findFile? formats w name = some (file.1, content) := by
  simp only [findFile?, hname]
  cases hfound : (withEndings formats name).findSome? fun file =>
      (w.content? file.2).map fun content => (file.1, content) with
  | none =>
    have hnone := List.findSome?_eq_none_iff.mp hfound file hfile
    rw [hcontent] at hnone
    cases hnone
  | some found =>
    obtain ⟨other, hother, hread⟩ := List.exists_of_findSome?_eq_some hfound
    by_cases heq : other = file
    · rw [heq, hcontent] at hread
      exact hread.symm
    · rw [honly other hother heq] at hread
      cases hread

theorem loadSettings_eq_ok (h : o.loadSettings w formats = .ok s) :
    ∃ layers loaded, given? formats w o.settingsFile = some layers ∧
      Settings.ofLayers? layers = some loaded ∧ s = o.override loaded := by
  unfold loadSettings at h
  split at h
  · cases h
  · rename_i loaded hload
    split at h
    · cases h
    · rename_i final hfinal
      obtain rfl := Except.ok.inj h
      unfold Settings.load at hload
      split at hload
      · rename_i built hbuilt
        obtain ⟨layers, hlayers, hbuilt⟩ := Option.bind_eq_some_iff.mp hbuilt
        obtain rfl := eq_of_validate hload
        exact ⟨layers, loaded, hlayers, hbuilt, eq_of_validate hfinal⟩
      · cases hload

/-- Each setting of a run is the flag's, or the highest layer's that has a value for it, or the
built-in one. The options of results are, too, where every layer gives them as a table or key by
key. Of the texts of variables those are kept that stand for no other value or are written as the
value they stand for. -/
theorem loadSettings_layered (h : o.loadSettings w formats = .ok s) :
    ∃ defaults named, defaultFile? formats w = some defaults ∧
      namedFile? formats w o.settingsFile = some named ∧
      Layered o [defaults, named, ofVariables w] s ∧
      (TabularResults [defaults, named, ofVariables w] →
        LayeredResults o [defaults, named, ofVariables w] s.results) ∧
      KeepsTexts o w s := by
  obtain ⟨layers, loaded, hlayers, hloaded, rfl⟩ := loadSettings_eq_ok h
  obtain ⟨defaults, hdefaults, hlayers⟩ := Option.bind_eq_some_iff.mp hlayers
  obtain ⟨named, hnamed, hlayers⟩ := Option.bind_eq_some_iff.mp hlayers
  obtain rfl := Option.some.inj hlayers
  obtain ⟨given, tree, hlayering, htree⟩ := ofLayers?_eq_some hloaded
  have hread := readFrom_of_toSettings? htree
  have hlayered := hlayering.layered hread o
  refine ⟨defaults, named, hdefaults, hnamed, hlayered, fun htabular => ?_, ?_⟩
  · exact hlayering.layeredResults hread htabular o
  · exact Layered.keepsTexts [defaults, named] hlayered

def indentedText : String := "results:\n  tree_max_depth: 3\n  tree_max_blocks: 4\n"

def indented : FileFormat where
  endings := ["yaml", "yml"]
  read? content :=
    if content = indentedText then
      some [("results", .table [("tree_max_depth", .integer 3), ("tree_max_blocks", .integer 4)])]
    else none

def layeredFormats : List FileFormat := [.json, indented, .toml]

/-- Surroundings with values in both files and in variables. -/
def layeredSurroundings : Surroundings where
  content? path :=
    if path = "/h/.config/notequery/config.yml" then some indentedText
    else if path = "s.toml" then some "api_token = \"007\"\nresults.tree_max_depth = 6\n"
    else none
  environment := [("HOME", "/h"), ("NOTEQUERY_Log_Level", "debug")]

def layeredOptions : GlobalOptions :=
  { standard with settingsFile := some "s", backendUrl := some "http://b", limit := some 2 }

def layeredSettings : Settings :=
  { Settings.standard with
    backendUrl := "http://b"
    apiToken := some "007"
    logLevel := "debug"
    results := ⟨true, 4, 6, some 2⟩ }

/-- Built-in values, both files, variables and options at once. -/
theorem loadSettings_layered_everywhere :
    layeredOptions.loadSettings layeredSurroundings layeredFormats = .ok layeredSettings ∧
      ∃ defaults named, defaultFile? layeredFormats layeredSurroundings = some defaults ∧
        namedFile? layeredFormats layeredSurroundings layeredOptions.settingsFile = some named ∧
        Layered layeredOptions [defaults, named, ofVariables layeredSurroundings] layeredSettings ∧
        LayeredResults layeredOptions [defaults, named, ofVariables layeredSurroundings]
          layeredSettings.results ∧
        KeepsTexts layeredOptions layeredSurroundings layeredSettings := by
  have hload :
      layeredOptions.loadSettings layeredSurroundings layeredFormats = .ok layeredSettings := by
    rw [loadSettings, Settings.load, funext ofLayers?_eq]
    decide +kernel
  obtain ⟨defaults, named, hdefaults, hnamed, hlayered, hresults, htexts⟩ :=
    loadSettings_layered hload
  have htabular : (defaultFile? layeredFormats layeredSurroundings).all (fun defaults =>
      (namedFile? layeredFormats layeredSurroundings layeredOptions.settingsFile).all fun named =>
        [defaults, named, ofVariables layeredSurroundings].flatten.all
          (SettingsTree.isTabular "results")) = true := by
    decide +kernel
  rw [hdefaults, hnamed] at htabular
  exact ⟨hload, defaults, named, hdefaults, hnamed, hlayered, hresults htabular, htexts⟩

/-- A token of digits is not kept in a variable. -/
theorem loadSettings_token_changed :
    variableText? ⟨fun _ => none, [("NOTEQUERY_API_TOKEN", "007")]⟩ "api_token" = some "007" ∧
      standard.loadSettings ⟨fun _ => none, [("NOTEQUERY_API_TOKEN", "007")]⟩ =
        .ok { Settings.standard with apiToken := some "7" } := by
  rw [loadSettings, Settings.load, funext ofLayers?_eq]
  decide +kernel

end GlobalOptions
end NoteSearch
