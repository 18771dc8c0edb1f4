import NoteSearch.Proofs.SettingsTables
import NoteSearch.Settings.Layers

/-!
# Reading settings from trees

The readers of settings take scalars only. What they find in the tree of the built-in values are the
standard settings.
-/

namespace NoteSearch
namespace SettingsLayer

open SettingsTree PathStep

variable {tree : SettingsTree}

/-- Only scalars can be read. -/
def ReadsScalars {α : Type} (read : SettingsTree → Option α) : Prop :=
  ∀ v a, read v = some a → v.isScalar = true

theorem readsScalars_toText? : ReadsScalars toText? := by
  intro v a h
  cases v <;> first | rfl | cases h

theorem readsScalars_toBool? : ReadsScalars toBool? := by
  intro v a h
  cases v <;> first | rfl | cases h

theorem readsScalars_toWord64? : ReadsScalars toWord64? := by
  intro v a h
  cases v <;> first | rfl | cases h

theorem readsScalars_toWord32? : ReadsScalars toWord32? := by
  intro v a h
  obtain ⟨n, hn, -⟩ := Option.map_eq_some_iff.mp h
  exact readsScalars_toWord64? v n hn

theorem ReadsScalars.toOptional? {α : Type} {read : SettingsTree → Option α}
    (hread : ReadsScalars read) : ReadsScalars (toOptional? read) := by
  intro v a h
  cases v with
  | null => rfl
  | list _ | table _ =>
    obtain ⟨b, hb, -⟩ := Option.map_eq_some_iff.mp h
    simpa [isScalar] using hread _ b hb
  | _ => rfl

/-- The settings in a tree. -/
structure ReadFrom (tree : SettingsTree) (s : Settings) : Prop where
  backendUrl : orStandard Settings.standard.backendUrl toText? (tree.entries.lookup "backend_url") =
    some s.backendUrl
  apiToken : orStandard none (toOptional? toText?) (tree.entries.lookup "api_token") =
    some s.apiToken
  timeoutSeconds : orStandard Settings.standard.timeoutSeconds toWord64?
    (tree.entries.lookup "request_timeout_secs") = some s.timeoutSeconds
  maxRetries : orStandard Settings.standard.maxRetries toWord32?
    (tree.entries.lookup "max_retries") = some s.maxRetries
  schemaLifetime : orStandard Settings.standard.schemaLifetime toWord64?
    (tree.entries.lookup "schema_cache_ttl_secs") = some s.schemaLifetime
  logLevel : orStandard Settings.standard.logLevel toText? (tree.entries.lookup "log_level") =
    some s.logLevel
  results : orStandard Settings.standard.results toResults? (tree.entries.lookup "results") =
    some s.results

theorem readFrom_of_toSettings? {s : Settings} (h : tree.toSettings? = some s) :
    ReadFrom tree s := by
  obtain ⟨backendUrl, hbackendUrl, h⟩ := Option.bind_eq_some_iff.mp h
  obtain ⟨apiToken, hapiToken, h⟩ := Option.bind_eq_some_iff.mp h
  obtain ⟨timeoutSeconds, htimeoutSeconds, h⟩ := Option.bind_eq_some_iff.mp h
  obtain ⟨maxRetries, hmaxRetries, h⟩ := Option.bind_eq_some_iff.mp h
  obtain ⟨schemaLifetime, hschemaLifetime, h⟩ := Option.bind_eq_some_iff.mp h
  obtain ⟨logLevel, hlogLevel, h⟩ := Option.bind_eq_some_iff.mp h
  obtain ⟨results, hresults, h⟩ := Option.bind_eq_some_iff.mp h
  rw [← Option.some.inj h]
  exact ⟨hbackendUrl, hapiToken, htimeoutSeconds, hmaxRetries, hschemaLifetime, hlogLevel, hresults⟩

/-- The options of results in a table. -/
structure ResultsReadFrom (tree : SettingsTree) (results : ResultOptions) : Prop where
  includeFullContent : orStandard ResultOptions.standard.includeFullContent toBool?
    (tree.entries.lookup "include_full_content") = some results.includeFullContent
  treeMaxBlocks : orStandard ResultOptions.standard.treeMaxBlocks toWord64?
    (tree.entries.lookup "tree_max_blocks") = some results.treeMaxBlocks
  treeMaxDepth : orStandard ResultOptions.standard.treeMaxDepth toWord64?
    (tree.entries.lookup "tree_max_depth") = some results.treeMaxDepth
  maxResults : orStandard none (toOptional? toWord64?) (tree.entries.lookup "max_results") =
    some results.maxResults

theorem ReadFrom.resultsReadFrom {s : Settings} (h : ReadFrom tree s)
    (htable : IsTable (tree.entries.lookup "results")) :
    ResultsReadFrom (tableAt "results" tree) s.results := by
  have hresults : resultsOf (fun _ name => (tableAt "results" tree).entries.lookup name) =
      some s.results := by
    have hread := h.results
    rw [tableAt, entries_table]
    cases hv : tree.entries.lookup "results" with
    | none =>
      rw [hv] at hread
      exact hread
    | some v =>
      rw [hv, ← htable v hv] at hread
      exact hread
  obtain ⟨includeFullContent, hincludeFullContent, hresults⟩ := Option.bind_eq_some_iff.mp hresults
  obtain ⟨treeMaxBlocks, htreeMaxBlocks, hresults⟩ := Option.bind_eq_some_iff.mp hresults
  obtain ⟨treeMaxDepth, htreeMaxDepth, hresults⟩ := Option.bind_eq_some_iff.mp hresults
  obtain ⟨maxResults, hmaxResults, hresults⟩ := Option.bind_eq_some_iff.mp hresults
  rw [← Option.some.inj hresults]
  exact ⟨hincludeFullContent, htreeMaxBlocks, htreeMaxDepth, hmaxResults⟩

theorem setEntry?_of_isSmallName {name : String} {v : SettingsTree}
    (hname : isSmallName name = true) (hscalar : v.isScalar = true) (root : SettingsTree) :
    setEntry? root (name, v) = some (table (put name v root.entries)) := by
  obtain ⟨hne, hsmall⟩ := isSmallName_iff.mp hname
  have hpath := path?_name hne fun c hc => isKeyChar_of_isSmall (hsmall c hc)
  simp [ setEntry?, hpath, setAt?, set_eq, lowered_of_isSmallName hname, merged_of_isScalar hscalar]

theorem setEntry?_of_path? {key first last : String} {v : SettingsTree}
    (hpath : path? key = some [.key first, .key last]) (hlast : isSmallName last = true)
    (hscalar : v.isScalar = true) (root : SettingsTree) :
    setEntry? root (key, v) =
      some (table (put first
        (table (put last v ((root.entries.lookup first).getD null).entries)) root.entries)) := by
  simp [ setEntry?, hpath, setAt?, set_eq, lowered_of_isSmallName hlast, merged_of_isScalar hscalar]

/-- The tree of the built-in values. -/
def standardTree : SettingsTree :=
  let s := Settings.standard
  .table
    [ ("backend_url", .text s.backendUrl)
    , ("request_timeout_secs", .integer s.timeoutSeconds)
    , ("max_retries", .integer s.maxRetries)
    , ("schema_cache_ttl_secs", .integer s.schemaLifetime)
    , ("log_level", .text s.logLevel)
    , ("results", .table
        [ ("include_full_content", .boolean s.results.includeFullContent)
        , ("tree_max_blocks", .integer s.results.treeMaxBlocks)
        , ("tree_max_depth", .integer s.results.treeMaxDepth) ]) ]

theorem layer?_builtIn : layer? (table []) builtIn = some standardTree := by
  have hcontent : path? "results.include_full_content" =
      some [.key "results", .key "include_full_content"] := by decide
  have hblocks : path? "results.tree_max_blocks" =
      some [.key "results", .key "tree_max_blocks"] := by decide
  have hdepth : path? "results.tree_max_depth" =
      some [.key "results", .key "tree_max_depth"] := by decide
  rw [layer?, builtIn]
  simp (disch := first | rfl | decide) only [List.foldlM_cons, List.foldlM_nil,
    setEntry?_of_isSmallName, setEntry?_of_path? hcontent, setEntry?_of_path? hblocks,
    setEntry?_of_path? hdepth, Option.bind_eq_bind, Option.bind_some]
  rfl

theorem toSettings?_standardTree : standardTree.toSettings? = some Settings.standard := by
  decide

theorem isTable_standardTree : IsTable (standardTree.entries.lookup "results") := by
  intro v hv
  rw [← Option.some.inj hv]
  rfl

end SettingsLayer
end NoteSearch
