import NoteSearch.Main
import NoteSearch.Proofs.History
import NoteSearch.Proofs.Confinement
import NoteSearch.Proofs.Compilation
import NoteSearch.Proofs.TagNames
import NoteSearch.Proofs.FilterText
import NoteSearch.Proofs.Dedicated
import NoteSearch.Proofs.Accounting
import NoteSearch.Proofs.Interleaving
import NoteSearch.Proofs.Invalidation
import NoteSearch.Proofs.Rereading
import NoteSearch.Proofs.BlockRecords
import NoteSearch.Proofs.Truncation
import NoteSearch.Proofs.Clauses
import NoteSearch.Proofs.Choices
import NoteSearch.Proofs.Envelopes
import NoteSearch.Proofs.Presentation
import NoteSearch.Proofs.EnhancingTwice
import NoteSearch.Proofs.Reshaping
import NoteSearch.Proofs.Moments
import NoteSearch.Proofs.CompactFilters
import NoteSearch.Proofs.PropertyValues
import NoteSearch.Proofs.Coercions
import NoteSearch.Proofs.OptionalParts
import NoteSearch.Proofs.SortKeys
import NoteSearch.Proofs.QueryTrees
import NoteSearch.Proofs.SettingsLayers
