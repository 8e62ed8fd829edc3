import Bindery.SortedMap
import Bindery.Text.LowerCase
import Bindery.Text.Quoted
import Bindery.Text.Block
import Bindery.Text.Template
import Bindery.TypeTerm.Order
import Bindery.TypeTerm.Catalog
import Bindery.Method.Key
import Bindery.Description.Interchange
import Bindery.Description.Merge
import Bindery.Ast.Interchange
import Bindery.Ast.Visitor
import Bindery.Binding.Cython
import Bindery.Batch
import Bindery.Json.Writer
import Bindery.CommandLine.Session
import Bindery.Main
import Bindery.Proofs.Layers
import Bindery.Proofs.LastWriter
import Bindery.Proofs.Contributions
import Bindery.Proofs.Passes
import Bindery.Proofs.DescribedClass
import Bindery.Proofs.RenderedContext
import Bindery.Proofs.WrittenRecords
import Bindery.Proofs.InterchangeRoundTrip
import Bindery.Proofs.LayerComposition
import Bindery.Proofs.MergeOutcome
import Bindery.Proofs.StagedMerge
import Bindery.Proofs.MergeFailure
import Bindery.Proofs.DescribedAlone
import Bindery.Proofs.WrittenStrings
import Bindery.Proofs.WrittenText
import Bindery.Proofs.ClassifyRules
import Bindery.Proofs.DescribedTypes
import Bindery.Proofs.Nesting
import Bindery.Proofs.SavedFiles
import Bindery.Proofs.Batches
import Bindery.Proofs.BatchOutcome
import Bindery.Proofs.AllowedFiles
import Bindery.Proofs.LocatedRecords
import Bindery.Proofs.Persistence
import Bindery.Proofs.ContextChain
import Bindery.Proofs.LargerDocument
import Bindery.Proofs.UnnamedParameters
import Bindery.Proofs.ImportedNames
import Bindery.Proofs.TwoSteps
import Bindery.Proofs.UnnamedMembers
import Bindery.Proofs.PublicInterface
import Bindery.Proofs.ArityDispatch
import Bindery.Proofs.RunSteps
import Bindery.Proofs.RunFaults
import Bindery.Proofs.RunReport
import Bindery.Proofs.EarlyFaults
import Bindery.Proofs.LeastReturns
import Bindery.Proofs.RepeatedLayers
import Bindery.Proofs.TypeChains
import Bindery.Proofs.IdleMembers
import Bindery.Proofs.CataloguedTypes
import Bindery.Proofs.SpelledNames
import Bindery.Proofs.OverloadIdentity
import Bindery.Proofs.ScopePaths
import Bindery.Proofs.VerbatimTexts
import Bindery.Proofs.OverloadUpdates
import Bindery.Proofs.RecordTags
import Bindery.Proofs.DefaultExpansion
import Bindery.Proofs.NestedBlocks
