import Bulkhead.Audit
import Bulkhead.CommandLine.Arguments
import Bulkhead.CommandLine.Report
import Bulkhead.Constant
import Bulkhead.Crossing
import Bulkhead.Digest.Sha256
import Bulkhead.Factory.Declaration
import Bulkhead.Factory.Index
import Bulkhead.Failure
import Bulkhead.FileSystem
import Bulkhead.Host
import Bulkhead.Inspection
import Bulkhead.Journal
import Bulkhead.Json.Read
import Bulkhead.Json.Write
import Bulkhead.Main
import Bulkhead.Naming
import Bulkhead.Number.Double
import Bulkhead.Number.Shortest
import Bulkhead.Offense
import Bulkhead.Outcome
import Bulkhead.Path
import Bulkhead.Persistence
import Bulkhead.Protection
import Bulkhead.PublicApi.Catalog
import Bulkhead.PublicApi.Listing
import Bulkhead.Session
import Bulkhead.Settings.Basic
import Bulkhead.Settings.Check
import Bulkhead.Settings.Load
import Bulkhead.Snapshot
import Bulkhead.SourceTree.Basic
import Bulkhead.SourceTree.Branch
import Bulkhead.SourceTree.Document
import Bulkhead.SourceTree.Flatten
import Bulkhead.SourceTree.Layout
import Bulkhead.Template
import Bulkhead.Text.Blank
import Bulkhead.Text.CharSet
import Bulkhead.Text.Digit
import Bulkhead.Text.Lowercase
import Bulkhead.Text.Search
import Bulkhead.Text.Utf8
import Bulkhead.Text.Visible
import Bulkhead.Text.Word
import Bulkhead.Value.Basic
import Bulkhead.Value.Literal
import Bulkhead.Verdict
import Bulkhead.Yaml.Plain
import Bulkhead.Yaml.Read
import Bulkhead.Yaml.Reader
import Bulkhead.Yaml.Scalar
import Bulkhead.Proofs.NodeObject
import Bulkhead.Proofs.Numbering
import Bulkhead.Proofs.Faithfulness
import Bulkhead.Proofs.Kept
import Bulkhead.Proofs.Rules
import Bulkhead.Proofs.Agreement
import Bulkhead.Proofs.NestedInspection
import Bulkhead.Proofs.Refinement
import Bulkhead.Proofs.Policy
import Bulkhead.Proofs.StrongProtection
import Bulkhead.Proofs.Monotonicity
import Bulkhead.Proofs.CatalogRuns
import Bulkhead.Proofs.LongSession
import Bulkhead.Proofs.ListingText
import Bulkhead.Proofs.Checksum
import Bulkhead.Proofs.ListingLayout
import Bulkhead.Proofs.AcceptedSettings
import Bulkhead.Proofs.Spelling
import Bulkhead.Proofs.FailedBuild
import Bulkhead.Proofs.FactoryScopes
import Bulkhead.Proofs.Judging
import Bulkhead.Proofs.Questions
import Bulkhead.Proofs.JudgedReferences
import Bulkhead.Proofs.AuditTrail
import Bulkhead.Proofs.TrailHistory
import Bulkhead.Proofs.Lineage
import Bulkhead.Proofs.Totality
import Bulkhead.Proofs.ManyFiles
import Bulkhead.Proofs.ParentChains
import Bulkhead.Proofs.FileOrder
import Bulkhead.Proofs.RootedEntries
import Bulkhead.Proofs.Ownership
import Bulkhead.Proofs.ListGrammar
import Bulkhead.Proofs.CommentedLists
import Bulkhead.Proofs.Splitting
import Bulkhead.Proofs.RunnerCommands
import Bulkhead.Proofs.ConstantChains
import Bulkhead.Proofs.Lookups
import Bulkhead.Proofs.SameName
import Bulkhead.Proofs.DirectoryNames
import Bulkhead.Proofs.DocumentedSettings
import Bulkhead.Proofs.NodeFaults
