import KsyTools.Command.Arguments
import KsyTools.Command.Console
import KsyTools.Command.Includes
import KsyTools.Command.Lint
import KsyTools.Document.Basic
import KsyTools.Document.Issue
import KsyTools.Document.Node
import KsyTools.Document.OfGraph
import KsyTools.Document.Position
import KsyTools.Document.Range
import KsyTools.Document.Tree
import KsyTools.Failure
import KsyTools.Files.Error
import KsyTools.Files.Tree
import KsyTools.Json.Basic
import KsyTools.Json.Printer
import KsyTools.Json.Reader
import KsyTools.Keyed
import KsyTools.Ksy.Completion
import KsyTools.Ksy.FileName
import KsyTools.Ksy.Grammar
import KsyTools.Ksy.Import
import KsyTools.Ksy.IncludeReport
import KsyTools.Ksy.KnownType
import KsyTools.Ksy.Reference
import KsyTools.Ksy.StandardType
import KsyTools.Ksy.Structure
import KsyTools.Ksy.Types
import KsyTools.Ksy.Validation
import KsyTools.Lint.Files
import KsyTools.Lint.Format
import KsyTools.Lint.Result
import KsyTools.Lint.Search
import KsyTools.Log
import KsyTools.Log.Level
import KsyTools.Log.Routing
import KsyTools.Main
import KsyTools.Number.Binary64
import KsyTools.Number.Decimal
import KsyTools.Number.Literal
import KsyTools.Path.Basic
import KsyTools.Path.Drive
import KsyTools.Proofs.Alike
import KsyTools.Proofs.Asked
import KsyTools.Proofs.Document.Alignment
import KsyTools.Proofs.Document.Innermost
import KsyTools.Proofs.Document.Kinds
import KsyTools.Proofs.Document.Offsets
import KsyTools.Proofs.Document.Outcome
import KsyTools.Proofs.Document.Parents
import KsyTools.Proofs.Document.Places
import KsyTools.Proofs.Document.Positions
import KsyTools.Proofs.Document.Unfolding
import KsyTools.Proofs.Document.Walk
import KsyTools.Proofs.Files.LinkFree
import KsyTools.Proofs.Files.Links
import KsyTools.Proofs.Files.Regular
import KsyTools.Proofs.Ksy.Description
import KsyTools.Proofs.Ksy.DescriptionCheck
import KsyTools.Proofs.Ksy.DiscoveryOrder
import KsyTools.Proofs.Ksy.ExistingDocument
import KsyTools.Proofs.Ksy.ImportClosure
import KsyTools.Proofs.Ksy.ImportCompletion
import KsyTools.Proofs.Ksy.ImportPaths
import KsyTools.Proofs.Ksy.ImportWalk
import KsyTools.Proofs.Ksy.ImportedDocument
import KsyTools.Proofs.Ksy.References
import KsyTools.Proofs.Ksy.SharedTypes
import KsyTools.Proofs.Ksy.TypeNames
import KsyTools.Proofs.Ksy.TypePaths
import KsyTools.Proofs.Ksy.TypedPath
import KsyTools.Proofs.Ksy.TypesBlocks
import KsyTools.Proofs.Ksy.ValidationOutcome
import KsyTools.Proofs.Ksy.Warnings
import KsyTools.Proofs.Lint.SameFindings
import KsyTools.Proofs.OnlyAsks
import KsyTools.Proofs.Path.LastComponent
import KsyTools.Proofs.Path.Written
import KsyTools.Proofs.Schema.FindingPaths
import KsyTools.Proofs.Schema.Loaded
import KsyTools.Proofs.Schema.Pointers
import KsyTools.Proofs.Schema.Values
import KsyTools.Proofs.Schema.Verdict
import KsyTools.Proofs.Server.Agreement
import KsyTools.Proofs.Server.Buffers
import KsyTools.Proofs.Server.Coherence
import KsyTools.Proofs.Server.Definitions
import KsyTools.Proofs.Server.Dependents
import KsyTools.Proofs.Server.Effects
import KsyTools.Proofs.Server.FileUris
import KsyTools.Proofs.Server.FreshDiagnostics
import KsyTools.Proofs.Server.ImportEntries
import KsyTools.Proofs.Server.IndexFollowsStore
import KsyTools.Proofs.Server.Reachable
import KsyTools.Proofs.Server.ReverseImports
import KsyTools.Proofs.Server.Run
import KsyTools.Proofs.Session
import KsyTools.Proofs.Store.Lookup
import KsyTools.Proofs.Store.Numbering
import KsyTools.Proofs.Store.Recency
import KsyTools.Proofs.Store.Runs
import KsyTools.Proofs.Text.Pattern
import KsyTools.Proofs.Text.Percent
import KsyTools.Proofs.Uniform
import KsyTools.Proofs.Yaml.Construction
import KsyTools.Proofs.Yaml.Containment
import KsyTools.Proofs.Yaml.GraphFaults
import KsyTools.Proofs.Yaml.Keeps
import KsyTools.Proofs.Yaml.LexicalFaults
import KsyTools.Proofs.Yaml.PartsInside
import KsyTools.Proofs.Yaml.Revisits
import KsyTools.Proofs.Yaml.TokenFaults
import KsyTools.Proofs.Yaml.ValueFaults
import KsyTools.Proofs.Yields
import KsyTools.Schema.Basic
import KsyTools.Schema.Cache
import KsyTools.Schema.Findings
import KsyTools.Schema.Library
import KsyTools.Schema.Metaschema
import KsyTools.Schema.OfJson
import KsyTools.Schema.Report
import KsyTools.Schema.Value
import KsyTools.Server.Basic
import KsyTools.Server.Completion
import KsyTools.Server.Diagnostic
import KsyTools.Server.Event
import KsyTools.Server.FileUri
import KsyTools.Server.Host
import KsyTools.Server.ImportIndex
import KsyTools.Server.Navigation
import KsyTools.Server.Workspace
import KsyTools.Session
import KsyTools.Settings
import KsyTools.Store.Basic
import KsyTools.Text.Basic
import KsyTools.Text.Casing
import KsyTools.Text.CharClass
import KsyTools.Text.LetterCase
import KsyTools.Text.Lines
import KsyTools.Text.Pattern
import KsyTools.Text.Percent
import KsyTools.Text.Printable
import KsyTools.Text.Quoted
import KsyTools.Text.Regex
import KsyTools.Text.Regex.Reader
import KsyTools.Text.Uri
import KsyTools.Text.Utf8
import KsyTools.Text.Word
import KsyTools.Yaml.Cursor
import KsyTools.Yaml.Data
import KsyTools.Yaml.Data.OfGraph
import KsyTools.Yaml.Data.Scalar
import KsyTools.Yaml.Graph
import KsyTools.Yaml.Graph.OfTokens
import KsyTools.Yaml.Problem
import KsyTools.Yaml.Tag
import KsyTools.Yaml.Time
import KsyTools.Yaml.Token
import KsyTools.Yaml.Token.Block
import KsyTools.Yaml.Token.Directives
import KsyTools.Yaml.Token.Plain
import KsyTools.Yaml.Token.Property
import KsyTools.Yaml.Token.Quoted
import KsyTools.Yaml.Token.Stream
