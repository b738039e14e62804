import CodeGraph.Ordered
import CodeGraph.Text.Blank
import CodeGraph.Text.Order
import CodeGraph.Text.Pieces
import CodeGraph.Text.Word
import CodeGraph.Text.Lower
import CodeGraph.Text.Integer
import CodeGraph.Text.Wildcard
import CodeGraph.Text.Utf8
import CodeGraph.Text.Surrogate
import CodeGraph.Digest.Sha1
import CodeGraph.Json.Decimal
import CodeGraph.Json.Value
import CodeGraph.Json.Printer
import CodeGraph.Json.Parser
import CodeGraph.Json.Relaxed
import CodeGraph.Json.Schema
import CodeGraph.Files.PathText
import CodeGraph.Files.Path
import CodeGraph.Syntax.Node
import CodeGraph.Syntax.Source
import CodeGraph.Files.Entry
import CodeGraph.Files.FileFault
import CodeGraph.Files.FileTree
import CodeGraph.Files.Resolution
import CodeGraph.Files.Writing
import CodeGraph.Notice
import CodeGraph.Model.Basic
import CodeGraph.Model.Identity
import CodeGraph.Model.Canonical
import CodeGraph.Model.Integrity
import CodeGraph.Model.Encode
import CodeGraph.Model.Schema
import CodeGraph.Report.Finding
import CodeGraph.Report.Log
import CodeGraph.Report.Markdown
import CodeGraph.Inventory.ExcludeRule
import CodeGraph.Inventory.Scan
import CodeGraph.Settings.PlainDocument
import CodeGraph.Settings.Settings
import CodeGraph.Compiler.Options
import CodeGraph.Modules.Resolution
import CodeGraph.Modules.Bindings
import CodeGraph.Modules.SymbolTable
import CodeGraph.Types.Reading
import CodeGraph.Model.PackageMap
import CodeGraph.Draft.Program
import CodeGraph.Draft.Declaration
import CodeGraph.Draft.Draft
import CodeGraph.React.Component
import CodeGraph.Angular.Decorator
import CodeGraph.Draft.Declaring
import CodeGraph.Draft.Links
import CodeGraph.Draft.Members
import CodeGraph.React.Rendering
import CodeGraph.Angular.Wiring
import CodeGraph.Routes.RoutePath
import CodeGraph.Routes.RouteTree
import CodeGraph.Routes.Lazy
import CodeGraph.React.Route
import CodeGraph.Angular.Route
import CodeGraph.Angular.Template
import CodeGraph.Angular.TemplateLinks
import CodeGraph.Modules.ImportGraph
import CodeGraph.Project.Pass
import CodeGraph.Project.Frameworks
import CodeGraph.Project.Extraction
import CodeGraph.Text.Base64
import CodeGraph.Syntax.Encoding
import CodeGraph.Files.Snapshot
import CodeGraph.Files.Archive
import CodeGraph.Model.Decode
import CodeGraph.Service
import CodeGraph.CommandLine.Options
import CodeGraph.CommandLine.Arguments
import CodeGraph.CommandLine.Run
import CodeGraph.Main
import CodeGraph.Proofs.Text.Pieces
import CodeGraph.Proofs.Resolution.Steps
import CodeGraph.Proofs.Resolution.Search
import CodeGraph.Proofs.Resolution.Moves
import CodeGraph.Proofs.Resolution.Termination
import CodeGraph.Proofs.Model.Packages
import CodeGraph.Proofs.Draft.WellFormed
import CodeGraph.Proofs.Draft.PlainPasses
import CodeGraph.Proofs.Draft.FrameworkPasses
import CodeGraph.Proofs.Draft.Integrity
import CodeGraph.Proofs.Draft.Identity
import CodeGraph.Proofs.Draft.RelationTable
import CodeGraph.Proofs.Draft.Thinning
import CodeGraph.Proofs.Draft.Options
import CodeGraph.Proofs.Draft.PlainOptions
import CodeGraph.Proofs.Draft.FrameworkOptions
import CodeGraph.Proofs.Draft.Runs
import CodeGraph.Proofs.Draft.Comparison
import CodeGraph.Proofs.Draft.FrameworkEdges
import CodeGraph.Proofs.Draft.Dependencies
import CodeGraph.Proofs.Json.Reading
import CodeGraph.Proofs.Json.Record
import CodeGraph.Proofs.Model.Canonical
import CodeGraph.Proofs.Model.Reading
import CodeGraph.Proofs.Draft.DeclarationEdits
import CodeGraph.Proofs.Draft.ReactEdits
import CodeGraph.Proofs.Draft.RouteEdits
import CodeGraph.Proofs.Draft.AngularEdits
import CodeGraph.Proofs.Draft.Entries
import CodeGraph.Proofs.Draft.PassEdits
import CodeGraph.Proofs.Draft.Places
import CodeGraph.Proofs.Draft.Regular
import CodeGraph.Proofs.Draft.Growth
import CodeGraph.Proofs.Draft.MergeOrder
import CodeGraph.Proofs.Draft.MemberOrder
import CodeGraph.Proofs.Draft.FileModules
import CodeGraph.Proofs.Modules.Specifiers
import CodeGraph.Proofs.Draft.Coverage
import CodeGraph.Proofs.Draft.Provenance
import CodeGraph.Proofs.Model.Schema
import CodeGraph.Proofs.Draft.Associations
import CodeGraph.Proofs.Draft.Roles
import CodeGraph.Proofs.Draft.EdgeTypes
import CodeGraph.Proofs.Draft.RelateOrder
import CodeGraph.Proofs.Json.Grammar
import CodeGraph.Proofs.Json.MemberOrder
import CodeGraph.Proofs.Json.Relaxed
import CodeGraph.Proofs.Json.Comments
import CodeGraph.Proofs.Files.Leaves
import CodeGraph.Proofs.Files.Lookup
import CodeGraph.Proofs.Files.Resolution
import CodeGraph.Proofs.Files.Names
import CodeGraph.Proofs.Files.Normal
import CodeGraph.Proofs.Files.Depth
import CodeGraph.Proofs.Files.Tips
import CodeGraph.Proofs.Files.Making
import CodeGraph.Proofs.Files.Stability
import CodeGraph.Proofs.Files.Opening
import CodeGraph.Proofs.Files.Unpacking
import CodeGraph.Proofs.Inventory.Scope
import CodeGraph.Proofs.Compiler.Lineage
import CodeGraph.Proofs.Compiler.Visits
import CodeGraph.Proofs.Compiler.Merging
import CodeGraph.Proofs.Compiler.Courses
import CodeGraph.Proofs.Compiler.Defaults
import CodeGraph.Proofs.Compiler.ReadLog
import CodeGraph.Proofs.Compiler.Reads
import CodeGraph.Proofs.Draft.Findings
import CodeGraph.Proofs.Draft.Sparing
import CodeGraph.Proofs.Draft.Additions
import CodeGraph.Proofs.Modules.Occurrences
import CodeGraph.Proofs.Modules.RelativePaths
import CodeGraph.Proofs.Modules.PathPatterns
import CodeGraph.Proofs.Draft.ImportGraph
import CodeGraph.Proofs.Draft.Lookups
import CodeGraph.Proofs.Syntax.Nodes
import CodeGraph.Proofs.Syntax.Comments
import CodeGraph.Proofs.Types.Reading
import CodeGraph.Proofs.Types.Comments
import CodeGraph.Proofs.Routes.Lazy
import CodeGraph.Proofs.Routes.RoutePath
import CodeGraph.Proofs.Routes.Chains
import CodeGraph.Proofs.Routes.Nesting
import CodeGraph.Proofs.Routes.ReadOnce
import CodeGraph.Proofs.Draft.RouteNesting
import CodeGraph.Proofs.Draft.WholePaths
import CodeGraph.Proofs.Draft.TemplateReads
import CodeGraph.Proofs.Draft.Declared
import CodeGraph.Proofs.Draft.NameIndexes
import CodeGraph.Proofs.Model.PackageTree
import CodeGraph.Proofs.Model.BuiltPackages
import CodeGraph.Proofs.Model.PackageIdentity
import CodeGraph.Proofs.Report.Tallies
import CodeGraph.Proofs.Report.Closing
import CodeGraph.Proofs.Report.Rows
