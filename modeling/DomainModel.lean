import DomainModel.Analysis
import DomainModel.Check
import DomainModel.CommandLine.FileSystem
import DomainModel.CommandLine.FileTree
import DomainModel.CommandLine.Options
import DomainModel.CommandLine.Report
import DomainModel.CommandLine.Run
import DomainModel.Decimal
import DomainModel.Diagnostic.Basic
import DomainModel.Diagnostic.Format
import DomainModel.Diagnostic.Node
import DomainModel.Diagnostic.Problem
import DomainModel.Digits
import DomainModel.Double
import DomainModel.Expr.Basic
import DomainModel.Expr.Build
import DomainModel.Expr.Format
import DomainModel.Expr.Numbering
import DomainModel.Handle
import DomainModel.Json.Basic
import DomainModel.Json.Number
import DomainModel.Json.Printer
import DomainModel.Json.Reader
import DomainModel.Json.Record
import DomainModel.Json.Text
import DomainModel.Lookup
import DomainModel.Main
import DomainModel.Model.Basic
import DomainModel.Model.Builder
import DomainModel.Model.Format
import DomainModel.Model.Links
import DomainModel.Model.Load
import DomainModel.Model.Navigation
import DomainModel.Model.Numbering
import DomainModel.Proofs.Addresses
import DomainModel.Proofs.Building.Filing
import DomainModel.Proofs.Building.Growth
import DomainModel.Proofs.Building.Runs
import DomainModel.Proofs.Building.Steps
import DomainModel.Proofs.Building.Wiring
import DomainModel.Proofs.Callables
import DomainModel.Proofs.CanonicalNumbering
import DomainModel.Proofs.Clean.Analysis
import DomainModel.Proofs.Clean.AntiCorruption
import DomainModel.Proofs.Clean.Basic
import DomainModel.Proofs.Clean.Coverage
import DomainModel.Proofs.Clean.FirstMap
import DomainModel.Proofs.Clean.KeyTranslation
import DomainModel.Proofs.Clean.Mapping
import DomainModel.Proofs.Clean.Names
import DomainModel.Proofs.Clean.Navigation
import DomainModel.Proofs.Distinct
import DomainModel.Proofs.Format.Expr
import DomainModel.Proofs.Format.Model
import DomainModel.Proofs.Groups
import DomainModel.Proofs.Json.Levels
import DomainModel.Proofs.Json.Number
import DomainModel.Proofs.Json.Reading
import DomainModel.Proofs.Json.Record
import DomainModel.Proofs.Json.Text
import DomainModel.Proofs.Literal
import DomainModel.Proofs.Loading
import DomainModel.Proofs.Nodes
import DomainModel.Proofs.Numbering
import DomainModel.Proofs.Places.Analysis
import DomainModel.Proofs.Places.Basic
import DomainModel.Proofs.Places.Model
import DomainModel.Proofs.Places.Rules
import DomainModel.Proofs.Places.Typing
import DomainModel.Proofs.Totality.Analysis
import DomainModel.Proofs.Totality.Basic
import DomainModel.Proofs.Totality.Links
import DomainModel.Proofs.Totality.Navigation
import DomainModel.Proofs.Totality.Rules
import DomainModel.Proofs.Totality.Typing
import DomainModel.Proofs.Typing.Agreement
import DomainModel.Proofs.Typing.Chains
import DomainModel.Proofs.Typing.Locality
import DomainModel.Proofs.Typing.Marks
import DomainModel.Proofs.Typing.Names
import DomainModel.Proofs.Typing.Policies
import DomainModel.Proofs.Typing.Reporting
import DomainModel.Proofs.Typing.Retyping
import DomainModel.Proofs.Typing.Scoping
import DomainModel.Proofs.Typing.Suppression
import DomainModel.Proofs.Typing.Visits
import DomainModel.Rules.AntiCorruption
import DomainModel.Rules.Callable
import DomainModel.Rules.ContextMap
import DomainModel.Rules.EntityMapping
import DomainModel.Rules.Invariants
import DomainModel.Rules.Names
import DomainModel.Rules.UsesBinding
import DomainModel.Settings.Basic
import DomainModel.Settings.Format
import DomainModel.Settings.Manifest
import DomainModel.Toml.Basic
import DomainModel.Toml.Moment
import DomainModel.Toml.Number
import DomainModel.Toml.Reader
import DomainModel.Toml.Text
import DomainModel.Ty.Basic
import DomainModel.Ty.Literal
import DomainModel.Typing.Env
import DomainModel.Typing.Head
import DomainModel.Typing.Infer
import DomainModel.Typing.Scope
import DomainModel.Typing.Walk
import DomainModel.Vocabulary
import DomainModel.Proofs.Typing.Renaming
import DomainModel.Proofs.Typing.Inherited
import DomainModel.Proofs.Typing.Booleans
import DomainModel.Proofs.Format.Levels
import DomainModel.Proofs.Saving
import DomainModel.Proofs.Clean.WellFormedMapping
import DomainModel.Proofs.Clean.MappingChains
import DomainModel.Proofs.Clean.Constructor
import DomainModel.Proofs.Typing.Elements
import DomainModel.Proofs.Typing.Finals
import DomainModel.Proofs.Typing.Arguments
import DomainModel.Proofs.SingleRoot
import DomainModel.Proofs.ParameterOrder
import DomainModel.Proofs.Clean.UsesBinding
import DomainModel.Proofs.Compatibility
import DomainModel.Proofs.Typing.DeclarationOrder
import DomainModel.Proofs.NameClashes
import DomainModel.Proofs.Typing.Grouping
import DomainModel.Proofs.Format.Shape
import DomainModel.Proofs.Format.Edits
import DomainModel.Proofs.Format.Readers
import DomainModel.Proofs.EditedTexts
