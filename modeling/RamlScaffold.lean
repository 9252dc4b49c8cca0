import RamlScaffold.Artifact.Catalogue
import RamlScaffold.Artifact.Files
import RamlScaffold.Artifact.Settings
import RamlScaffold.Artifact.Source
import RamlScaffold.Batch
import RamlScaffold.Client.Basic
import RamlScaffold.Client.Files
import RamlScaffold.Client.Package
import RamlScaffold.Client.Project
import RamlScaffold.Client.Suite
import RamlScaffold.Code.Automaton
import RamlScaffold.Code.Check
import RamlScaffold.Code.Cursor
import RamlScaffold.Code.Grammar.Expression
import RamlScaffold.Code.Grammar.Pattern
import RamlScaffold.Code.Grammar.Statement
import RamlScaffold.Code.Identifier
import RamlScaffold.Code.Literal
import RamlScaffold.Code.Parse
import RamlScaffold.Code.Rule
import RamlScaffold.Code.Stack
import RamlScaffold.Code.Terminal
import RamlScaffold.Code.Token.Layout
import RamlScaffold.Code.Token.Number
import RamlScaffold.Code.Token.Quoted
import RamlScaffold.Code.Token.Scan
import RamlScaffold.Command.Basic
import RamlScaffold.Command.Option
import RamlScaffold.Command.Run
import RamlScaffold.Decimal.Binary64
import RamlScaffold.Decimal.Shortest
import RamlScaffold.Document.Sorted
import RamlScaffold.Document.Value
import RamlScaffold.Entity.Column
import RamlScaffold.Entity.Field
import RamlScaffold.Json.Number
import RamlScaffold.Json.Reader
import RamlScaffold.Json.Writer
import RamlScaffold.Log
import RamlScaffold.Main
import RamlScaffold.Naming.Fresh
import RamlScaffold.Naming.GroupName
import RamlScaffold.Naming.Words
import RamlScaffold.Proofs.Artifact.Closed
import RamlScaffold.Proofs.Artifact.Files
import RamlScaffold.Proofs.Artifact.Imports
import RamlScaffold.Proofs.Artifact.Layout
import RamlScaffold.Proofs.Artifact.Prose
import RamlScaffold.Proofs.Artifact.Reading
import RamlScaffold.Proofs.Artifact.Single
import RamlScaffold.Proofs.Batch.Accounting
import RamlScaffold.Proofs.Batch.Confinement
import RamlScaffold.Proofs.Batch.Gate
import RamlScaffold.Proofs.Batch.Independence
import RamlScaffold.Proofs.Batch.Outcome
import RamlScaffold.Proofs.Batch.Paths
import RamlScaffold.Proofs.Client.Aggregate
import RamlScaffold.Proofs.Client.BaseUrl
import RamlScaffold.Proofs.Client.Layout
import RamlScaffold.Proofs.Client.Prose
import RamlScaffold.Proofs.Code.Docstring
import RamlScaffold.Proofs.Code.Emitted
import RamlScaffold.Proofs.Code.Escapes
import RamlScaffold.Proofs.Code.Identifier
import RamlScaffold.Proofs.Code.Skeleton
import RamlScaffold.Proofs.Code.Value
import RamlScaffold.Proofs.Document.Entries
import RamlScaffold.Proofs.Document.Keyed
import RamlScaffold.Proofs.Document.Lookup
import RamlScaffold.Proofs.Document.Merge
import RamlScaffold.Proofs.Document.Order
import RamlScaffold.Proofs.Entity.Inference
import RamlScaffold.Proofs.Entity.Observed
import RamlScaffold.Proofs.Include.Acyclic
import RamlScaffold.Proofs.Include.Graph
import RamlScaffold.Proofs.Include.Machine
import RamlScaffold.Proofs.Include.Root
import RamlScaffold.Proofs.Include.Termination
import RamlScaffold.Proofs.Naming.Fresh
import RamlScaffold.Proofs.Naming.Replacement
import RamlScaffold.Proofs.Naming.Request
import RamlScaffold.Proofs.Naming.Snake
import RamlScaffold.Proofs.Naming.Spelling
import RamlScaffold.Proofs.Naming.Splitting
import RamlScaffold.Proofs.Route.Binding
import RamlScaffold.Proofs.Route.Collision
import RamlScaffold.Proofs.Route.Expression
import RamlScaffold.Proofs.Route.Growth
import RamlScaffold.Proofs.Route.Item
import RamlScaffold.Proofs.Route.Literal
import RamlScaffold.Proofs.Route.Partition
import RamlScaffold.Proofs.Route.Version
import RamlScaffold.Proofs.Route.VersionSegment
import RamlScaffold.Proofs.Server.FixedImports
import RamlScaffold.Proofs.Server.GroupImports
import RamlScaffold.Proofs.Server.Imports
import RamlScaffold.Proofs.Server.Keys
import RamlScaffold.Proofs.Server.Layout
import RamlScaffold.Proofs.Server.Modules
import RamlScaffold.Proofs.Server.Mount
import RamlScaffold.Proofs.Server.PrimaryKey
import RamlScaffold.Proofs.Server.Prose
import RamlScaffold.Proofs.Server.Shadow
import RamlScaffold.Proofs.Server.Version
import RamlScaffold.Proofs.Spec.Independence
import RamlScaffold.Proofs.Spec.Prose
import RamlScaffold.Proofs.Spec.RepeatedKeys
import RamlScaffold.Proofs.Spec.Resources
import RamlScaffold.Proofs.Spec.Segment
import RamlScaffold.Proofs.Spec.Unread
import RamlScaffold.Proofs.Spec.Uri
import RamlScaffold.Proofs.Text.Case
import RamlScaffold.Proofs.Text.Tabs
import RamlScaffold.Proofs.Validation.FromImports
import RamlScaffold.Proofs.Validation.Imports
import RamlScaffold.Proofs.Validation.PlainImports
import RamlScaffold.Proofs.Validation.Report
import RamlScaffold.Route.Group
import RamlScaffold.Route.Operation
import RamlScaffold.Route.Param
import RamlScaffold.Server.Application
import RamlScaffold.Server.Basic
import RamlScaffold.Server.Entity
import RamlScaffold.Server.Files
import RamlScaffold.Server.Project
import RamlScaffold.Server.Routes
import RamlScaffold.Server.Suite
import RamlScaffold.Settings
import RamlScaffold.Spec.Basic
import RamlScaffold.Spec.Build
import RamlScaffold.Spec.Include
import RamlScaffold.Spec.Parse
import RamlScaffold.Spec.Uri
import RamlScaffold.Spec.Verb
import RamlScaffold.Storage.FileSystem
import RamlScaffold.Storage.Path
import RamlScaffold.Text.Basic
import RamlScaffold.Text.Blank
import RamlScaffold.Text.Case
import RamlScaffold.Text.Letter
import RamlScaffold.Text.Number
import RamlScaffold.Text.Shown
import RamlScaffold.Text.Tabs
import RamlScaffold.Toml.Quoted
import RamlScaffold.Toml.Reader
import RamlScaffold.Toml.Scalar
import RamlScaffold.Toml.Table
import RamlScaffold.Validation.Imports
import RamlScaffold.Validation.Report
import RamlScaffold.Yaml.Cursor
import RamlScaffold.Yaml.Document
import RamlScaffold.Yaml.Event
import RamlScaffold.Yaml.Fault
import RamlScaffold.Yaml.Mark
import RamlScaffold.Yaml.Node
import RamlScaffold.Yaml.Scalar
import RamlScaffold.Yaml.Token
import RamlScaffold.Yaml.Token.Block
import RamlScaffold.Yaml.Token.Directive
import RamlScaffold.Yaml.Token.Gap
import RamlScaffold.Yaml.Token.Plain
import RamlScaffold.Yaml.Token.Quoted
import RamlScaffold.Yaml.Token.Scan
import RamlScaffold.Yaml.Token.Tag
import RamlScaffold.Yaml.Wall
