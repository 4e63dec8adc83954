import SchemaCompiler.CommandLine
import SchemaCompiler.Decimal.Binary64
import SchemaCompiler.Decimal.Shortest
import SchemaCompiler.Definition
import SchemaCompiler.Document
import SchemaCompiler.Entries
import SchemaCompiler.FileTree
import SchemaCompiler.Generation
import SchemaCompiler.Index
import SchemaCompiler.Json.Basic
import SchemaCompiler.Json.Reader
import SchemaCompiler.Json.Record
import SchemaCompiler.Json.Text
import SchemaCompiler.Literal
import SchemaCompiler.Loading
import SchemaCompiler.Main
import SchemaCompiler.Manifest.Basic
import SchemaCompiler.Manifest.Override
import SchemaCompiler.Manifest.Reader
import SchemaCompiler.Model
import SchemaCompiler.Model.Rendering
import SchemaCompiler.Naming
import SchemaCompiler.Projection
import SchemaCompiler.Proofs.Account
import SchemaCompiler.Proofs.Build
import SchemaCompiler.Proofs.Cycle
import SchemaCompiler.Proofs.Dangling
import SchemaCompiler.Proofs.FirstOfEachName
import SchemaCompiler.Proofs.Minting
import SchemaCompiler.Proofs.Naming
import SchemaCompiler.Proofs.Ownership
import SchemaCompiler.Proofs.Representation
import SchemaCompiler.Proofs.Sharing
import SchemaCompiler.Proofs.Site
import SchemaCompiler.Proofs.Synthesis
import SchemaCompiler.Proofs.Typing
import SchemaCompiler.Resource
import SchemaCompiler.Schema.Basic
import SchemaCompiler.Schema.Decode
import SchemaCompiler.Schema.Reference
import SchemaCompiler.Synthesis.Catalog
import SchemaCompiler.Synthesis.Enumeration
import SchemaCompiler.Synthesis.Record
import SchemaCompiler.Synthesis.Synthesizer
import SchemaCompiler.Synthesis.Trail
import SchemaCompiler.Synthesis.Typing
import SchemaCompiler.Synthesis.Union
import SchemaCompiler.Text.Lowercase
import SchemaCompiler.Text.Shown
import SchemaCompiler.Text.Utf8
import SchemaCompiler.Text.Words
import SchemaCompiler.TypeExpr
import SchemaCompiler.Yaml.Block
import SchemaCompiler.Yaml.Cursor
import SchemaCompiler.Yaml.Event
import SchemaCompiler.Yaml.Node
import SchemaCompiler.Yaml.Resolution
import SchemaCompiler.Yaml.Token.Basic
import SchemaCompiler.Yaml.Token.Scalar
import SchemaCompiler.Yaml.Token.Stream
import SchemaCompiler.Yaml.Token.Tag
import SchemaCompiler.Yaml.Untyped
import SchemaCompiler.Proofs.Optionality
import SchemaCompiler.Proofs.Reach
import SchemaCompiler.Proofs.TwoRuns
import SchemaCompiler.Proofs.Locality
import SchemaCompiler.Proofs.Classification
import SchemaCompiler.Proofs.Flattening
import SchemaCompiler.Proofs.Required
import SchemaCompiler.Proofs.ResourceTyping
import SchemaCompiler.Proofs.Aliases
import SchemaCompiler.Proofs.Identifiers
import SchemaCompiler.Proofs.Acceptance
import SchemaCompiler.Proofs.DistinctKeys
import SchemaCompiler.Proofs.Registration
import SchemaCompiler.Proofs.Literals
import SchemaCompiler.Proofs.Numerals
import SchemaCompiler.Proofs.Annotations
import SchemaCompiler.Proofs.Occurrences
import SchemaCompiler.Proofs.FirstOccurrence
import SchemaCompiler.Proofs.Delegation
import SchemaCompiler.Proofs.Alternatives
import SchemaCompiler.Proofs.FirstOfEachKey
import SchemaCompiler.Proofs.Encounters
import SchemaCompiler.Proofs.Merging
import SchemaCompiler.Proofs.ParentOrder
import SchemaCompiler.Proofs.Folding
import SchemaCompiler.Proofs.Rollback
import SchemaCompiler.Proofs.Degradation
import SchemaCompiler.Proofs.FieldNames
import SchemaCompiler.Proofs.HelperNames
import SchemaCompiler.Proofs.Lookup
import SchemaCompiler.Proofs.Utf8
import SchemaCompiler.Proofs.Pointer
import SchemaCompiler.Proofs.PropertySearch
import SchemaCompiler.Proofs.Overrides
import SchemaCompiler.Proofs.ConstantNames
import SchemaCompiler.Proofs.ConstantLiterals
import SchemaCompiler.Proofs.TypeText
import SchemaCompiler.Proofs.TrailStack
import SchemaCompiler.Proofs.HelperGrowth
import SchemaCompiler.Proofs.Words
import SchemaCompiler.Proofs.Exporting
import SchemaCompiler.Proofs.FirstMention
