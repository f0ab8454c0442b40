import Outline.Check.Bracket
import Outline.Check.Issue
import Outline.Check.Report
import Outline.Chunk.Basic
import Outline.Chunk.Conversion
import Outline.Chunk.Operations
import Outline.CommandLine.Arguments
import Outline.CommandLine.Run
import Outline.Complexity
import Outline.Digest.Md5
import Outline.Digest.Padding
import Outline.Digest.Sha256
import Outline.Extraction.Basic
import Outline.Extraction.Distinct
import Outline.Extraction.Text
import Outline.Extraction.Tree
import Outline.File.Analysis
import Outline.File.PathName
import Outline.File.Reading
import Outline.File.Report
import Outline.File.Tree
import Outline.File.Walk
import Outline.Ignore.Glob
import Outline.Ignore.Rule
import Outline.Import
import Outline.Json.Basic
import Outline.Json.Numeral
import Outline.Json.Reader
import Outline.Language.Basic
import Outline.Language.BlockEnd
import Outline.Language.CFamily
import Outline.Language.CSharp
import Outline.Language.Document
import Outline.Language.Go
import Outline.Language.Java
import Outline.Language.JavaScript
import Outline.Language.Kotlin
import Outline.Language.Part
import Outline.Language.Php
import Outline.Language.Python
import Outline.Language.Registry
import Outline.Language.Ruby
import Outline.Language.Rules
import Outline.Language.Rust
import Outline.Language.TypeScript
import Outline.Language.Unlisted
import Outline.Main
import Outline.Markdown.Block
import Outline.Markdown.Definition
import Outline.Markdown.Document
import Outline.Markdown.Emphasis
import Outline.Markdown.Html
import Outline.Markdown.Inline
import Outline.Markdown.Link
import Outline.Markdown.Margin
import Outline.Markdown.Marker
import Outline.Markdown.Reference
import Outline.Markdown.Section
import Outline.Markdown.Table
import Outline.Number.Ascending
import Outline.Number.Count
import Outline.Number.Decimal
import Outline.Number.Double
import Outline.Number.Rounding
import Outline.Number.Single
import Outline.Parser.Grammar
import Outline.Parser.Service
import Outline.Pattern.Basic
import Outline.Pattern.Build
import Outline.Pattern.Search
import Outline.Relation.Analysis
import Outline.Relation.Basic
import Outline.Relation.Containment
import Outline.Relation.Heritage
import Outline.Relation.Reference
import Outline.Relation.Strength
import Outline.Settings.Basic
import Outline.Settings.Reader
import Outline.Structure.Basic
import Outline.Structure.Kind
import Outline.Structure.Location
import Outline.Summary
import Outline.Text.Basic
import Outline.Text.Bytes
import Outline.Text.Char
import Outline.Text.Lines
import Outline.Text.Table.Alphabetic
import Outline.Text.Table.Folding
import Outline.Text.Table.Numeric
import Outline.Text.Table.Punctuation
import Outline.Text.Table.Uppercase
import Outline.Text.Table.Word
import Outline.Tree.Basic
import Outline.Tree.Walk
import Outline.Proofs.Language.BlockEnd
import Outline.Proofs.Language.Rules
import Outline.Proofs.Markdown.HeadingLine
import Outline.Proofs.Extraction.Distinct
import Outline.Proofs.Smallest
import Outline.Proofs.Ascending
import Outline.Proofs.Extraction.Text
import Outline.Proofs.Extraction.LineSpan
import Outline.Proofs.Chunk.Identity
import Outline.Proofs.Chunk.Merge
import Outline.Proofs.Chunk.Associativity
import Outline.Proofs.Chunk.Conversion
import Outline.Proofs.Chunk.Operations
import Outline.Proofs.Chunk.Order
import Outline.Proofs.Chunk.Selection
import Outline.Proofs.Chunk.Validity
import Outline.Proofs.Chunk.Component
import Outline.Proofs.File.Chunks
import Outline.Proofs.File.PathScope
import Outline.Proofs.Extraction.Fallback
import Outline.Proofs.Extraction.Closed
import Outline.Proofs.Extraction.Depth
import Outline.Proofs.Extraction.Unlisted
import Outline.Proofs.File.Refusal
import Outline.Proofs.Extraction.NodeOnce
import Outline.Proofs.Extraction.LineOnce
import Outline.Proofs.Relation.Containment
import Outline.Proofs.Tree.Ancestors
import Outline.Proofs.Extraction.Declarations
import Outline.Proofs.Extraction.Members
import Outline.Proofs.Tree.Places
import Outline.Proofs.Tree.Forest
import Outline.Proofs.Tree.Upwards
import Outline.Proofs.Tree.Lines
import Outline.Proofs.Tree.Nearest
import Outline.Proofs.Relation.Parents
import Outline.Proofs.Relation.Order
import Outline.Proofs.Pattern.Returns
import Outline.Proofs.Extraction.LineEndings
import Outline.Proofs.Pattern.Capture
import Outline.Proofs.Strict.Extraction
import Outline.Proofs.Strict.Relation
import Outline.Proofs.Strict.TextPath
import Outline.Proofs.Text.Bytes
import Outline.Proofs.Extraction.Statements
import Outline.Proofs.Extraction.Excerpt
import Outline.Proofs.Extraction.FirstRule
import Outline.Proofs.Extraction.SmallestParent
import Outline.Proofs.Extraction.SmallestFunction
import Outline.Proofs.Relation.Attribution
import Outline.Proofs.Pattern.Complete
import Outline.Proofs.Language.EndKeyword
import Outline.Proofs.Language.KeywordBlock
import Outline.Proofs.Check.Lexeme
import Outline.Proofs.Check.Place
import Outline.Proofs.Check.Balance
import Outline.Proofs.Pattern.InLine
import Outline.Proofs.Import.LineEndings
import Outline.Proofs.Relation.ClassHeader
import Outline.Proofs.Relation.Heritage
import Outline.Proofs.Markdown.Nesting
import Outline.Proofs.Check.Unquoted
import Outline.Proofs.Import.Place
import Outline.Proofs.Relation.Usage
import Outline.Proofs.Relation.Variables
import Outline.Proofs.Complexity
import Outline.Proofs.Chunk.Normalized
import Outline.Proofs.Language.IndentedBlock
import Outline.Proofs.Language.BraceBlock
import Outline.Proofs.Json.Numeral
import Outline.Proofs.Json.Quoted
import Outline.Proofs.Json.Pretty
import Outline.Proofs.Settings
import Outline.Proofs.Language.Union
import Outline.Proofs.Relation.AnglePairs
