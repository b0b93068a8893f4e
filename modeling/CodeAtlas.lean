import CodeAtlas.Cli.Arguments
import CodeAtlas.Cli.Run
import CodeAtlas.Config
import CodeAtlas.Corpus
import CodeAtlas.FileTree.Basic
import CodeAtlas.FileTree.Walk
import CodeAtlas.Go.Cursor
import CodeAtlas.Go.Grammar
import CodeAtlas.Go.Grammar.Declaration
import CodeAtlas.Go.Grammar.Expression
import CodeAtlas.Go.Grammar.Statement
import CodeAtlas.Go.Grammar.Type
import CodeAtlas.Go.Literal
import CodeAtlas.Go.Outline
import CodeAtlas.Go.Reader
import CodeAtlas.Go.SourceFile
import CodeAtlas.Impact.Analysis
import CodeAtlas.Impact.Basic
import CodeAtlas.Imports.Graph
import CodeAtlas.Imports.Python
import CodeAtlas.Imports.Script
import CodeAtlas.Index
import CodeAtlas.Json
import CodeAtlas.Log
import CodeAtlas.Main
import CodeAtlas.Outline.Braced
import CodeAtlas.Outline.Braced.Block
import CodeAtlas.Outline.Braced.Code
import CodeAtlas.Outline.Braced.Declaration
import CodeAtlas.Outline.Indented
import CodeAtlas.Outline.Registry
import CodeAtlas.Path
import CodeAtlas.Pattern.CharSet
import CodeAtlas.Pattern.Glob
import CodeAtlas.Pattern.IgnoreRule
import CodeAtlas.Proofs.Config
import CodeAtlas.Proofs.Corpus.Faults
import CodeAtlas.Proofs.Corpus.SameText
import CodeAtlas.Proofs.Corpus.Spelling
import CodeAtlas.Proofs.Distance
import CodeAtlas.Proofs.FileTree.Agreement
import CodeAtlas.Proofs.FileTree.Resolve
import CodeAtlas.Proofs.Go.Declaration
import CodeAtlas.Proofs.Go.Document
import CodeAtlas.Proofs.Go.Place
import CodeAtlas.Proofs.Go.Reader
import CodeAtlas.Proofs.Go.Result
import CodeAtlas.Proofs.Go.TopLevel
import CodeAtlas.Proofs.Impact.CycleSafety
import CodeAtlas.Proofs.Impact.Dependents
import CodeAtlas.Proofs.Impact.Enclosing
import CodeAtlas.Proofs.Impact.Importers
import CodeAtlas.Proofs.Impact.Layers
import CodeAtlas.Proofs.Impact.Truncation
import CodeAtlas.Proofs.Impact.WellFormed
import CodeAtlas.Proofs.Imports.Graph
import CodeAtlas.Proofs.Imports.Layout
import CodeAtlas.Proofs.Imports.Line
import CodeAtlas.Proofs.Imports.Names
import CodeAtlas.Proofs.Imports.Relative
import CodeAtlas.Proofs.Imports.Specifier
import CodeAtlas.Proofs.Imports.Statement
import CodeAtlas.Proofs.Outline.Braced.Alike
import CodeAtlas.Proofs.Outline.Braced.ClassBody
import CodeAtlas.Proofs.Outline.Braced.CodePosition
import CodeAtlas.Proofs.Outline.Braced.Declaration
import CodeAtlas.Proofs.Outline.Braced.Extent
import CodeAtlas.Proofs.Outline.Braced.Lexer
import CodeAtlas.Proofs.Outline.Braced.Literal
import CodeAtlas.Proofs.Outline.Braced.Members
import CodeAtlas.Proofs.Outline.Braced.Quote
import CodeAtlas.Proofs.Outline.Braced.Run
import CodeAtlas.Proofs.Outline.Braced.Stripping
import CodeAtlas.Proofs.Outline.Braced.Structure
import CodeAtlas.Proofs.Outline.Indented.Concatenation
import CodeAtlas.Proofs.Outline.Indented.Declaration
import CodeAtlas.Proofs.Outline.Indented.Decorators
import CodeAtlas.Proofs.Outline.Indented.Extent
import CodeAtlas.Proofs.Outline.Indented.Membership
import CodeAtlas.Proofs.Outline.Indented.Ranges
import CodeAtlas.Proofs.Record
import CodeAtlas.Proofs.References.Declaration
import CodeAtlas.Proofs.References.IndexHint
import CodeAtlas.Proofs.References.TwoPass
import CodeAtlas.Proofs.Scan.Composition
import CodeAtlas.Proofs.Scan.Enumeration
import CodeAtlas.Proofs.Scan.Isolation
import CodeAtlas.Proofs.Scan.Visit
import CodeAtlas.Proofs.Text.BoundedLines
import CodeAtlas.Proofs.Text.CharClass
import CodeAtlas.Proofs.Text.Encoding
import CodeAtlas.Proofs.Text.Find
import CodeAtlas.Proofs.Text.Lines
import CodeAtlas.Proofs.Text.Path
import CodeAtlas.Proofs.Text.Stop
import CodeAtlas.Proofs.Text.Word
import CodeAtlas.Proofs.Toml.Faults
import CodeAtlas.Proofs.Toml.Scalar
import CodeAtlas.Python.Grammar.Basic
import CodeAtlas.Python.Grammar.Expression
import CodeAtlas.Python.Grammar.Pattern
import CodeAtlas.Python.Grammar.Statement
import CodeAtlas.Python.Imports
import CodeAtlas.Python.Lexer
import CodeAtlas.Python.Number
import CodeAtlas.Python.Parser
import CodeAtlas.Python.Source
import CodeAtlas.Python.StringLiteral
import CodeAtlas.Python.Token
import CodeAtlas.Record
import CodeAtlas.References.Basic
import CodeAtlas.References.Search
import CodeAtlas.Scan.IgnoreFile
import CodeAtlas.Scan.SourceFiles
import CodeAtlas.Symbol
import CodeAtlas.Text.Ascending
import CodeAtlas.Text.Blank
import CodeAtlas.Text.CharClass
import CodeAtlas.Text.Find
import CodeAtlas.Text.Identifier
import CodeAtlas.Text.Lines
import CodeAtlas.Text.Printable
import CodeAtlas.Text.Quoted
import CodeAtlas.Text.Utf8
import CodeAtlas.Toml
import CodeAtlas.Toml.Document
import CodeAtlas.Toml.Scalar
import CodeAtlas.Value
