import ScriptLower.Build.Run
import ScriptLower.Build.Stage
import ScriptLower.Cli.Catalog
import ScriptLower.Cli.Command
import ScriptLower.Cli.Commands
import ScriptLower.Cli.Run
import ScriptLower.Cli.Session
import ScriptLower.Cli.Usage
import ScriptLower.Comment.Table
import ScriptLower.Diagnostic.Basic
import ScriptLower.Diagnostic.Code
import ScriptLower.Dialect
import ScriptLower.Diff.Lines
import ScriptLower.Digest.Key
import ScriptLower.Disk.Basic
import ScriptLower.Lower.Capture
import ScriptLower.Lower.Define
import ScriptLower.Lower.Element
import ScriptLower.Lower.Enum
import ScriptLower.Lower.Expression
import ScriptLower.Lower.Function
import ScriptLower.Lower.Module
import ScriptLower.Lower.Options
import ScriptLower.Lower.Program
import ScriptLower.Lower.Reference
import ScriptLower.Lower.State
import ScriptLower.Lower.Statement
import ScriptLower.Lower.StatementList
import ScriptLower.Main
import ScriptLower.Name.Supply
import ScriptLower.Number.Binary64
import ScriptLower.Number.Literal
import ScriptLower.Parse.Class
import ScriptLower.Parse.Declaration
import ScriptLower.Parse.Element
import ScriptLower.Parse.Expression
import ScriptLower.Parse.Function
import ScriptLower.Parse.Module
import ScriptLower.Parse.Parameter
import ScriptLower.Parse.Pattern
import ScriptLower.Parse.Program
import ScriptLower.Parse.State
import ScriptLower.Parse.Statement
import ScriptLower.Parse.Type
import ScriptLower.Pipeline.Options
import ScriptLower.Pipeline.Run
import ScriptLower.Print.Expression
import ScriptLower.Print.Layout
import ScriptLower.Print.Piece
import ScriptLower.Print.Program
import ScriptLower.Project.Cache
import ScriptLower.Project.Manifest
import ScriptLower.Report.Listing
import ScriptLower.Report.Records
import ScriptLower.Report.Text
import ScriptLower.Server.Handler
import ScriptLower.Server.Request
import ScriptLower.Source.File
import ScriptLower.Source.Path
import ScriptLower.Source.Span
import ScriptLower.SourceMap.Sink
import ScriptLower.Text.Bytes
import ScriptLower.Text.CharClass
import ScriptLower.Text.Entity
import ScriptLower.Text.Glob
import ScriptLower.Text.Json
import ScriptLower.Text.Quoted
import ScriptLower.Text.Scalar
import ScriptLower.Text.StringLiteral
import ScriptLower.Text.Utf8
import ScriptLower.Text.Width
import ScriptLower.Text.Words
import ScriptLower.Token.Basic
import ScriptLower.Token.Kind
import ScriptLower.Token.Lexeme
import ScriptLower.Token.Lexer
import ScriptLower.Toml.Reader
import ScriptLower.Toml.Value
import ScriptLower.Trace.Tracer
import ScriptLower.Tree.Flags
import ScriptLower.Tree.Kind
import ScriptLower.Tree.Node
import ScriptLower.Proofs.Build.Outputs
import ScriptLower.Proofs.Digest.Keys
import ScriptLower.Proofs.Lower.Comments
import ScriptLower.Proofs.Lower.Construction
import ScriptLower.Proofs.Lower.ElementOrder
import ScriptLower.Proofs.Lower.Exports
import ScriptLower.Proofs.Lower.Imports
import ScriptLower.Proofs.Lower.ModuleItems
import ScriptLower.Proofs.Lower.Names
import ScriptLower.Proofs.Lower.Replacements
import ScriptLower.Proofs.Parse.Capture
import ScriptLower.Proofs.Parse.Limits
import ScriptLower.Proofs.Parse.Recording
import ScriptLower.Proofs.Parse.Spans
import ScriptLower.Proofs.Pipeline.Comments
import ScriptLower.Proofs.Pipeline.Outcomes
import ScriptLower.Proofs.Pipeline.Phases
import ScriptLower.Proofs.Pipeline.Texts
import ScriptLower.Proofs.Print.Decimals
import ScriptLower.Proofs.Print.Inks
import ScriptLower.Proofs.Print.Words
import ScriptLower.Proofs.Project.Memo
import ScriptLower.Proofs.Project.RoundTrip
import ScriptLower.Proofs.Source.Positions
import ScriptLower.Proofs.SourceMap.Decoding
import ScriptLower.Proofs.Text.StringValues
import ScriptLower.Proofs.Token.Advance
import ScriptLower.Proofs.Lower.Conditions
import ScriptLower.Proofs.Lower.Constants
import ScriptLower.Proofs.Parse.Nesting
import ScriptLower.Proofs.Print.Ascii
import ScriptLower.Proofs.Report.Short
import ScriptLower.Proofs.Source.Lines
import ScriptLower.Proofs.Source.Scripts
import ScriptLower.Proofs.Token.Strings
import ScriptLower.Proofs.Lower.ElementText
import ScriptLower.Proofs.Trace.Ring
