import TypeGloss.Batch.Process
import TypeGloss.Batch.Result
import TypeGloss.Check
import TypeGloss.CommandLine.Arguments
import TypeGloss.CommandLine.Flag
import TypeGloss.CommandLine.Run
import TypeGloss.Facts.Collect
import TypeGloss.Facts.InterfaceName
import TypeGloss.Facts.Record
import TypeGloss.Facts.Report
import TypeGloss.Files.Expand
import TypeGloss.Files.FileError
import TypeGloss.Files.FileSystem
import TypeGloss.Files.Path
import TypeGloss.Files.PathFault
import TypeGloss.Files.Script
import TypeGloss.Files.Wildcard
import TypeGloss.Gloss.Annotate
import TypeGloss.Gloss.Mismatch
import TypeGloss.Gloss.TypeSyntax
import TypeGloss.Inference.Cache
import TypeGloss.Inference.Fingerprint
import TypeGloss.Inference.Infer
import TypeGloss.Location
import TypeGloss.Main
import TypeGloss.Number.Binary64
import TypeGloss.Options
import TypeGloss.Parse.Expression
import TypeGloss.Parse.Frame
import TypeGloss.Parse.Program
import TypeGloss.Parse.Statement
import TypeGloss.Parse.Type
import TypeGloss.Print.Draft
import TypeGloss.Print.Layout
import TypeGloss.Print.Node
import TypeGloss.Print.Placement
import TypeGloss.Print.Unprintable
import TypeGloss.Proofs.AllOrNothing
import TypeGloss.Proofs.Atomic
import TypeGloss.Proofs.Chains
import TypeGloss.Proofs.Concrete
import TypeGloss.Proofs.Condensed
import TypeGloss.Proofs.Confined
import TypeGloss.Proofs.Conservation
import TypeGloss.Proofs.Copy
import TypeGloss.Proofs.Encodable
import TypeGloss.Proofs.Essence
import TypeGloss.Proofs.Facts
import TypeGloss.Proofs.Fingerprint
import TypeGloss.Proofs.Formatting
import TypeGloss.Proofs.FunctionMeaning
import TypeGloss.Proofs.Gloss
import TypeGloss.Proofs.Grammar
import TypeGloss.Proofs.Independence
import TypeGloss.Proofs.Inference
import TypeGloss.Proofs.InterfaceName
import TypeGloss.Proofs.Interleaving
import TypeGloss.Proofs.Kept
import TypeGloss.Proofs.KeyText
import TypeGloss.Proofs.Lawful
import TypeGloss.Proofs.Layouts
import TypeGloss.Proofs.Leftover
import TypeGloss.Proofs.Legible
import TypeGloss.Proofs.Lexeme
import TypeGloss.Proofs.Located
import TypeGloss.Proofs.Lookups
import TypeGloss.Proofs.Marks
import TypeGloss.Proofs.NameSearch
import TypeGloss.Proofs.Outcomes
import TypeGloss.Proofs.Parentheses
import TypeGloss.Proofs.ParsedTokens
import TypeGloss.Proofs.Parts
import TypeGloss.Proofs.PieceText
import TypeGloss.Proofs.Pieces
import TypeGloss.Proofs.Precedence
import TypeGloss.Proofs.Printable
import TypeGloss.Proofs.PrintedScan
import TypeGloss.Proofs.PrintedTokens
import TypeGloss.Proofs.ReadBack.Balance
import TypeGloss.Proofs.ReadBack.Control
import TypeGloss.Proofs.ReadBack.Declaration
import TypeGloss.Proofs.ReadBack.Expression
import TypeGloss.Proofs.ReadBack.Reader
import TypeGloss.Proofs.ReadBack.Statement
import TypeGloss.Proofs.ReadBack.Terminator
import TypeGloss.Proofs.ReadBack.Token
import TypeGloss.Proofs.ReadBack.Tree
import TypeGloss.Proofs.ReadBack.Type
import TypeGloss.Proofs.Reanalysis
import TypeGloss.Proofs.Refill
import TypeGloss.Proofs.RefillFits
import TypeGloss.Proofs.Rendered
import TypeGloss.Proofs.Resolution
import TypeGloss.Proofs.RoundTrip
import TypeGloss.Proofs.Scannable
import TypeGloss.Proofs.Settled
import TypeGloss.Proofs.ShapeText
import TypeGloss.Proofs.Skeleton
import TypeGloss.Proofs.Soundness.Expression
import TypeGloss.Proofs.Soundness.Frames
import TypeGloss.Proofs.Soundness.Invariant
import TypeGloss.Proofs.Soundness.Program
import TypeGloss.Proofs.Soundness.Source
import TypeGloss.Proofs.SourceOrder
import TypeGloss.Proofs.SourceTokens
import TypeGloss.Proofs.Symbols
import TypeGloss.Proofs.Syntax
import TypeGloss.Proofs.Temporary
import TypeGloss.Proofs.TerminatorRule
import TypeGloss.Proofs.TokenOrder
import TypeGloss.Proofs.Trail
import TypeGloss.Proofs.Transitions
import TypeGloss.Proofs.Transpile
import TypeGloss.Proofs.Traversal
import TypeGloss.Proofs.TypeSyntax
import TypeGloss.Proofs.TypeTree
import TypeGloss.Proofs.Unambiguous
import TypeGloss.Proofs.Unplaced
import TypeGloss.Proofs.Untyped
import TypeGloss.Proofs.Verified
import TypeGloss.Proofs.WellFormed
import TypeGloss.Proofs.WorkedOnce
import TypeGloss.Report.Diagnostic
import TypeGloss.Report.Json
import TypeGloss.Report.Span
import TypeGloss.Shape.Basic
import TypeGloss.Shape.Global
import TypeGloss.Shape.Key
import TypeGloss.Shape.Render
import TypeGloss.Source.Dialect
import TypeGloss.Source.Failure
import TypeGloss.Source.Read
import TypeGloss.Syntax.Copy
import TypeGloss.Syntax.Draft
import TypeGloss.Syntax.Fault
import TypeGloss.Syntax.Fold
import TypeGloss.Syntax.Literal
import TypeGloss.Syntax.Nesting
import TypeGloss.Syntax.Node
import TypeGloss.Syntax.Rebuild
import TypeGloss.Syntax.Walk
import TypeGloss.Table
import TypeGloss.Text.CodePoint
import TypeGloss.Text.DecimalDigit
import TypeGloss.Text.Integer
import TypeGloss.Text.Letter
import TypeGloss.Text.Numeral
import TypeGloss.Text.Printable
import TypeGloss.Text.Quoted
import TypeGloss.Text.Utf8
import TypeGloss.Token
import TypeGloss.Token.ArrowParameters
import TypeGloss.Token.PropertyName
import TypeGloss.Token.Scan
import TypeGloss.Token.Stream
import TypeGloss.Token.Terminator
import TypeGloss.Transpile
