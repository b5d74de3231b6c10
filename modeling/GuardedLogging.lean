import GuardedLogging.Audit
import GuardedLogging.CommandLine.Arguments
import GuardedLogging.CommandLine.Options
import GuardedLogging.CommandLine.Run
import GuardedLogging.CompilationUnit
import GuardedLogging.CompilationUnit.Document
import GuardedLogging.CompilationUnit.NameScope
import GuardedLogging.CompilationUnit.Parse
import GuardedLogging.CompilationUnit.ReadBack
import GuardedLogging.CompilationUnit.Source
import GuardedLogging.Document
import GuardedLogging.Document.Equality
import GuardedLogging.Document.JsonReader
import GuardedLogging.Document.JsonWriter
import GuardedLogging.Document.Shape
import GuardedLogging.Evaluation
import GuardedLogging.Evaluation.Recording
import GuardedLogging.Evaluation.Value
import GuardedLogging.Evaluation.World
import GuardedLogging.Exchange
import GuardedLogging.Expr
import GuardedLogging.Expr.Document
import GuardedLogging.Expr.Equality
import GuardedLogging.Expr.Parse
import GuardedLogging.Expr.Source
import GuardedLogging.Facade
import GuardedLogging.Files
import GuardedLogging.Guard
import GuardedLogging.Level
import GuardedLogging.LogOutput
import GuardedLogging.LogRecord
import GuardedLogging.Main
import GuardedLogging.Modifiers
import GuardedLogging.Number.Binary64
import GuardedLogging.Number.Shortest
import GuardedLogging.ParseError
import GuardedLogging.Proofs.Audit.Confirmation
import GuardedLogging.Proofs.Audit.MissingFacade
import GuardedLogging.Proofs.Audit.TypeReferences
import GuardedLogging.Proofs.ClassPath
import GuardedLogging.Proofs.CommandLine.Delivery
import GuardedLogging.Proofs.CompilationUnit.Annotations
import GuardedLogging.Proofs.CompilationUnit.BareNames
import GuardedLogging.Proofs.CompilationUnit.BrokenNames
import GuardedLogging.Proofs.CompilationUnit.ClassWords
import GuardedLogging.Proofs.CompilationUnit.Classes
import GuardedLogging.Proofs.CompilationUnit.Collisions
import GuardedLogging.Proofs.CompilationUnit.DeclaredNames
import GuardedLogging.Proofs.CompilationUnit.Documents
import GuardedLogging.Proofs.CompilationUnit.Dumps
import GuardedLogging.Proofs.CompilationUnit.Heads
import GuardedLogging.Proofs.CompilationUnit.Joining
import GuardedLogging.Proofs.CompilationUnit.Layout
import GuardedLogging.Proofs.CompilationUnit.Members
import GuardedLogging.Proofs.CompilationUnit.Methods
import GuardedLogging.Proofs.CompilationUnit.Names
import GuardedLogging.Proofs.CompilationUnit.Outline
import GuardedLogging.Proofs.CompilationUnit.RoundTrip
import GuardedLogging.Proofs.CompilationUnit.Signs
import GuardedLogging.Proofs.CompilationUnit.SortedDocuments
import GuardedLogging.Proofs.CompilationUnit.Units
import GuardedLogging.Proofs.Evaluation.Muting
import GuardedLogging.Proofs.Evaluation.Preservation
import GuardedLogging.Proofs.Evaluation.SameUpTo
import GuardedLogging.Proofs.Expr.Continuation
import GuardedLogging.Proofs.Expr.Grammar
import GuardedLogging.Proofs.Expr.Nodes
import GuardedLogging.Proofs.Expr.Parsed
import GuardedLogging.Proofs.Expr.Writing
import GuardedLogging.Proofs.Guard.Nodes
import GuardedLogging.Proofs.Guard.Shape
import GuardedLogging.Proofs.Guard.Tally
import GuardedLogging.Proofs.Guard.Unguard
import GuardedLogging.Proofs.Token.DottedName
import GuardedLogging.Proofs.Token.Identifiers
import GuardedLogging.Proofs.Token.Layout
import GuardedLogging.Proofs.Token.Lines
import GuardedLogging.Proofs.Token.Numbers
import GuardedLogging.Proofs.Token.Reading
import GuardedLogging.Proofs.Token.Spelling
import GuardedLogging.Proofs.Transformation.Acceptance
import GuardedLogging.Proofs.Transformation.Bindings
import GuardedLogging.Proofs.Transformation.Boundaries
import GuardedLogging.Proofs.Transformation.ClassPaths
import GuardedLogging.Proofs.Transformation.Documents
import GuardedLogging.Proofs.Transformation.Frame
import GuardedLogging.Proofs.Transformation.Invariants
import GuardedLogging.Proofs.Transformation.Layout
import GuardedLogging.Proofs.Transformation.Refusal
import GuardedLogging.Proofs.Transformation.Rereading
import GuardedLogging.Proofs.Transformation.Run
import GuardedLogging.Proofs.Transformation.SecondRun
import GuardedLogging.Proofs.Transformation.TypeNames
import GuardedLogging.Proofs.Transformation.Written
import GuardedLogging.Proofs.Walk.Declarations
import GuardedLogging.Proofs.Walk.Expr
import GuardedLogging.Proofs.Walk.Safety
import GuardedLogging.Proofs.Walk.Token
import GuardedLogging.Proofs.Walk.Unit
import GuardedLogging.Request
import GuardedLogging.Sample
import GuardedLogging.Scalar
import GuardedLogging.Settings
import GuardedLogging.Step
import GuardedLogging.Strategy
import GuardedLogging.Text.Blank
import GuardedLogging.Text.CharRanges
import GuardedLogging.Text.Digit
import GuardedLogging.Text.Hex
import GuardedLogging.Text.Identifier
import GuardedLogging.Text.Lines
import GuardedLogging.Text.Printable
import GuardedLogging.Text.Quoted
import GuardedLogging.Text.Upper
import GuardedLogging.Text.Utf8
import GuardedLogging.Token
import GuardedLogging.Token.Cursor
import GuardedLogging.Token.Literal
import GuardedLogging.Token.Scan
import GuardedLogging.TransformError
import GuardedLogging.Transformation
import GuardedLogging.TypeRef
import GuardedLogging.Yaml.Node
import GuardedLogging.Yaml.Place
import GuardedLogging.Yaml.Plain
import GuardedLogging.Yaml.Reader
import GuardedLogging.Yaml.ScalarText
import GuardedLogging.Yaml.Token
import GuardedLogging.Yaml.Writer
import GuardedLogging.Proofs.Audit.Agreement
import GuardedLogging.Proofs.Expr.Language
import GuardedLogging.Proofs.Guard.Composition
import GuardedLogging.Proofs.Settings
import GuardedLogging.Proofs.Token.Partition
import GuardedLogging.Proofs.Expr.Markers
import GuardedLogging.Proofs.CompilationUnit.Lookahead
import GuardedLogging.Proofs.Expr.Lookahead
import GuardedLogging.Proofs.CompilationUnit.ClassOrder
import GuardedLogging.Proofs.Token.Literals
import GuardedLogging.Proofs.Evaluation.Loading
