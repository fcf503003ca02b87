import RosInterface.Compile
import RosInterface.Console.Arguments
import RosInterface.Console.Command
import RosInterface.Console.Markup
import RosInterface.Console.OptionName
import RosInterface.Console.OptionValue
import RosInterface.Console.Plain
import RosInterface.Console.Report
import RosInterface.Decimal.Binary64
import RosInterface.Decimal.Floating
import RosInterface.Decimal.Scientific
import RosInterface.Decimal.Shortest
import RosInterface.Declaration.Comment
import RosInterface.Declaration.Item
import RosInterface.Declaration.TypeSpec
import RosInterface.Definition.File
import RosInterface.Definition.Section
import RosInterface.Definition.Text
import RosInterface.Diagnostic
import RosInterface.Files.Path
import RosInterface.Files.Snapshot
import RosInterface.Files.Tree
import RosInterface.Files.Utf8
import RosInterface.Install.Index
import RosInterface.Install.Package
import RosInterface.Main
import RosInterface.Output.ClassDeclaration
import RosInterface.Output.Identifier
import RosInterface.Output.ModuleFile
import RosInterface.Output.Reference
import RosInterface.Output.Render
import RosInterface.Output.Source
import RosInterface.Output.Writer
import RosInterface.Proofs.Compile.Duplicates
import RosInterface.Proofs.Compile.Reading
import RosInterface.Proofs.Compile.Run
import RosInterface.Proofs.Decimal.FloatSyntax
import RosInterface.Proofs.Declaration.Limits
import RosInterface.Proofs.Declaration.LineGrammar
import RosInterface.Proofs.Declaration.ReadBack
import RosInterface.Proofs.Declaration.Token
import RosInterface.Proofs.Declaration.TypeMeaning
import RosInterface.Proofs.Declaration.TypeSyntax
import RosInterface.Proofs.Definition.Invariants
import RosInterface.Proofs.Definition.Limits
import RosInterface.Proofs.Definition.Lines
import RosInterface.Proofs.Definition.Package
import RosInterface.Proofs.Definition.Reading
import RosInterface.Proofs.Definition.RoundTrip
import RosInterface.Proofs.Failure
import RosInterface.Proofs.Files.Path
import RosInterface.Proofs.Install.Index
import RosInterface.Proofs.Install.Package
import RosInterface.Proofs.Outcome
import RosInterface.Proofs.Output.Agreement
import RosInterface.Proofs.Output.Clashes
import RosInterface.Proofs.Output.ClassNames
import RosInterface.Proofs.Output.Imports
import RosInterface.Proofs.Output.Layout
import RosInterface.Proofs.Output.Reference
import RosInterface.Proofs.Output.Source
import RosInterface.Proofs.Text.Escape
import RosInterface.Proofs.Text.Numeral
import RosInterface.Proofs.Text.Order
import RosInterface.Proofs.Text.Quoting
import RosInterface.Proofs.Text.Run
import RosInterface.Proofs.Value.Canonical
import RosInterface.Proofs.Value.Integer
import RosInterface.Proofs.Value.Limits
import RosInterface.Proofs.Value.ReadBack
import RosInterface.Proofs.WellFormed
import RosInterface.Schema.Interface
import RosInterface.Schema.Item
import RosInterface.Schema.Package
import RosInterface.Schema.Type
import RosInterface.Text.Blank
import RosInterface.Text.CodePoint
import RosInterface.Text.Escape
import RosInterface.Text.LetterCase
import RosInterface.Text.Line
import RosInterface.Text.Printable
import RosInterface.Text.Quoted
import RosInterface.Value.Array
import RosInterface.Value.Integer
import RosInterface.Value.Primitive
import RosInterface.Proofs.Output.Collisions
import RosInterface.Proofs.Compile.Report
import RosInterface.Proofs.Files.Place
import RosInterface.Proofs.Files.Writing
import RosInterface.Proofs.Compile.Writing
import RosInterface.Proofs.Compile.Exclusion
import RosInterface.Proofs.Compile.Success
import RosInterface.Proofs.Compile.Index
import RosInterface.Proofs.Files.Rewriting
import RosInterface.Proofs.Compile.Order
import RosInterface.Proofs.Text.LineEnds
import RosInterface.Proofs.Definition.Concatenation
import RosInterface.Proofs.Definition.FileLines
import RosInterface.Proofs.Text.OpenQuote
import RosInterface.Proofs.Value.Quotes
import RosInterface.Proofs.Declaration.TrailingComment
import RosInterface.Proofs.Text.LetterCase
import RosInterface.Proofs.Files.Change
import RosInterface.Proofs.Files.Effect
import RosInterface.Proofs.Compile.Perform
import RosInterface.Proofs.Compile.Targets
import RosInterface.Proofs.Compile.AllOrNothing
import RosInterface.Proofs.Declaration.TypeGrammar
import RosInterface.Proofs.Text.Literal
import RosInterface.Proofs.Text.Pieces
import RosInterface.Proofs.Value.ArraySyntax
import RosInterface.Proofs.Value.StringLiteral
import RosInterface.Proofs.Value.Scanners
import RosInterface.Proofs.Value.IntegerLiteral
import RosInterface.Proofs.Definition.FirstFault
import RosInterface.Proofs.Output.Enumeration
import RosInterface.Proofs.Output.Writer
import RosInterface.Proofs.Output.LineText
import RosInterface.Proofs.Output.Entries
import RosInterface.Proofs.Output.OneLine
import RosInterface.Proofs.Output.Attributes
import RosInterface.Proofs.Output.Defaults
import RosInterface.Proofs.Output.Outline
import RosInterface.Proofs.Output.Docstrings
import RosInterface.Proofs.Output.Indentation
import RosInterface.Proofs.Output.SnakeCase
import RosInterface.Proofs.Output.WriterRun
