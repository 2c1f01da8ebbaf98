import QueryTree.Calendar.Date
import QueryTree.Calendar.DateTime
import QueryTree.Calendar.Reading
import QueryTree.Calendar.Writing
import QueryTree.CommandLine.Options
import QueryTree.CommandLine.Report
import QueryTree.Comparison
import QueryTree.Discovery
import QueryTree.Files.Item
import QueryTree.Files.Listing
import QueryTree.Files.Place
import QueryTree.Ignore.Coverage
import QueryTree.Ignore.Glob
import QueryTree.Ignore.Pattern
import QueryTree.Ignore.Rule
import QueryTree.Ignore.Sight
import QueryTree.Inventory
import QueryTree.Literal
import QueryTree.Literal.Encoding
import QueryTree.Number.Format
import QueryTree.Number.Layout
import QueryTree.Number.Nearest
import QueryTree.Number.Shortest
import QueryTree.Proofs.Query.Grammar
import QueryTree.Proofs.Query.Parentheses
import QueryTree.Proofs.Query.Position
import QueryTree.Proofs.Query.ReadingBack
import QueryTree.Proofs.Query.Token
import QueryTree.Proofs.Text.Digits
import QueryTree.Proofs.Text.Front
import QueryTree.Text.Bytes
import QueryTree.Text.Digits
import QueryTree.Text.Printable
import QueryTree.Text.Quoted
import QueryTree.Text.Space
import QueryTree.Text.Split
import QueryTree.Text.Terminal
import QueryTree.Tree
import QueryTree.Tree.Description
import QueryTree.Tree.Fault
import QueryTree.Tree.Reading
import QueryTree.Tree.Rendering
import QueryTree.TreeFile
import QueryTree.Yaml.Cursor
import QueryTree.Yaml.Document
import QueryTree.Yaml.Error
import QueryTree.Yaml.Event
import QueryTree.Yaml.Event.Machine
import QueryTree.Yaml.Loading
import QueryTree.Yaml.Scalar
import QueryTree.Yaml.Tag
import QueryTree.Yaml.Token
import QueryTree.Yaml.Token.Lexer
import QueryTree.Yaml.Token.Property
import QueryTree.Yaml.Token.Scalar
import QueryTree.Yaml.Value
import QueryTree.Main
import QueryTree.Proofs.Calendar.Reading
import QueryTree.Proofs.Calendar.Writing
import QueryTree.Proofs.Number.Conversion
import QueryTree.Proofs.Number.Positional
import QueryTree.Proofs.Literal.Form
import QueryTree.Proofs.Query.Lexing
import QueryTree.Proofs.Number.Interval
import QueryTree.Proofs.Number.Rounding
import QueryTree.Proofs.Number.Shortest
import QueryTree.Proofs.Number.Writing
import QueryTree.Proofs.Literal.NormalForm
import QueryTree.Proofs.Outcome
import QueryTree.Proofs.Document.Node
import QueryTree.Proofs.Document.FirstFault
import QueryTree.Proofs.Document.Argument
import QueryTree.Proofs.Document.Constraint
import QueryTree.Proofs.Document.Denotation
import QueryTree.Proofs.CommandLine.FirstFailure
import QueryTree.Proofs.Document.Documentable
import QueryTree.Proofs.Calendar.Rereading
import QueryTree.Proofs.Literal.Dates
import QueryTree.Proofs.Text.Order
import QueryTree.Proofs.Inventory.Listing
import QueryTree.Proofs.Number.Nearest
import QueryTree.Proofs.Number.Fewest
import QueryTree.Proofs.Number.Numeral
import QueryTree.Proofs.Literal.Decimals
import QueryTree.Proofs.Query.Nesting
import QueryTree.Proofs.Query.Context
import QueryTree.Proofs.Query.EqualTrees
import QueryTree.Proofs.Calendar.Instant
import QueryTree.Proofs.Literal.Equality
import QueryTree.Proofs.Tree.Equality
import QueryTree.Proofs.Text.Space
import QueryTree.Proofs.Yaml.Integer
import QueryTree.Proofs.Document.ByArgument
import QueryTree.Proofs.Document.Integers
import QueryTree.Proofs.CommandLine.InputPaths
import QueryTree.Proofs.Number.Ratio
import QueryTree.Proofs.Number.Twice
import QueryTree.Proofs.Document.Floats
import QueryTree.Proofs.Files.Walk
import QueryTree.Proofs.Files.Path
import QueryTree.Proofs.Discovery
import QueryTree.Proofs.CommandLine.Sources
import QueryTree.Proofs.CommandLine.Ending
import QueryTree.Proofs.Query.LineFeeds
import QueryTree.Proofs.CommandLine.Composition
import QueryTree.Proofs.CommandLine.Lines
import QueryTree.Proofs.Inventory.ReadingBack
import QueryTree.Proofs.Comparison
import QueryTree.Proofs.Yaml.Depth
import QueryTree.Proofs.Tree.Stack
import QueryTree.Proofs.Document.Shallow
