import Sql.Text.Blank
import Sql.Text.Letter
import Sql.Text.Numeral
import Sql.Text.Quoted
import Sql.Text.Indent
import Sql.Text.Bytes
import Sql.Text.Digits
import Sql.Double.Basic
import Sql.Double.Reading
import Sql.Double.Shortest
import Sql.Pairing
import Sql.Text.Segments
import Sql.Ident
import Sql.DataType.Basic
import Sql.DataType.Supertype
import Sql.Operator
import Sql.Clause
import Sql.Literal
import Sql.Invalid
import Sql.ResolveError
import Sql.Schema
import Sql.Tree.Basic
import Sql.Tree.Valid
import Sql.Tree.Precedence
import Sql.Tree.Same
import Sql.Print.Layout
import Sql.Print.Statement
import Sql.Tree.Bare
import Sql.Print.Tree
import Sql.Token.Span
import Sql.Token.Keyword
import Sql.Token.Basic
import Sql.Token.Scan
import Sql.Parse.Error
import Sql.Parse.Cursor
import Sql.Parse.Name
import Sql.Parse.Type
import Sql.Parse.Grammar
import Sql.Parse.Window
import Sql.Parse.Expression
import Sql.Parse.Relation
import Sql.Parse.Query
import Sql.Json.Basic
import Sql.Json.Reading
import Sql.Json.Writing
import Sql.Json.DataType
import Sql.Json.Options
import Sql.Catalog
import Sql.Resolve.Context
import Sql.Resolve.Function
import Sql.Resolve.Literal
import Sql.Resolve.Combine
import Sql.Resolve.Tree
import Sql.SelectDraft
import Sql.Proofs.Tokens
import Sql.Proofs.Nodes
import Sql.Proofs.Depth
import Sql.Proofs.Normal
import Sql.Proofs.Cursor
import Sql.Proofs.Outcome
import Sql.Proofs.Good
import Sql.Proofs.Lists
import Sql.Proofs.Names
import Sql.Proofs.Types
import Sql.Proofs.Leading
import Sql.Proofs.Reads
import Sql.Proofs.Windows
import Sql.Proofs.Calls
import Sql.Proofs.Operands
import Sql.Proofs.Shapes
import Sql.Proofs.Constructs
import Sql.Proofs.Expressions
import Sql.Proofs.Relations
import Sql.Proofs.Selects
import Sql.Proofs.Queries
import Sql.Proofs.Stray
import Sql.Proofs.Margins
import Sql.Proofs.Spelling
import Sql.Proofs.Spells
import Sql.Proofs.Leaves
import Sql.Proofs.Doubles
import Sql.Proofs.Clauses
import Sql.Proofs.Printing
import Sql.Proofs.RoundTrip
import Sql.Proofs.OperatorTrees
import Sql.Proofs.QueryTrees
import Sql.Proofs.RelationTrees
import Sql.Proofs.Quotes
import Sql.Proofs.Runs
import Sql.Proofs.Magnitudes
import Sql.Proofs.Rounding
import Sql.Proofs.ShortestDigits
import Sql.Proofs.DoubleTexts
import Sql.Proofs.Pieces
import Sql.Proofs.Lexemes
import Sql.Proofs.Tiling
import Sql.Proofs.Laid
import Sql.Proofs.Rendering
import Sql.Proofs.PrintedTokens
import Sql.Proofs.Supertypes
import Sql.Proofs.Results
import Sql.Proofs.TypeRange
import Sql.Proofs.Tally
import Sql.Proofs.TallyTypes
import Sql.Proofs.Subqueries
import Sql.Proofs.TallyExpressions
import Sql.Proofs.TallyQueries
import Sql.Proofs.Rereading
import Sql.Proofs.Keys
import Sql.Proofs.Answers
import Sql.Proofs.Schemas
import Sql.Proofs.Tables
import Sql.Proofs.Simulation
import Sql.Proofs.Locality
import Sql.Proofs.Lenient
import Sql.Proofs.Inlining
import Sql.Proofs.Sources
import Sql.Proofs.TypeRules
import Sql.Proofs.TypeBounds
import Sql.Proofs.Scoping
import Sql.Proofs.CrossJoins
import Sql.Proofs.DerivedTables
import Sql.Proofs.SharedColumns
import Sql.Proofs.Composed
import Sql.Proofs.NormalForms
import Sql.Proofs.Arithmetic
import Sql.Proofs.Drafts
import Sql.Proofs.Readings
import Sql.Proofs.RowOrder
import Sql.Proofs.Blame
import Sql.Proofs.BlameExpressions
import Sql.Proofs.BlameQueries
import Sql.Proofs.Echoes
import Sql.Proofs.EchoTypes
import Sql.Proofs.EchoExpressions
import Sql.Proofs.EchoQueries
import Sql.Proofs.Merging
import Sql.Proofs.Catalogs
import Sql.Proofs.Interleaving
import Sql.Proofs.Written
import Sql.Proofs.Inversion
import Sql.Proofs.ReadTrees
import Sql.Proofs.Parentheses
import Sql.Proofs.Shifting
