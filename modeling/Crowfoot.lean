import Crowfoot.Command.Arguments
import Crowfoot.Command.Request
import Crowfoot.Command.Run
import Crowfoot.Decimal.Binary
import Crowfoot.Decimal.Fixed
import Crowfoot.Decimal.Shortest
import Crowfoot.Document
import Crowfoot.Editing
import Crowfoot.Exchange
import Crowfoot.Failure
import Crowfoot.Highlight.Range
import Crowfoot.Json.Numeral
import Crowfoot.Json.Reader
import Crowfoot.Json.Record
import Crowfoot.Json.Text
import Crowfoot.Json.Value
import Crowfoot.Json.Writer
import Crowfoot.Layout.Engine
import Crowfoot.Layout.Force
import Crowfoot.Layout.Graph
import Crowfoot.Layout.Levels
import Crowfoot.Layout.Mode
import Crowfoot.Layout.Placement
import Crowfoot.Layout.Point
import Crowfoot.Main
import Crowfoot.Mermaid.Diagram
import Crowfoot.Mermaid.Highlight
import Crowfoot.Mermaid.Line
import Crowfoot.Mermaid.Placement
import Crowfoot.Mermaid.Schema
import Crowfoot.Mermaid.Writer
import Crowfoot.Schema.Basic
import Crowfoot.Schema.Cardinality
import Crowfoot.Schema.Category
import Crowfoot.Schema.Column
import Crowfoot.Schema.Format
import Crowfoot.Schema.Json
import Crowfoot.Schema.Lookup
import Crowfoot.Schema.Table
import Crowfoot.Sql.Batch
import Crowfoot.Sql.ColumnDefinition
import Crowfoot.Sql.ExpressionType
import Crowfoot.Sql.Highlight
import Crowfoot.Sql.Lexer
import Crowfoot.Sql.Phrase
import Crowfoot.Sql.Quote
import Crowfoot.Sql.Reader
import Crowfoot.Sql.Schema
import Crowfoot.Sql.Script
import Crowfoot.Sql.Select
import Crowfoot.Sql.Statement
import Crowfoot.Sql.TableClause
import Crowfoot.Sql.Tables
import Crowfoot.Sql.Token
import Crowfoot.Sql.Views
import Crowfoot.Sql.Writer
import Crowfoot.Text.Blank
import Crowfoot.Text.Case
import Crowfoot.Text.CaseContext
import Crowfoot.Text.CaseTable
import Crowfoot.Text.Caseless
import Crowfoot.Text.CodePoint
import Crowfoot.Text.ColumnTable
import Crowfoot.Text.Columns
import Crowfoot.Text.Letter
import Crowfoot.Text.Ligature
import Crowfoot.Text.Lines
import Crowfoot.Text.Numeral
import Crowfoot.Text.Offset
import Crowfoot.Proofs.Schema.Names
import Crowfoot.Proofs.Schema.Outline
import Crowfoot.Proofs.Sql.Declared
import Crowfoot.Proofs.Sql.BaseTables
import Crowfoot.Proofs.Sql.Views
import Crowfoot.Proofs.Sql.Links
import Crowfoot.Proofs.Sql.WellFormed
import Crowfoot.Proofs.Mermaid.Diagram
import Crowfoot.Proofs.Mermaid.Placement
import Crowfoot.Proofs.Mermaid.WellPlaced
import Crowfoot.Proofs.Sql.Nesting
import Crowfoot.Proofs.Sql.ReadColumns
import Crowfoot.Proofs.Sql.ReadTables
import Crowfoot.Proofs.Sql.Rebuild
import Crowfoot.Proofs.Sql.RoundTrip
import Crowfoot.Proofs.Text.Boundary
import Crowfoot.Proofs.Highlight.Cover
import Crowfoot.Proofs.Highlight.RunLength
import Crowfoot.Proofs.Text.Blanks
import Crowfoot.Proofs.Sql.Separators
import Crowfoot.Proofs.Sql.Extent
import Crowfoot.Proofs.Sql.Spans
import Crowfoot.Proofs.Sql.Shape
import Crowfoot.Proofs.Mermaid.Extent
import Crowfoot.Proofs.Mermaid.Written
import Crowfoot.Proofs.Mermaid.Connections
import Crowfoot.Proofs.Document.Cover
import Crowfoot.Proofs.Mermaid.Redrawn
import Crowfoot.Proofs.Mermaid.RoundTrip
import Crowfoot.Proofs.Sql.ReadViews
import Crowfoot.Proofs.Sql.Lineage
import Crowfoot.Proofs.Sql.WrittenLinks
import Crowfoot.Proofs.Sql.Relinked
import Crowfoot.Proofs.Sql.Origins
import Crowfoot.Proofs.Sql.ViewRoundTrip
import Crowfoot.Proofs.Mermaid.Lockstep
import Crowfoot.Proofs.Schema.Counts
import Crowfoot.Proofs.Sql.RereadCounts
import Crowfoot.Proofs.Mermaid.PlacedLinks
import Crowfoot.Proofs.Text.LowerCase
import Crowfoot.Proofs.Schema.Kept
import Crowfoot.Proofs.Mermaid.KeptColumns
import Crowfoot.Proofs.Sql.Mentions
import Crowfoot.Proofs.Sql.Respelled
import Crowfoot.Proofs.Document.DrawnScripts
import Crowfoot.Proofs.Sql.Unresolved
import Crowfoot.Proofs.Mermaid.WritableNames
import Crowfoot.Proofs.Document.RewrittenDiagrams
import Crowfoot.Proofs.Sql.Independence
import Crowfoot.Proofs.Sql.Reordered
import Crowfoot.Proofs.Sql.Gaps
import Crowfoot.Proofs.Sql.ViewGaps
import Crowfoot.Proofs.Sql.SameShapes
import Crowfoot.Proofs.Sql.Comments
import Crowfoot.Proofs.Json.Strings
import Crowfoot.Proofs.Json.Values
import Crowfoot.Proofs.Schema.Saved
import Crowfoot.Proofs.Layout.Coherence
import Crowfoot.Proofs.Layout.Forests
import Crowfoot.Proofs.Layout.Positions
import Crowfoot.Proofs.Layout.References
import Crowfoot.Proofs.Layout.Multiplicities
import Crowfoot.Proofs.Document.Reading
import Crowfoot.Proofs.Editing.Runs
import Crowfoot.Proofs.Sql.Redefined
import Crowfoot.Proofs.Document.Detection
import Crowfoot.Proofs.Layout.Traversals
import Crowfoot.Proofs.Layout.Walks
import Crowfoot.Proofs.Layout.Levels
import Crowfoot.Proofs.Mermaid.Types
import Crowfoot.Proofs.Mermaid.Accepted
import Crowfoot.Proofs.Sql.Agreement
import Crowfoot.Proofs.Schema.Latest
import Crowfoot.Proofs.Schema.Colors
import Crowfoot.Proofs.Sql.Catalogs
import Crowfoot.Proofs.Sql.Contents
import Crowfoot.Proofs.Sql.LastKeys
import Crowfoot.Proofs.Sql.Dangling
import Crowfoot.Proofs.Sql.EarlyChanges
import Crowfoot.Proofs.Sql.AddedKeys
import Crowfoot.Proofs.Sql.KeyPlaces
