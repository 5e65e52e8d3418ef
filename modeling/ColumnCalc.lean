import ColumnCalc.Text.Utf8
import ColumnCalc.Table.FormulaColumn
import ColumnCalc.Header.Mapping
import ColumnCalc.Csv.Table
import ColumnCalc.Xml.Document
import ColumnCalc.Workbook.Table
import ColumnCalc.Template.Store
import ColumnCalc.Files.Tree
import ColumnCalc.Main
import ColumnCalc.Proofs.Failure
import ColumnCalc.Proofs.Text.Utf8
import ColumnCalc.Proofs.Formula.Grammar
import ColumnCalc.Proofs.Formula.Reading
import ColumnCalc.Proofs.Formula.Acceptance
import ColumnCalc.Proofs.Formula.Limits
import ColumnCalc.Proofs.Formula.Sentences
import ColumnCalc.Proofs.Formula.FirstFault
import ColumnCalc.Proofs.Formula.Thresholds
import ColumnCalc.Proofs.Number.Packing
import ColumnCalc.Proofs.Number.Nearest
import ColumnCalc.Proofs.Number.Rounding
import ColumnCalc.Proofs.Number.Arithmetic
import ColumnCalc.Proofs.Number.Comparison
import ColumnCalc.Proofs.Number.Decimals
import ColumnCalc.Proofs.Number.Shortest
import ColumnCalc.Proofs.Formula.Subtree
import ColumnCalc.Proofs.Formula.Literals
import ColumnCalc.Proofs.Formula.Sandbox
import ColumnCalc.Proofs.Formula.Extremes
import ColumnCalc.Proofs.Formula.Unbounded
import ColumnCalc.Proofs.Formula.Rounding
import ColumnCalc.Proofs.Table.Columns
import ColumnCalc.Proofs.Table.RowByRow
import ColumnCalc.Proofs.Table.Reading
import ColumnCalc.Proofs.Table.Reachable
import ColumnCalc.Proofs.Csv.Records
import ColumnCalc.Proofs.Csv.RoundTrip
import ColumnCalc.Proofs.Xml.Escaping
import ColumnCalc.Proofs.Xml.Pieces
import ColumnCalc.Proofs.Workbook.Positions
import ColumnCalc.Proofs.Workbook.Segments
import ColumnCalc.Proofs.Workbook.SharedStrings
import ColumnCalc.Proofs.Workbook.RichText
import ColumnCalc.Proofs.Workbook.EmptyElements
import ColumnCalc.Proofs.Workbook.Recovery
import ColumnCalc.Proofs.Template.Application
import ColumnCalc.Proofs.Json.RoundTrip
import ColumnCalc.Proofs.Template.Text
import ColumnCalc.Proofs.Files.Tree
import ColumnCalc.Proofs.Template.Store
import ColumnCalc.Proofs.Command.Effects
import ColumnCalc.Proofs.Command.SavedTemplates
import ColumnCalc.Proofs.Formula.Variables
import ColumnCalc.Proofs.Table.Contexts
import ColumnCalc.Proofs.Table.Independence
import ColumnCalc.Proofs.Template.Reapplication
import ColumnCalc.Proofs.Formula.Lexing
import ColumnCalc.Proofs.Formula.FirstFailure
import ColumnCalc.Proofs.Formula.LookAhead
import ColumnCalc.Proofs.Formula.Numerals
import ColumnCalc.Proofs.Formula.Places
import ColumnCalc.Proofs.Formula.Respacing
import ColumnCalc.Proofs.Formula.Starts
import ColumnCalc.Proofs.Formula.Spans
import ColumnCalc.Proofs.Formula.Names
import ColumnCalc.Proofs.Formula.ErrorSpans
import ColumnCalc.Proofs.Table.Lens
import ColumnCalc.Proofs.Text.Slices
import ColumnCalc.Proofs.Formula.NumeralBytes
import ColumnCalc.Proofs.Formula.Cursor
import ColumnCalc.Proofs.Header.Required
import ColumnCalc.Proofs.Template.Listing
import ColumnCalc.Proofs.Header.Closest
import ColumnCalc.Proofs.Header.CommonLength
import ColumnCalc.Proofs.Header.Similarity
import ColumnCalc.Proofs.Formula.LongestNumber
import ColumnCalc.Proofs.Formula.PrefixForm
import ColumnCalc.Proofs.Workbook.SharedIndices
import ColumnCalc.Proofs.Number.HalfEven
import ColumnCalc.Proofs.Number.PowersOfTen
import ColumnCalc.Proofs.Number.Multiples
import ColumnCalc.Proofs.Formula.RoundedValue
import ColumnCalc.Proofs.Workbook.Numeration
import ColumnCalc.Proofs.Workbook.ReferenceBytes
import ColumnCalc.Proofs.Formula.ExtremeLaws
