import DocDesk.Calendar
import DocDesk.Clock
import DocDesk.Conversion
import DocDesk.File
import DocDesk.Guide
import DocDesk.Json.Basic
import DocDesk.Json.Folded
import DocDesk.Json.Inspect
import DocDesk.Json.Loose
import DocDesk.Json.Reader
import DocDesk.Json.Same
import DocDesk.Json.Whole
import DocDesk.Json.Writer
import DocDesk.Log
import DocDesk.Number.Binary64
import DocDesk.Number.Decimal
import DocDesk.Number.Rounding
import DocDesk.Number.Shortest
import DocDesk.Number.Whole
import DocDesk.Panel.Convert
import DocDesk.Panel.Query
import DocDesk.Panel.Validate
import DocDesk.Proofs.Json.Comparison
import DocDesk.Proofs.Json.Everywhere
import DocDesk.Proofs.Number.Digits
import DocDesk.Proofs.Number.Literal
import DocDesk.Proofs.Number.Numeral
import DocDesk.Proofs.Number.ReadBack
import DocDesk.Proofs.Number.Rounding
import DocDesk.Proofs.Number.Shortest
import DocDesk.Proofs.Query.Grammar
import DocDesk.Proofs.Query.Overlong
import DocDesk.Proofs.Query.Place
import DocDesk.Proofs.Query.Projection
import DocDesk.Proofs.Query.Composition
import DocDesk.Proofs.Query.Rendering
import DocDesk.Proofs.Query.ResultPath
import DocDesk.Proofs.Query.Selection
import DocDesk.Proofs.Query.Spelling
import DocDesk.Proofs.Query.WrittenForm
import DocDesk.Proofs.Table.Key
import DocDesk.Proofs.Table.Leaf
import DocDesk.Proofs.Table.Records
import DocDesk.Proofs.Text.Parts
import DocDesk.Query.Evaluation
import DocDesk.Query.History
import DocDesk.Query.Path
import DocDesk.Query.PathReader
import DocDesk.Query.Session
import DocDesk.Query.Suggestion
import DocDesk.Sample
import DocDesk.Schema.Applicator
import DocDesk.Schema.Applicator.Combination
import DocDesk.Schema.Applicator.Item
import DocDesk.Schema.Applicator.Leftover
import DocDesk.Schema.Applicator.Member
import DocDesk.Schema.Applicator.Type
import DocDesk.Schema.Assertion
import DocDesk.Schema.Checker
import DocDesk.Schema.Draft
import DocDesk.Schema.Evaluated
import DocDesk.Schema.Findings
import DocDesk.Schema.Format
import DocDesk.Schema.Library
import DocDesk.Schema.Metaschema.Modern
import DocDesk.Schema.Metaschema.Old
import DocDesk.Schema.Metaschema.Parts
import DocDesk.Schema.Pointer
import DocDesk.Schema.Report
import DocDesk.Schema.Resource
import DocDesk.Schema.Scope
import DocDesk.Schema.Shape
import DocDesk.Schema.Validation
import DocDesk.Settings
import DocDesk.Table.Csv
import DocDesk.Table.Flatten
import DocDesk.Table.Key
import DocDesk.Table.Row
import DocDesk.Text.Base64
import DocDesk.Text.Blank
import DocDesk.Text.Digit
import DocDesk.Text.LetterCase
import DocDesk.Text.Line
import DocDesk.Text.Pattern.Basic
import DocDesk.Text.Pattern.Fault
import DocDesk.Text.Pattern.Matching
import DocDesk.Text.Pattern.Reader
import DocDesk.Text.Printable
import DocDesk.Text.Quoted
import DocDesk.Text.Split
import DocDesk.Text.Utf8
import DocDesk.Text.Word
import DocDesk.Uri
import DocDesk.Xml
import DocDesk.Yaml.Cursor
import DocDesk.Yaml.Fault
import DocDesk.Yaml.Node.Basic
import DocDesk.Yaml.Node.Reader
import DocDesk.Yaml.Numeral
import DocDesk.Yaml.Reader
import DocDesk.Yaml.Resolution
import DocDesk.Yaml.Style
import DocDesk.Yaml.Timestamp
import DocDesk.Yaml.Token.Basic
import DocDesk.Yaml.Token.Block
import DocDesk.Yaml.Token.Plain
import DocDesk.Yaml.Token.Property
import DocDesk.Yaml.Token.Quoted
import DocDesk.Yaml.Token.Stream
import DocDesk.Yaml.Value
import DocDesk.Yaml.Writer
import DocDesk.Proofs.Json.Scalar
import DocDesk.Proofs.Json.Representable
import DocDesk.Proofs.Json.RoundTrip
import DocDesk.Proofs.Yaml.Cursor
import DocDesk.Proofs.Yaml.Plain
import DocDesk.Proofs.Yaml.Quoted.Basic
import DocDesk.Proofs.Yaml.Quoted.Single
import DocDesk.Proofs.Yaml.Quoted.Double
import DocDesk.Proofs.Yaml.Scan.Point
import DocDesk.Proofs.Yaml.Scan.Sign
import DocDesk.Proofs.Yaml.Scan.Line
import DocDesk.Proofs.Yaml.Numeral
import DocDesk.Proofs.Yaml.Kind
import DocDesk.Proofs.Yaml.Scan.Document
import DocDesk.Proofs.Yaml.Value
import DocDesk.Proofs.Yaml.Node
import DocDesk.Proofs.Yaml.RoundTrip
import DocDesk.Proofs.Conversion
import DocDesk.Proofs.Query.SessionRun
import DocDesk.Proofs.Panel.Dropdown
import DocDesk.Proofs.Schema.Findings
import DocDesk.Proofs.Xml.Forest
import DocDesk.Proofs.Schema.Place
import DocDesk.Proofs.Schema.Required
import DocDesk.Proofs.Conversion.Object
import DocDesk.Proofs.Conversion.Refusal
import DocDesk.Proofs.Yaml.Fault.Token
import DocDesk.Proofs.Yaml.Fault.Node
import DocDesk.Proofs.Query.Suggested
import DocDesk.Proofs.Schema.Additional
import DocDesk.Proofs.Panel.Validation
import DocDesk.Proofs.Json.NumberText
import DocDesk.Proofs.Number.Notation
import DocDesk.Proofs.Query.QuotedNumber
import DocDesk.Proofs.Query.HistoryRun
import DocDesk.Proofs.Panel.Export
import DocDesk.Proofs.Schema.Pointer
import DocDesk.Proofs.Table.JoinedKey
