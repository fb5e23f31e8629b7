import Palette.Color.Fault
import Palette.Color.Hsl
import Palette.Color.HslTable
import Palette.Color.Index
import Palette.Color.Print
import Palette.Color.Rgb
import Palette.Command.Basic
import Palette.Command.Builtin
import Palette.Command.Findings
import Palette.CommandLine.Grammar
import Palette.CommandLine.Options
import Palette.CommandLine.Reach
import Palette.CommandLine.Run
import Palette.Datum
import Palette.Entries
import Palette.Environment.Dotenv
import Palette.Environment.Load
import Palette.Field.Format
import Palette.Field.Name
import Palette.ImageFormat
import Palette.Json.Basic
import Palette.Json.Printer
import Palette.Json.Reader
import Palette.Machine
import Palette.Main
import Palette.Number.Decimal
import Palette.Number.Fixed
import Palette.Number.Integer
import Palette.Number.Magnitude
import Palette.Number.Scalar
import Palette.Pixmap
import Palette.Png
import Palette.Proofs.Color.Print
import Palette.Proofs.Entries
import Palette.Proofs.Field.Grammar
import Palette.Proofs.Scheme.Codes
import Palette.Proofs.Scheme.Colors
import Palette.Proofs.Scheme.Fields
import Palette.Proofs.Scheme.Repeats
import Palette.Proofs.Scheme.RoundTrip
import Palette.Proofs.Scheme.Validity
import Palette.Proofs.Template.Marks
import Palette.Proofs.Template.Nesting
import Palette.Proofs.Template.Rendering
import Palette.Proofs.Template.SingleTags
import Palette.Proofs.Yaml.Chars
import Palette.Proofs.Yaml.DoubleQuotes
import Palette.Proofs.Yaml.Listing
import Palette.Proofs.Yaml.PlainScalars
import Palette.Proofs.Yaml.RoundTrip
import Palette.Proofs.Yaml.SingleQuotes
import Palette.Proofs.Yaml.WrittenEntries
import Palette.Ranking
import Palette.Report.Basic
import Palette.Report.Json
import Palette.Report.Text
import Palette.Scheme.Basic
import Palette.Scheme.Colors
import Palette.Scheme.Document
import Palette.Scheme.Text
import Palette.Swatch
import Palette.Swatch.Memory
import Palette.Template.Escape
import Palette.Template.Render
import Palette.Template.Tag
import Palette.Template.Tree
import Palette.Text.Blank
import Palette.Text.Digits
import Palette.Text.FinalSigma
import Palette.Text.Hex
import Palette.Text.Lines
import Palette.Text.Lowercase
import Palette.Text.Phrase
import Palette.Text.Printable
import Palette.Text.Quoted
import Palette.Text.Utf8
import Palette.Workspace.Basic
import Palette.Workspace.Path
import Palette.Workspace.Tree
import Palette.Yaml.Block
import Palette.Yaml.Chars
import Palette.Yaml.Document
import Palette.Yaml.Plain
import Palette.Yaml.Property
import Palette.Yaml.Quoted
import Palette.Yaml.Read
import Palette.Yaml.Scan
import Palette.Yaml.Token
import Palette.Yaml.Typed
import Palette.Yaml.Write
import Palette.Proofs.Scheme.Canonical
import Palette.Proofs.Color.Exact
import Palette.Proofs.Color.Hsl
import Palette.Proofs.Color.Wheel
import Palette.Proofs.Color.Columns
import Palette.Proofs.Environment.Load
import Palette.Proofs.Report.Texts
import Palette.Proofs.Workspace.Files
import Palette.Proofs.CommandLine.Outcomes
import Palette.Proofs.CommandLine.Writes
import Palette.Proofs.Template.TagForms
import Palette.Proofs.Template.Printing
import Palette.Proofs.Environment.Additions
import Palette.Proofs.Environment.Runs
import Palette.Proofs.CommandLine.Paths
import Palette.Proofs.CommandLine.Obstacles
import Palette.Proofs.Template.Dependence
import Palette.Proofs.Swatch.Layout
import Palette.Proofs.Scheme.Views
import Palette.Proofs.Json.Strings
import Palette.Proofs.Json.Numbers
import Palette.Proofs.Json.Values
import Palette.Proofs.Report.ReadBack
import Palette.Proofs.CommandLine.LookUps
import Palette.Proofs.Swatch.Squares
import Palette.Proofs.Template.TreeNames
import Palette.Proofs.Template.Escaping
import Palette.Proofs.Template.TagParts
import Palette.Proofs.Template.Seams
import Palette.Proofs.Template.Blanks
import Palette.Proofs.Scheme.Gates
import Palette.Proofs.Scheme.Reordering
import Palette.Proofs.Environment.Search
import Palette.Proofs.Environment.QuotedValues
import Palette.Proofs.Environment.JoinedFiles
import Palette.Proofs.Template.Concatenation
import Palette.Proofs.Report.Calls
import Palette.Proofs.Number.Rounding
import Palette.Proofs.Report.Inspection
import Palette.Proofs.Text.Lowercase
import Palette.Proofs.Scheme.Slug
