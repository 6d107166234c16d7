import FormulaInk.Atom
import FormulaInk.AtomClass
import FormulaInk.Box
import FormulaInk.Box.Lines
import FormulaInk.Box.Paint
import FormulaInk.Color
import FormulaInk.CommandLine.Answer
import FormulaInk.CommandLine.Argument
import FormulaInk.CommandLine.Request
import FormulaInk.Decimal.Binary
import FormulaInk.Decimal.Literal
import FormulaInk.Decimal.Text
import FormulaInk.Dictionary
import FormulaInk.Document.Record
import FormulaInk.Document.Request
import FormulaInk.Document.Tables
import FormulaInk.Document.Value
import FormulaInk.Error
import FormulaInk.Font
import FormulaInk.FontType
import FormulaInk.Formula
import FormulaInk.Icon
import FormulaInk.Icon.Build
import FormulaInk.Icon.Config
import FormulaInk.Icon.Report
import FormulaInk.Image.Bitmap
import FormulaInk.Image.Encoded
import FormulaInk.Image.Fault
import FormulaInk.Image.File
import FormulaInk.Image.Format
import FormulaInk.Image.Gif
import FormulaInk.Image.Jpeg
import FormulaInk.Image.Octet
import FormulaInk.Image.Png
import FormulaInk.Layout
import FormulaInk.Layout.Glue
import FormulaInk.Layout.Parts
import FormulaInk.Layout.Row
import FormulaInk.Length
import FormulaInk.Main
import FormulaInk.Naming
import FormulaInk.Picture.Recording
import FormulaInk.Picture.Shape
import FormulaInk.Picture.Transform
import FormulaInk.Proofs.Atom.Families
import FormulaInk.Proofs.Atom.Parts
import FormulaInk.Proofs.Reading.Outcome
import FormulaInk.Proofs.Reading.Pairing
import FormulaInk.Raster.Canvas
import FormulaInk.Raster.Region
import FormulaInk.Registry
import FormulaInk.Registry.Defaults
import FormulaInk.Registry.Merge
import FormulaInk.Registry.Read
import FormulaInk.Rendering
import FormulaInk.Scalar
import FormulaInk.Setting
import FormulaInk.Source.Construct
import FormulaInk.Source.Cursor
import FormulaInk.Source.Fault
import FormulaInk.Source.Raw
import FormulaInk.Source.Reading
import FormulaInk.Style
import FormulaInk.Text.Alphabetic
import FormulaInk.Text.Blank
import FormulaInk.Text.Block
import FormulaInk.Proofs.Reading.Raw
import FormulaInk.Proofs.Reading.Parallel
import FormulaInk.Proofs.Reading.Levels
import FormulaInk.Proofs.Reading.Lenient
import FormulaInk.Proofs.Reading.Joined
import FormulaInk.Proofs.Reading.Ending
import FormulaInk.Proofs.Registry.Meaning
import FormulaInk.Proofs.Registry.Coherence
import FormulaInk.Proofs.Ink.Glyphs
import FormulaInk.Proofs.Ink.Probe
import FormulaInk.Proofs.Ink.Painting
import FormulaInk.Proofs.Ink.Edits
import FormulaInk.Proofs.Ink.Lines
import FormulaInk.Proofs.Ink.Icon
import FormulaInk.Proofs.Ink.Colors
import FormulaInk.Proofs.Formula.Failure
import FormulaInk.Proofs.Lines.Partition
import FormulaInk.Proofs.Atom.Nodes
import FormulaInk.Proofs.Registry.Reached
import FormulaInk.Proofs.Formula.Summaries
import FormulaInk.Proofs.Reading.Repeated
import FormulaInk.Proofs.Registry.History
import FormulaInk.Proofs.Reading.Braces
import FormulaInk.Proofs.Reading.Balance
import FormulaInk.Proofs.Reading.Places
import FormulaInk.Proofs.Reading.Cut
import FormulaInk.Proofs.Reading.Argument
import FormulaInk.Proofs.Atom.Uncolored
import FormulaInk.Proofs.Ink.Uncolored
import FormulaInk.Proofs.Scalar.Exact
import FormulaInk.Proofs.Lines.Greedy
import FormulaInk.Proofs.Registry.Distinct
import FormulaInk.Proofs.Registry.Reader
import FormulaInk.Proofs.Registry.Merging
import FormulaInk.Proofs.Ink.Affine
import FormulaInk.Proofs.Ink.Visits
import FormulaInk.Proofs.Ink.Motion
import FormulaInk.Proofs.Ink.Extent
import FormulaInk.Proofs.Ink.Snug
import FormulaInk.Proofs.Ink.Wrapped
import FormulaInk.Proofs.Ink.Metrics
import FormulaInk.Proofs.Ink.Room
import FormulaInk.Proofs.Ink.Size
import FormulaInk.Proofs.Formula.Appending
import FormulaInk.Proofs.Reading.Scripts
import FormulaInk.Proofs.Ink.Fraction
import FormulaInk.Proofs.Row.Breaks
import FormulaInk.Proofs.Row.Spacing
import FormulaInk.Proofs.Decimal.Range
import FormulaInk.Proofs.Image.Pixels
import FormulaInk.Proofs.Reading.Closed
import FormulaInk.Proofs.Reading.Measures
import FormulaInk.Proofs.Reading.Normal
import FormulaInk.Proofs.Registry.References
import FormulaInk.Proofs.Color.Spelling
import FormulaInk.Proofs.Image.Straight
import FormulaInk.Proofs.Reading.Verbatim
import FormulaInk.Proofs.Registry.Expansion
import FormulaInk.Proofs.Image.Painted
