import BoxFlow.Cascade.Compute
import BoxFlow.Cascade.Inherit
import BoxFlow.Cascade.Specificity
import BoxFlow.Cascade.Visited
import BoxFlow.CommandLine.Options
import BoxFlow.CommandLine.Run
import BoxFlow.Document.Basic
import BoxFlow.Document.Load
import BoxFlow.Dom.Description
import BoxFlow.Dom.Element
import BoxFlow.Dom.Spec
import BoxFlow.Dom.Tree
import BoxFlow.Files.FileTree
import BoxFlow.Files.Path
import BoxFlow.Image.Basic
import BoxFlow.Image.Pixmap
import BoxFlow.Image.Png
import BoxFlow.Image.Source
import BoxFlow.Image.Store
import BoxFlow.Json.Reader
import BoxFlow.Json.Value
import BoxFlow.Json.Writer
import BoxFlow.Layout.Border
import BoxFlow.Layout.Boxes
import BoxFlow.Layout.Document
import BoxFlow.Layout.Output
import BoxFlow.Layout.Draw
import BoxFlow.Layout.Flow
import BoxFlow.Layout.Lines
import BoxFlow.Layout.ListItem
import BoxFlow.Layout.Metrics
import BoxFlow.Layout.Page
import BoxFlow.Layout.Paragraph
import BoxFlow.Layout.Picture
import BoxFlow.Layout.Table
import BoxFlow.Layout.Zone
import BoxFlow.Main
import BoxFlow.Number.Binary
import BoxFlow.Number.Decimal
import BoxFlow.Number.Overflow
import BoxFlow.Number.Power
import BoxFlow.Number.Rounding
import BoxFlow.Paint.Blend
import BoxFlow.Paint.Canvas
import BoxFlow.Paint.Command
import BoxFlow.Paint.Raster
import BoxFlow.Paint.Rect
import BoxFlow.Proofs.Cascade.BoundedScore
import BoxFlow.Proofs.Cascade.ComputedStyle
import BoxFlow.Proofs.Cascade.Descent
import BoxFlow.Proofs.Cascade.Matching
import BoxFlow.Proofs.Cascade.SourceOrder
import BoxFlow.Proofs.Cascade.Winner
import BoxFlow.Proofs.Dom.Links
import BoxFlow.Proofs.Dom.Shape
import BoxFlow.Proofs.Dom.Subtree
import BoxFlow.Proofs.Layout.DrawnText
import BoxFlow.Proofs.Layout.Hiding
import BoxFlow.Proofs.Layout.ShownText
import BoxFlow.Proofs.Selector.Cursor
import BoxFlow.Proofs.Selector.Grammar
import BoxFlow.Proofs.Selector.Negation
import BoxFlow.Proofs.Selector.Parts
import BoxFlow.Proofs.Selector.Printing
import BoxFlow.Proofs.Selector.Reading
import BoxFlow.Proofs.Style.Inheritance
import BoxFlow.Proofs.Style.Lookup
import BoxFlow.Proofs.Stylesheet.InlineValues
import BoxFlow.Proofs.Stylesheet.KeyedList
import BoxFlow.Proofs.Stylesheet.Merging
import BoxFlow.Proofs.Stylesheet.Occurrences
import BoxFlow.Proofs.Text.Ink
import BoxFlow.Proofs.Text.Trimming
import BoxFlow.Report.Dump
import BoxFlow.Report.Terminal
import BoxFlow.Selector.Attribute
import BoxFlow.Selector.Basic
import BoxFlow.Selector.Cursor
import BoxFlow.Selector.Error
import BoxFlow.Selector.Parse
import BoxFlow.Selector.PseudoClass
import BoxFlow.Selector.Token
import BoxFlow.Style.Color
import BoxFlow.Style.ColorNames
import BoxFlow.Style.ColorText
import BoxFlow.Style.Font
import BoxFlow.Style.Length
import BoxFlow.Style.Properties
import BoxFlow.Style.Reading
import BoxFlow.Style.Side
import BoxFlow.Stylesheet.Basic
import BoxFlow.Stylesheet.Block
import BoxFlow.Stylesheet.Default
import BoxFlow.Stylesheet.Parse
import BoxFlow.Stylesheet.Shorthand
import BoxFlow.Stylesheet.Source
import BoxFlow.Stylesheet.Validity
import BoxFlow.Stylesheet.ValueTokens
import BoxFlow.Text.Blank
import BoxFlow.Text.Cut
import BoxFlow.Text.Numeral
import BoxFlow.Text.Quoted
import BoxFlow.Text.Unshown
import BoxFlow.Warning
import BoxFlow.Proofs.Stylesheet.Concatenation
import BoxFlow.Proofs.Stylesheet.Reachable
import BoxFlow.Proofs.Stylesheet.IndexedSheet
import BoxFlow.Proofs.Stylesheet.MergeLaws
import BoxFlow.Proofs.Stylesheet.ReadableValues
import BoxFlow.Proofs.Layout.BorderSides
import BoxFlow.Proofs.Cascade.Coverage
import BoxFlow.Proofs.Dom.History
import BoxFlow.Proofs.Dom.Loops
import BoxFlow.Proofs.Dom.WalksDown
import BoxFlow.Proofs.Dom.Planting
import BoxFlow.Proofs.Cascade.VisitedLinks
import BoxFlow.Proofs.Paint.Pixels
import BoxFlow.Proofs.Paint.Coverage
import BoxFlow.Proofs.Paint.Painter
import BoxFlow.Proofs.Paint.FarEdges
import BoxFlow.Proofs.Paint.Bounds
import BoxFlow.Proofs.Text.Normal
import BoxFlow.Proofs.Layout.WellFormed
import BoxFlow.Proofs.Layout.DepthLimit
import BoxFlow.Proofs.Layout.Output
import BoxFlow.Proofs.Stylesheet.Expansion
import BoxFlow.Proofs.Stylesheet.InlineRules
import BoxFlow.Proofs.Image.Loading
import BoxFlow.Proofs.Image.PixelBytes
import BoxFlow.Proofs.Stylesheet.Seams
import BoxFlow.Proofs.Document.PageSheet
import BoxFlow.Proofs.Number.Order
import BoxFlow.Proofs.Text.Words
import BoxFlow.Proofs.Text.Wrapping
import BoxFlow.Proofs.Text.Normalizing
import BoxFlow.Proofs.Layout.LineStarts
import BoxFlow.Proofs.Layout.ItemText
import BoxFlow.Proofs.Cascade.PaintedBackground
import BoxFlow.Proofs.Cascade.Tally
import BoxFlow.Proofs.Cascade.Outranking
import BoxFlow.Proofs.Selector.Nesting
import BoxFlow.Proofs.Stylesheet.RuleText
import BoxFlow.Proofs.Stylesheet.SelectorGroups
import BoxFlow.Proofs.Cascade.SiblingPositions
import BoxFlow.Proofs.Selector.AttributeText
import BoxFlow.Proofs.Text.Utf8
import BoxFlow.Proofs.Selector.Progress
import BoxFlow.Proofs.Selector.ByteReading
import BoxFlow.Proofs.Cascade.ClassTests
import BoxFlow.Proofs.Layout.Locality
import BoxFlow.Proofs.Layout.FailedImages
import BoxFlow.Proofs.Dom.BreadthFirst
import BoxFlow.Proofs.Style.HexNotation
import BoxFlow.Proofs.Style.RgbNotation
import BoxFlow.Proofs.Layout.ListNumbers
import BoxFlow.Proofs.Stylesheet.Decomposition
import BoxFlow.Proofs.Stylesheet.WrittenDeclarations
