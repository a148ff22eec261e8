import PageExport.Asset.Basic
import PageExport.Asset.ContentType
import PageExport.Asset.Directory
import PageExport.Asset.Store
import PageExport.Calendar
import PageExport.CommandLine
import PageExport.Convert
import PageExport.Database.Cell
import PageExport.Database.Grid
import PageExport.Delta
import PageExport.Files.Glob
import PageExport.Files.Path
import PageExport.Files.Read
import PageExport.Files.Tree
import PageExport.Legacy
import PageExport.Log
import PageExport.Main
import PageExport.Markdown.Document
import PageExport.Markdown.Escape
import PageExport.Markdown.Flow
import PageExport.Markdown.LineStart
import PageExport.Markdown.Node
import PageExport.Markdown.NodeValue
import PageExport.Markdown.Options
import PageExport.Markdown.Phrasing
import PageExport.Number.Binary64
import PageExport.Number.Decimal
import PageExport.Number.Shortest
import PageExport.Page
import PageExport.Proofs.Asset.Directory
import PageExport.Proofs.Asset.Lookup
import PageExport.Proofs.Asset.Memory
import PageExport.Proofs.Asset.Store
import PageExport.Proofs.Bind
import PageExport.Proofs.Convert.BadSnapshots
import PageExport.Proofs.Convert.Copies
import PageExport.Proofs.Convert.Output
import PageExport.Proofs.Convert.Pages
import PageExport.Proofs.Convert.Stems
import PageExport.Proofs.Convert.Targets
import PageExport.Proofs.Database.Grid
import PageExport.Proofs.Files.Altered
import PageExport.Proofs.Files.Changes
import PageExport.Proofs.Files.Patterns
import PageExport.Proofs.Legacy.Images
import PageExport.Proofs.Legacy.Indentation
import PageExport.Proofs.Legacy.Links
import PageExport.Proofs.Markdown.BlockStarts
import PageExport.Proofs.Markdown.CodeSpans
import PageExport.Proofs.Markdown.ContentModel
import PageExport.Proofs.Markdown.Decoding
import PageExport.Proofs.Markdown.FencedCode
import PageExport.Proofs.Markdown.FirstMisplaced
import PageExport.Proofs.Markdown.Flanking
import PageExport.Proofs.Markdown.Glyphs
import PageExport.Proofs.Markdown.GuardedLines
import PageExport.Proofs.Markdown.Headings
import PageExport.Proofs.Markdown.ItemLines
import PageExport.Proofs.Markdown.LinkDestinations
import PageExport.Proofs.Markdown.ListMarks
import PageExport.Proofs.Markdown.Lookalikes
import PageExport.Proofs.Markdown.MaskedMarks
import PageExport.Proofs.Markdown.NeighbouringRuns
import PageExport.Proofs.Markdown.NestedLists
import PageExport.Proofs.Markdown.Nesting
import PageExport.Proofs.Markdown.PlainRuns
import PageExport.Proofs.Markdown.Seams
import PageExport.Proofs.Markdown.StyledEdges
import PageExport.Proofs.Markdown.Surroundings
import PageExport.Proofs.Markdown.TableCells
import PageExport.Proofs.Markdown.Underscores
import PageExport.Proofs.Reading.Faults
import PageExport.Proofs.Settings.Fields
import PageExport.Proofs.Settings.Sources
import PageExport.Proofs.Slug.Fresh
import PageExport.Proofs.Slug.NormalForm
import PageExport.Proofs.Slug.Search
import PageExport.Proofs.Snapshot.BlankText
import PageExport.Proofs.Snapshot.Discovery
import PageExport.Proofs.Snapshot.Grammar
import PageExport.Proofs.Snapshot.Loading
import PageExport.Proofs.Snapshot.Subtree
import PageExport.Proofs.Snapshot.Trim
import PageExport.Proofs.Text.Mapped
import PageExport.Proofs.Unicode.Settled
import PageExport.Proofs.Value.Limits
import PageExport.Proofs.Walk.Containment
import PageExport.Proofs.Walk.Images
import PageExport.Proofs.Walk.Moves
import PageExport.Proofs.Walk.OpenLists
import PageExport.Proofs.Walk.OpenNodes
import PageExport.Proofs.Walk.Outline
import PageExport.Proofs.Walk.ScopedOpening
import PageExport.Proofs.Walk.ScopedValues
import PageExport.Proofs.Walk.SharedNodes
import PageExport.Proofs.Walk.Spine
import PageExport.Proofs.Walk.Staying
import PageExport.Proofs.Walk.Steps
import PageExport.Proofs.Walk.Visits
import PageExport.Props
import PageExport.Reading
import PageExport.Settings.Basic
import PageExport.Settings.Load
import PageExport.Slug
import PageExport.Snapshot.Blank
import PageExport.Snapshot.Block
import PageExport.Snapshot.Load
import PageExport.Template
import PageExport.Template.Layout
import PageExport.Template.Subject
import PageExport.Text.Basic
import PageExport.Text.Blank
import PageExport.Text.Control
import PageExport.Text.Quoted
import PageExport.Unicode.Alphanumeric
import PageExport.Unicode.AsciiFold
import PageExport.Unicode.DecimalDigit
import PageExport.Unicode.Lowercase
import PageExport.Unicode.Printable
import PageExport.Unicode.Surrogate
import PageExport.Unicode.Table
import PageExport.Unicode.Uppercase
import PageExport.Unicode.Utf8
import PageExport.Value.Basic
import PageExport.Value.Parser
import PageExport.Value.Printer
import PageExport.Walk.Context
import PageExport.Walk.ListSignature
import PageExport.Walk.Script
import PageExport.Walk.SharedContext
import PageExport.Walk.Visit
import PageExport.Yaml.Base64
import PageExport.Yaml.BlockText
import PageExport.Yaml.Cursor
import PageExport.Yaml.Datum
import PageExport.Yaml.Document
import PageExport.Yaml.Fault
import PageExport.Yaml.Node
import PageExport.Yaml.Number
import PageExport.Yaml.Plain
import PageExport.Yaml.Quoted
import PageExport.Yaml.Scalar
import PageExport.Yaml.Timestamp
import PageExport.Yaml.Token
