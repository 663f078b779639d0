import WikiPress.Attachment
import WikiPress.CommandLine.Arguments
import WikiPress.CommandLine.Disk
import WikiPress.CommandLine.Execute
import WikiPress.CommandLine.Listing
import WikiPress.CommandLine.PageId
import WikiPress.Config.Expand
import WikiPress.Config.Load
import WikiPress.Config.Schema
import WikiPress.Digest
import WikiPress.Files.Effect
import WikiPress.Files.Error
import WikiPress.Files.Node
import WikiPress.Files.Path
import WikiPress.Files.System
import WikiPress.Json.Printer
import WikiPress.Json.Reader
import WikiPress.Json.Value
import WikiPress.Keyed
import WikiPress.Ledger.Codec
import WikiPress.Ledger.Entry
import WikiPress.Ledger.Store
import WikiPress.Main
import WikiPress.Markdown.Block
import WikiPress.Markdown.Container
import WikiPress.Markdown.Emphasis
import WikiPress.Markdown.Heading
import WikiPress.Markdown.Inline
import WikiPress.Markdown.Line
import WikiPress.Markdown.LinkParts
import WikiPress.Markdown.Parse
import WikiPress.Markdown.RawMarkup
import WikiPress.Markdown.Reference
import WikiPress.Markdown.Source
import WikiPress.Markdown.Table
import WikiPress.Markup.Document
import WikiPress.Markup.Event
import WikiPress.Proofs.CommandLine.Arguments
import WikiPress.Proofs.CommandLine.Preview
import WikiPress.Proofs.Files.Growth
import WikiPress.Proofs.Files.LinkFree
import WikiPress.Proofs.Files.Making
import WikiPress.Proofs.Files.Replace
import WikiPress.Proofs.Json.RoundTrip
import WikiPress.Proofs.Keyed
import WikiPress.Proofs.Ledger.Codec
import WikiPress.Proofs.Ledger.Saving
import WikiPress.Proofs.Ledger.SharedCells
import WikiPress.Proofs.Ledger.StateFile
import WikiPress.Proofs.Ledger.Store
import WikiPress.Proofs.Ledger.TotalMap
import WikiPress.Proofs.Markup.Shape
import WikiPress.Proofs.Storage.Delegation
import WikiPress.Proofs.Storage.Elements
import WikiPress.Proofs.Storage.Follows
import WikiPress.Proofs.Storage.LinkBody
import WikiPress.Proofs.Storage.WellFormed
import WikiPress.Proofs.Sync.ClosedHierarchy
import WikiPress.Proofs.Sync.Continuity
import WikiPress.Proofs.Sync.Convergence
import WikiPress.Proofs.Sync.Filing
import WikiPress.Proofs.Sync.Forecast
import WikiPress.Proofs.Sync.Handover
import WikiPress.Proofs.Sync.History
import WikiPress.Proofs.Sync.Idempotence
import WikiPress.Proofs.Sync.Identity
import WikiPress.Proofs.Sync.Inventory
import WikiPress.Proofs.Sync.Isolation
import WikiPress.Proofs.Sync.LastDraft
import WikiPress.Proofs.Sync.Leftover
import WikiPress.Proofs.Sync.Listing
import WikiPress.Proofs.Sync.Owner
import WikiPress.Proofs.Sync.Schedule
import WikiPress.Proofs.Sync.Sources
import WikiPress.Proofs.Sync.Staging
import WikiPress.Proofs.Xhtml.Elements
import WikiPress.Proofs.Xml.Reader
import WikiPress.Proofs.Xml.Escaped
import WikiPress.Storage.Macro
import WikiPress.Storage.Render
import WikiPress.Storage.Writer
import WikiPress.Sync.Document
import WikiPress.Sync.Publisher
import WikiPress.Sync.Run
import WikiPress.Sync.Scan
import WikiPress.Sync.Staging
import WikiPress.Text.Alphanumeric
import WikiPress.Text.Blank
import WikiPress.Text.CaseFold
import WikiPress.Text.Digits
import WikiPress.Text.Entity
import WikiPress.Text.Punctuation
import WikiPress.Text.Ranges
import WikiPress.Text.Segments
import WikiPress.Text.Symbol
import WikiPress.Toml.Quoted
import WikiPress.Toml.Reader
import WikiPress.Toml.Scalar
import WikiPress.Toml.Table
import WikiPress.Toml.Value
import WikiPress.Xhtml.Writer
import WikiPress.Xml.Escape
import WikiPress.Proofs.Storage.CodeBlock
import WikiPress.Proofs.Xml.StartTags
import WikiPress.Proofs.Xhtml.StartTags
import WikiPress.Proofs.Storage.Attachments
import WikiPress.Proofs.Files.Joined
import WikiPress.Proofs.Sync.DryRun
import WikiPress.Proofs.Files.SameLocation
import WikiPress.Proofs.Config.Discovery
import WikiPress.Proofs.Xhtml.Tracking
import WikiPress.Proofs.Xhtml.Image
import WikiPress.Proofs.Xhtml.Agreement
import WikiPress.Proofs.Markup.Trees
import WikiPress.Proofs.Storage.Concatenation
import WikiPress.Proofs.Files.Confined
import WikiPress.Proofs.Sync.StagedPage
import WikiPress.Proofs.Files.Entries
import WikiPress.Proofs.Sync.MissingAttachments
import WikiPress.Proofs.Sync.PassedOver
import WikiPress.Proofs.Attachment.NormalForm
import WikiPress.Proofs.Attachment.Location
import WikiPress.Proofs.Config.Validate
import WikiPress.Proofs.Config.Expand
import WikiPress.Proofs.Storage.LineBreaks
import WikiPress.Proofs.Storage.OpenImages
import WikiPress.Proofs.Storage.PageContext
import WikiPress.Proofs.Xhtml.Tables
import WikiPress.Proofs.Storage.Tables
import WikiPress.Proofs.Files.Inward
import WikiPress.Proofs.Files.Within
import WikiPress.Proofs.Sync.Containment
import WikiPress.Proofs.Xhtml.Texts
