import PromptCanvas.Canvas.Basic
import PromptCanvas.Canvas.Draft
import PromptCanvas.Canvas.Layout
import PromptCanvas.Canvas.Transcript
import PromptCanvas.Digest.Sha256
import PromptCanvas.Generation.Contract
import PromptCanvas.Generation.Reply
import PromptCanvas.Generation.Request
import PromptCanvas.Graph.Basic
import PromptCanvas.Graph.Reading
import PromptCanvas.Graph.Role
import PromptCanvas.Graph.Tier
import PromptCanvas.IdSupply
import PromptCanvas.Import.Dialects
import PromptCanvas.Import.Document
import PromptCanvas.Import.Step
import PromptCanvas.Json.Basic
import PromptCanvas.Json.Display
import PromptCanvas.Json.Encoding
import PromptCanvas.Json.Fault
import PromptCanvas.Json.Printer
import PromptCanvas.Json.Reader
import PromptCanvas.Json.Record
import PromptCanvas.Json.Standard
import PromptCanvas.Main
import PromptCanvas.Number.Binary64
import PromptCanvas.Number.Numeral
import PromptCanvas.Number.Shortest
import PromptCanvas.Number.Spelling
import PromptCanvas.Outline.Item
import PromptCanvas.Outline.Numbering
import PromptCanvas.Proofs.Canvas.Anonymous
import PromptCanvas.Proofs.Canvas.Arranging
import PromptCanvas.Proofs.Canvas.Compilation
import PromptCanvas.Proofs.Canvas.Dangling
import PromptCanvas.Proofs.Canvas.EdgeIds
import PromptCanvas.Proofs.Canvas.Forward
import PromptCanvas.Proofs.Canvas.Opening
import PromptCanvas.Proofs.Canvas.Repeating
import PromptCanvas.Proofs.Canvas.Restoring
import PromptCanvas.Proofs.Canvas.Rows
import PromptCanvas.Proofs.Canvas.Search
import PromptCanvas.Proofs.Canvas.Spreading
import PromptCanvas.Proofs.Canvas.Storable
import PromptCanvas.Proofs.Canvas.Storage
import PromptCanvas.Proofs.Canvas.Walk
import PromptCanvas.Proofs.Canvas.WellFormed
import PromptCanvas.Proofs.Generation.Parts
import PromptCanvas.Proofs.Generation.Totality
import PromptCanvas.Proofs.Graph.Chain
import PromptCanvas.Proofs.Graph.Drawing
import PromptCanvas.Proofs.Graph.LaidOut
import PromptCanvas.Proofs.Graph.Levels
import PromptCanvas.Proofs.Graph.Repeated
import PromptCanvas.Proofs.Graph.Stranded
import PromptCanvas.Proofs.Graph.Sweep
import PromptCanvas.Proofs.Graph.Tiers
import PromptCanvas.Proofs.Graph.Typed
import PromptCanvas.Proofs.Graph.Valid
import PromptCanvas.Proofs.Graph.Validity
import PromptCanvas.Proofs.Import.Agreement
import PromptCanvas.Proofs.Import.BlankBlocks
import PromptCanvas.Proofs.Import.Brackets
import PromptCanvas.Proofs.Import.Candidates
import PromptCanvas.Proofs.Import.Chain
import PromptCanvas.Proofs.Import.Dialects
import PromptCanvas.Proofs.Import.Document
import PromptCanvas.Proofs.Import.Fencing
import PromptCanvas.Proofs.Import.Listing
import PromptCanvas.Proofs.Import.LongIntegers
import PromptCanvas.Proofs.Import.Outcomes
import PromptCanvas.Proofs.Import.Prose
import PromptCanvas.Proofs.Import.Relining
import PromptCanvas.Proofs.Import.Repairing
import PromptCanvas.Proofs.Import.Retelling
import PromptCanvas.Proofs.Import.ReturnedDocuments
import PromptCanvas.Proofs.Import.Returns
import PromptCanvas.Proofs.Import.RoleBlocks
import PromptCanvas.Proofs.Import.Sanitizing
import PromptCanvas.Proofs.Import.Thoughts
import PromptCanvas.Proofs.Import.Transcribing
import PromptCanvas.Proofs.Json.Ascii
import PromptCanvas.Proofs.Json.Beginnings
import PromptCanvas.Proofs.Json.Derails
import PromptCanvas.Proofs.Json.DigitRuns
import PromptCanvas.Proofs.Json.Edges
import PromptCanvas.Proofs.Json.Grammar
import PromptCanvas.Proofs.Json.Leading
import PromptCanvas.Proofs.Json.Newlines
import PromptCanvas.Proofs.Json.Numbers
import PromptCanvas.Proofs.Json.Overruns
import PromptCanvas.Proofs.Json.Pieces
import PromptCanvas.Proofs.Json.Returns
import PromptCanvas.Proofs.Json.Rewriting
import PromptCanvas.Proofs.Json.RoundTrip
import PromptCanvas.Proofs.Json.Strings
import PromptCanvas.Proofs.Json.Tokens
import PromptCanvas.Proofs.Json.Zones
import PromptCanvas.Proofs.Number.Integers
import PromptCanvas.Proofs.Number.Overflow
import PromptCanvas.Proofs.Number.RoundTrip
import PromptCanvas.Proofs.Number.Rounding
import PromptCanvas.Proofs.Number.Spelling
import PromptCanvas.Proofs.Order.Preorder
import PromptCanvas.Proofs.Order.StableSort
import PromptCanvas.Proofs.Outline.Clamping
import PromptCanvas.Proofs.Outline.Counting
import PromptCanvas.Proofs.Outline.Rereading
import PromptCanvas.Proofs.Outline.RoundTrip
import PromptCanvas.Proofs.Outline.TrimmedLines
import PromptCanvas.Proofs.Terminal.Answers
import PromptCanvas.Proofs.Text.Digits
import PromptCanvas.Proofs.Text.Lines
import PromptCanvas.Proofs.Text.Returns
import PromptCanvas.Proofs.Text.Searching
import PromptCanvas.Proofs.Text.Trim
import PromptCanvas.Proofs.Text.Utf8
import PromptCanvas.Proofs.Text.Words
import PromptCanvas.Proofs.Web.Errors
import PromptCanvas.Proofs.Workspace.Drawing
import PromptCanvas.Proofs.Workspace.EdgeIds
import PromptCanvas.Proofs.Workspace.Edits
import PromptCanvas.Proofs.Workspace.Generating
import PromptCanvas.Proofs.Workspace.Invariant
import PromptCanvas.Proofs.Workspace.Isolation
import PromptCanvas.Proofs.Workspace.Ledger
import PromptCanvas.Proofs.Workspace.Protocol
import PromptCanvas.Proofs.Workspace.Refusals
import PromptCanvas.Proofs.Workspace.Restart
import PromptCanvas.Proofs.Workspace.Run
import PromptCanvas.Proofs.Workspace.Saving
import PromptCanvas.Proofs.Workspace.Ties
import PromptCanvas.Terminal.Arguments
import PromptCanvas.Terminal.Command
import PromptCanvas.Terminal.Disk
import PromptCanvas.Terminal.Path
import PromptCanvas.Terminal.Report
import PromptCanvas.Terminal.Screen
import PromptCanvas.Text.Blank
import PromptCanvas.Text.Caseless
import PromptCanvas.Text.Digit
import PromptCanvas.Text.Hex
import PromptCanvas.Text.Lines
import PromptCanvas.Text.Printable
import PromptCanvas.Text.Quoted
import PromptCanvas.Text.Ranges
import PromptCanvas.Text.Surrogate
import PromptCanvas.Text.Utf8
import PromptCanvas.Text.Wide
import PromptCanvas.Web.Body
import PromptCanvas.Web.Query
import PromptCanvas.Web.Response
import PromptCanvas.Web.Route
import PromptCanvas.Web.Server
import PromptCanvas.Workspace.Basic
import PromptCanvas.Workspace.Document
import PromptCanvas.Workspace.Failure
import PromptCanvas.Workspace.Session
import PromptCanvas.Workspace.Studio
