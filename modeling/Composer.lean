import Composer.Code.Call
import Composer.Code.Measure
import Composer.Code.Structure
import Composer.Code.Token
import Composer.Code.Validation
import Composer.Command.Arguments
import Composer.Command.Basic
import Composer.Command.Run
import Composer.Console.Markup
import Composer.Console.Page
import Composer.Environment
import Composer.Field.Fault
import Composer.Field.Reading
import Composer.File
import Composer.Generation.Call
import Composer.Generation.Prepare
import Composer.Generation.Run
import Composer.Generation.Stage
import Composer.Generation.Task
import Composer.Json.Basic
import Composer.Json.Printer
import Composer.Json.Reader
import Composer.Log.Entry
import Composer.Main
import Composer.Number.Binary64
import Composer.Number.Decimal
import Composer.Number.Reading
import Composer.Path
import Composer.Player.Report
import Composer.Policy
import Composer.Prompt.History
import Composer.Prompt.Reference
import Composer.Prompt.System
import Composer.Prompt.Task
import Composer.Provider.Answer
import Composer.Provider.Call
import Composer.Provider.Delivery
import Composer.Provider.Failure
import Composer.Provider.Gateway
import Composer.Provider.Routing
import Composer.Reference.Library
import Composer.Reference.Song
import Composer.Request
import Composer.Response.Escapes
import Composer.Response.Extraction
import Composer.Response.Fence
import Composer.Server.Exchange
import Composer.Server.Reply
import Composer.Settings
import Composer.Song.Folder
import Composer.Song.Name
import Composer.Song.Sheet
import Composer.Stream.Event
import Composer.Stream.Reader
import Composer.Text.Alphanumeric
import Composer.Text.Basic
import Composer.Text.Blank
import Composer.Text.Digit
import Composer.Text.Keyword
import Composer.Text.Letter
import Composer.Text.Order
import Composer.Text.Quoted
import Composer.Text.Utf8
import Composer.Time.Date
import Composer.Time.Reading
import Composer.Time.Stamp
import Composer.Proofs.Code.Judgement
import Composer.Proofs.Code.Rules
import Composer.Proofs.Generation.Acceptance
import Composer.Proofs.Generation.Consistency
import Composer.Proofs.Generation.Decision
import Composer.Proofs.Generation.Diagnosis
import Composer.Proofs.Generation.Drain
import Composer.Proofs.Generation.History
import Composer.Proofs.Generation.Preparation
import Composer.Proofs.Generation.Release
import Composer.Proofs.Generation.Route
import Composer.Proofs.Generation.Sharing
import Composer.Proofs.Generation.Transcript
import Composer.Proofs.Generation.Transmission
import Composer.Proofs.Json.RoundTrip
import Composer.Proofs.Prompt.Retry
import Composer.Proofs.Provider.Contents
import Composer.Proofs.Provider.Conversing
import Composer.Proofs.Provider.Credential
import Composer.Proofs.Provider.Signals
import Composer.Proofs.Response.Artifact
import Composer.Proofs.Response.Structure
import Composer.Proofs.Stream.Chunking
import Composer.Proofs.Stream.Frames
import Composer.Proofs.Stream.Lines
import Composer.Proofs.Code.Comments
import Composer.Proofs.Reference.Failure
import Composer.Proofs.Song.Listing
import Composer.Proofs.Song.Saving
import Composer.Proofs.Song.Sheet
import Composer.Proofs.Time.Calendar
import Composer.Proofs.Time.Stamps
import Composer.Proofs.Code.Spans
import Composer.Proofs.Response.Settling
import Composer.Proofs.Response.Finding
import Composer.Proofs.Response.OpenFence
import Composer.Proofs.Code.Leniency
import Composer.Proofs.Code.Appending
import Composer.Proofs.Code.Ceilings
import Composer.Proofs.Reference.Ranking
import Composer.Proofs.Reference.Selection
import Composer.Proofs.Field.Soundness
import Composer.Proofs.Field.Refusals
import Composer.Proofs.Policy.Limits
import Composer.Proofs.Policy.Overriding
import Composer.Proofs.Json.Agreement
import Composer.Proofs.Json.Refusals
import Composer.Proofs.Number.Layout
import Composer.Proofs.Number.ShortDecimals
import Composer.Proofs.Prompt.Ceilings
import Composer.Proofs.Reference.FileOrder
import Composer.Proofs.Stream.Decoding
import Composer.Proofs.Stream.Noise
import Composer.Proofs.Prompt.Truncation
import Composer.Proofs.Generation.EditContext
import Composer.Proofs.Command.Source
import Composer.Proofs.Song.Interference
import Composer.Proofs.Song.Slugs
