import IndexFeed.Command.Basic
import IndexFeed.Command.Draft
import IndexFeed.Command.Shape
import IndexFeed.CommandLine.Argument
import IndexFeed.CommandLine.Help
import IndexFeed.CommandLine.Invocation
import IndexFeed.Database.Collector
import IndexFeed.Database.Error
import IndexFeed.Database.Feed
import IndexFeed.Database.File
import IndexFeed.Database.Reader
import IndexFeed.Database.Source
import IndexFeed.Event
import IndexFeed.Json.Basic
import IndexFeed.Json.Container
import IndexFeed.Json.Cursor
import IndexFeed.Json.Decoder
import IndexFeed.Json.Fault
import IndexFeed.Json.NumberText
import IndexFeed.Json.Shape
import IndexFeed.Json.Skip
import IndexFeed.Json.StringText
import IndexFeed.Json.Value
import IndexFeed.Log.Directive
import IndexFeed.Log.File
import IndexFeed.Log.Filter
import IndexFeed.Log.Line
import IndexFeed.Log.Pattern.Bracket
import IndexFeed.Log.Pattern.Escape
import IndexFeed.Log.Pattern.Flags
import IndexFeed.Log.Pattern.Reader
import IndexFeed.Log.Settings
import IndexFeed.Main
import IndexFeed.Number.Binary64
import IndexFeed.Number.Shortest
import IndexFeed.Octet
import IndexFeed.Program
import IndexFeed.Queue.Error
import IndexFeed.Queue.Message
import IndexFeed.Queue.Name
import IndexFeed.Queue.Options
import IndexFeed.Queue.Pair
import IndexFeed.Queue.Store
import IndexFeed.Queue.Worker
import IndexFeed.System.Environment
import IndexFeed.System.Errno
import IndexFeed.System.FileTree
import IndexFeed.System.Memory
import IndexFeed.Text.Blank
import IndexFeed.Text.Decimal
import IndexFeed.Text.Keyword
import IndexFeed.Text.Letter
import IndexFeed.Text.Printable
import IndexFeed.Text.Quoted
import IndexFeed.Text.Ranges
import IndexFeed.Text.ShellWords
import IndexFeed.Text.Utf8
import IndexFeed.Time.Span
import IndexFeed.Proofs.Database.Place
import IndexFeed.Proofs.Database.Delivery
import IndexFeed.Proofs.Database.Resumption
import IndexFeed.Proofs.Database.Batching
import IndexFeed.Proofs.Json.Grammar
import IndexFeed.Proofs.Json.Numeral
import IndexFeed.Proofs.Json.Quotation
import IndexFeed.Proofs.Json.Soundness
import IndexFeed.Proofs.Json.Completeness
import IndexFeed.Proofs.Json.Nesting
import IndexFeed.Proofs.Database.Framing
import IndexFeed.Proofs.Database.Agreement
import IndexFeed.Proofs.Queue.Pair
import IndexFeed.Proofs.Queue.Conversation
import IndexFeed.Proofs.Queue.Run
import IndexFeed.Proofs.Queue.Name
import IndexFeed.Proofs.Queue.Session
import IndexFeed.Proofs.Queue.Ownership
import IndexFeed.Proofs.Queue.Fifo
import IndexFeed.Proofs.Text.Width
import IndexFeed.Proofs.Number.Shortest
import IndexFeed.Proofs.Json.Escape
import IndexFeed.Proofs.Json.Width
import IndexFeed.Proofs.Json.Size
import IndexFeed.Proofs.Json.Raising
import IndexFeed.Proofs.Json.Keeping
import IndexFeed.Proofs.Json.Refusal
import IndexFeed.Proofs.Queue.Message
import IndexFeed.Proofs.Queue.Rejection
import IndexFeed.Proofs.Database.Calls
import IndexFeed.Proofs.Database.Counting
import IndexFeed.Proofs.Queue.Idleness
import IndexFeed.Proofs.Queue.Outcome
import IndexFeed.Proofs.Text.Utf8
import IndexFeed.Proofs.Json.Writing
import IndexFeed.Proofs.Json.Skipping
import IndexFeed.Proofs.Json.Acceptance
import IndexFeed.Proofs.Queue.RoundTrip
import IndexFeed.Proofs.Number.Rounding
import IndexFeed.Proofs.Json.FloatText
import IndexFeed.Proofs.Json.FloatRange
import IndexFeed.Proofs.Queue.AnyValue
import IndexFeed.Proofs.Program.Printing
import IndexFeed.Proofs.Json.Locality
import IndexFeed.Proofs.Json.Lookahead
import IndexFeed.Proofs.Json.TextEnd
import IndexFeed.Proofs.Json.Unread
import IndexFeed.Proofs.Json.Breaking
import IndexFeed.Proofs.Database.Horizon
import IndexFeed.Proofs.Database.Series
import IndexFeed.Proofs.Database.Exhaustion
import IndexFeed.Proofs.Command.Members
import IndexFeed.Proofs.Program.Reprinting
import IndexFeed.Proofs.Database.Truncation
import IndexFeed.Proofs.Json.LastOfKeys
import IndexFeed.Proofs.Command.Record
import IndexFeed.Proofs.Database.Selection
import IndexFeed.Proofs.Json.CompactLength
import IndexFeed.Proofs.Command.Words
import IndexFeed.Proofs.Queue.ReplySize
import IndexFeed.Proofs.Results
import IndexFeed.Proofs.Json.Results
import IndexFeed.Proofs.Json.Misfitting
import IndexFeed.Proofs.Json.TaggedValues
import IndexFeed.Proofs.Json.TaggedTexts
import IndexFeed.Proofs.Json.RecordFields
import IndexFeed.Proofs.Command.Fitting
import IndexFeed.Proofs.Queue.Fitting
import IndexFeed.Proofs.Json.Replacing
import IndexFeed.Proofs.Queue.Verdict
import IndexFeed.Proofs.Queue.Misplacement
import IndexFeed.Proofs.Text.Decimal
import IndexFeed.Proofs.Queue.Naming
import IndexFeed.Proofs.Queue.Construction
import IndexFeed.Proofs.Database.Stopping
import IndexFeed.Proofs.Program.Sizes
import IndexFeed.Proofs.Command.Quoting
import IndexFeed.Proofs.Queue.Transfer
import IndexFeed.Proofs.Command.Wordless
import IndexFeed.Proofs.Program.Splitting
import IndexFeed.Proofs.Number.Interval
import IndexFeed.Proofs.Number.Value
import IndexFeed.Proofs.Number.Digits
import IndexFeed.Proofs.Number.Reread
import IndexFeed.Proofs.Time.Seconds
import IndexFeed.Proofs.Time.LongSpans
import IndexFeed.Proofs.Queue.Sharing
import IndexFeed.Proofs.CommandLine.Precedence
import IndexFeed.Proofs.Queue.Attachment
import IndexFeed.Proofs.Program.Launching
