import CodeAssist.Capability
import CodeAssist.Client
import CodeAssist.CommandLine.Arguments
import CodeAssist.CommandLine.Run
import CodeAssist.Connection
import CodeAssist.Digest
import CodeAssist.Duration
import CodeAssist.Edit.LineEdit
import CodeAssist.Edit.Run
import CodeAssist.Edit.Script
import CodeAssist.Edit.Snake
import CodeAssist.Engine
import CodeAssist.Failure
import CodeAssist.FileCache
import CodeAssist.Frame
import CodeAssist.Host.Bench
import CodeAssist.Host.FileTree
import CodeAssist.Host.Floor
import CodeAssist.Host.Launch
import CodeAssist.Host.Machine
import CodeAssist.Host.Probing
import CodeAssist.Host.Server
import CodeAssist.Host.StandIn
import CodeAssist.Host.SystemError
import CodeAssist.Interpreter
import CodeAssist.Json.Basic
import CodeAssist.Json.Cursor
import CodeAssist.Json.Mismatch
import CodeAssist.Json.Numeral
import CodeAssist.Json.Printer
import CodeAssist.Json.Quotation
import CodeAssist.Json.Reader
import CodeAssist.Json.Scan
import CodeAssist.Json.Shape
import CodeAssist.Json.Shortest
import CodeAssist.Lifecycle
import CodeAssist.Main
import CodeAssist.Message.Call
import CodeAssist.Message.Request
import CodeAssist.Message.Response
import CodeAssist.Path
import CodeAssist.Position
import CodeAssist.Process
import CodeAssist.Resolver
import CodeAssist.Router.Basic
import CodeAssist.Router.Step
import CodeAssist.Session.Basic
import CodeAssist.Session.Group
import CodeAssist.Session.Step
import CodeAssist.Settings
import CodeAssist.Table
import CodeAssist.Text.Blank
import CodeAssist.Text.Cased
import CodeAssist.Text.Lines
import CodeAssist.Text.Lowercase
import CodeAssist.Text.Numeral
import CodeAssist.Text.Printable
import CodeAssist.Text.Quoted
import CodeAssist.Text.Ranges
import CodeAssist.Text.Utf8
import CodeAssist.Tool.Completion
import CodeAssist.Tool.Diagnostic
import CodeAssist.Tool.Query
import CodeAssist.Tool.Script
import CodeAssist.Proofs.Router.Advance
import CodeAssist.Proofs.Router.Run
import CodeAssist.Proofs.Session.Advance
import CodeAssist.Proofs.Router.Deed
import CodeAssist.Proofs.Router.Succession
import CodeAssist.Proofs.Router.SingleSession
import CodeAssist.Proofs.Session.Answers
import CodeAssist.Proofs.Router.ArrivalOrder
import CodeAssist.Proofs.Router.Attribution
import CodeAssist.Proofs.Router.Answering
import CodeAssist.Proofs.Router.Provenance
import CodeAssist.Proofs.Router.Erasure
import CodeAssist.Proofs.Router.FailedChange
import CodeAssist.Proofs.Frame.Line
import CodeAssist.Proofs.Frame.Grammar
import CodeAssist.Proofs.Frame.RoundTrip
import CodeAssist.Proofs.Router.FirstSession
import CodeAssist.Proofs.Frame.Partial
import CodeAssist.Proofs.Session.Workers
import CodeAssist.Proofs.Router.Progress
import CodeAssist.Proofs.Engine.Run
import CodeAssist.Proofs.Engine.Account
import CodeAssist.Proofs.Engine.Closing
import CodeAssist.Proofs.Engine.OneResponse
import CodeAssist.Proofs.Frame.Truncation
import CodeAssist.Proofs.Json.Reading
import CodeAssist.Proofs.Json.RoundTrip
import CodeAssist.Proofs.Message.RoundTrip
import CodeAssist.Proofs.Engine.Oversize
import CodeAssist.Proofs.Edit.Cover
import CodeAssist.Proofs.Edit.Block
import CodeAssist.Proofs.Edit.Rebuild
import CodeAssist.Proofs.Position
import CodeAssist.Proofs.Edit.CursorLines
import CodeAssist.Proofs.Session.Run
import CodeAssist.Proofs.Session.Retirement
import CodeAssist.Proofs.Session.Registry
import CodeAssist.Proofs.Session.Supersession
import CodeAssist.Proofs.Router.SessionHistory
import CodeAssist.Proofs.Router.ShutdownGate
import CodeAssist.Proofs.FileCache.Trace
import CodeAssist.Proofs.Router.WorkerPool
import CodeAssist.Proofs.Session.Alone
import CodeAssist.Proofs.Session.Caching
import CodeAssist.Proofs.Client.Correlation
import CodeAssist.Proofs.Json.Members
import CodeAssist.Proofs.Json.Record
import CodeAssist.Proofs.Message.Decoding
import CodeAssist.Proofs.Message.Params
import CodeAssist.Proofs.Tool.Ending
import CodeAssist.Proofs.Session.ToolFailures
import CodeAssist.Proofs.Resolver.Resolution
import CodeAssist.Proofs.Resolver.Detection
import CodeAssist.Proofs.Resolver.Memory
import CodeAssist.Proofs.Router.Availability
import CodeAssist.Proofs.Path
import CodeAssist.Proofs.Host.FileTree
import CodeAssist.Proofs.Settings.WriteNew
import CodeAssist.Proofs.Process
import CodeAssist.Proofs.Json.Inversion
import CodeAssist.Proofs.Json.Skipping
import CodeAssist.Proofs.Json.Scanning
import CodeAssist.Proofs.Json.Following
import CodeAssist.Proofs.Json.Known
import CodeAssist.Proofs.Json.Widths
import CodeAssist.Proofs.Json.Indented
import CodeAssist.Proofs.Settings.Stated
import CodeAssist.Proofs.Settings.RoundTrip
import CodeAssist.Proofs.Tool.Diagnostics
