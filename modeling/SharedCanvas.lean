import SharedCanvas.Bytes
import SharedCanvas.Text.Blank
import SharedCanvas.Text.Ascii
import SharedCanvas.Text.Number
import SharedCanvas.Text.Printable
import SharedCanvas.Text.Quoted
import SharedCanvas.Palette
import SharedCanvas.Canvas.Snapshot
import SharedCanvas.Canvas.Basic
import SharedCanvas.Frame.Basic
import SharedCanvas.Frame.Decode
import SharedCanvas.Frame.Encode
import SharedCanvas.Frame.Pump
import SharedCanvas.Message
import SharedCanvas.Json.Lexeme
import SharedCanvas.Json.Numeral
import SharedCanvas.Json.Skip
import SharedCanvas.Json.Reader
import SharedCanvas.Canvas.Binary
import SharedCanvas.Canvas.Json
import SharedCanvas.Text.Base64
import SharedCanvas.Sha1
import SharedCanvas.Http.Request
import SharedCanvas.Handshake
import SharedCanvas.Storage.Path
import SharedCanvas.Storage.FileSystem
import SharedCanvas.Storage.SnapshotFile
import SharedCanvas.Http.Site
import SharedCanvas.Connection.Socket
import SharedCanvas.Connection.Outbox
import SharedCanvas.TaskQueue
import SharedCanvas.Connection.Basic
import SharedCanvas.Event
import SharedCanvas.Connection.Visit
import SharedCanvas.Connection.Membership
import SharedCanvas.Lanes
import SharedCanvas.Room
import SharedCanvas.Service
import SharedCanvas.Config.Basic
import SharedCanvas.Config.Environment
import SharedCanvas.Config.Arguments
import SharedCanvas.Saver
import SharedCanvas.Server
import SharedCanvas.CommandLine
import SharedCanvas.Main
import SharedCanvas.Proofs.Canvas.Cells
import SharedCanvas.Proofs.Canvas.Overlay
import SharedCanvas.Proofs.Json.Written
import SharedCanvas.Proofs.Frame.Written
import SharedCanvas.Proofs.Json.Length
import SharedCanvas.Proofs.Connection.Given
import SharedCanvas.Proofs.Broadcast.Waiting
import SharedCanvas.Proofs.Broadcast.Live
import SharedCanvas.Proofs.Broadcast.Orderly
import SharedCanvas.Proofs.Broadcast.Convergence
import SharedCanvas.Proofs.Frame.Split
import SharedCanvas.Proofs.Session.Reference
import SharedCanvas.Proofs.Session.Greeting
import SharedCanvas.Proofs.Session.Visit
import SharedCanvas.Proofs.Session.Chunks
import SharedCanvas.Proofs.Session.Staging
import SharedCanvas.Proofs.Session.Overflow
import SharedCanvas.Proofs.Broadcast.Eviction
import SharedCanvas.Proofs.Frame.Reassembly
import SharedCanvas.Proofs.Storage.Saved
import SharedCanvas.Proofs.Server.Load
import SharedCanvas.Proofs.Server.Size
import SharedCanvas.Proofs.Server.Restart
import SharedCanvas.Proofs.Session.Answers
import SharedCanvas.Proofs.Session.Response
import SharedCanvas.Proofs.Session.Account
import SharedCanvas.Proofs.Session.Transcript
import SharedCanvas.Proofs.Canvas.Drained
import SharedCanvas.Proofs.Frame.Fragments
import SharedCanvas.Proofs.Session.Invariant
import SharedCanvas.Proofs.Session.Gathering
import SharedCanvas.Proofs.Session.Lifecycle
import SharedCanvas.Proofs.Session.Leftover
import SharedCanvas.Proofs.Lanes.Queue
import SharedCanvas.Proofs.Lanes.Order
import SharedCanvas.Proofs.Canvas.Accepted
import SharedCanvas.Proofs.Session.Obeyed
import SharedCanvas.Proofs.Session.Confined
import SharedCanvas.Proofs.Session.Commute
import SharedCanvas.Proofs.Server.Upkeep
import SharedCanvas.Proofs.Word
import SharedCanvas.Proofs.Frame.Grammar
import SharedCanvas.Proofs.Frame.Appended
import SharedCanvas.Proofs.Session.Joining
import SharedCanvas.Proofs.Server.Admission
import SharedCanvas.Proofs.Server.Served
import SharedCanvas.Proofs.Connection.Ledger
import SharedCanvas.Proofs.Broadcast.Recipients
import SharedCanvas.Proofs.Canvas.Grid
import SharedCanvas.Proofs.Canvas.History
import SharedCanvas.Proofs.Text.Cut
import SharedCanvas.Proofs.Http.Written
import SharedCanvas.Proofs.Http.Head
import SharedCanvas.Proofs.Session.Verdict
import SharedCanvas.Proofs.Session.Upgrade
import SharedCanvas.Proofs.Storage.ReadBack
import SharedCanvas.Proofs.Text.Encoded
import SharedCanvas.Proofs.Json.Grammar
import SharedCanvas.Proofs.Json.Skipped
import SharedCanvas.Proofs.Json.Spelling
import SharedCanvas.Proofs.Json.Continued
import SharedCanvas.Proofs.Storage.Draft
import SharedCanvas.Proofs.Storage.Atomic
import SharedCanvas.Proofs.Storage.Overlap
import SharedCanvas.Proofs.Http.Mirror
import SharedCanvas.Proofs.Storage.Lexical
import SharedCanvas.Proofs.Http.Enclosed
import SharedCanvas.Proofs.Config.InOrder
import SharedCanvas.Proofs.Config.Overridden
import SharedCanvas.Proofs.Canvas.Payloads
import SharedCanvas.Proofs.Frame.Shortfall
import SharedCanvas.Proofs.Server.Arrivals
import SharedCanvas.Proofs.Server.Views
