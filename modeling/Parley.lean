import Parley.Binary64.Basic
import Parley.Binary64.Decimal
import Parley.Binary64.Shortest
import Parley.Cache.Dedupe
import Parley.Cache.Messages
import Parley.Cache.Profile
import Parley.Cache.Users
import Parley.Client.Basic
import Parley.Client.Caches
import Parley.ClientError
import Parley.Config.Basic
import Parley.Config.Environment
import Parley.Config.Logging
import Parley.Gateway.Backoff
import Parley.Gateway.Chunk
import Parley.Gateway.CloseCode
import Parley.Gateway.Dispatch
import Parley.Gateway.Errand
import Parley.Gateway.Error
import Parley.Gateway.Event
import Parley.Gateway.Frame
import Parley.Gateway.Heartbeat
import Parley.Gateway.Inbound
import Parley.Gateway.Machine
import Parley.Gateway.Opcode
import Parley.Gateway.Options
import Parley.Gateway.Payload
import Parley.Gateway.Session
import Parley.Gateway.Socket
import Parley.Gateway.Ticker
import Parley.Intents
import Parley.Json.Basic
import Parley.Json.Decode
import Parley.Json.Literal
import Parley.Json.Printer
import Parley.Json.Reader
import Parley.Json.Tree
import Parley.Proofs.Gateway.Transitions
import Parley.Rehearsal.Alone
import Parley.Rehearsal.Handler
import Parley.Rehearsal.Line
import Parley.Rehearsal.Play
import Parley.Rehearsal.Requests
import Parley.Rehearsal.Schedule
import Parley.Report.Basic
import Parley.Report.Config
import Parley.Report.Gateway
import Parley.Report.Play
import Parley.Report.Rest
import Parley.Rest.Bucket
import Parley.Rest.Client
import Parley.Rest.Endpoint
import Parley.Rest.Gate
import Parley.Rest.Lane
import Parley.Rest.Method
import Parley.Rest.Queue
import Parley.Rest.RateLimit
import Parley.Rest.Registry
import Parley.Rest.Request
import Parley.Rest.Response
import Parley.Rest.Route
import Parley.Rest.Submission
import Parley.Rest.Sweep
import Parley.Rest.Terms
import Parley.Retry
import Parley.Script.Entry
import Parley.Script.Gateway
import Parley.Script.Rest
import Parley.Script.Session
import Parley.Shard
import Parley.Snowflake
import Parley.Table
import Parley.Text.Blank
import Parley.Text.Lowercase
import Parley.Text.Numeral
import Parley.Time.Duration
import Parley.Time.Instant
import Parley.Time.Timestamp
import Parley.Proofs.Gateway.Memory
import Parley.Proofs.Gateway.HeartbeatTimeout
import Parley.Proofs.Gateway.StateGraph
import Parley.Proofs.Gateway.Course
import Parley.Proofs.Gateway.Sources
import Parley.Proofs.Gateway.Handshakes
import Parley.Proofs.Gateway.Bracketing
import Parley.Proofs.Gateway.Endings
import Parley.Proofs.Gateway.Deliveries
import Parley.Proofs.Rest.BucketRuns
import Parley.Proofs.Rest.Edits
import Parley.Proofs.Rest.Traffic
import Parley.Proofs.Rest.GlobalLimit
import Parley.Proofs.Rest.Ways
import Parley.Proofs.Rest.Redirects
import Parley.Proofs.Rest.Booking
import Parley.Proofs.Rest.Holding
import Parley.Proofs.Rest.Cleanup
import Parley.Proofs.Cache.Handles
import Parley.Proofs.Cache.Arrivals
import Parley.Proofs.Cache.Window
import Parley.Proofs.Gateway.Redeliveries
import Parley.Proofs.Gateway.Escalation
import Parley.Proofs.Rest.Windows
import Parley.Proofs.Rest.Unions
import Parley.Proofs.Rest.Cycles
import Parley.Proofs.Rest.Sharing
import Parley.Proofs.Rest.Admissions
import Parley.Proofs.Rest.Majors
import Parley.Proofs.Rest.Closing
import Parley.Proofs.Gateway.HandlerCalls
import Parley.Proofs.Gateway.Pending
import Parley.Proofs.Gateway.Commands
import Parley.Proofs.Gateway.Announcements
import Parley.Proofs.Client.Authors
import Parley.Proofs.Gateway.ZeroIntervals
import Parley.Proofs.Json.Bytes
import Parley.Proofs.Json.RoundTrip
import Parley.Proofs.Gateway.Frames
import Parley.Proofs.Rest.Onward
import Parley.Proofs.Rest.Deadlines
import Parley.Proofs.Rest.FailFast
import Parley.Proofs.Rest.Retries
import Parley.Proofs.Rest.Counts
import Parley.Proofs.Rest.SameWindow
import Parley.Proofs.Rest.Dealings
import Parley.Proofs.Rest.Slots
import Parley.Proofs.Rest.Refills
import Parley.Proofs.Rest.Users
import Parley.Proofs.Rest.Leftovers
import Parley.Proofs.Binary64.Magnitudes
import Parley.Proofs.Json.Numbers
import Parley.Proofs.Json.Records
import Parley.Proofs.Rest.RefusalBodies
import Parley.Proofs.Rest.Waits
import Parley.Proofs.Rest.GlobalMarks
import Parley.Proofs.Rest.Attempts
import Parley.Proofs.Client.Settings
import Parley.Proofs.Snowflakes
import Parley.Proofs.Cache.Pages
import Parley.Proofs.Json.Codecs
import Parley.Proofs.Gateway.Payloads
import Parley.Proofs.Client.Profiles
import Parley.Proofs.Client.History
import Parley.Proofs.Gateway.Reassembly
import Parley.Proofs.Gateway.Delays
import Parley.Proofs.Rest.Templates
import Parley.Proofs.Cache.Compaction
