import TurtleScript.Action
import TurtleScript.Call
import TurtleScript.Client
import TurtleScript.Command
import TurtleScript.CommandLine
import TurtleScript.Decimal.Binary
import TurtleScript.Decimal.Digits
import TurtleScript.Decimal.Fixed
import TurtleScript.Decimal.Literal
import TurtleScript.Decimal.Shortest
import TurtleScript.Demo
import TurtleScript.Drawing
import TurtleScript.Files
import TurtleScript.Format.Action
import TurtleScript.Format.Drawing
import TurtleScript.Format.Instruction
import TurtleScript.Format.Script
import TurtleScript.Format.Token
import TurtleScript.Instruction
import TurtleScript.Json.Lexeme
import TurtleScript.Json.Number
import TurtleScript.Json.Reader
import TurtleScript.Json.Record
import TurtleScript.Json.Value
import TurtleScript.Json.Writer
import TurtleScript.Lexer
import TurtleScript.Main
import TurtleScript.Parser
import TurtleScript.Program
import TurtleScript.Proofs.Advancing
import TurtleScript.Proofs.Answering
import TurtleScript.Proofs.Ascending
import TurtleScript.Proofs.Counting
import TurtleScript.Proofs.Cursor
import TurtleScript.Proofs.Cutting
import TurtleScript.Proofs.Entries
import TurtleScript.Proofs.Grammar
import TurtleScript.Proofs.Joining
import TurtleScript.Proofs.Json.RoundTrip
import TurtleScript.Proofs.Json.Scanning
import TurtleScript.Proofs.Lineage
import TurtleScript.Proofs.Listing
import TurtleScript.Proofs.Motion
import TurtleScript.Proofs.Neighbouring
import TurtleScript.Proofs.Numbering
import TurtleScript.Proofs.Parsing
import TurtleScript.Proofs.Performing
import TurtleScript.Proofs.Printing
import TurtleScript.Proofs.Rebuilding
import TurtleScript.Proofs.Redoing
import TurtleScript.Proofs.Refusing
import TurtleScript.Proofs.Rejoining
import TurtleScript.Proofs.Renumbering
import TurtleScript.Proofs.Resetting
import TurtleScript.Proofs.Revising
import TurtleScript.Proofs.Running
import TurtleScript.Proofs.Saving
import TurtleScript.Proofs.Sharing.Advertising
import TurtleScript.Proofs.Sharing.Attending
import TurtleScript.Proofs.Sharing.Broadcast
import TurtleScript.Proofs.Sharing.Calling
import TurtleScript.Proofs.Sharing.Chronicle
import TurtleScript.Proofs.Sharing.Converging
import TurtleScript.Proofs.Sharing.Delivering
import TurtleScript.Proofs.Sharing.Echoing
import TurtleScript.Proofs.Sharing.Ending
import TurtleScript.Proofs.Sharing.Exchange
import TurtleScript.Proofs.Sharing.Fanning
import TurtleScript.Proofs.Sharing.Following
import TurtleScript.Proofs.Sharing.Guarding
import TurtleScript.Proofs.Sharing.Inviting
import TurtleScript.Proofs.Sharing.Lines
import TurtleScript.Proofs.Sharing.Moving
import TurtleScript.Proofs.Sharing.Observing
import TurtleScript.Proofs.Sharing.Outliving
import TurtleScript.Proofs.Sharing.Pair
import TurtleScript.Proofs.Sharing.Passing
import TurtleScript.Proofs.Sharing.Presenting
import TurtleScript.Proofs.Sharing.Recording
import TurtleScript.Proofs.Sharing.Relaying
import TurtleScript.Proofs.Sharing.Repeating
import TurtleScript.Proofs.Sharing.Reporting
import TurtleScript.Proofs.Sharing.Serving
import TurtleScript.Proofs.Sharing.Spanning
import TurtleScript.Proofs.Sharing.Tracking
import TurtleScript.Proofs.Sharing.Traffic
import TurtleScript.Proofs.Sharing.Turning
import TurtleScript.Proofs.Sharing.Wording
import TurtleScript.Proofs.Sharing.Working
import TurtleScript.Proofs.Sharing.Writing
import TurtleScript.Proofs.Sizing
import TurtleScript.Proofs.Splitting
import TurtleScript.Proofs.Stepping
import TurtleScript.Proofs.Tagging
import TurtleScript.Proofs.Taking
import TurtleScript.Proofs.Tokenizing
import TurtleScript.Proofs.Tracing
import TurtleScript.Proofs.Trailing
import TurtleScript.Proofs.Typing
import TurtleScript.Proofs.Undoing
import TurtleScript.Proofs.Unrolling
import TurtleScript.Run
import TurtleScript.Script
import TurtleScript.Sharing.Invitation
import TurtleScript.Sharing.Link
import TurtleScript.Sharing.Message
import TurtleScript.Sharing.Network
import TurtleScript.Sharing.Relay
import TurtleScript.Sharing.Schedule
import TurtleScript.Shell.Notice
import TurtleScript.Shell.Request
import TurtleScript.Shell.Session
import TurtleScript.Snapshot
import TurtleScript.Source
import TurtleScript.Store
import TurtleScript.Text.Blank
import TurtleScript.Text.Caseless
import TurtleScript.Text.Split
import TurtleScript.Timeline
import TurtleScript.Token
import TurtleScript.Web.Date
import TurtleScript.Web.MediaType
import TurtleScript.Web.MediaType.Table
import TurtleScript.Web.Percent
import TurtleScript.Web.Range
import TurtleScript.Web.Request
import TurtleScript.Web.Response
import TurtleScript.Web.Router
import TurtleScript.Web.Static
import TurtleScript.Web.Target
