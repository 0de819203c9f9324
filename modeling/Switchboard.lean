import Switchboard.Agent
import Switchboard.Bytes.Cursor
import Switchboard.Call
import Switchboard.Channel.Pipe
import Switchboard.Channel.Sink
import Switchboard.Channel.Source
import Switchboard.Command
import Switchboard.Command.Arguments
import Switchboard.Config
import Switchboard.Decimal.Shortest
import Switchboard.Duration
import Switchboard.Errand
import Switchboard.Fabric
import Switchboard.Fabric.Directory
import Switchboard.Fabric.Helpers
import Switchboard.Fabric.Need
import Switchboard.Fabric.Reception
import Switchboard.Fabric.Scene
import Switchboard.Fabric.Task
import Switchboard.Fabric.Watch
import Switchboard.Fault
import Switchboard.Files
import Switchboard.Frame
import Switchboard.Frame.Transfer
import Switchboard.Handshake.Exchange
import Switchboard.Handshake.Head
import Switchboard.Handshake.Request
import Switchboard.Helper
import Switchboard.Instances
import Switchboard.IoFault
import Switchboard.Json.Number
import Switchboard.Json.Reader
import Switchboard.Json.Scanner
import Switchboard.Json.Text
import Switchboard.Json.Writer
import Switchboard.Listener
import Switchboard.Main
import Switchboard.MessagePack.Marker
import Switchboard.MessagePack.Reader
import Switchboard.MessagePack.Writer
import Switchboard.Mismatch
import Switchboard.Mux.Connection
import Switchboard.Mux.Openings
import Switchboard.Mux.Packet
import Switchboard.Mux.Stream
import Switchboard.Network
import Switchboard.Payload
import Switchboard.Poller.Heartbeat
import Switchboard.Poller.Status
import Switchboard.Poller.Sweep
import Switchboard.Registry
import Switchboard.Router
import Switchboard.Service
import Switchboard.Session
import Switchboard.Text.Blank
import Switchboard.Text.Property
import Switchboard.Text.Quoted
import Switchboard.Text.Utf8
import Switchboard.Timestamp
import Switchboard.Transport
import Switchboard.Transport.Line
import Switchboard.Proofs.Bytes
import Switchboard.Proofs.FrameStream
import Switchboard.Proofs.Handshake.Reading
import Switchboard.Proofs.Handshake.Lines
import Switchboard.Proofs.Handshake.Conduct
import Switchboard.Proofs.Runs
import Switchboard.Proofs.Handshake.Agreement
import Switchboard.Proofs.Lists
import Switchboard.Proofs.Traffic.Requests
import Switchboard.Proofs.Envelope
import Switchboard.Proofs.Traffic.Strand
import Switchboard.Proofs.Traffic.Answering
import Switchboard.Proofs.Traffic.Asking
import Switchboard.Proofs.Traffic.Pairing
import Switchboard.Proofs.Traffic.Sound
import Switchboard.Proofs.Traffic.Moves
import Switchboard.Proofs.Traffic.Replies
import Switchboard.Proofs.Lifetime.Closing
import Switchboard.Proofs.Registry.Eviction
import Switchboard.Proofs.Poller.Report
import Switchboard.Proofs.Handshake.Heads
import Switchboard.Proofs.Handshake.PeerKey
import Switchboard.Proofs.MessagePack.Locality
import Switchboard.Proofs.Payload
import Switchboard.Proofs.Streams.Accounts
import Switchboard.Proofs.Streams.Holding
import Switchboard.Proofs.Streams.Ledger
import Switchboard.Proofs.Streams.Line
import Switchboard.Proofs.Traffic.LeakFree
import Switchboard.Proofs.Traffic.Inbound
import Switchboard.Proofs.Traffic.Answers
import Switchboard.Proofs.Json.Reading
import Switchboard.Proofs.Config
import Switchboard.Proofs.Transport.Lifecycle
import Switchboard.Proofs.Transport.Passage
import Switchboard.Proofs.Handshake.Grammar
import Switchboard.Proofs.Handshake.Decisions
import Switchboard.Proofs.Handshake.Segments
import Switchboard.Proofs.Poller.Pulse
import Switchboard.Proofs.Handshake.Unambiguous
import Switchboard.Proofs.Frames.Verdicts
import Switchboard.Proofs.Frames.Receiving
import Switchboard.Proofs.Channel.Writing
import Switchboard.Proofs.Frames.Sending
import Switchboard.Proofs.Registry.Succession
import Switchboard.Proofs.Poller.Pace
import Switchboard.Proofs.Traffic.Outcome
import Switchboard.Proofs.Poller.Sharing
import Switchboard.Proofs.Routing
import Switchboard.Proofs.OtherWriters
import Switchboard.Proofs.Config.Independence
