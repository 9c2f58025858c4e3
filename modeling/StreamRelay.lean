import StreamRelay.StreamId.Spelling
import StreamRelay.Envelope
import StreamRelay.Frame
import StreamRelay.Frame.Reader
import StreamRelay.Frame.Writer
import StreamRelay.Text.Quoted
import StreamRelay.Text.Columns
import StreamRelay.Json.Record
import StreamRelay.Json.Value
import StreamRelay.Net.Address
import StreamRelay.Region
import StreamRelay.Ingress
import StreamRelay.Egress
import StreamRelay.Settings
import StreamRelay.Exit
import StreamRelay.Bench
import StreamRelay.Signal
import StreamRelay.Workers
import StreamRelay.Bridge
import StreamRelay.Duration
import StreamRelay.CommandLine.Invocation
import StreamRelay.Command.Run
import StreamRelay.Command.Forward
import StreamRelay.Command.Collect
import StreamRelay.Command.Version
import StreamRelay.Program
import StreamRelay.Main
import StreamRelay.Proofs.Text.Numerals
import StreamRelay.Proofs.Json.Lexemes
import StreamRelay.Proofs.Json.Skipping
import StreamRelay.Proofs.Json.Records
import StreamRelay.Proofs.Net.Address
import StreamRelay.Proofs.Frame.Decode
import StreamRelay.Proofs.Frame.Delivery
import StreamRelay.Proofs.Frame.Transfer
import StreamRelay.Proofs.Frame.Policies
import StreamRelay.Proofs.Frame.Grammar
import StreamRelay.Proofs.Frame.Bookkeeping
import StreamRelay.Proofs.Frame.Sending
import StreamRelay.Proofs.Region.Operations
import StreamRelay.Proofs.Region.Usage
import StreamRelay.Proofs.Region.Steps
import StreamRelay.Proofs.Region.Soundness
import StreamRelay.Proofs.Region.Order
import StreamRelay.Proofs.Region.Conservation
import StreamRelay.Proofs.Region.Fifo
import StreamRelay.Proofs.Region.Guards
import StreamRelay.Proofs.Region.Independence
import StreamRelay.Proofs.Settings.Overlay
import StreamRelay.Proofs.Egress.Pass
import StreamRelay.Proofs.Egress.Drain
import StreamRelay.Proofs.Ingress.Handling
import StreamRelay.Proofs.Ingress.Outcomes
import StreamRelay.Proofs.Bridge.Loopback
import StreamRelay.Proofs.Bridge.Accounting
import StreamRelay.Proofs.Bridge.Shutdown
import StreamRelay.Proofs.Bridge.Effects
import StreamRelay.Proofs.Bridge.Activities
import StreamRelay.Proofs.Bridge.Attendance
import StreamRelay.Proofs.Bridge.Bystanders
import StreamRelay.Proofs.Bridge.Omission
import StreamRelay.Proofs.Bridge.Isolation
import StreamRelay.Proofs.Bridge.Within
import StreamRelay.Proofs.Region.Failures
import StreamRelay.Proofs.Region.Polling
import StreamRelay.Proofs.Egress.Rounds
import StreamRelay.Proofs.Bridge.Offers
import StreamRelay.Proofs.Bridge.Backlog
import StreamRelay.Proofs.Region.Roundtrip
import StreamRelay.Proofs.StreamId.Spelling
import StreamRelay.Proofs.StreamId.Ascending
import StreamRelay.Proofs.Command.Channels
import StreamRelay.Proofs.Command.Collecting
import StreamRelay.Proofs.Settings.Defaults
import StreamRelay.Proofs.Command.Overrides
import StreamRelay.Proofs.Command.Durations
import StreamRelay.Proofs.Output.Messages
import StreamRelay.Proofs.Bridge.Roster
