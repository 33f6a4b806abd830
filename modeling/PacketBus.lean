import PacketBus.Catalog.Handlers
import PacketBus.Frame.Stream
import PacketBus.Session.Run
import PacketBus.Proofs.Frame.Wire
import PacketBus.Proofs.Bus.Sequence
import PacketBus.Proofs.Frame.Deframer
import PacketBus.Proofs.Frame.Frames
import PacketBus.Proofs.Frame.Refusal
import PacketBus.Proofs.Frame.RoundTrip
import PacketBus.Proofs.Frame.Pushes
import PacketBus.Proofs.Frame.Schedule
import PacketBus.Proofs.Bus.History
import PacketBus.Proofs.Session.Writes
import PacketBus.Proofs.Session.Protocol
import PacketBus.Proofs.Session.Shutdown
import PacketBus.Proofs.Session.Cut
import PacketBus.Proofs.Session.Acceptance
import PacketBus.Proofs.Session.Fragments
import PacketBus.Proofs.Session.Limit
import PacketBus.Proofs.Session.Accounts
import PacketBus.Proofs.Session.EndOfStream
import PacketBus.Proofs.Session.Buffering
import PacketBus.Proofs.Session.Pending
import PacketBus.Proofs.Session.WholeStream
import PacketBus.Proofs.Session.Inert
import PacketBus.Proofs.Bus.Dispatch
import PacketBus.Proofs.Bus.LastWins
import PacketBus.Proofs.Payload.Shape
import PacketBus.Proofs.MsgPack.Items
import PacketBus.Proofs.MsgPack.RoundTrip
import PacketBus.Proofs.Json.Number
import PacketBus.Proofs.Json.Text
import PacketBus.Proofs.Json.Layout
import PacketBus.Proofs.Json.Scalars
import PacketBus.Proofs.Json.RoundTrip
import PacketBus.Proofs.Bus.Portable
import PacketBus.Proofs.Catalog.Setup
import PacketBus.Proofs.Frame.Sender
import PacketBus.Proofs.MsgPack.Lookahead
import PacketBus.Proofs.MsgPack.Truncation
import PacketBus.Proofs.Bus.Trailing
import PacketBus.Proofs.Bus.Replacement
import PacketBus.Proofs.Json.Exact
