import PacketBus.Bus.Table
import PacketBus.Session.Transport

/-! # The events of a session

What an observer of a session sees: its calls to the transport, the notes of handlers, and the
records of its journal.
-/
namespace PacketBus

/-- The counters of a session. They are `Nat`, where a machine counts in 64 bits. A packet is
counted when it has come whole, and its header alone is six octets of the stream. A run would have
to read at least `6 * 2 ^ 64` octets before a counter of 64 bits overflows. -/
structure Stats where
  received : Nat := 0
  replied : Nat := 0
  unhandled : Nat := 0
  failed : Nat := 0
  deriving DecidableEq, Repr

def Stats.text (s : Stats) : String :=
  "SessionStats \x7b received: " ++ toString s.received ++ ", replied: " ++ toString s.replied ++
  ", unhandled: " ++ toString s.unhandled ++ ", failed: " ++ toString s.failed ++ " \x7d"

inductive Level
  | debug | warn | error
  deriving DecidableEq, Repr

inductive Record
  | replaced (r : Replacement)
  | noHandler (packetId : UInt16)
  | undecodable (fault : DispatchFault)
  | replyDropped (replyId packetId : UInt16) (fault : HeaderFault)
  | handlerFailed (packetId : UInt16) (fault : DispatchFault)
  | cutStream (buffered : Nat)
  | closed (stats : Stats)
  deriving DecidableEq, Repr

namespace Record

def level : Record → Level
  | replaced _ | closed _ => .debug
  | noHandler _ | undecodable _ | cutStream _ => .warn
  | replyDropped _ _ _ | handlerFailed _ _ => .error

def message : Record → String
  | replaced _ => "replacing registered handler"
  | noHandler _ => "No handler registered, dropping packet"
  | undecodable fault => "Dropping undecodable packet: " ++ fault.message
  | replyDropped replyId packetId fault =>
    s!"Dropping reply {replyId} to packet {packetId}: " ++ fault.message
  | handlerFailed packetId fault => s!"Handler error for packet {packetId}: " ++ fault.message
  | cutStream _ => "Stream closed mid-packet"
  | closed _ => "Session closed"

def fields : Record → List (String × String)
  | replaced r => [("request_id", toString r.id), ("previous", r.previous)]
  | noHandler packetId => [("packet_id", toString packetId)]
  | cutStream buffered => [("buffered", toString buffered)]
  | closed stats => [("stats", stats.text)]
  | undecodable _ | replyDropped _ _ _ | handlerFailed _ _ => []

end Record

inductive Event
  | read (n : Nat)
  | readFailed
  | wrote (bs : Octets)
  | writeFailed
  | flushed
  | flushFailed
  | shutDown
  | shutDownFailed
  | note (text : String)
  | log (record : Record)
  deriving DecidableEq, Repr

end PacketBus
