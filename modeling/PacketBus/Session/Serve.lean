import PacketBus.Session.Event

/-! # Serving packets

What becomes of each packet that a session receives. The counters, the journal and the replies of a
session are all read off these verdicts.
-/
namespace PacketBus

structure SessionConfig where
  /-- The longest payload in either direction. -/
  limit : UInt32 := Header.defaultLimit
  readSize : Nat := 64 * 1024
  stopOnDecodeFault : Bool := false
  deriving DecidableEq, Repr

namespace SessionConfig

def withLimit (c : SessionConfig) (limit : UInt32) : SessionConfig := { c with limit }

/-- The size is one at least. -/
def withReadSize (c : SessionConfig) (size : Nat) : SessionConfig :=
  { c with readSize := max size 1 }

def withStop (c : SessionConfig) (stop : Bool) : SessionConfig :=
  { c with stopOnDecodeFault := stop }

end SessionConfig

/-- Why a session ends before its peer closes the stream. -/
inductive SessionFault
  | dispatch (fault : DispatchFault)
  | framing (fault : HeaderFault)
  | io (fault : IoFault)
  deriving DecidableEq, Repr

namespace SessionFault

def isDecode : SessionFault → Bool
  | dispatch fault => fault.isDecode
  | framing _ | io _ => false

def message : SessionFault → String
  | dispatch fault => fault.message
  | framing fault => fault.message
  | io fault => fault.message

end SessionFault

inductive Verdict
  | unhandled
  | silent
  | replied (frame : Octets)
  | replyDropped (replyId : UInt16) (fault : HeaderFault)
  | undecodable (fault : DispatchFault)
  | stopped (fault : DispatchFault)
  | failed (fault : DispatchFault)

/-- A packet that was served. -/
structure Served where
  packetId : UInt16
  notes : List String
  verdict : Verdict

namespace Served

def record? (s : Served) : Option Record :=
  match s.verdict with
  | .unhandled => some (.noHandler s.packetId)
  | .silent | .replied _ | .stopped _ => none
  | .replyDropped replyId fault => some (.replyDropped replyId s.packetId fault)
  | .undecodable fault => some (.undecodable fault)
  | .failed fault => some (.handlerFailed s.packetId fault)

def frame (s : Served) : Octets :=
  match s.verdict with
  | .replied frame => frame
  | _ => []

def events (s : Served) : List Event := s.notes.map .note ++ (s.record?.map .log).toList

def count (stats : Stats) (s : Served) : Stats :=
  let stats := { stats with received := stats.received + 1 }
  match s.verdict with
  | .silent => stats
  | .replied _ => { stats with replied := stats.replied + 1 }
  | .unhandled => { stats with unhandled := stats.unhandled + 1 }
  | .replyDropped _ _ | .undecodable _ | .stopped _ | .failed _ =>
    { stats with failed := stats.failed + 1 }

end Served

/-- Replies have to be acceptable to a peer with the same limit. -/
def replyVerdict (limit : UInt32) (reply : Packet) : Verdict :=
  match reply.validate limit >>= fun _ => reply.frame with
  | .ok frame => .replied frame
  | .error fault => .replyDropped reply.id fault

def verdictOf (config : SessionConfig) : Except DispatchFault Outcome → Verdict
  | .ok .noHandler => .unhandled
  | .ok .silent => .silent
  | .ok (.reply reply) => replyVerdict config.limit reply
  | .error fault =>
    if !fault.isDecode then .failed fault
    else if config.stopOnDecodeFault then .stopped fault
    else .undecodable fault

variable {σ : Type}

def serve (config : SessionConfig) (bus : Bus σ) (p : Packet) (state : σ) : Served × σ :=
  let step := bus.dispatch p state
  (⟨p.id, step.notes, verdictOf config step.value⟩, step.state)

/-- Serves packets in order up to one that stops the session. -/
def serveAll (config : SessionConfig) (bus : Bus σ) :
    List Packet → σ → List Served × Option DispatchFault × σ
  | [], state => ([], none, state)
  | p :: ps, state =>
    let (served, state) := serve config bus p state
    match served.verdict with
    | .stopped fault => ([served], some fault, state)
    | _ =>
      let (more, fault, state) := serveAll config bus ps state
      (served :: more, fault, state)

end PacketBus
