import PacketBus.Frame.Deframer
import PacketBus.Session.Serve

/-! # Running a session

A session reads until its peer closes the stream. The packets that a read completes are served in
order, and then their replies are written and flushed together, before a fault ends the session and
before the next read.
-/
namespace PacketBus
variable {σ : Type}

/-- What a session carries from one read to the next: also how many writes it has made. -/
structure Pump (σ : Type) where
  deframer : Deframer
  state : σ
  stats : Stats := {}
  calls : Nat := 0
  trace : Array Event := #[]

structure RunResult (σ : Type) where
  trace : Array Event
  state : σ
  outcome : Except SessionFault Stats

namespace Pump

def emit (p : Pump σ) (events : List Event) : Pump σ := { p with trace := p.trace ++ events }

def stop (p : Pump σ) (fault : SessionFault) : RunResult σ := ⟨p.trace, p.state, .error fault⟩

/-- Serves what a read completes. -/
def receive (config : SessionConfig) (bus : Bus σ) (chunk : Octets) (p : Pump σ) :
    Pump σ × Octets × Option SessionFault :=
  let (packets, refused, deframer) := (p.deframer.extend chunk).drain
  let (served, stopped, state) := serveAll config bus packets p.state
  let fault := (stopped.map .dispatch).or (refused.map .framing)
  let p := { p with deframer, state, stats := served.foldl Served.count p.stats }
  (p.emit (.read chunk.length :: served.flatMap Served.events), served.flatMap Served.frame, fault)

def flush (sink : Sink) (p : Pump σ) : Pump σ × Option IoFault :=
  match sink.flush.at? p.calls with
  | some fault => (p.emit [.flushFailed], some fault)
  | none => (p.emit [.flushed], none)

/-- Makes a write call, and again as long as it is interrupted, unless it would be for ever. -/
def callWrite (sink : Sink) (out : Octets) (p : Pump σ) : Pump σ × Except IoFault Octets :=
  let q := { p with calls := p.calls + 1 }
  match sink.write.at? q.calls with
  | none =>
    let taken := sink.taken q.calls out
    (q.emit [.wrote taken], .ok taken)
  | some fault =>
    if _h : sink.write.Repeats q.calls then callWrite sink out (q.emit [.writeFailed])
    else (q.emit [.writeFailed], .error fault)
termination_by sink.write.steady - p.calls
decreasing_by
  have hlt := _h.lt_steady
  dsimp only [emit, q] at hlt ⊢
  omega

/-- Writes until nothing is left, and flushes. A write that takes nothing is a fault. -/
def writeAll (sink : Sink) (out : Octets) (p : Pump σ) : Pump σ × Option IoFault :=
  if _ho : out = [] then p.flush sink
  else
    match p.callWrite sink out with
    | (p, .error fault) => (p, some fault)
    | (p, .ok taken) =>
      if _ht : taken = [] then (p, some .writeZero)
      else writeAll sink (out.drop taken.length) p
termination_by out.length
decreasing_by
  have ho := List.length_pos_iff.mpr _ho
  have ht := List.length_pos_iff.mpr _ht
  rw [List.length_drop]
  omega

/-- Writes and flushes, unless there is nothing to write. -/
def send (sink : Sink) (out : Octets) (p : Pump σ) : Pump σ × Option IoFault :=
  if out.isEmpty then (p, none) else p.writeAll sink out

/-- What follows from a read. A fault in writing comes before one in what was read. -/
def round (config : SessionConfig) (bus : Bus σ) (sink : Sink) (chunk : Octets) (p : Pump σ) :
    Pump σ × Option SessionFault :=
  let (p, out, fault) := p.receive config bus chunk
  match p.send sink out with
  | (p, some broken) => (p, some (.io broken))
  | (p, none) => (p, fault)

/-- The peer has closed its side. -/
def close (sink : Sink) (p : Pump σ) : RunResult σ :=
  let p := p.emit [.read 0]
  let p := if p.deframer.hasPartial then p.emit [.log (.cutStream p.deframer.length)] else p
  match sink.shutdown.at? p.calls with
  | some fault => (p.emit [.shutDownFailed]).stop (.io fault)
  | none =>
    let p := p.emit [.shutDown, .log (.closed p.stats)]
    ⟨p.trace, p.state, .ok p.stats⟩

/-- One read after another, until the reads end or a round meets a fault. -/
def run (config : SessionConfig) (bus : Bus σ) (sink : Sink) (last : SourceEnd) :
    List Octets → Pump σ → RunResult σ
  | [], p =>
    match last with
    | .closed => p.close sink
    | .failed fault => (p.emit [.readFailed]).stop (.io fault)
  | chunk :: chunks, p =>
    match p.round config bus sink chunk with
    | (p, some fault) => p.stop fault
    | (p, none) => run config bus sink last chunks p

end Pump

/-- Runs a session from a state, against what a peer sends and how it takes replies. -/
def runSession (config : SessionConfig) (bus : Bus σ) (state : σ) (source : Source) (sink : Sink) :
    RunResult σ :=
  let (chunks, last) := source.chunks (max 1 config.readSize)
  Pump.run config bus sink last chunks { deframer := .new config.limit, state }

end PacketBus
