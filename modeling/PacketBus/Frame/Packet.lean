import PacketBus.Frame.Header

/-! # Packets and their frames

A packet travels as its header followed by its payload.
-/
namespace PacketBus

structure Packet where
  id : UInt16
  payload : Octets
  deriving DecidableEq, Repr

inductive PlaceFault
  | header (fault : HeaderFault)
  | noRoom (needed available : Nat)
  deriving DecidableEq, Repr

def PlaceFault.message : PlaceFault → String
  | header fault => fault.message
  | noRoom needed available => s!"Buffer too small: need {needed} bytes, {available} available"

namespace Packet

def empty (id : UInt16) : Packet := ⟨id, []⟩

def length (p : Packet) : Nat := p.payload.length

def isEmpty (p : Packet) : Bool := p.length == 0

/-- The header of a packet whose length fits its field. -/
def header (p : Packet) : Except HeaderFault Header :=
  if p.length < UInt32.size then .ok ⟨p.id, UInt32.ofNat p.length⟩
  else .error (.tooLong p.length (UInt32.size - 1))

/-- Whether a receiver with this limit takes the packet. -/
def validate (limit : UInt32) (p : Packet) : Except HeaderFault Unit := do
  (← p.header).validate limit

def frameLength (p : Packet) : Nat := Header.size + p.length

def frame (p : Packet) : Except HeaderFault Octets := do
  return (← p.header).encode ++ p.payload

/-- A buffer with the frame after what it holds. -/
def appendFrame (p : Packet) (buffer : Octets) : Except HeaderFault Octets := do
  return buffer ++ (← p.frame)

/-- Writes the frame over a buffer from an offset on, all of it or nothing, and counts the octets
written. None if a sum of sizes is too large or a position is not in the buffer. -/
def placeFrame? (p : Packet) (buffer : Octets) (offset : Nat) :
    Option (Except PlaceFault Nat × Octets) :=
  match p.header with
  | .error fault => some (.error (.header fault), buffer)
  | .ok header => do
    let needed ← Octets.addSizes? Header.size p.length
    let available := buffer.length - offset
    if available < needed then
      return (.error (.noRoom needed available), buffer)
    else
      let stop ← Octets.addSizes? offset needed
      let part ← Octets.slice? offset stop buffer
      let part ← header.encodeInto? part
      let part ← Octets.overwriteFrom? Header.size p.payload part
      return (.ok needed, buffer.take offset ++ part ++ buffer.drop stop)

end Packet
end PacketBus
