import PacketBus.Codec
import PacketBus.Frame.Packet

/-! # Handlers and their registration

A handler gets a request as a value of its schema and the state of the program. It may reply with a
value, and it may leave notes. A registration binds a handler to the id of its request.
-/
namespace PacketBus

/-- What a handler leaves behind. -/
structure Step (σ α : Type) where
  value : α
  state : σ
  notes : List String := []

/-- A type of requests with the name that listings show. -/
structure RequestType where
  name : String
  schema : Schema

structure ResponseType where
  name : String
  shape : Response

inductive Reaction (σ request : Type)
  | silent (run : request → σ → Step σ Unit)
  | reply (id : UInt16) (response : ResponseType)
      (run : request → σ → Step σ (Option response.shape.Value))

structure Registration (σ : Type) where
  id : UInt16
  request : RequestType
  reaction : Reaction σ request.schema.Value

namespace Registration
variable {σ : Type}

def silent (id : UInt16) (request : RequestType)
    (run : request.schema.Value → σ → Step σ Unit) : Registration σ :=
  ⟨id, request, .silent run⟩

def reply (id responseId : UInt16) (request : RequestType) (response : ResponseType)
    (run : request.schema.Value → σ → Step σ (Option response.shape.Value)) : Registration σ :=
  ⟨id, request, .reply responseId response run⟩

/-- The id of replies. The reserved id stands for none. -/
def responseId (r : Registration σ) : Option UInt16 :=
  match r.reaction with
  | .silent _ => none
  | .reply id _ _ => if id = Header.reservedId then none else some id

def responseName (r : Registration σ) : Option String :=
  match r.reaction with
  | .silent _ => none
  | .reply _ response _ => some response.name

end Registration

/-- Why a packet that has a handler got no outcome. -/
inductive DispatchFault
  | decode (packetId : UInt16) (cause : CodecFault)
  | encode (responseId : UInt16) (cause : CodecFault)
  deriving DecidableEq, Repr

namespace DispatchFault

def isDecode : DispatchFault → Bool
  | decode _ _ => true
  | encode _ _ => false

def message : DispatchFault → String
  | decode id cause => s!"Failed to decode packet {id}: " ++ cause.message
  | encode id cause => s!"Failed to encode response {id}: " ++ cause.message

end DispatchFault

inductive Outcome
  | noHandler
  | silent
  | reply (packet : Packet)
  deriving DecidableEq, Repr

namespace Outcome

def isHandled : Outcome → Bool
  | noHandler => false
  | silent | reply _ => true

def reply? : Outcome → Option Packet
  | reply packet => some packet
  | noHandler | silent => none

end Outcome

namespace Registration
variable {σ : Type}

/-- Runs the handler on a decoded request. A value that nobody waits for is not encoded. -/
def respond (codec : Codec) (r : Registration σ) (request : r.request.schema.Value) (state : σ) :
    Step σ (Except DispatchFault Outcome) :=
  match r.reaction with
  | .silent run =>
    let step := run request state
    { step with value := .ok .silent }
  | .reply id response run =>
    let step := run request state
    let value : Except DispatchFault Outcome :=
      match step.value with
      | none => .ok .silent
      | some value =>
        if id = Header.reservedId then .ok .silent
        else match codec.encode response.shape value with
          | .ok payload => .ok (.reply ⟨id, payload⟩)
          | .error cause => .error (.encode id cause)
    { step with value }

/-- Decodes a payload and runs the handler, which is left alone if the payload does not decode. -/
def serve (codec : Codec) (r : Registration σ) (payload : Octets) (state : σ) :
    Step σ (Except DispatchFault Outcome) :=
  match codec.decode r.request.schema payload with
  | .error cause => { value := .error (.decode r.id cause), state }
  | .ok request => r.respond codec request state

end Registration
end PacketBus
