import PacketBus.Bus.Registration

/-! # The dispatch table

Registrations are collected in a registry, where a later one replaces an earlier one with the same
id. A registry that is complete becomes a bus, which cannot be changed and hands each packet to the
handler of its id.
-/
namespace PacketBus

abbrev Table (σ : Type) := SortedMap UInt16 (Registration σ)

/-- The registration that had the id before. -/
structure Replacement where
  id : UInt16
  previous : String
  deriving DecidableEq, Repr

structure Registry (σ : Type) where
  codec : Codec
  table : Table σ

namespace Registry
variable {σ : Type}

def new (codec : Codec) : Registry σ := ⟨codec, .empty⟩

def replacement? (b : Registry σ) (r : Registration σ) : Option Replacement :=
  (b.table.get? r.id).map fun previous => ⟨r.id, previous.request.name⟩

def insert (b : Registry σ) (r : Registration σ) : Registry σ :=
  { b with table := b.table.insert r.id r }

/-- Adds a registration and tells if it replaces one. -/
def register (b : Registry σ) (r : Registration σ) : Registry σ × Option Replacement :=
  (b.insert r, b.replacement? r)

/-- Adds a group of registrations in order. -/
def install (b : Registry σ) : List (Registration σ) → Registry σ × List Replacement
  | [] => (b, [])
  | r :: rest =>
    let (b, replaced) := b.register r
    let (b, more) := b.install rest
    (b, replaced.toList ++ more)

def contains (b : Registry σ) (id : UInt16) : Bool := b.table.contains id
def size (b : Registry σ) : Nat := b.table.size
def isEmpty (b : Registry σ) : Bool := b.table.isEmpty

end Registry

/-- How a registration is listed. -/
structure Route where
  requestId : UInt16
  responseId : Option UInt16
  requestType : String
  responseType : Option String
  deriving DecidableEq, Repr

def Registration.route {σ : Type} (r : Registration σ) : Route where
  requestId := r.id
  responseId := r.responseId
  requestType := r.request.name
  responseType := r.responseName

structure Bus (σ : Type) where
  codec : Codec
  table : Table σ

def Registry.build {σ : Type} (b : Registry σ) : Bus σ := ⟨b.codec, b.table⟩

namespace Bus
variable {σ : Type}

def contains (b : Bus σ) (id : UInt16) : Bool := b.table.contains id
def size (b : Bus σ) : Nat := b.table.size
def isEmpty (b : Bus σ) : Bool := b.table.isEmpty
def responseId (b : Bus σ) (id : UInt16) : Option UInt16 := b.table.get? id >>= (·.responseId)

/-- By increasing request id. -/
def routes (b : Bus σ) : List Route := b.table.entries.map fun e => e.2.route

def dispatch (b : Bus σ) (p : Packet) (state : σ) : Step σ (Except DispatchFault Outcome) :=
  match b.table.get? p.id with
  | none => { value := .ok .noHandler, state }
  | some r => r.serve b.codec p.payload state

end Bus

namespace Route

def optionText {α : Type} (render : α → String) : Option α → String
  | none => "None"
  | some a => "Some(" ++ render a ++ ")"

def text (r : Route) : String :=
  "Route \x7b request_id: " ++ toString r.requestId ++
  ", response_id: " ++ optionText toString r.responseId ++
  ", request_type: " ++ Quoted.quote r.requestType ++
  ", response_type: " ++ optionText Quoted.quote r.responseType ++ " \x7d"

end Route

def Bus.text {σ : Type} (b : Bus σ) : String :=
  "NetEventBus \x7b routes: [" ++ String.intercalate ", " (b.routes.map Route.text) ++ "] \x7d"

end PacketBus
