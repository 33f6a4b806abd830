import PacketBus.Octets

/-! # Frame headers

A header is six octets: the packet id in two and the payload length in four, both big endian. The
id 0 is reserved.
-/
namespace PacketBus

structure Header where
  id : UInt16
  length : UInt32
  deriving DecidableEq, Repr

inductive HeaderFault
  | reservedId
  | tooLong (length limit : Nat)
  deriving DecidableEq, Repr

def HeaderFault.message : HeaderFault → String
  | reservedId => "Protocol error: Packet ID 0 is reserved"
  | tooLong length limit => s!"Protocol error: Payload size {length} exceeds maximum {limit}"

namespace Header

def size : Nat := 6

def reservedId : UInt16 := 0

/-- 16 MiB. -/
def defaultLimit : UInt32 := 16 * 1024 * 1024

def encode (h : Header) : Octets := Octets.ofNat 2 h.id.toNat ++ Octets.ofNat 4 h.length.toNat

/-- The header in front, if there are octets enough. -/
def decode? (bs : Octets) : Option Header :=
  (bs.split? size).map fun (front, _) =>
    ⟨UInt16.ofNat (Octets.toNat (front.take 2)), UInt32.ofNat (Octets.toNat (front.drop 2))⟩

/-- Writes over the front of a buffer that has room for a header. -/
def encodeInto? (h : Header) (buffer : Octets) : Option Octets :=
  (buffer.split? size).map fun (_, rest) => h.encode ++ rest

@[simp] theorem length_encode (h : Header) : h.encode.length = size := by simp [encode, size]

theorem decode?_encode_append (h : Header) (rest : Octets) :
    decode? (h.encode ++ rest) = some h := by
  have hid := h.id.toNat_lt
  have hlength := h.length.toNat_lt
  have hs : Octets.split? size (h.encode ++ rest) = some (h.encode, rest) := by
    rw [← h.length_encode]
    exact Octets.split?_append h.encode rest
  have h₂ : (Octets.ofNat 2 h.id.toNat).length = 2 := Octets.length_ofNat _ _
  simp only [decode?, hs, Option.map_some, Option.some.injEq]
  simp only [encode, List.take_left' h₂, List.drop_left' h₂, Octets.toNat_ofNat]
  rw [Nat.mod_eq_of_lt (show _ < Octets.span 2 from hid),
    Nat.mod_eq_of_lt (show _ < Octets.span 4 from hlength)]
  simp

/-- The reserved id is reported before the length. -/
def validate (limit : UInt32) (h : Header) : Except HeaderFault Unit :=
  if h.id = reservedId then .error .reservedId
  else if limit < h.length then .error (.tooLong h.length.toNat limit.toNat)
  else .ok ()

end Header
end PacketBus
