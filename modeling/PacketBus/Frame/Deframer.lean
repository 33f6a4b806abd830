import PacketBus.Frame.Packet

/-! # Packets from a stream

A deframer collects octets as they come and gives packets as they become complete. Between calls it
remembers a header whose payload is still to come.
-/
namespace PacketBus

structure Deframer where
  limit : UInt32
  pending : Option Header
  buffered : Octets
  deriving DecidableEq, Repr

namespace Deframer

def new (limit : UInt32) : Deframer := ⟨limit, none, []⟩

def length (d : Deframer) : Nat := d.buffered.length

def isEmpty (d : Deframer) : Bool := d.buffered.isEmpty

/-- Whether a packet has begun. -/
def hasPartial (d : Deframer) : Bool := !d.isEmpty || d.pending.isSome

def clear (d : Deframer) : Deframer := new d.limit

def extend (d : Deframer) (chunk : Octets) : Deframer := { d with buffered := d.buffered ++ chunk }

/-- Takes the payload of a header from what follows the header. -/
def takePayload (d : Deframer) (h : Header) (bs : Octets) : Option Packet × Deframer :=
  match bs.split? h.length.toNat with
  | some (payload, rest) => (some ⟨h.id, payload⟩, { d with pending := none, buffered := rest })
  | none => (none, { d with pending := some h, buffered := bs })

/-- The next packet, if it is complete. A header that is refused stays in front. -/
def next (d : Deframer) : Except HeaderFault (Option Packet) × Deframer :=
  match d.pending with
  | some h =>
    let (packet, d) := d.takePayload h d.buffered
    (.ok packet, d)
  | none =>
    match Header.decode? d.buffered with
    | none => (.ok none, d)
    | some h =>
      match h.validate d.limit with
      | .error fault => (.error fault, d)
      | .ok () =>
        let (packet, d) := d.takePayload h (d.buffered.drop Header.size)
        (.ok packet, d)

/-- What a packet takes from: its octets, and the header that is pending. -/
def weight (d : Deframer) : Nat := d.buffered.length + if d.pending.isSome then 1 else 0

theorem takePayload_weight {d e : Deframer} {h : Header} {bs : Octets} {p : Packet}
    (ht : d.takePayload h bs = (some p, e)) : e.weight ≤ bs.length := by
  unfold takePayload at ht
  split at ht
  · rename_i payload rest hs
    obtain ⟨hbs, -⟩ := Octets.append_of_split? hs
    obtain ⟨-, rfl⟩ := Prod.mk.inj ht
    simp [weight, hbs]
  · simp at ht

theorem next_weight {d e : Deframer} {p : Packet} (hn : d.next = (.ok (some p), e)) :
    e.weight < d.weight := by
  unfold next at hn
  split at hn
  · rename_i h hp
    have ht : d.takePayload h d.buffered = (some p, e) := by
      simpa [Prod.ext_iff] using hn
    have := takePayload_weight ht
    simp [weight, hp] at *
    omega
  · split at hn
    · simp at hn
    · rename_i h hd
      split at hn
      · simp at hn
      · have ht : d.takePayload h (d.buffered.drop Header.size) = (some p, e) := by
          simpa [Prod.ext_iff] using hn
        have hw := takePayload_weight ht
        have hl : Header.size ≤ d.buffered.length := by
          simp only [Header.decode?, Option.map_eq_some_iff] at hd
          obtain ⟨⟨front, rest⟩, hs, -⟩ := hd
          obtain ⟨hb, hf⟩ := Octets.append_of_split? hs
          rw [hb, List.length_append]
          omega
        simp only [weight, List.length_drop, Header.size] at *
        omega

/-- All packets that are complete, and the fault that ends them if there is one. -/
def drain (d : Deframer) : List Packet × Option HeaderFault × Deframer :=
  match _hn : d.next with
  | (.ok (some p), e) =>
    let (packets, fault, last) := e.drain
    (p :: packets, fault, last)
  | (.ok none, e) => ([], none, e)
  | (.error fault, e) => ([], some fault, e)
termination_by d.weight
decreasing_by exact next_weight _hn

/-- Packets that come before a refused header are lost with it. -/
def push (d : Deframer) (chunk : Octets) : Except HeaderFault (List Packet) × Deframer :=
  match (d.extend chunk).drain with
  | (packets, none, e) => (.ok packets, e)
  | (_, some fault, e) => (.error fault, e)

end Deframer
end PacketBus
