import PacketBus.Proofs.Frame.Deframer
import PacketBus.Proofs.Frame.Frames

/-! # Packets on the side of the sender

A sender checks a packet before it writes the frame. The check finds the fault that a receiver would
find in the frame, and all ways to write the frame give the same octets.
-/
namespace PacketBus

/-! ## The check -/

namespace Packet

/-- The reserved id is told before the length. -/
theorem validate_eq {p : Packet} (hp : p.length < UInt32.size) (limit : UInt32) :
    p.validate limit =
      if p.id = Header.reservedId then .error .reservedId
      else if limit.toNat < p.length then .error (.tooLong p.length limit.toNat)
      else .ok () := by
  have hheader : p.validate limit = Header.validate limit ⟨p.id, UInt32.ofNat p.length⟩ := by
    rw [validate, header_eq hp]
    rfl
  rw [hheader]
  simp only [Header.validate, UInt32.lt_iff_toNat_lt, toNat_length hp]

end Packet

namespace Deframer
open PacketBus.Stream

/-- A receiver takes just the packets that the sender finds nothing wrong with, and leaves what
comes behind them. Of the others it refuses the header for the fault that the sender finds, the
reserved id before the length, and keeps all octets. -/
theorem next_extend_frame {p : Packet} (hp : p.length < UInt32.size) (limit : UInt32)
    (rest : Octets) :
    ∃ frame, p.frame = .ok frame ∧
      let d := (new limit).extend (frame ++ rest)
      (p.validate limit = .ok () → d.next = (.ok (some p), ⟨limit, none, rest⟩)) ∧
      ∀ fault, p.validate limit = .error fault →
        d.next = (.error fault, d) ∧
          fault = if p.id = Header.reservedId then .reservedId
            else .tooLong p.length limit.toNat := by
  refine ⟨p.wire, Packet.frame_eq_wire hp, ?_⟩
  intro d
  have hd : Holds limit (p.wire ++ rest) d := (holds_new limit).extend _
  constructor
  · intro hv
    exact hd.next_packet (front_wire_append (Packet.validate_eq_ok_iff.mp hv) rest)
  · intro fault hv
    refine ⟨hd.next_refused (front_wire_append_of_error hp hv rest), ?_⟩
    rw [Packet.validate_eq hp] at hv
    by_cases hid : p.id = Header.reservedId
    · rw [if_pos hid] at hv ⊢
      exact (Except.error.inj hv).symm
    · rw [if_neg hid] at hv ⊢
      split at hv
      · exact (Except.error.inj hv).symm
      · cases hv

/-- A packet with the reserved id that is too long besides. -/
theorem next_extend_frame_reserved :
    let p : Packet := ⟨0, [1, 2]⟩
    let d := (new 1).extend [0, 0, 0, 0, 0, 2, 1, 2, 9]
    p.length < UInt32.size ∧ p.validate 1 = .error .reservedId ∧
      d.next = (.error .reservedId, d) := by
  intro p d
  have hp : p.length < UInt32.size := by decide
  have hv : p.validate 1 = .error .reservedId := rfl
  obtain ⟨frame, hframe, -, herror⟩ := next_extend_frame hp 1 [9]
  have hoctets : p.frame = .ok [0, 0, 0, 0, 0, 2, 1, 2] := by decide
  obtain rfl := Except.ok.inj (hoctets.symm.trans hframe)
  exact ⟨hp, hv, (herror _ hv).1⟩

end Deframer

/-! ## The frame in a buffer -/

namespace Octets
variable {a b start stop : Nat} {bs buffer : Octets}

theorem addSizes?_of_lt (h : a + b < UInt64.size) : addSizes? a b = some (a + b) := if_pos h

theorem slice?_of_le (hstart : start ≤ stop) (hstop : stop ≤ bs.length) :
    slice? start stop bs = some ((bs.take stop).drop start) := if_pos ⟨hstart, hstop⟩

theorem overwriteFrom?_of_eq (h : start + bs.length = buffer.length) :
    overwriteFrom? start bs buffer = some (buffer.take start ++ bs) := if_pos h

/-- The buffer `after` holds the octets from an offset on, and is the buffer before elsewhere. -/
structure Placed (bs : Octets) (offset : Nat) (buffer after : Octets) : Prop where
  length_eq : after.length = buffer.length
  front_eq : after.take offset = buffer.take offset
  placed_eq : (after.drop offset).take bs.length = bs
  rest_eq : after.drop (offset + bs.length) = buffer.drop (offset + bs.length)

theorem placed_of_le {offset : Nat} (hroom : offset + bs.length ≤ buffer.length) :
    Placed bs offset buffer (buffer.take offset ++ bs ++ buffer.drop (offset + bs.length)) := by
  have hfront : (buffer.take offset).length = offset := List.length_take_of_le (by omega)
  have hplaced : (buffer.take offset ++ bs).length = offset + bs.length := by
    rw [List.length_append, hfront]
  constructor
  · rw [List.length_append, hplaced, List.length_drop]
    omega
  · rw [List.append_assoc, List.take_left' hfront]
  · rw [List.append_assoc, List.drop_left' hfront, List.take_left' rfl]
  · exact List.drop_left' hplaced

end Octets

namespace Packet
variable {p : Packet} {buffer : Octets}

theorem appendFrame_eq (hp : p.length < UInt32.size) (front : Octets) :
    p.appendFrame front = .ok (front ++ p.wire) := by
  rw [appendFrame, frame_eq_wire hp]
  rfl

/-- Where the frame has room, no sum is too large and no position is beyond the buffer. -/
theorem placeFrame?_of_le (hp : p.length < UInt32.size) (hbuffer : buffer.length < UInt64.size)
    {offset : Nat} (hroom : offset + p.frameLength ≤ buffer.length) :
    p.placeFrame? buffer offset =
      some (.ok p.frameLength,
        buffer.take offset ++ p.wire ++ buffer.drop (offset + p.frameLength)) := by
  let part := (buffer.take (offset + p.frameLength)).drop offset
  have hpart : part.length = p.frameLength := by
    rw [List.length_drop, List.length_take_of_le hroom]
    omega
  have hneeded : Octets.addSizes? Header.size p.length = some p.frameLength :=
    Octets.addSizes?_of_lt (show p.frameLength < UInt64.size by omega)
  have hstop := Octets.addSizes?_of_lt (Nat.lt_of_le_of_lt hroom hbuffer)
  have hslice : Octets.slice? offset (offset + p.frameLength) buffer = some part :=
    Octets.slice?_of_le (Nat.le_add_right _ _) hroom
  have hsize : Header.size ≤ part.length := hpart ▸ Nat.le_add_right _ _
  have hheader := Header.encodeInto?_of_le ⟨p.id, UInt32.ofNat p.length⟩ hsize
  have hpayload : Octets.overwriteFrom? Header.size p.payload
      (Header.encode ⟨p.id, UInt32.ofNat p.length⟩ ++ part.drop Header.size) = some p.wire := by
    rw [Octets.overwriteFrom?_of_eq, List.take_left' (Header.length_encode _)]
    · rfl
    · rw [List.length_append, Header.length_encode, List.length_drop, hpart, frameLength, length]
      omega
  have henough : ¬buffer.length - offset < p.frameLength := by omega
  rw [placeFrame?, header_eq hp]
  simp only [hneeded, hstop, hslice, hheader, hpayload, henough, if_false, Option.bind_eq_bind,
    Option.bind_some]
  rfl

theorem placeFrame?_of_lt (hp : p.length < UInt32.size) {offset : Nat}
    (hroom : buffer.length < offset + p.frameLength) :
    p.placeFrame? buffer offset =
      some (.error (.noRoom p.frameLength (buffer.length - offset)), buffer) := by
  have hneeded : Octets.addSizes? Header.size p.length = some p.frameLength :=
    Octets.addSizes?_of_lt (Nat.lt_trans (Nat.add_lt_add_left hp _) (by decide))
  have hshort : buffer.length - offset < p.frameLength := by
    have hpos : 0 < p.frameLength := Nat.lt_of_lt_of_le (by decide) (Nat.le_add_right 6 _)
    omega
  rw [placeFrame?, header_eq hp]
  simp only [hneeded, hshort, if_true, Option.bind_eq_bind, Option.bind_some]
  rfl

/-- The frame of a packet is placed as a whole or not at all, just where it has room. It is the
frame that goes behind what a growing buffer holds. -/
theorem placeFrame?_whole (hp : p.length < UInt32.size) (hbuffer : buffer.length < UInt64.size)
    (offset : Nat) :
    ∃ frame, p.frame = .ok frame ∧ frame.length = Header.size + p.length ∧
      (∀ front, p.appendFrame front = .ok (front ++ frame)) ∧
      ∃ answer after, p.placeFrame? buffer offset = some (answer, after) ∧
        ((offset + frame.length ≤ buffer.length ∧ answer = .ok frame.length ∧
            Octets.Placed frame offset buffer after) ∨
          ∃ available, buffer.length < offset + frame.length ∧
            answer = .error (.noRoom frame.length available) ∧ after = buffer ∧
            (offset + available = buffer.length ∨
              buffer.length < offset ∧ available = 0)) := by
  refine ⟨p.wire, frame_eq_wire hp, p.length_wire, appendFrame_eq hp, ?_⟩
  by_cases hroom : offset + p.wire.length ≤ buffer.length
  · have hplaced := Octets.placed_of_le hroom
    rw [length_wire] at hroom hplaced ⊢
    exact ⟨_, _, placeFrame?_of_le hp hbuffer hroom, .inl ⟨hroom, rfl, hplaced⟩⟩
  · rw [length_wire] at hroom ⊢
    have hlt := Nat.lt_of_not_le hroom
    exact ⟨_, _, placeFrame?_of_lt hp hlt, .inr ⟨_, hlt, rfl, rfl, by omega⟩⟩

/-- At the end of a buffer, and with one octet too little room. -/
theorem placeFrame?_whole_end :
    let p : Packet := ⟨9, [7]⟩
    let buffer : Octets := List.replicate 8 0xFF
    p.length < UInt32.size ∧ buffer.length < UInt64.size ∧
      (∃ after, p.placeFrame? buffer 1 = some (.ok 7, after) ∧
        (after.drop 1).take 7 = [0, 9, 0, 0, 0, 1, 7] ∧ after.take 1 = [0xFF]) ∧
      p.placeFrame? buffer 2 = some (.error (.noRoom 7 6), buffer) := by
  intro p buffer
  have hp : p.length < UInt32.size := by decide
  have hbuffer : buffer.length < UInt64.size := by decide
  have hframe : p.frame = .ok [0, 9, 0, 0, 0, 1, 7] := by decide
  refine ⟨hp, hbuffer, ?_, ?_⟩
  · obtain ⟨frame, hsame, -, -, answer, after, hplace, hend⟩ := placeFrame?_whole hp hbuffer 1
    obtain rfl := Except.ok.inj (hframe.symm.trans hsame)
    obtain ⟨-, rfl, hafter⟩ | ⟨available, hlt, -⟩ := hend
    · exact ⟨after, hplace, hafter.placed_eq, hafter.front_eq⟩
    · exact absurd hlt (by decide)
  · obtain ⟨frame, hsame, -, -, answer, after, hplace, hend⟩ := placeFrame?_whole hp hbuffer 2
    obtain rfl := Except.ok.inj (hframe.symm.trans hsame)
    obtain ⟨hle, -⟩ | ⟨available, -, rfl, rfl, havailable⟩ := hend
    · exact absurd hle (by decide)
    · have hlength : buffer.length = 8 := rfl
      obtain rfl : available = 6 := by omega
      exact hplace

end Packet
end PacketBus
