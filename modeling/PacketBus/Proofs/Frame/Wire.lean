import Mathlib.Data.List.Induction
import PacketBus.Frame.Packet

/-! # Packets on the wire

A header and its six octets determine each other, in front of a stream or of a buffer. A packet that
fits a limit is exactly one that a receiver with this limit takes.
-/
namespace PacketBus

namespace Octets

theorem toNat_lt (field : Octets) : toNat field < span field.length := by
  induction field using List.reverseRecOn with
  | nil => simp [toNat]
  | append_singleton field b ih =>
    have hb := b.toNat_lt
    rw [toNat_append_singleton, List.length_append, List.length_singleton, span_succ]
    omega

theorem ofNat_toNat (field : Octets) : ofNat field.length (toNat field) = field := by
  induction field using List.reverseRecOn with
  | nil => rfl
  | append_singleton field b ih =>
    have hb := b.toNat_lt
    have hdiv : (256 * toNat field + b.toNat) / 256 = toNat field := by omega
    have hlast : UInt8.ofNat (256 * toNat field + b.toNat) = b := by
      apply UInt8.toNat_inj.mp
      rw [UInt8.toNat_ofNat']
      omega
    rw [toNat_append_singleton, List.length_append, List.length_singleton, ofNat, hdiv, hlast, ih]

end Octets

namespace Header

theorem decode?_eq_none_iff {bs : Octets} : decode? bs = none ↔ bs.length < size := by
  rw [decode?, Option.map_eq_none_iff, Octets.split?_eq_none_iff]

theorem encode_of_fields {front : Octets} (hf : front.length = size) :
    encode ⟨UInt16.ofNat (Octets.toNat (front.take 2)),
      UInt32.ofNat (Octets.toNat (front.drop 2))⟩ = front := by
  have htake : (front.take 2).length = 2 := by
    rw [List.length_take, hf]
    rfl
  have hdrop : (front.drop 2).length = 4 := by
    rw [List.length_drop, hf]
    rfl
  have hid := Octets.toNat_lt (front.take 2)
  have hlength := Octets.toNat_lt (front.drop 2)
  rw [htake] at hid
  rw [hdrop] at hlength
  have hfirst := Octets.ofNat_toNat (front.take 2)
  have hlast := Octets.ofNat_toNat (front.drop 2)
  rw [htake] at hfirst
  rw [hdrop] at hlast
  simp only [encode]
  rw [UInt16.toNat_ofNat_of_lt' hid, UInt32.toNat_ofNat_of_lt' hlength, hfirst, hlast,
    List.take_append_drop]

theorem decode?_eq_some_iff {bs : Octets} {h : Header} :
    decode? bs = some h ↔ ∃ rest, bs = h.encode ++ rest := by
  constructor
  · intro hd
    simp only [decode?, Option.map_eq_some_iff] at hd
    obtain ⟨⟨front, rest⟩, hs, rfl⟩ := hd
    obtain ⟨rfl, hf⟩ := Octets.append_of_split? hs
    exact ⟨rest, by rw [encode_of_fields hf]⟩
  · rintro ⟨rest, rfl⟩
    exact decode?_encode_append h rest

theorem decode?_eq_some_iff_take {bs : Octets} {h : Header} :
    decode? bs = some h ↔ size ≤ bs.length ∧ bs.take size = h.encode := by
  rw [decode?_eq_some_iff]
  constructor
  · rintro ⟨rest, rfl⟩
    refine ⟨?_, List.take_left' h.length_encode⟩
    rw [List.length_append, length_encode]
    exact Nat.le_add_right _ _
  · rintro ⟨-, htake⟩
    exact ⟨bs.drop size, by rw [← htake, List.take_append_drop]⟩

theorem exists_decode?_of_le {bs : Octets} (hsize : size ≤ bs.length) :
    ∃ h, decode? bs = some h ∧ h.encode = bs.take size := by
  cases hd : decode? bs with
  | none => exact absurd (decode?_eq_none_iff.mp hd) (Nat.not_lt.mpr hsize)
  | some h => exact ⟨h, rfl, (decode?_eq_some_iff_take.mp hd).2.symm⟩

theorem encode_injective {g h : Header} (heq : g.encode = h.encode) : g = h := by
  have hg := decode?_encode_append g []
  rw [heq, decode?_encode_append] at hg
  exact (Option.some.inj hg).symm

/-- The six octets, each field from its highest octet down. -/
theorem encode_eq_octets (h : Header) :
    h.encode = [(h.id >>> 8).toUInt8, h.id.toUInt8, (h.length >>> 24).toUInt8,
      (h.length >>> 16).toUInt8, (h.length >>> 8).toUInt8, h.length.toUInt8] := by
  have hid : Octets.ofNat 2 h.id.toNat = [(h.id >>> 8).toUInt8, h.id.toUInt8] := by
    simp [Octets.ofNat, ← UInt8.toNat_inj, Nat.shiftRight_eq_div_pow]
  have hlength : Octets.ofNat 4 h.length.toNat = [(h.length >>> 24).toUInt8,
      (h.length >>> 16).toUInt8, (h.length >>> 8).toUInt8, h.length.toUInt8] := by
    simp [Octets.ofNat, ← UInt8.toNat_inj, Nat.shiftRight_eq_div_pow, Nat.div_div_eq_div_mul]
  rw [encode, hid, hlength]
  rfl

theorem encodeInto?_of_le (h : Header) {buffer : Octets} (hsize : size ≤ buffer.length) :
    h.encodeInto? buffer = some (h.encode ++ buffer.drop size) := by
  have hfront : (buffer.take size).length = size := List.length_take_of_le hsize
  simp only [encodeInto?, Octets.split?, if_pos hfront, Option.map_some]

/-- A header and its six octets determine each other, whatever comes behind the octets. A buffer
with room for them has them in front, and stays as it is beyond. -/
theorem encode_exact (h : Header) :
    h.encode = [(h.id >>> 8).toUInt8, h.id.toUInt8, (h.length >>> 24).toUInt8,
      (h.length >>> 16).toUInt8, (h.length >>> 8).toUInt8, h.length.toUInt8] ∧
    (∀ bs, decode? bs = some h ↔ size ≤ bs.length ∧ bs.take size = h.encode) ∧
    (∀ rest, decode? (h.encode ++ rest) = some h) ∧
    (∀ bs, size ≤ bs.length → ∃ g, decode? bs = some g ∧ g.encode = bs.take size) ∧
    (∀ g, g.encode = h.encode → g = h) ∧
    ∀ buffer, size ≤ buffer.length → ∃ after, h.encodeInto? buffer = some after ∧
      after.length = buffer.length ∧ after.take size = h.encode ∧
      after.drop size = buffer.drop size := by
  refine ⟨h.encode_eq_octets, fun _ => decode?_eq_some_iff_take, decode?_encode_append h,
    fun _ => exists_decode?_of_le, fun _ => encode_injective, ?_⟩
  intro buffer hsize
  refine ⟨_, h.encodeInto?_of_le hsize, ?_, ?_, ?_⟩
  · rw [List.length_append, length_encode, List.length_drop]
    omega
  · exact List.take_left' h.length_encode
  · exact List.drop_left' h.length_encode

/-- The highest id and a length with four octets that differ, in a buffer with an octet more. -/
theorem encode_exact_highest :
    let h : Header := ⟨0xFFFF, 0x03040506⟩
    let octets : Octets := [0xFF, 0xFF, 3, 4, 5, 6]
    h.encode = octets ∧ decode? (octets ++ [7]) = some h ∧
      ∃ after, h.encodeInto? (List.replicate 7 9) = some after ∧ after.take size = octets ∧
        after.drop size = [9] := by
  intro h octets
  obtain ⟨hencode, -, hdecode, -, -, hinto⟩ := encode_exact h
  have hoctets : h.encode = octets := hencode.trans (by decide)
  obtain ⟨after, hafter, -, htake, hdrop⟩ := hinto (List.replicate 7 9) (by decide)
  exact ⟨hoctets, hoctets ▸ hdecode [7], after, hafter, htake.trans hoctets, hdrop⟩

/-- A header that is complete does not change with what follows. -/
theorem decode?_append {bs : Octets} {h : Header} (hd : decode? bs = some h) (more : Octets) :
    decode? (bs ++ more) = some h := by
  obtain ⟨rest, rfl⟩ := decode?_eq_some_iff.mp hd
  rw [List.append_assoc]
  exact decode?_encode_append h (rest ++ more)

theorem validate_eq_ok_iff {limit : UInt32} {h : Header} :
    h.validate limit = .ok () ↔ h.id ≠ reservedId ∧ h.length ≤ limit := by
  unfold validate
  split
  · rename_i hid
    simp [hid]
  · rename_i hid
    split
    · rename_i hlt
      simpa [hid] using hlt
    · rename_i hle
      simpa [hid] using hle

end Header

namespace Packet

/-- The octets of a packet whose length fits its field. -/
def wire (p : Packet) : Octets := Header.encode ⟨p.id, UInt32.ofNat p.length⟩ ++ p.payload

/-- A packet that does not use the reserved id and is no longer than a limit. -/
def Fits (limit : UInt32) (p : Packet) : Prop :=
  p.id ≠ Header.reservedId ∧ p.length ≤ limit.toNat

instance (limit : UInt32) (p : Packet) : Decidable (p.Fits limit) :=
  inferInstanceAs (Decidable (_ ∧ _))

theorem Fits.length_lt {limit : UInt32} {p : Packet} (hp : p.Fits limit) : p.length < UInt32.size :=
  Nat.lt_of_le_of_lt hp.2 limit.toNat_lt

theorem Fits.mono {limit raised : UInt32} {p : Packet} (hp : p.Fits limit) (hle : limit ≤ raised) :
    p.Fits raised :=
  ⟨hp.1, Nat.le_trans hp.2 (UInt32.le_iff_toNat_le.mp hle)⟩

theorem header_eq {p : Packet} (hp : p.length < UInt32.size) :
    p.header = .ok ⟨p.id, UInt32.ofNat p.length⟩ := if_pos hp

theorem header_eq_error {p : Packet} (hp : ¬p.length < UInt32.size) :
    p.header = .error (.tooLong p.length (UInt32.size - 1)) := if_neg hp

theorem frame_eq_wire {p : Packet} (hp : p.length < UInt32.size) : p.frame = .ok p.wire := by
  rw [frame, header_eq hp]
  rfl

@[simp] theorem length_wire (p : Packet) : p.wire.length = p.frameLength := by
  simp [wire, frameLength, length]

theorem wire_ne_nil (p : Packet) : p.wire ≠ [] := by
  intro hnil
  have hlength := p.length_wire
  rw [hnil, frameLength, Header.size, List.length_nil] at hlength
  omega

theorem toNat_length {p : Packet} (hp : p.length < UInt32.size) :
    (UInt32.ofNat p.length).toNat = p.length := UInt32.toNat_ofNat_of_lt' hp

theorem validate_header_eq_ok_iff {limit : UInt32} {p : Packet} (hp : p.length < UInt32.size) :
    Header.validate limit ⟨p.id, UInt32.ofNat p.length⟩ = .ok () ↔ p.Fits limit := by
  rw [Header.validate_eq_ok_iff, UInt32.le_iff_toNat_le, toNat_length hp]
  rfl

theorem validate_eq_ok_iff {limit : UInt32} {p : Packet} :
    p.validate limit = .ok () ↔ p.Fits limit := by
  by_cases hp : p.length < UInt32.size
  · rw [← validate_header_eq_ok_iff hp, validate, header_eq hp]
    rfl
  · have hnot : ¬p.Fits limit := fun hf => hp hf.length_lt
    have herror : p.validate limit = .error (.tooLong p.length (UInt32.size - 1)) := by
      rw [validate, header_eq_error hp]
      rfl
    simp [herror, hnot]

end Packet
end PacketBus
