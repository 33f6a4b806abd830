import PacketBus.Proofs.Frame.Stream

/-! # Frames one after another

A frame tells where it ends. So octets fall in one way only into complete frames and what stands
after the last of them, and one pass that meets no refused header leaves just that.
-/
namespace PacketBus
open PacketBus.Stream

namespace Packet

/-- The frames of packets one after another. -/
def frames : List Packet → Except HeaderFault Octets
  | [] => .ok []
  | p :: ps => do return (← p.frame) ++ (← frames ps)

theorem frame_eq_ok_iff {p : Packet} {octets : Octets} :
    p.frame = .ok octets ↔ p.length < UInt32.size ∧ octets = p.wire := by
  by_cases hp : p.length < UInt32.size
  · rw [frame_eq_wire hp, Except.ok.injEq]
    exact ⟨fun h => ⟨hp, h.symm⟩, fun h => h.2.symm⟩
  · have herror : p.frame = .error (.tooLong p.length (UInt32.size - 1)) := by
      rw [frame, header_eq_error hp]
      rfl
    simp [herror, hp]

theorem frames_eq_ok_iff {ps : List Packet} {octets : Octets} :
    frames ps = .ok octets ↔ (∀ p ∈ ps, p.length < UInt32.size) ∧ octets = wires ps := by
  induction ps generalizing octets with
  | nil => simp [frames, eq_comm]
  | cons p ps ih =>
    constructor
    · intro h
      simp only [frames, bind, Except.bind, pure, Except.pure] at h
      cases hp : p.frame with
      | error fault => simp [hp] at h
      | ok first =>
        cases hps : frames ps with
        | error fault => simp [hp, hps] at h
        | ok rest =>
          obtain ⟨hlt, rfl⟩ := frame_eq_ok_iff.mp hp
          obtain ⟨hall, rfl⟩ := ih.mp hps
          simp only [hp, hps, Except.ok.injEq] at h
          exact ⟨List.forall_mem_cons.mpr ⟨hlt, hall⟩, h.symm⟩
    · rintro ⟨hall, rfl⟩
      obtain ⟨hlt, hrest⟩ := List.forall_mem_cons.mp hall
      simp only [frames, frame_eq_wire hlt, ih.mpr ⟨hrest, rfl⟩, bind, Except.bind, pure,
        Except.pure, wires_cons]

/-- A header that is in front of two streams announces the same payload in both. -/
theorem wire_append_inj {p q : Packet} {bs cs : Octets} (hp : p.length < UInt32.size)
    (hq : q.length < UInt32.size) (h : p.wire ++ bs = q.wire ++ cs) : p = q ∧ bs = cs := by
  have hdecode : Header.decode? (p.wire ++ bs) = Header.decode? (q.wire ++ cs) := by rw [h]
  rw [wire, wire, List.append_assoc, List.append_assoc, Header.decode?_encode_append,
    Header.decode?_encode_append, Option.some.injEq, Header.mk.injEq] at hdecode
  obtain ⟨hid, hfield⟩ := hdecode
  have hlength : p.length = q.length := by
    rw [← toNat_length hp, ← toNat_length hq, hfield]
  have hwires : p.wire.length = q.wire.length := by
    rw [length_wire, length_wire, frameLength, frameLength, hlength]
  obtain ⟨hwire, hrest⟩ := List.append_inj h hwires
  rw [wire, wire, hid, hlength] at hwire
  have hpayload := List.append_cancel_left hwire
  obtain ⟨id, payload⟩ := p
  obtain ⟨id', payload'⟩ := q
  exact ⟨congrArg₂ Packet.mk hid hpayload, hrest⟩

end Packet

namespace Stream
variable {limit : UInt32} {bs tail : Octets}

/-- A stream that consists of complete frames, whoever would take their packets. -/
def IsWhole (bs : Octets) : Prop := ∃ ps, Packet.frames ps = .ok bs

/-- What stands after the last complete frame of a stream. -/
structure Trails (bs tail : Octets) : Prop where
  octets_eq : ∃ ps octets, Packet.frames ps = .ok octets ∧ bs = octets ++ tail
  stuck : ∀ p frame, Packet.frame p = .ok frame → ¬frame <+: tail

theorem Trails.ne_wire_append (h : Trails bs tail) {p : Packet} (hp : p.length < UInt32.size)
    (rest : Octets) : tail ≠ p.wire ++ rest := by
  rintro rfl
  exact h.stuck p p.wire (Packet.frame_eq_wire hp) (List.prefix_append _ _)

theorem eq_of_wires_append {ps qs : List Packet} {tail rest : Octets}
    (hps : ∀ p ∈ ps, p.length < UInt32.size) (hqs : ∀ q ∈ qs, q.length < UInt32.size)
    (htail : ∀ p rest, Packet.length p < UInt32.size → tail ≠ p.wire ++ rest)
    (hrest : ∀ p tail, Packet.length p < UInt32.size → rest ≠ p.wire ++ tail)
    (h : wires ps ++ tail = wires qs ++ rest) : tail = rest := by
  induction ps generalizing qs with
  | nil =>
    cases qs with
    | nil => exact h
    | cons q qs =>
      rw [wires_nil, List.nil_append, wires_cons, List.append_assoc] at h
      exact absurd h (htail q _ (hqs q List.mem_cons_self))
  | cons p ps ih =>
    obtain ⟨hp, hps⟩ := List.forall_mem_cons.mp hps
    cases qs with
    | nil =>
      rw [wires_nil, List.nil_append, wires_cons, List.append_assoc] at h
      exact absurd h.symm (hrest p _ hp)
    | cons q qs =>
      obtain ⟨hq, hqs⟩ := List.forall_mem_cons.mp hqs
      rw [wires_cons, wires_cons, List.append_assoc, List.append_assoc] at h
      exact ih hps hqs (Packet.wire_append_inj hp hq h).2

/-- A stream falls into its complete frames and what stands after them in one way. -/
theorem Trails.unique {other : Octets} (h : Trails bs tail) (h' : Trails bs other) :
    tail = other := by
  obtain ⟨ps, _, hps, hbs⟩ := h.octets_eq
  obtain ⟨qs, _, hqs, hbs'⟩ := h'.octets_eq
  obtain ⟨hlt, rfl⟩ := Packet.frames_eq_ok_iff.mp hps
  obtain ⟨hlt', rfl⟩ := Packet.frames_eq_ok_iff.mp hqs
  exact eq_of_wires_append hlt hlt' (fun _ rest hp => h.ne_wire_append hp rest)
    (fun _ rest hp => h'.ne_wire_append hp rest) (hbs.symm.trans hbs')

theorem trails_nil_iff : Trails bs [] ↔ IsWhole bs := by
  constructor
  · intro h
    obtain ⟨ps, octets, hps, rfl⟩ := h.octets_eq
    exact ⟨ps, by rwa [List.append_nil]⟩
  · rintro ⟨ps, hps⟩
    refine ⟨⟨ps, bs, hps, (List.append_nil bs).symm⟩, ?_⟩
    intro p frame hp hprefix
    obtain ⟨-, rfl⟩ := Packet.frame_eq_ok_iff.mp hp
    exact p.wire_ne_nil (List.prefix_nil.mp hprefix)

/-- The fault that a sender finds in a packet is the one that its frame is refused for. -/
theorem front_wire_append_of_error {p : Packet} (hlt : p.length < UInt32.size)
    {fault : HeaderFault} (hv : p.validate limit = .error fault) (rest : Octets) :
    front limit (p.wire ++ rest) = .refused fault := by
  rw [Packet.validate, Packet.header_eq hlt] at hv
  refine front_eq_refused_iff.mpr ⟨_, ?_, hv⟩
  rw [Packet.wire, List.append_assoc]
  exact Header.decode?_encode_append _ _

/-- A frame that a receiver does not take is refused for its header. -/
theorem front_wire_append_of_not_fits {p : Packet} (hlt : p.length < UInt32.size)
    (hp : ¬p.Fits limit) (rest : Octets) :
    ∃ fault, front limit (p.wire ++ rest) = .refused fault := by
  cases hv : p.validate limit with
  | ok u => exact absurd (Packet.validate_eq_ok_iff.mp hv) hp
  | error fault => exact ⟨fault, front_wire_append_of_error hlt hv rest⟩

/-- Where no header is refused, one pass leaves what stands after the last complete frame. -/
theorem trails_rest (hf : (parse limit bs).fault = none) : Trails bs (parse limit bs).rest := by
  have h := parse_splits limit bs
  have hstuck := h.stuck
  rw [hf] at hstuck
  refine ⟨⟨_, _, Packet.frames_eq_ok_iff.mpr ⟨fun p hp => (h.fits p hp).length_lt, rfl⟩,
    h.octets⟩, ?_⟩
  rintro p frame hp ⟨rest, hrest⟩
  obtain ⟨hlt, rfl⟩ := Packet.frame_eq_ok_iff.mp hp
  rw [← hrest] at hstuck
  by_cases hfits : p.Fits limit
  · simp [front_wire_append hfits] at hstuck
  · obtain ⟨fault, hrefused⟩ := front_wire_append_of_not_fits hlt hfits rest
    simp [hrefused] at hstuck

end Stream
end PacketBus
