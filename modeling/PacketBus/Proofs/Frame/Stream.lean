import PacketBus.Frame.Stream
import PacketBus.Proofs.Frame.Wire

/-! # The structure of whole streams

A stream is the frames of its packets followed by a remainder that starts with a refused header or
with an incomplete frame. Packets that are complete stay what they are when the stream goes on.
-/
namespace PacketBus.Stream
variable {limit : UInt32}

theorem front_wire_append {p : Packet} (hp : p.Fits limit) (rest : Octets) :
    front limit (p.wire ++ rest) = .packet p rest := by
  have hlt := hp.length_lt
  have hd : Header.decode? (p.wire ++ rest) = some ⟨p.id, UInt32.ofNat p.length⟩ := by
    rw [Packet.wire, List.append_assoc]
    exact Header.decode?_encode_append _ _
  have hv := (Packet.validate_header_eq_ok_iff hlt).mpr hp
  have hdrop : (p.wire ++ rest).drop Header.size = p.payload ++ rest := by
    rw [Packet.wire, List.append_assoc]
    exact List.drop_left' (Header.length_encode _)
  have hs : Octets.split? (UInt32.ofNat p.length).toNat (p.payload ++ rest) =
      some (p.payload, rest) := by
    rw [Packet.toNat_length hlt]
    exact Octets.split?_append p.payload rest
  simp only [front, hd, hv, hdrop, hs]

theorem front_eq_packet_iff {bs rest : Octets} {p : Packet} :
    front limit bs = .packet p rest ↔ p.Fits limit ∧ bs = p.wire ++ rest := by
  constructor
  · intro hf
    unfold front at hf
    cases hd : Header.decode? bs with
    | none => simp [hd] at hf
    | some h =>
      cases hv : h.validate limit with
      | error fault => simp [hd, hv] at hf
      | ok u =>
        cases hs : Octets.split? h.length.toNat (bs.drop Header.size) with
        | none => simp [hd, hv, hs] at hf
        | some s =>
          obtain ⟨payload, after⟩ := s
          simp only [hd, hv, hs, Front.packet.injEq] at hf
          obtain ⟨rfl, rfl⟩ := hf
          obtain ⟨tail, rfl⟩ := Header.decode?_eq_some_iff.mp hd
          rw [List.drop_left' (Header.length_encode h)] at hs
          obtain ⟨rfl, hn⟩ := Octets.append_of_split? hs
          have hh : h = ⟨h.id, UInt32.ofNat payload.length⟩ := by
            rw [hn, UInt32.ofNat_toNat]
          have hlt : payload.length < UInt32.size := hn ▸ h.length.toNat_lt
          rw [hh] at hv
          refine ⟨(Packet.validate_header_eq_ok_iff (p := ⟨h.id, payload⟩) hlt).mp hv, ?_⟩
          rw [Packet.wire, Packet.length, ← hh, List.append_assoc]
  · rintro ⟨hp, rfl⟩
    exact front_wire_append hp rest

theorem front_eq_refused_iff {bs : Octets} {fault : HeaderFault} :
    front limit bs = .refused fault ↔
      ∃ h, Header.decode? bs = some h ∧ h.validate limit = .error fault := by
  unfold front
  cases hd : Header.decode? bs with
  | none => simp
  | some h =>
    cases hv : h.validate limit with
    | error other => simp [hv]
    | ok u =>
      cases hs : Octets.split? h.length.toNat (bs.drop Header.size) with
      | none => simp [hv, hs]
      | some s => simp [hv, hs]

theorem front_refused_append {bs : Octets} {fault : HeaderFault}
    (hf : front limit bs = .refused fault) (more : Octets) :
    front limit (bs ++ more) = .refused fault := by
  obtain ⟨h, hd, hv⟩ := front_eq_refused_iff.mp hf
  exact front_eq_refused_iff.mpr ⟨h, Header.decode?_append hd more, hv⟩

@[simp] theorem front_nil : front limit [] = .incomplete := rfl

/-- The same stream with packets in front of it. -/
def Parse.prepend (ps : List Packet) (r : Parse) : Parse := { r with packets := ps ++ r.packets }

@[simp] theorem Parse.prepend_packets (ps : List Packet) (r : Parse) :
    (r.prepend ps).packets = ps ++ r.packets := rfl

@[simp] theorem Parse.prepend_fault (ps : List Packet) (r : Parse) :
    (r.prepend ps).fault = r.fault := rfl

theorem parse_of_packet {bs rest : Octets} {p : Packet} (hf : front limit bs = .packet p rest) :
    parse limit bs = (parse limit rest).prepend [p] := by
  rw [parse]
  split
  · rename_i q after hq
    obtain ⟨rfl, rfl⟩ := Front.packet.inj (hf.symm.trans hq)
    rfl
  · rename_i fault hq
    simp [hf] at hq
  · rename_i hq
    simp [hf] at hq

theorem parse_of_refused {bs : Octets} {fault : HeaderFault}
    (hf : front limit bs = .refused fault) : parse limit bs = ⟨[], some fault, bs⟩ := by
  rw [parse]
  split
  · rename_i q after hq
    simp [hf] at hq
  · rename_i other hq
    rw [Front.refused.inj (hf.symm.trans hq)]
  · rename_i hq
    simp [hf] at hq

theorem parse_of_incomplete {bs : Octets} (hf : front limit bs = .incomplete) :
    parse limit bs = ⟨[], none, bs⟩ := by
  rw [parse]
  split
  · rename_i q after hq
    simp [hf] at hq
  · rename_i fault hq
    simp [hf] at hq
  · rfl

@[simp] theorem parse_nil (limit : UInt32) : parse limit [] = ⟨[], none, []⟩ :=
  parse_of_incomplete front_nil

/-- The octets of packets in order. -/
def wires (ps : List Packet) : Octets := ps.flatMap Packet.wire

@[simp] theorem wires_nil : wires [] = [] := rfl

@[simp] theorem wires_cons (p : Packet) (ps : List Packet) :
    wires (p :: ps) = p.wire ++ wires ps := rfl

@[simp] theorem wires_append (ps qs : List Packet) : wires (ps ++ qs) = wires ps ++ wires qs :=
  List.flatMap_append

/-- Each packet has a header at least. -/
@[simp] theorem wires_eq_nil_iff {ps : List Packet} : wires ps = [] ↔ ps = [] := by
  cases ps with
  | nil => simp
  | cons p ps => simp [p.wire_ne_nil]

theorem parse_wires_append {ps : List Packet} (hp : ∀ p ∈ ps, p.Fits limit) (bs : Octets) :
    parse limit (wires ps ++ bs) = (parse limit bs).prepend ps := by
  induction ps with
  | nil => rfl
  | cons p ps ih =>
    have hfit := hp p List.mem_cons_self
    have htail := ih fun q hq => hp q (List.mem_cons_of_mem _ hq)
    rw [wires_cons, List.append_assoc, parse_of_packet (front_wire_append hfit _), htail]
    rfl

/-- How a stream falls into its packets and what is left. -/
structure Splits (limit : UInt32) (bs : Octets) (r : Parse) : Prop where
  octets : bs = wires r.packets ++ r.rest
  fits : ∀ p ∈ r.packets, p.Fits limit
  stuck : front limit r.rest = r.fault.elim .incomplete .refused

theorem parse_splits (limit : UInt32) (bs : Octets) : Splits limit bs (parse limit bs) := by
  fun_induction parse limit bs with
  | case1 bs p rest hf ih =>
    obtain ⟨hp, hbs⟩ := front_eq_packet_iff.mp hf
    refine ⟨?_, ?_, ih.stuck⟩
    · simp only [Parse.cons, wires_cons, List.append_assoc]
      rw [← ih.octets]
      exact hbs
    · intro q hq
      rcases List.mem_cons.mp hq with rfl | hq
      · exact hp
      · exact ih.fits q hq
  | case2 bs fault hf => exact ⟨rfl, by simp, hf⟩
  | case3 bs hf => exact ⟨rfl, by simp, hf⟩

/-- A stream that goes on is taken apart from where it was left. -/
theorem parse_append (limit : UInt32) (bs more : Octets) :
    parse limit (bs ++ more) =
      (parse limit ((parse limit bs).rest ++ more)).prepend (parse limit bs).packets := by
  have h := parse_splits limit bs
  conv => lhs; rw [h.octets]
  rw [List.append_assoc]
  exact parse_wires_append h.fits _

theorem parse_append_of_fault {bs : Octets} {fault : HeaderFault}
    (hf : (parse limit bs).fault = some fault) (more : Octets) :
    (parse limit (bs ++ more)).packets = (parse limit bs).packets ∧
      (parse limit (bs ++ more)).fault = some fault := by
  have hstuck := (parse_splits limit bs).stuck
  rw [hf] at hstuck
  rw [parse_append, parse_of_refused (front_refused_append hstuck more)]
  simp

theorem packets_prefix_append (limit : UInt32) (bs more : Octets) :
    (parse limit bs).packets <+: (parse limit (bs ++ more)).packets := by
  rw [parse_append]
  exact List.prefix_append _ _

section
variable {raised : UInt32} {bs : Octets}

/-- A frame that lacks octets lacks them with a larger limit too. -/
theorem front_incomplete_of_le (hle : limit ≤ raised) (hf : front limit bs = .incomplete) :
    front raised bs = .incomplete := by
  unfold front at hf ⊢
  cases hd : Header.decode? bs with
  | none => rfl
  | some h =>
    simp only [hd] at hf ⊢
    cases hv : h.validate limit with
    | error fault => simp [hv] at hf
    | ok u =>
      obtain ⟨hid, hlength⟩ := Header.validate_eq_ok_iff.mp hv
      have hraised : h.validate raised = .ok () :=
        Header.validate_eq_ok_iff.mpr ⟨hid, UInt32.le_trans hlength hle⟩
      simpa only [hv, hraised] using hf

/-- A larger limit gives the same packets first, and goes on from what was left. -/
theorem parse_of_le (hle : limit ≤ raised) (bs : Octets) :
    parse raised bs = (parse raised (parse limit bs).rest).prepend (parse limit bs).packets := by
  have h := parse_splits limit bs
  conv => lhs; rw [h.octets]
  exact parse_wires_append (fun p hp => (h.fits p hp).mono hle) _

/-- Nothing but a refused header is taken otherwise with a larger limit. -/
theorem parse_eq_of_le (hle : limit ≤ raised) (hf : (parse limit bs).fault = none) :
    parse raised bs = parse limit bs := by
  have hstuck := (parse_splits limit bs).stuck
  rw [hf] at hstuck
  rw [parse_of_le hle, parse_of_incomplete (front_incomplete_of_le hle hstuck)]
  simp [Parse.prepend, ← hf]

end

end PacketBus.Stream
