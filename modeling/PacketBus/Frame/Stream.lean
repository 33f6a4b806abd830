import PacketBus.Frame.Packet

/-! # Whole streams

A stream that is at hand as a whole is taken apart in one pass: header, payload, and again, up to
the first header that is refused or the first frame that is not complete.
-/
namespace PacketBus.Stream

/-- The packets of a stream, the fault that ends them if there is one, and what is left. -/
structure Parse where
  packets : List Packet
  fault : Option HeaderFault
  rest : Octets
  deriving DecidableEq, Repr

def Parse.cons (p : Packet) (r : Parse) : Parse := { r with packets := p :: r.packets }

/-- The first frame of a stream. -/
inductive Front
  | packet (p : Packet) (rest : Octets)
  | refused (fault : HeaderFault)
  | incomplete

def front (limit : UInt32) (bs : Octets) : Front :=
  match Header.decode? bs with
  | none => .incomplete
  | some h =>
    match h.validate limit with
    | .error fault => .refused fault
    | .ok () =>
      match Octets.split? h.length.toNat (bs.drop Header.size) with
      | none => .incomplete
      | some (payload, rest) => .packet ⟨h.id, payload⟩ rest

theorem length_of_front {limit : UInt32} {bs rest : Octets} {p : Packet}
    (hf : front limit bs = .packet p rest) : bs.length = rest.length + p.frameLength := by
  unfold front at hf
  split at hf
  · simp at hf
  · rename_i h hd
    split at hf
    · simp at hf
    · split at hf
      · simp at hf
      · rename_i payload rest' hs
        obtain ⟨rfl, rfl⟩ := Front.packet.inj hf
        simp only [Header.decode?, Option.map_eq_some_iff] at hd
        obtain ⟨⟨first, after⟩, hsplit, -⟩ := hd
        obtain ⟨hb, hn⟩ := Octets.append_of_split? hsplit
        obtain ⟨hr, -⟩ := Octets.append_of_split? hs
        have hl := congrArg List.length hr
        have hb := congrArg List.length hb
        simp only [List.length_append, List.length_drop, Packet.frameLength, Packet.length] at *
        omega

def parse (limit : UInt32) (bs : Octets) : Parse :=
  match _hf : front limit bs with
  | .packet p rest => (parse limit rest).cons p
  | .refused fault => ⟨[], some fault, bs⟩
  | .incomplete => ⟨[], none, bs⟩
termination_by bs.length
decreasing_by
  have := length_of_front _hf
  simp only [Packet.frameLength, Header.size] at this
  omega

end PacketBus.Stream
