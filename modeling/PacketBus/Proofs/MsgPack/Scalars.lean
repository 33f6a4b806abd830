import PacketBus.Proofs.MsgPack.Items
import PacketBus.Proofs.Payload.Parts
import PacketBus.Proofs.Payload.Shape

/-! # Numbers, strings and truth values come back from MessagePack

A scalar is one item. Its schema accepts the item that was written for it, whatever follows.
-/
namespace PacketBus.MsgPack

variable {α : Type}

/-- The octets are read as the value, whatever follows them. -/
def Reads (read : Reader α) (bs : Octets) (v : α) : Prop :=
  ∀ rest, read (bs ++ rest) = .ok (v, rest)

/-- Octets with a marker in front that does not stand for nothing. -/
def Solid (bs : Octets) : Prop := ∃ b ∈ bs.head?, Marker.ofOctet b ≠ .nil

theorem Reads.ne_nil {read : Marker → Reader α} {bs : Octets} {v : α}
    (h : Reads (marked read) bs v) : bs ≠ [] := by
  rintro rfl
  have hnil := h []
  simp [marked, readMarker, bind, Except.bind] at hnil

theorem Solid.append {bs : Octets} (h : Solid bs) (cs : Octets) : Solid (bs ++ cs) := by
  obtain ⟨b, hb, hm⟩ := h
  exact ⟨b, by simp [Option.mem_def.mp hb], hm⟩

/-! ## Items -/

section
variable {bs : Octets} {m : Marker} {item : Item}

theorem Encodes.solid (h : Encodes bs m item) (hm : m ≠ .nil) : Solid bs := by
  obtain ⟨b, body, rfl, rfl, -⟩ := h
  exact ⟨b, rfl, hm⟩

/-- A reader that gets the marker finds the item after it. -/
theorem Encodes.marked (h : Encodes bs m item) (read : Marker → Reader α) (rest : Octets) :
    ∃ body, MsgPack.marked read (bs ++ rest) = read m (body ++ rest) ∧
      readItem m (body ++ rest) = .ok (item, rest) := by
  obtain ⟨b, body, rfl, rfl, hitem⟩ := h
  exact ⟨body, rfl, hitem rest⟩

theorem Encodes.reads_offer (h : Encodes bs m item) {accept : Offer → Except Mismatch α}
    {depth : Nat} {v : α} (haccept : offer accept depth item = .ok v) :
    Reads (MsgPack.marked (readOffer accept depth)) bs v := by
  intro rest
  obtain ⟨body, hread, hitem⟩ := h.marked (readOffer accept depth) rest
  rw [hread, readOffer, hitem, ok_bind]
  simp only [haccept, ok_bind]
  rfl

theorem Encodes.reads_plain (h : Encodes bs m item) (hplain : m.isPlain = true) {s : Scalar}
    {v : s.Value} (haccept : offer s.accept maxDepth item = .ok v) :
    Reads (MsgPack.marked (readPlain s)) bs v := by
  have hoffer := h.reads_offer haccept
  obtain ⟨b, body, rfl, rfl, -⟩ := h
  intro rest
  have hread : MsgPack.marked (readPlain s) (b :: body ++ rest) =
      MsgPack.marked (readOffer s.accept maxDepth) (b :: body ++ rest) := if_pos hplain
  rw [hread, hoffer]

end

theorem enter_of_lt {depth : Nat} (h : 1 < depth) : enter depth = .ok (depth - 1) :=
  if_neg (Nat.not_le.mpr h)

theorem reads_text {s : String} (hs : (Utf8.encode s).length < UInt32.size) (depth : Nat)
    {accept : Offer → Except Mismatch α} {v : α} (haccept : accept (.string s) = .ok v) :
    Reads (marked (readOffer accept depth)) (text s) v := by
  obtain ⟨m, -, hitem⟩ := encodes_string hs
  apply hitem.reads_offer
  simp only [offer, Utf8.decode_encode, haccept, mapError_ok]

theorem solid_text {s : String} (hs : (Utf8.encode s).length < UInt32.size) :
    Solid (text s) := by
  obtain ⟨m, hm, hitem⟩ := encodes_string hs
  exact hitem.solid hm

theorem solid_arrayHead {n : Nat} (hn : n < UInt32.size) : Solid (arrayHead n) := by
  obtain ⟨m, hm, hitem⟩ := encodes_arrayHead hn
  exact hitem.solid hm

theorem solid_mapHead {n : Nat} (hn : n < UInt32.size) : Solid (mapHead n) := by
  obtain ⟨m, hm, hitem⟩ := encodes_mapHead hn
  exact hitem.solid hm

/-- All kinds of integers lie within 64 bits, with a sign below zero only. -/
theorem encodes_integer {k : IntKind} (i : FixedInt k) :
    ∃ (m : Marker) (item : Item), m.isPlain = true ∧ m ≠ .nil ∧ Encodes (integer i.val) m item ∧
      offer (Scalar.int k).accept maxDepth item = .ok i := by
  have hlow : -0x8000000000000000 ≤ i.val ∧ i.val < Octets.span 8 := by
    have hlo := i.lo_le
    have hhi := i.le_hi
    have hspan : (Octets.span 8 : Int) = 0x10000000000000000 := rfl
    rw [hspan]
    cases k <;> simp only [IntKind.lo, IntKind.hi] at hlo hhi <;> omega
  unfold integer
  by_cases hnonneg : 0 ≤ i.val
  · rw [if_pos hnonneg]
    obtain ⟨m, hplain, hm, hitem⟩ := encodes_natural (n := i.val.toNat) (by omega)
    refine ⟨m, _, hplain, hm, hitem, ?_⟩
    have htoNat : (i.val.toNat : Int) = i.val := Int.toNat_of_nonneg hnonneg
    simp only [offer, Scalar.accept, Scalar.acceptInt, htoNat, FixedInt.ofInt?_val, mapError_ok]
  · rw [if_neg hnonneg]
    obtain ⟨m, hplain, hm, hitem⟩ := encodes_negative (Int.not_le.mp hnonneg) hlow.1
    refine ⟨m, _, hplain, hm, hitem, ?_⟩
    simp only [offer, Scalar.accept, Scalar.acceptInt, FixedInt.ofInt?_val, mapError_ok]

theorem reads_integer {k : IntKind} (i : FixedInt k) (depth : Nat) :
    Reads (marked (readScalar depth (.int k))) (integer i.val) i := by
  obtain ⟨m, item, hplain, -, hitem, haccept⟩ := encodes_integer i
  exact hitem.reads_plain hplain haccept

theorem solid_integer {k : IntKind} (i : FixedInt k) : Solid (integer i.val) := by
  obtain ⟨m, item, -, hm, hitem, -⟩ := encodes_integer i
  exact hitem.solid hm

theorem reads_octets {bs : Octets} (h : bs.length < UInt32.size) (depth : Nat) :
    Reads (marked (readScalar depth .octets)) (octets bs) bs := by
  intro rest
  obtain ⟨m, -, hitem⟩ := encodes_octets h
  obtain ⟨body, hread, hbody⟩ := hitem.marked (readScalar depth .octets) rest
  rw [hread, readScalar, readOctets, hbody]
  rfl

theorem length_encode_singleton (c : Char) :
    (Utf8.encode (String.singleton c)).length < UInt32.size := by
  rw [Utf8.encode_singleton]
  exact Nat.lt_of_le_of_lt (Utf8.length_encodeChar c) (by decide)

theorem reads_char (c : Char) (depth : Nat) :
    Reads (marked (readScalar depth .char)) (string (Utf8.encodeChar c)) c := by
  have haccept : Scalar.char.accept (.string (String.singleton c)) = .ok c := by
    simp [Scalar.accept]
  have hread := reads_text (length_encode_singleton c) depth haccept
  rw [text, Utf8.encode_singleton] at hread
  exact hread

theorem reads_scalar {s : Scalar} (hfaithful : (Schema.scalar s).isFaithful = true) {v : s.Value}
    (hshort : s.Short v) (depth : Nat) :
    Reads (marked (readScalar depth s)) (writeScalar s v) v := by
  cases s with
  | unit => exact fun rest => rfl
  | marker name => exact fun rest => rfl
  | bool => cases v <;> exact fun rest => rfl
  | int k => exact reads_integer v depth
  | float f => simp [Schema.isFaithful] at hfaithful
  | char => exact reads_char v depth
  | string => exact reads_text hshort depth rfl
  | octets => exact reads_octets hshort depth

theorem solid_scalar {s : Scalar} (hsolid : (Schema.scalar s).isSolid = true) {v : s.Value}
    (hshort : s.Short v) : Solid (writeScalar s v) := by
  cases s with
  | unit => simp [Schema.isSolid] at hsolid
  | marker name => simp [Schema.isSolid] at hsolid
  | bool => cases v <;> exact ⟨_, rfl, nofun⟩
  | int k => exact solid_integer v
  | float f => simp [Schema.isSolid] at hsolid
  | char =>
    have hchar := solid_text (length_encode_singleton v)
    rw [text, Utf8.encode_singleton] at hchar
    exact hchar
  | string => exact solid_text hshort
  | octets =>
    obtain ⟨m, hm, hitem⟩ := encodes_octets hshort
    exact hitem.solid hm

end PacketBus.MsgPack
