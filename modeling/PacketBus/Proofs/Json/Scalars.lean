import PacketBus.Proofs.Json.Layout
import PacketBus.Proofs.Payload.Shape

/-! # Numbers, strings and truth values come back from JSON

What a scalar is written as is accepted as that scalar. Digits have no end of their own, so
something has to follow that is no more of a number.
-/
namespace PacketBus.Json

variable {α : Type}

/-- The octets are read as the value, whatever follows them that does not go on with a number. -/
def Reads (read : Reader α) (bs : Octets) (v : α) : Prop :=
  ∀ rest, Stops rest → read (bs ++ rest) = .ok (v, rest)

theorem Reads.alone {read : Reader α} {bs : Octets} {v : α} (h : Reads read bs v) :
    read bs = .ok (v, []) := by
  have hend := h [] stops_nil
  rwa [List.append_nil] at hend

theorem enter_of_lt {depth : Nat} (h : 1 < depth) : enter depth = .ok (depth - 1) :=
  if_neg (Nat.not_le.mpr h)

/-! ## Items -/

section
variable {b c : UInt8}

theorem ne_of_startsNumber (h : startsNumber b = true) (hc : startsNumber c = false) : b ≠ c := by
  rintro rfl
  rw [h] at hc
  cases hc

theorem isBlank_of_startsNumber (h : startsNumber b = true) : isBlank b = false := by
  have hspace : b ≠ 0x20 := ne_of_startsNumber h rfl
  have htab : b ≠ 0x09 := ne_of_startsNumber h rfl
  have hnewline : b ≠ 0x0A := ne_of_startsNumber h rfl
  have hreturn : b ≠ 0x0D := ne_of_startsNumber h rfl
  simp [isBlank, hspace, htab, hnewline, hreturn]

theorem solid_of_startsNumber (h : startsNumber b = true) (bs : Octets) : Solid (b :: bs) :=
  ⟨b, bs, rfl, isBlank_of_startsNumber h, ne_of_startsNumber h rfl, ne_of_startsNumber h rfl⟩

/-- A number in front is read as such. -/
theorem readOffer_number (h : startsNumber b = true) (bs : Octets) :
    readOffer (b :: bs) = do
      let (n, bs) ← readNumber (b :: bs)
      return (n.offer, bs) := by
  have hnull : b ≠ 0x6E := ne_of_startsNumber h rfl
  have htrue : b ≠ 0x74 := ne_of_startsNumber h rfl
  have hfalse : b ≠ 0x66 := ne_of_startsNumber h rfl
  have hskip := (solid_of_startsNumber h bs).opens.skipBlank_eq
  simp only [readOffer, hskip, if_neg hnull, if_neg htrue, if_neg hfalse, if_pos h]

end

theorem solid_integer (i : Int) : Solid (integer i) := by
  obtain ⟨b, bs, hi, hb⟩ := integer_eq_cons i
  rw [hi]
  exact solid_of_startsNumber hb bs

/-- All kinds of integers lie within 64 bits, with a sign below zero only. -/
theorem reads_integer {k : IntKind} (i : FixedInt k) :
    Reads (readAs (Scalar.int k).accept) (integer i.val) i := by
  intro rest hrest
  have hrange : -0x8000000000000000 ≤ i.val ∧ i.val ≤ 0xFFFFFFFFFFFFFFFF := by
    have hlo := i.lo_le
    have hhi := i.le_hi
    cases k <;> simp only [IntKind.lo, IntKind.hi] at hlo hhi <;> omega
  have hnumber := readNumber_integer hrange.1 hrange.2 hrest
  have haccept : (Scalar.int k).accept (integerNumber i.val).offer = .ok i := by
    unfold integerNumber
    by_cases hneg : i.val < 0
    · rw [if_pos hneg]
      simp only [Number.offer, Scalar.accept, Scalar.acceptInt, FixedInt.ofInt?_val]
    · have htoNat : (i.val.toNat : Int) = i.val := Int.toNat_of_nonneg (Int.not_lt.mp hneg)
      rw [if_neg hneg]
      simp only [Number.offer, Scalar.accept, Scalar.acceptInt, htoNat, FixedInt.ofInt?_val]
  obtain ⟨b, bs, hi, hb⟩ := integer_eq_cons i.val
  rw [hi, List.cons_append] at hnumber ⊢
  rw [readAs, readOffer_number hb, hnumber]
  simp only [ok_bind, pure, Except.pure, haccept, mapError_ok]

theorem reads_text {accept : Offer → Except Mismatch α} {s : String} {v : α}
    (haccept : accept (.string s) = .ok v) : Reads (readAs accept) (writeText s) v := by
  intro rest _
  have hoffer : readOffer (writeText s ++ rest) =
      readText (closedText s ++ rest) >>= fun x => Except.ok (.string x.1, x.2) := rfl
  rw [readAs, hoffer, readText_closedText]
  simp only [ok_bind, pure, Except.pure, haccept, mapError_ok]

theorem solid_text (s : String) : Solid (writeText s) :=
  ⟨0x22, closedText s, rfl, by decide⟩

theorem reads_octet (b : UInt8) : Reads readOctet (natural b.toNat) b := by
  intro rest hrest
  have hlt := b.toNat_lt
  let i : FixedInt .u8 := ⟨b.toNat, Int.natCast_nonneg _, by simp only [IntKind.hi]; omega⟩
  have hi : integer i.val = natural b.toNat := rfl
  have hread := reads_integer i rest hrest
  rw [hi] at hread
  rw [readOctet, hread, ok_bind]
  simp only [i, Int.toNat_natCast, UInt8.ofNat_toNat]
  rfl

theorem solid_natural (n : Nat) : Solid (natural n) := solid_integer n

/-! ## Lists -/

section
variable {read : Reader α} {write : α → Octets} {vs : List α}

theorem readMany_separated (hopens : ∀ v ∈ vs, Opens (write v))
    (h : ∀ v ∈ vs, Reads read (write v) v) {fuel : Nat} (hfuel : vs.length < fuel) (first : Bool)
    (acc : List α) (rest : Octets) :
    readMany read fuel first acc (separated first (vs.map write) ++ 0x5D :: rest) =
      .ok (acc.reverse ++ vs, 0x5D :: rest) := by
  induction vs generalizing fuel first acc with
  | nil =>
    obtain ⟨fuel, rfl⟩ := Nat.exists_eq_add_one.mpr hfuel
    simp only [List.map_nil, separated, List.nil_append, readMany, nextItem?_close, List.append_nil]
  | cons v vs ih =>
    obtain ⟨fuel, rfl⟩ := Nat.exists_eq_add_one.mpr (Nat.zero_lt_of_lt hfuel)
    have hclose : Stops (0x5D :: rest) := stops_cons (by decide) rest
    have hnext := nextItem?_comma first <| (hopens v List.mem_cons_self).append
      (separated false (vs.map write) ++ 0x5D :: rest)
    have hv := h v List.mem_cons_self _ (stops_separated (vs.map write) hclose)
    have hvs := ih (fun w hw => hopens w (List.mem_cons_of_mem _ hw))
      (fun w hw => h w (List.mem_cons_of_mem _ hw)) (Nat.lt_of_succ_lt_succ hfuel) false (v :: acc)
    simp only [List.map_cons, separated, List.append_assoc, readMany, hnext, hv, hvs]
    simp

/-- The items are read up to the closing bracket and with it. -/
theorem readList_separated (hopens : ∀ v ∈ vs, Opens (write v))
    (h : ∀ v ∈ vs, Reads read (write v) v) (rest : Octets) :
    readList read (separated true (vs.map write) ++ 0x5D :: rest) = .ok (vs, rest) := by
  have hne : ∀ item ∈ vs.map write, item ≠ [] := by
    intro item hitem
    obtain ⟨v, hv, rfl⟩ := List.mem_map.mp hitem
    exact (hopens v hv).ne_nil
  have hlength := length_le_separated true hne
  rw [List.length_map] at hlength
  have hfuel : vs.length < (separated true (vs.map write) ++ 0x5D :: rest).length + 1 := by
    rw [List.length_append]
    omega
  have hmany := readMany_separated hopens h hfuel true [] rest
  rw [readList, hmany, ok_bind]
  rfl

end

/-! ## Scalars -/

theorem reads_octets {depth : Nat} (hdepth : 1 < depth) (bs : Octets) :
    Reads (readScalar depth .octets) (list (bs.map fun b => natural b.toNat)) bs := by
  intro rest _
  have hlist := readList_separated (fun b _ => (solid_natural b.toNat).opens)
    (fun b (_ : b ∈ bs) => reads_octet b) rest
  rw [list_eq, List.cons_append, List.append_assoc, List.singleton_append]
  change enter depth >>= (fun _ => readList readOctet _) = _
  rw [enter_of_lt hdepth, ok_bind, hlist]

theorem reads_scalar {s : Scalar} (hfaithful : (Schema.scalar s).isFaithful = true) {depth : Nat}
    (hdepth : (Schema.scalar s).nesting < depth) (v : s.Value) :
    Reads (readScalar depth s) (writeScalar s v) v := by
  cases s with
  | unit => exact fun rest _ => rfl
  | marker name => exact fun rest _ => rfl
  | bool => cases v <;> exact fun rest _ => rfl
  | int k => exact reads_integer v
  | float f => simp [Schema.isFaithful] at hfaithful
  | char =>
    have haccept : Scalar.char.accept (.string (String.singleton v)) = .ok v := by
      simp [Scalar.accept]
    exact reads_text haccept
  | string => exact reads_text rfl
  | octets => exact reads_octets hdepth v

theorem solid_list (items : List Octets) : Solid (list items) := by
  rw [list_eq]
  exact ⟨0x5B, _, rfl, by decide⟩

theorem solid_object (entries : List Octets) : Solid (object entries) := by
  rw [object_eq]
  exact ⟨0x7B, _, rfl, by decide⟩

theorem solid_scalar {s : Scalar} (hsolid : (Schema.scalar s).isSolid = true) (v : s.Value) :
    Solid (writeScalar s v) := by
  cases s with
  | unit => simp [Schema.isSolid] at hsolid
  | marker name => simp [Schema.isSolid] at hsolid
  | bool => cases v <;> exact ⟨_, _, rfl, by decide⟩
  | int k => exact solid_integer v.val
  | float f => simp [Schema.isSolid] at hsolid
  | char => exact solid_text (String.singleton v)
  | string => exact solid_text v
  | octets => exact solid_list _

theorem opens_null : Opens null := ⟨0x6E, nullTail, rfl, by decide⟩

theorem opens_scalar {s : Scalar} (hfaithful : (Schema.scalar s).isFaithful = true) (v : s.Value) :
    Opens (writeScalar s v) := by
  cases s with
  | unit => exact opens_null
  | marker name => exact opens_null
  | float f => simp [Schema.isFaithful] at hfaithful
  | _ => exact (solid_scalar rfl v).opens

end PacketBus.Json
