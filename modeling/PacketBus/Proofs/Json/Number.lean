import PacketBus.Json.Number

/-! # Integers come back from their decimal digits

An integer within 64 bits is read from its digits without rounding, when nothing after it could be
taken for more of the number.
-/
namespace PacketBus.Json

/-- Nothing in front goes on with a number. -/
def Stops (bs : Octets) : Prop :=
  ∀ b ∈ bs.head?, isDigit b = false ∧ b ≠ 0x2E ∧ isExponentMark b = false

theorem stops_nil : Stops [] := nofun

theorem stops_cons {b : UInt8} (h : isDigit b = false ∧ b ≠ 0x2E ∧ isExponentMark b = false)
    (bs : Octets) : Stops (b :: bs) := by
  intro c hc
  obtain rfl : b = c := by simpa using hc
  exact h

/-! ## Digits -/

theorem natural_ne_nil (n : Nat) : natural n ≠ [] := by
  simp [natural, Nat.toDigits_ne_nil]

theorem toNat_of_isDigit {c : Char} (h : c.isDigit = true) : 0x30 ≤ c.toNat ∧ c.toNat ≤ 0x39 := by
  simpa [Char.isDigit, UInt32.le_iff_toNat_le] using h

/-- A decimal digit and the octet it is written as. -/
theorem digit_of_isDigit {c : Char} (h : c.isDigit = true) :
    isDigit (UInt8.ofNat c.toNat) = true ∧
      digitValue (UInt8.ofNat c.toNat) = c.toNat - '0'.toNat := by
  have hbounds := toNat_of_isDigit h
  have htoNat : (UInt8.ofNat c.toNat).toNat = c.toNat :=
    UInt8.toNat_ofNat_of_lt' (show c.toNat < 0x100 by omega)
  constructor
  · simp only [isDigit, Bool.and_eq_true, decide_eq_true_eq, UInt8.le_iff_toNat_le, htoNat]
    exact hbounds
  · rw [digitValue, htoNat]
    rfl

theorem isDigit_of_mem_natural {n : Nat} {b : UInt8} (h : b ∈ natural n) : isDigit b = true := by
  obtain ⟨c, hc, rfl⟩ := List.mem_map.mp h
  exact (digit_of_isDigit (Nat.isDigit_of_mem_toDigits (by decide) (by decide) hc)).1

/-- The number that digits stand for behind another. -/
def digitsValue (n : Nat) (digits : Octets) : Nat :=
  digits.foldl (fun n d => 10 * n + digitValue d) n

theorem digitsValue_natural (n : Nat) : digitsValue 0 (natural n) = n := by
  have hmap : ∀ cs : List Char, (∀ c ∈ cs, c.isDigit = true) → ∀ m,
      digitsValue m (cs.map fun c => UInt8.ofNat c.toNat) = Nat.ofDigitChars 10 cs m := by
    intro cs
    induction cs with
    | nil => exact fun _ _ => rfl
    | cons c cs ih =>
      intro hcs m
      have hc := (digit_of_isDigit (hcs c List.mem_cons_self)).2
      have hmore :=
        ih (fun d hd => hcs d (List.mem_cons_of_mem _ hd)) (10 * m + (c.toNat - '0'.toNat))
      rw [Nat.ofDigitChars_cons, ← hmore, ← hc]
      rfl
  rw [natural, hmap _ fun c hc => Nat.isDigit_of_mem_toDigits (by decide) (by decide) hc]
  exact Nat.ofDigitChars_ten_toDigits

theorem le_digitsValue (n : Nat) (digits : Octets) : n ≤ digitsValue n digits := by
  induction digits generalizing n with
  | nil => exact Nat.le_refl n
  | cons d ds ih =>
    have hds := ih (10 * n + digitValue d)
    simp only [digitsValue, List.foldl_cons] at hds ⊢
    omega

theorem collect_eq {limit n : Nat} {digits : Octets} (h : digitsValue n digits ≤ limit) :
    collect limit n digits = (digitsValue n digits, 0) := by
  induction digits generalizing n with
  | nil => rfl
  | cons d ds ih =>
    have hle : 10 * n + digitValue d ≤ limit := Nat.le_trans (le_digitsValue _ ds) h
    rw [collect, if_neg (Nat.not_lt.mpr hle)]
    exact ih h

/-- Only zero starts with a zero. -/
theorem head_toDigits {n : Nat} (hn : 0 < n) : ∀ c ∈ (Nat.toDigits 10 n).head?, c ≠ '0' := by
  induction n using Nat.strongRecOn with
  | ind n ih =>
    intro c hc
    by_cases hsmall : n < 10
    · rw [Nat.toDigits_of_lt_base hsmall] at hc
      obtain rfl : n.digitChar = c := by simpa using hc
      rw [ne_eq, Nat.digitChar_eq_zero]
      omega
    · rw [Nat.toDigits_of_base_le (by decide) (Nat.not_lt.mp hsmall)] at hc
      obtain ⟨d, ds, hfront⟩ := List.exists_cons_of_ne_nil (@Nat.toDigits_ne_nil (n / 10) 10)
      have hd := ih (n / 10) (by omega) (by omega) d (by rw [hfront]; rfl)
      rw [hfront] at hc
      obtain rfl : d = c := by simpa using hc
      exact hd

theorem no_leading_zero {n : Nat} {first : UInt8} {more : Octets} (h : natural n = first :: more) :
    ¬(first = 0x30 ∧ (!more.isEmpty) = true) := by
  rintro ⟨rfl, hmore⟩
  by_cases hn : n = 0
  · subst hn
    obtain rfl : more = [] := (List.cons.inj h).2.symm
    simp at hmore
  · obtain ⟨c, cs, hdigits, hc, rfl⟩ := List.map_eq_cons_iff.mp h
    have hne : c ≠ '0' := head_toDigits (Nat.pos_of_ne_zero hn) c (by rw [hdigits]; rfl)
    have hdigit : c.isDigit = true :=
      Nat.isDigit_of_mem_toDigits (by decide) (by decide) (hdigits ▸ List.mem_cons_self)
    have hvalue := (digit_of_isDigit hdigit).2
    have hzero : (0x30 : UInt8).toNat = 0x30 ∧ '0'.toNat = 0x30 := ⟨rfl, rfl⟩
    have hbounds := toNat_of_isDigit hdigit
    rw [hc, digitValue] at hvalue
    exact hne (Char.toNat_inj.mp (by omega))

theorem spanDigits_natural (n : Nat) {rest : Octets} (h : Stops rest) :
    spanDigits (natural n ++ rest) = (natural n, rest) := by
  have hdigits : ∀ b ∈ natural n, isDigit b = true := fun b => isDigit_of_mem_natural
  have hrest : rest.takeWhile isDigit = [] ∧ rest.dropWhile isDigit = rest := by
    cases rest with
    | nil => exact ⟨rfl, rfl⟩
    | cons b bs =>
      obtain ⟨hb, -, -⟩ := h b rfl
      simp [hb]
  rw [spanDigits, List.takeWhile_append_of_pos hdigits, List.dropWhile_append_of_pos hdigits,
    hrest.1, hrest.2, List.append_nil]

theorem readUnsigned_natural (negative : Bool) {n : Nat} (hn : n ≤ maxSignificand) {rest : Octets}
    (h : Stops rest) :
    readUnsigned negative (natural n ++ rest) = .ok (ofSignificand negative n, rest) := by
  have hcollect : collect maxSignificand 0 (natural n) = (n, 0) := by
    have hvalue := digitsValue_natural n
    rw [collect_eq (hvalue.symm ▸ hn), hvalue]
  unfold readUnsigned
  rw [spanDigits_natural n h]
  obtain ⟨first, more, hdigits⟩ := List.exists_cons_of_ne_nil (natural_ne_nil n)
  have hzero := no_leading_zero hdigits
  rw [hdigits] at hcollect ⊢
  simp only [hcollect, if_neg hzero]
  cases rest with
  | nil => rfl
  | cons b bs =>
    obtain ⟨-, hpoint, hmark⟩ := h b rfl
    simp [hpoint, hmark]

/-! ## Integers -/

/-- What an integer is read as. -/
def integerNumber (i : Int) : Number := if i < 0 then .signed i else .unsigned i.toNat

theorem ofSignificand_of_neg {i : Int} (hneg : i < 0) (hlow : -0x8000000000000000 ≤ i) :
    ofSignificand true i.natAbs = .signed i := by
  have hrange : ¬(i.natAbs = 0 ∨ 0x8000000000000000 < i.natAbs) := by omega
  have habs : -(i.natAbs : Int) = i := by omega
  simp only [ofSignificand, if_neg hrange, habs]
  rfl

/-- The sign or digit that an integer starts with. -/
theorem integer_eq_cons (i : Int) : ∃ b bs, integer i = b :: bs ∧ startsNumber b = true := by
  unfold integer
  by_cases hneg : i < 0
  · rw [if_pos hneg]
    exact ⟨_, _, rfl, rfl⟩
  · rw [if_neg hneg]
    obtain ⟨b, bs, hdigits⟩ := List.exists_cons_of_ne_nil (natural_ne_nil i.natAbs)
    have hb : isDigit b = true := isDigit_of_mem_natural (hdigits ▸ List.mem_cons_self)
    exact ⟨b, bs, hdigits, by rw [startsNumber, hb, Bool.or_true]⟩

theorem readNumber_integer {i : Int} (hlow : -0x8000000000000000 ≤ i)
    (hhigh : i ≤ 0xFFFFFFFFFFFFFFFF) {rest : Octets} (h : Stops rest) :
    readNumber (integer i ++ rest) = .ok (integerNumber i, rest) := by
  have hmax : maxSignificand = 0xFFFFFFFFFFFFFFFF := rfl
  have hn : i.natAbs ≤ maxSignificand := by omega
  unfold integer integerNumber
  by_cases hneg : i < 0
  · have hread := readUnsigned_natural true hn h
    rw [ofSignificand_of_neg hneg hlow] at hread
    rw [if_pos hneg, if_pos hneg]
    exact hread
  · have hread := readUnsigned_natural false hn h
    have hsame : i.natAbs = i.toNat := by omega
    rw [if_neg hneg, if_neg hneg]
    obtain ⟨b, bs, hdigits⟩ := List.exists_cons_of_ne_nil (natural_ne_nil i.natAbs)
    have hb : isDigit b = true := isDigit_of_mem_natural (hdigits ▸ List.mem_cons_self)
    rw [hdigits] at hread ⊢
    unfold readNumber
    split
    · rename_i heq
      obtain rfl := (List.cons.inj heq).1
      simp [isDigit] at hb
    · rw [hread, hsame]
      rfl

end PacketBus.Json
