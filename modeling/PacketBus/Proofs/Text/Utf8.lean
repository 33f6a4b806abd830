import Mathlib.Tactic.IntervalCases
import PacketBus.Text.Utf8

/-! # Reading what was written in UTF-8

The octets of a character are scanned as that character, whatever follows them. So text is read back
from its octets, and different texts have different octets.
-/
namespace PacketBus.Utf8

theorem first_one {n : Nat} (hn : n < 0x80) : first (UInt8.ofNat n) = .char (Char.ofNat n) := by
  have htoNat : (UInt8.ofNat n).toNat = n :=
    UInt8.toNat_ofNat_of_lt' (show n < 0x100 by omega)
  have hlt : UInt8.ofNat n < 0x80 := by
    rw [UInt8.lt_iff_toNat_lt, htoNat]
    exact hn
  rw [first, if_pos hlt, htoNat]

theorem first_two {k : Nat} (hlow : 2 ≤ k) (hhigh : k < 0x20) :
    first (UInt8.ofNat (0xC0 + k)) = .begun { code := k, owed := 1 } := by
  interval_cases k <;> rfl

theorem first_three {k : Nat} (hk : k < 0x10) :
    first (UInt8.ofNat (0xE0 + k)) = .begun
      { code := k, owed := 2, low := if k = 0 then 0xA0 else 0x80,
        high := if k = 0xD then 0x9F else 0xBF } := by
  interval_cases k <;> rfl

theorem first_four {k : Nat} (hk : k < 5) :
    first (UInt8.ofNat (0xF0 + k)) = .begun
      { code := k, owed := 3, low := if k = 0 then 0x90 else 0x80,
        high := if k = 4 then 0x8F else 0xBF } := by
  interval_cases k <;> rfl

/-- An octet within the bounds adds its six bits. -/
theorem Begun.next_tail {p : Begun} {d : Nat} (hlow : p.low.toNat ≤ 0x80 + d)
    (hhigh : 0x80 + d ≤ p.high.toNat) :
    p.next (UInt8.ofNat (0x80 + d)) =
      if p.owed ≤ 1 then .char (Char.ofNat (64 * p.code + d))
      else .begun { code := 64 * p.code + d, seen := p.seen + 1, owed := p.owed - 1 } := by
  have hlt := p.high.toNat_lt
  have htoNat : (UInt8.ofNat (0x80 + d)).toNat = 0x80 + d :=
    UInt8.toNat_ofNat_of_lt' (show 0x80 + d < 0x100 by omega)
  have hwithin : p.low ≤ UInt8.ofNat (0x80 + d) ∧ UInt8.ofNat (0x80 + d) ≤ p.high := by
    rw [UInt8.le_iff_toNat_le, UInt8.le_iff_toNat_le, htoNat]
    exact ⟨hlow, hhigh⟩
  rw [Begun.next, if_pos hwithin, htoNat, Nat.add_sub_cancel_left]

theorem Begun.next_more {p : Begun} {d : Nat} (hlow : p.low.toNat ≤ 0x80 + d)
    (hhigh : 0x80 + d ≤ p.high.toNat) (howed : 1 < p.owed) :
    p.next (UInt8.ofNat (0x80 + d)) =
      .begun { code := 64 * p.code + d, seen := p.seen + 1, owed := p.owed - 1 } := by
  rw [next_tail hlow hhigh, if_neg (by omega)]

theorem Begun.next_last {p : Begun} {d : Nat} (hlow : p.low.toNat ≤ 0x80 + d)
    (hhigh : 0x80 + d ≤ p.high.toNat) (howed : p.owed ≤ 1) :
    p.next (UInt8.ofNat (0x80 + d)) = .char (Char.ofNat (64 * p.code + d)) := by
  rw [next_tail hlow hhigh, if_pos howed]

section
variable {acc : Array Segment} {b : UInt8} {rest : Octets}

theorem scan_of_char {c : Char} (h : first b = .char c) :
    scan acc none (b :: rest) = scan (acc.push (.char c)) none rest := by
  simp [scan, Segment.ofFirst, h]

theorem scan_of_begun {p : Begun} (h : first b = .begun p) :
    scan acc none (b :: rest) = scan acc (some p) rest := by
  simp [scan, Segment.ofFirst, h]

theorem scan_next_char {p : Begun} {c : Char} (h : p.next b = .char c) :
    scan acc (some p) (b :: rest) = scan (acc.push (.char c)) none rest := by
  simp only [scan, h]

theorem scan_next_begun {p q : Begun} (h : p.next b = .begun q) :
    scan acc (some p) (b :: rest) = scan acc (some q) rest := by
  simp only [scan, h]

end

/-- The octets of a code point that is no surrogate are scanned as its character. -/
theorem scan_encodeCode {n : Nat} (hn : n.isValidChar) (acc : Array Segment) (rest : Octets) :
    scan acc none (encodeCode n ++ rest) = scan (acc.push (.char (Char.ofNat n))) none rest := by
  have hshift₀ : n >>> (6 * 0) = n := rfl
  have hshift₁ : n >>> (6 * 1) = n / 0x40 := Nat.shiftRight_eq_div_pow n 6
  have hshift₂ : n >>> (6 * 2) = n / 0x1000 := Nat.shiftRight_eq_div_pow n 12
  have hlast : 64 * (n / 64) + n % 64 = n := by omega
  simp only [Nat.isValidChar] at hn
  simp only [encodeCode, hshift₀, hshift₁, hshift₂]
  by_cases h₁ : n < 0x80
  · rw [if_pos h₁]
    exact scan_of_char (first_one h₁)
  rw [if_neg h₁]
  by_cases h₂ : n < 0x800
  · rw [if_pos h₂]
    have hnext := Begun.next_last (p := { code := n / 64, owed := 1 }) (d := n % 64)
      (by simp) (by simp; omega) (by simp)
    rw [hlast] at hnext
    rw [List.cons_append, scan_of_begun (first_two (by omega) (by omega))]
    exact scan_next_char hnext
  rw [if_neg h₂]
  have hsecond : 64 * (n / 0x1000) + n / 0x40 % 64 = n / 0x40 := by omega
  by_cases h₃ : n < 0x10000
  · rw [if_pos h₃]
    -- the bounds of the second octet shut out overlong forms and surrogates
    have hlow : (if n / 0x1000 = 0 then 0xA0 else 0x80 : UInt8).toNat ≤ 0x80 + n / 0x40 % 64 := by
      split <;> simp only [UInt8.reduceToNat] <;> omega
    have hhigh :
        0x80 + n / 0x40 % 64 ≤ (if n / 0x1000 = 0xD then 0x9F else 0xBF : UInt8).toNat := by
      split <;> simp only [UInt8.reduceToNat] <;> omega
    have hnext₁ := Begun.next_more
      (p := { code := n / 0x1000, owed := 2, low := if n / 0x1000 = 0 then 0xA0 else 0x80
              high := if n / 0x1000 = 0xD then 0x9F else 0xBF }) hlow hhigh (by simp)
    have hnext₂ := Begun.next_last (p := { code := n / 0x40, seen := 2, owed := 1 }) (d := n % 64)
      (by simp) (by simp; omega) (by simp)
    rw [hsecond] at hnext₁
    rw [hlast] at hnext₂
    rw [List.cons_append, scan_of_begun (first_three (by omega)), List.cons_append,
      scan_next_begun hnext₁]
    exact scan_next_char hnext₂
  · rw [if_neg h₃]
    have hthird : 64 * (n / 0x40000) + n / 0x1000 % 64 = n / 0x1000 := by omega
    have hlow : (if n / 0x40000 = 0 then 0x90 else 0x80 : UInt8).toNat ≤
        0x80 + n / 0x1000 % 64 := by
      split <;> simp only [UInt8.reduceToNat] <;> omega
    have hhigh : 0x80 + n / 0x1000 % 64 ≤
        (if n / 0x40000 = 4 then 0x8F else 0xBF : UInt8).toNat := by
      split <;> simp only [UInt8.reduceToNat] <;> omega
    have hnext₁ := Begun.next_more
      (p := { code := n / 0x40000, owed := 3, low := if n / 0x40000 = 0 then 0x90 else 0x80
              high := if n / 0x40000 = 4 then 0x8F else 0xBF }) hlow hhigh (by simp)
    have hnext₂ := Begun.next_more (p := { code := n / 0x1000, seen := 2, owed := 2 })
      (d := n / 0x40 % 64) (by simp) (by simp; omega) (by simp)
    have hnext₃ := Begun.next_last (p := { code := n / 0x40, seen := 3, owed := 1 }) (d := n % 64)
      (by simp) (by simp; omega) (by simp)
    rw [hthird] at hnext₁
    rw [hsecond] at hnext₂
    rw [hlast] at hnext₃
    rw [List.cons_append, scan_of_begun (first_four (by omega)), List.cons_append,
      scan_next_begun hnext₁, List.cons_append]
    exact (scan_next_begun hnext₂).trans (scan_next_char hnext₃)

theorem scan_encode (acc : Array Segment) (cs : List Char) :
    scan acc none (cs.flatMap encodeChar) = acc ++ (cs.map Segment.char).toArray := by
  induction cs generalizing acc with
  | nil => simp [scan]
  | cons c cs ih =>
    have hc := scan_encodeCode (n := c.toNat) c.valid acc (cs.flatMap encodeChar)
    rw [Char.ofNat_toNat] at hc
    rw [List.flatMap_cons, encodeChar, hc, ih]
    simp

theorem strict_map_char (index : Nat) (acc cs : List Char) :
    strict index acc (cs.map Segment.char) = .ok (String.ofList (acc.reverse ++ cs)) := by
  induction cs generalizing index acc with
  | nil => simp [strict]
  | cons c cs ih =>
    rw [List.map_cons, strict, ih]
    simp

/-- Text is read back from its octets. -/
@[simp] theorem decode_encode (s : String) : decode (encode s) = .ok s := by
  rw [decode, segments, encode, scan_encode, Array.toList_append, Array.toList_empty,
    List.nil_append, strict_map_char]
  simp

theorem encode_injective : Function.Injective encode := by
  intro s t h
  have hs := decode_encode s
  rw [h, decode_encode] at hs
  exact (Except.ok.inj hs).symm

theorem length_encodeChar (c : Char) : (encodeChar c).length ≤ 4 := by
  unfold encodeChar encodeCode
  dsimp only
  split
  · simp
  · split
    · simp
    · split <;> simp

theorem encode_singleton (c : Char) : encode (String.singleton c) = encodeChar c := by
  simp [encode]

end PacketBus.Utf8
