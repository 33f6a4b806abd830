/-! # Octet strings and big-endian fields

Everything on the wire is a list of octets. A field of `w` octets holds a natural number below
`span w`, its most significant octet first.
-/
namespace PacketBus

abbrev Octets := List UInt8

namespace Octets

/-- How many numbers a field of `w` octets can hold. -/
def span (w : Nat) : Nat := Nat.pow 256 w

/-- The number that a field holds. -/
def toNat (field : Octets) : Nat := field.foldl (fun n b => 256 * n + b.toNat) 0

/-- The field of `w` octets for `n`, without the bits of `n` beyond them. -/
def ofNat : (w n : Nat) → Octets
  | 0, _ => []
  | w + 1, n => ofNat w (n / 256) ++ [UInt8.ofNat n]

/-- The first `n` octets and what follows them, if there are that many. -/
def split? (n : Nat) (bs : Octets) : Option (Octets × Octets) :=
  let front := bs.take n
  if front.length = n then some (front, bs.drop n) else none

/-- The sum of two sizes or positions, which are numbers of 64 bits. -/
def addSizes? (a b : Nat) : Option Nat := if a + b < UInt64.size then some (a + b) else none

/-- The octets between two positions, which have to stand in order within the string. -/
def slice? (start stop : Nat) (bs : Octets) : Option Octets :=
  if start ≤ stop ∧ stop ≤ bs.length then some ((bs.take stop).drop start) else none

/-- The buffer with octets in the place of all that stand from a position on, which have to be as
many. -/
def overwriteFrom? (start : Nat) (bs buffer : Octets) : Option Octets :=
  if start + bs.length = buffer.length then some (buffer.take start ++ bs) else none

@[simp] theorem length_ofNat (w n : Nat) : (ofNat w n).length = w := by
  induction w generalizing n with
  | zero => rfl
  | succ w ih => simp [ofNat, ih]

@[simp] theorem span_zero : span 0 = 1 := rfl

theorem span_succ (w : Nat) : span (w + 1) = 256 * span w := Nat.mul_comm _ _

theorem toNat_append_singleton (field : Octets) (b : UInt8) :
    toNat (field ++ [b]) = 256 * toNat field + b.toNat := by
  simp [toNat]

theorem toNat_ofNat (w n : Nat) : toNat (ofNat w n) = n % span w := by
  induction w generalizing n with
  | zero => simp [ofNat, toNat, Nat.mod_one]
  | succ w ih =>
    rw [ofNat, toNat_append_singleton, ih, span_succ, Nat.mod_mul, UInt8.toNat_ofNat']
    simp only [Nat.reducePow]
    omega

theorem split?_append (front rest : Octets) :
    split? front.length (front ++ rest) = some (front, rest) := by
  simp [split?]

theorem split?_eq_none_iff {n : Nat} {bs : Octets} : split? n bs = none ↔ bs.length < n := by
  unfold split?
  dsimp only
  rw [List.length_take]
  split <;> simp <;> omega

theorem append_of_split? {n : Nat} {bs front rest : Octets} (h : split? n bs = some (front, rest)) :
    bs = front ++ rest ∧ front.length = n := by
  unfold split? at h
  dsimp only at h
  split at h
  · rename_i hn
    simp only [Option.some.injEq, Prod.mk.injEq] at h
    obtain ⟨rfl, rfl⟩ := h
    exact ⟨(List.take_append_drop n bs).symm, hn⟩
  · simp at h

/-- More octets behind a list go to the rest. -/
theorem split?_append_of_some {n : Nat} {bs front rest : Octets}
    (h : split? n bs = some (front, rest)) (more : Octets) :
    split? n (bs ++ more) = some (front, rest ++ more) := by
  obtain ⟨rfl, rfl⟩ := append_of_split? h
  rw [List.append_assoc]
  exact split?_append front (rest ++ more)

end Octets
end PacketBus
