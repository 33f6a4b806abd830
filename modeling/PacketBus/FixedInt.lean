/-! # Integers of fixed width

The eight integer kinds that payloads use, with their spans. A `FixedInt` lies in the span of its
kind; arithmetic wraps around the span.
-/
namespace PacketBus

inductive IntKind
  | i8 | i16 | i32 | i64 | u8 | u16 | u32 | u64
  deriving DecidableEq, Repr

namespace IntKind

def name : IntKind → String
  | i8 => "i8" | i16 => "i16" | i32 => "i32" | i64 => "i64"
  | u8 => "u8" | u16 => "u16" | u32 => "u32" | u64 => "u64"

def lo : IntKind → Int
  | i8 => -0x80 | i16 => -0x8000 | i32 => -0x80000000 | i64 => -0x8000000000000000
  | u8 | u16 | u32 | u64 => 0

def hi : IntKind → Int
  | i8 => 0x7F | i16 => 0x7FFF | i32 => 0x7FFFFFFF | i64 => 0x7FFFFFFFFFFFFFFF
  | u8 => 0xFF | u16 => 0xFFFF | u32 => 0xFFFFFFFF | u64 => 0xFFFFFFFFFFFFFFFF

/-- How many integers the kind has. -/
def span (k : IntKind) : Int := k.hi - k.lo + 1

theorem lo_nonpos (k : IntKind) : k.lo ≤ 0 := by cases k <;> decide
theorem hi_nonneg (k : IntKind) : 0 ≤ k.hi := by cases k <;> decide
theorem span_pos (k : IntKind) : 0 < k.span := by cases k <;> decide

end IntKind

structure FixedInt (k : IntKind) where
  val : Int
  lo_le : k.lo ≤ val
  le_hi : val ≤ k.hi
  deriving DecidableEq, Repr

namespace FixedInt
variable {k : IntKind}

@[ext] theorem ext {a b : FixedInt k} (h : a.val = b.val) : a = b := by
  cases a; cases b; cases h; rfl

instance : Ord (FixedInt k) := ⟨fun a b => compare a.val b.val⟩

instance : Std.TransOrd (FixedInt k) where
  eq_swap {a b} := by
    have h : compare a.val b.val = (compare b.val a.val).swap := Std.OrientedOrd.eq_swap
    exact h
  isLE_trans {a b c} h₁ h₂ := by
    have h : (compare a.val c.val).isLE := Std.TransOrd.isLE_trans (b := b.val) h₁ h₂
    exact h

instance : Std.LawfulEqOrd (FixedInt k) where
  compare_self {a} := by
    have h : compare a.val a.val = .eq := Std.ReflOrd.compare_self
    exact h
  eq_of_compare h := ext (Std.LawfulEqOrd.eq_of_compare (α := Int) h)

def ofInt? (n : Int) : Option (FixedInt k) :=
  if h : k.lo ≤ n ∧ n ≤ k.hi then some ⟨n, h.1, h.2⟩ else none

/-- The integer of the span that differs from `n` by a multiple of its size. -/
def wrap (n : Int) : FixedInt k where
  val := k.lo + (n - k.lo) % k.span
  lo_le := by have := Int.emod_nonneg (n - k.lo) (Int.ne_of_gt k.span_pos); omega
  le_hi := by
    have := Int.emod_lt_of_pos (n - k.lo) k.span_pos
    simp only [IntKind.span] at *
    omega

instance : Zero (FixedInt k) := ⟨⟨0, k.lo_nonpos, k.hi_nonneg⟩⟩
instance : Inhabited (FixedInt k) := ⟨0⟩
instance : Add (FixedInt k) := ⟨fun a b => wrap (a.val + b.val)⟩
instance : Sub (FixedInt k) := ⟨fun a b => wrap (a.val - b.val)⟩
instance : Mul (FixedInt k) := ⟨fun a b => wrap (a.val * b.val)⟩

@[simp] theorem ofInt?_val (a : FixedInt k) : ofInt? (k := k) a.val = some a := by
  simp [ofInt?, a.lo_le, a.le_hi]

end FixedInt
end PacketBus
