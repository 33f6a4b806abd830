import PacketBus.Number.Binary

/-! # Shortest decimals

The decimals with the fewest digits that round to a given binary number, and of those the nearest.
-/
namespace PacketBus

/-- `digits * 10 ^ exponent`. -/
structure Decimal where
  digits : Nat
  exponent : Int
  deriving DecidableEq, Repr

/-- Which of two equally near decimals is taken. -/
inductive Tie
  | even | up
  deriving DecidableEq, Repr

namespace Decimal

/-- The decimals on one grid are `n * grid`, the number is `value * unit`, and the numbers that
round to it lie between `low * unit` and `high * unit`. -/
structure Interval where
  low : Nat
  value : Nat
  high : Nat
  closed : Bool
  place : Int

/-- In quarters of the last place. Below a power of two the next number is half as far. -/
def Interval.ofBinary {f : FloatKind} (x : Binary f) : Interval :=
  let m := x.significand
  let narrow := x.fraction = 0 ∧ 1 < x.exponentField
  { low := 4 * m - if narrow then 1 else 2
    value := 4 * m
    high := 4 * m + 2
    closed := m % 2 = 0
    place := x.place - 2 }

def Interval.admits (i : Interval) (unit grid n : Nat) : Bool :=
  if i.closed then i.low * unit ≤ n * grid ∧ n * grid ≤ i.high * unit
  else i.low * unit < n * grid ∧ n * grid < i.high * unit

/-- The multiple of `10 ^ exponent` nearest to the number, if one rounds to it. -/
def Interval.onGrid? (i : Interval) (tie : Tie) (exponent : Int) : Option Nat :=
  let unit := Nat.pow 10 (-exponent).toNat <<< i.place.toNat
  let grid := Nat.pow 10 exponent.toNat <<< (-i.place).toNat
  let below := i.value * unit / grid
  let rest := i.value * unit % grid
  let upward := grid < 2 * rest ∨ (grid = 2 * rest ∧ (tie = .up ∨ below % 2 = 1))
  let (near, far) := if upward then (below + 1, below) else (below, below + 1)
  if i.admits unit grid near then some near
  else if i.admits unit grid far then some far
  else none

/-- The greatest `k` with `10 ^ k` at most `m * 2 ^ place`, which is zero or one more than its
estimate from the length of `m`. -/
def leadingPlace (m : Nat) (place : Int) : Int :=
  let estimate := (m.log2 + place) * 30103 / 100000
  let k := estimate + 1
  if Nat.pow 10 k.toNat <<< (-place).toNat ≤ m * Nat.pow 10 (-k).toNat <<< place.toNat then k
  else estimate

def trim : (fuel n : Nat) → (exponent : Int) → Decimal
  | 0, n, exponent => ⟨n, exponent⟩
  | fuel + 1, n, exponent =>
    if n % 10 = 0 then trim fuel (n / 10) (exponent + 1) else ⟨n, exponent⟩

/-- The shortest decimal of a finite number other than zero, without its sign. -/
def shortest {f : FloatKind} (tie : Tie) (x : Binary f) : Decimal :=
  let interval := Interval.ofBinary x
  let lead := leadingPlace x.significand x.place
  let found := (List.range 17).findSome? fun (n : Nat) =>
    let exponent := lead - (n : Int)
    (interval.onGrid? tie exponent).map fun digits => trim 17 digits exponent
  found.getD ⟨0, 0⟩

def digitText (d : Decimal) : List Char := Nat.toDigits 10 d.digits

/-- The exponent of the first digit. -/
def scale (d : Decimal) : Int := d.exponent + d.digitText.length - 1

/-- Digits with a point and at least one digit on each side of it. -/
def positional (d : Decimal) : List Char :=
  let ds := d.digitText
  let scale := d.scale
  if 0 ≤ d.exponent then ds ++ List.replicate d.exponent.toNat '0' ++ ['.', '0']
  else if 0 ≤ scale then
    ds.take (scale.toNat + 1) ++ '.' :: ds.drop (scale.toNat + 1)
  else '0' :: '.' :: List.replicate (-scale - 1).toNat '0' ++ ds

/-- One digit before the point, and a signed exponent. -/
def scientific (d : Decimal) : List Char :=
  let mantissa := match d.digitText with
    | [] => []
    | [c] => [c]
    | c :: rest => c :: '.' :: rest
  let scale := d.scale
  mantissa ++ 'e' :: (if scale < 0 then '-' else '+') :: Nat.toDigits 10 scale.natAbs

end Decimal
end PacketBus
