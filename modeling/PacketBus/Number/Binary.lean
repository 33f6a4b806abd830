/-! # Binary floating-point numbers

Numbers of the two interchange formats, held as their bit patterns, so a NaN keeps its sign and
payload. Arithmetic is exact on naturals with one rounding at the end: to nearest, ties to even.
-/
namespace PacketBus

inductive FloatKind
  | single | double
  deriving DecidableEq, Repr

namespace FloatKind

def name : FloatKind → String
  | single => "f32" | double => "f64"

def octets : FloatKind → Nat
  | single => 4 | double => 8

def width (f : FloatKind) : Nat := 8 * f.octets

/-- How many bits of the significand are stored. -/
def fractionBits : FloatKind → Nat
  | single => 23 | double => 52

/-- The exponent of the last place of the least numbers. -/
def leastPlace : FloatKind → Int
  | single => -149 | double => -1074

/-- The bit pattern of infinity without the sign. -/
def infinity (f : FloatKind) : Nat := 1 <<< (f.width - 1) - 1 <<< f.fractionBits

end FloatKind

structure Binary (f : FloatKind) where
  bits : Nat
  bits_lt : bits < 1 <<< f.width
  deriving DecidableEq, Repr

namespace Binary
variable {f : FloatKind}

def ofBits (n : Nat) : Binary f := ⟨n % 1 <<< f.width, Nat.mod_lt _ (by cases f <;> decide)⟩

instance : Inhabited (Binary f) := ⟨ofBits 0⟩

def signBit (f : FloatKind) : Nat := 1 <<< (f.width - 1)

def isNegative (x : Binary f) : Bool := signBit f ≤ x.bits
/-- The bit pattern without the sign. -/
def magnitude (x : Binary f) : Nat := x.bits % signBit f
def isNaN (x : Binary f) : Bool := f.infinity < x.magnitude
def isInfinite (x : Binary f) : Bool := x.magnitude = f.infinity
def isZero (x : Binary f) : Bool := x.magnitude = 0

def ofMagnitude (negative : Bool) (n : Nat) : Binary f :=
  ofBits (if negative then signBit f + n else n)

def neg (x : Binary f) : Binary f := ofMagnitude (!x.isNegative) x.magnitude

def exponentField (x : Binary f) : Nat := x.magnitude >>> f.fractionBits
def fraction (x : Binary f) : Nat := x.magnitude % 1 <<< f.fractionBits

/-- A finite number is its significand times two to the power of its place. -/
def significand (x : Binary f) : Nat :=
  if x.exponentField = 0 then x.fraction else 1 <<< f.fractionBits + x.fraction

def place (x : Binary f) : Int := f.leastPlace + (x.exponentField - 1 : Nat)

/-- `numerator * 2 ^ place` as a fraction. -/
def scaled (numerator : Nat) (place : Int) : Nat × Nat :=
  (numerator <<< place.toNat, 1 <<< (-place).toNat)

/-- `n / d` to the nearest integer, a half to the even one. -/
def divNearest (n d : Nat) : Nat :=
  let k := n / d
  let r := n % d
  if d < 2 * r ∨ (d = 2 * r ∧ k % 2 = 1) then k + 1 else k

/-- The bit pattern of the number nearest to `n / d`, which is infinity from half a place above
the greatest finite number on. -/
def roundRatio (f : FloatKind) (n d : Nat) : Nat :=
  if n = 0 then 0 else
  let estimate : Int := n.log2 - d.log2 - 1 - f.fractionBits
  let atPlace (p : Int) : Nat × Nat := (n <<< (-p).toNat, d <<< p.toNat)
  let low := max estimate f.leastPlace
  let place :=
    if (atPlace low).1 / (atPlace low).2 < 1 <<< (f.fractionBits + 1) then low else low + 1
  let m := divNearest (atPlace place).1 (atPlace place).2
  min f.infinity ((place - f.leastPlace).toNat <<< f.fractionBits + m)

def ofRatio (negative : Bool) (n d : Nat) : Binary f := ofMagnitude negative (roundRatio f n d)

def ofNat (n : Nat) : Binary f := ofRatio false n 1
def ofInt (i : Int) : Binary f := ofRatio (i < 0) i.natAbs 1

/-- A finite number without its sign, as a fraction. -/
def ratio (x : Binary f) : Nat × Nat := scaled x.significand x.place

/-- The product of two finite numbers. -/
def mul (x y : Binary f) : Binary f :=
  ofRatio (x.isNegative != y.isNegative) (x.ratio.1 * y.ratio.1) (x.ratio.2 * y.ratio.2)

/-- The quotient of two finite numbers, the divisor not being zero. -/
def div (x y : Binary f) : Binary f :=
  ofRatio (x.isNegative != y.isNegative) (x.ratio.1 * y.ratio.2) (x.ratio.2 * y.ratio.1)

/-- A NaN in another format: the payload keeps its leading bits and the quiet bit is set. -/
def convertNaN (g : FloatKind) (x : Binary f) : Binary g :=
  let payload := x.fraction <<< g.fractionBits >>> f.fractionBits
  let quiet := 1 <<< (g.fractionBits - 1)
  ofMagnitude x.isNegative (g.infinity + payload % quiet + quiet)

def convert (g : FloatKind) (x : Binary f) : Binary g :=
  if h : f = g then h ▸ x
  else if x.isNaN then x.convertNaN g
  else if x.isInfinite then ofMagnitude x.isNegative g.infinity
  else ofRatio x.isNegative x.ratio.1 x.ratio.2

end Binary
end PacketBus
