import PacketBus.Json.Fault
import PacketBus.Octets

/-! # JSON numbers

Digits are collected in a significand of 64 bits. A number without fraction and exponent that fits
is an integer; all others are floating-point numbers, taken to their exponent by one or more
rounded multiplications or divisions.
-/
namespace PacketBus.Json

inductive Number
  | unsigned (n : Nat)
  | signed (i : Int)
  | float (x : Binary .double)

def Number.offer : Number → Offer
  | unsigned n => .unsigned n
  | signed i => .signed i
  | float x => .float .double x

def isDigit (b : UInt8) : Bool := 0x30 ≤ b && b ≤ 0x39

def digitValue (b : UInt8) : Nat := b.toNat - 0x30

def isExponentMark (b : UInt8) : Bool := b = 0x65 || b = 0x45

/-- The digits in front and what follows them. -/
def spanDigits (bs : Octets) : Octets × Octets := (bs.takeWhile isDigit, bs.dropWhile isDigit)

/-- Adds digits to a number as long as it stays within a limit, and counts those left out. -/
def collect (limit : Nat) : (n : Nat) → (digits : Octets) → Nat × Nat
  | n, [] => (n, 0)
  | n, d :: ds =>
    if limit < 10 * n + digitValue d then (n, ds.length + 1)
    else collect limit (10 * n + digitValue d) ds

def maxSignificand : Nat := UInt64.size - 1
def maxExponent : Nat := 0x7FFFFFFF

/-- The greatest power of ten that is a finite number. -/
def maxPower : Nat := 308

def power (n : Nat) : Binary .double := .ofNat (Nat.pow 10 n)

def scaleDown (x : Binary .double) (n : Nat) : Binary .double :=
  if n ≤ maxPower then x.div (power n)
  else if x.isZero then x
  else scaleDown (x.div (power maxPower)) (n - maxPower)
termination_by n
decreasing_by simp only [maxPower] at *; omega

/-- `x * 10 ^ exponent`, if that is not too large. -/
def scale? (x : Binary .double) (exponent : Int) : Option (Binary .double) :=
  match exponent with
  | .ofNat n =>
    if n ≤ maxPower then
      let y := x.mul (power n)
      if y.isInfinite then none else some y
    else if x.isZero then some x
    else none
  | .negSucc n => some (scaleDown x (n + 1))

def signedFloat (negative : Bool) (x : Binary .double) : Number :=
  .float (if negative then x.neg else x)

def ofParts (negative : Bool) (significand : Nat) (exponent : Int) : Except Fault Number :=
  match scale? (.ofNat significand) exponent with
  | some x => .ok (signedFloat negative x)
  | none => .error .numberOutOfRange

/-- An integer, but minus zero and negative numbers beyond 64 bits are floating-point numbers. -/
def ofSignificand (negative : Bool) (n : Nat) : Number :=
  if !negative then .unsigned n
  else if n = 0 ∨ 0x8000000000000000 < n then .float (Binary.ofNat n).neg
  else .signed (-n)

/-- Whether there is a minus in front, and what follows the sign if there is one. -/
def spanSign : Octets → Bool × Octets
  | 0x2B :: rest => (false, rest)
  | 0x2D :: rest => (true, rest)
  | bs => (false, bs)

/-- What comes after the exponent mark. -/
def readExponent (negative : Bool) (significand : Nat) (exponent : Int) (bs : Octets) :
    Except Fault (Number × Octets) :=
  let (minus, bs) := spanSign bs
  match bs with
  | [] => .error .endInValue
  | b :: _ =>
    if !isDigit b then .error .invalidNumber else
    let (digits, rest) := spanDigits bs
    let (n, dropped) := collect maxExponent 0 digits
    if dropped = 0 then do
      let exponent := exponent + if minus then -(n : Int) else n
      return (← ofParts negative significand exponent, rest)
    else if significand ≠ 0 ∧ !minus then .error .numberOutOfRange
    else .ok (signedFloat negative (.ofBits 0), rest)

/-- What comes after the point. Digits that do not fit are left out. -/
def readFraction (negative : Bool) (significand : Nat) (exponent : Int) (bs : Octets) :
    Except Fault (Number × Octets) :=
  let (digits, rest) := spanDigits bs
  if digits.isEmpty then .error (if rest.isEmpty then .endInValue else .invalidNumber) else
  let (significand, dropped) := collect maxSignificand significand digits
  let exponent := exponent - (digits.length - dropped : Nat)
  match rest with
  | b :: bs =>
    if isExponentMark b then readExponent negative significand exponent bs
    else return (← ofParts negative significand exponent, rest)
  | [] => return (← ofParts negative significand exponent, rest)

/-- A number after its sign. -/
def readUnsigned (negative : Bool) (bs : Octets) : Except Fault (Number × Octets) :=
  let (digits, rest) := spanDigits bs
  match digits with
  | [] => .error (if bs.isEmpty then .endInValue else .invalidNumber)
  | first :: more =>
    if first = 0x30 ∧ !more.isEmpty then .error .invalidNumber else
    let (significand, dropped) := collect maxSignificand 0 digits
    let integer : Except Fault (Number × Octets) :=
      if dropped = 0 then .ok (ofSignificand negative significand, rest)
      else return (← ofParts negative significand dropped, rest)
    match rest with
    | b :: bs =>
      if b = 0x2E then readFraction negative significand dropped bs
      else if isExponentMark b then readExponent negative significand dropped bs
      else integer
    | [] => integer

def readNumber : Octets → Except Fault (Number × Octets)
  | 0x2D :: bs => readUnsigned true bs
  | bs => readUnsigned false bs

def startsNumber (b : UInt8) : Bool := b = 0x2D || isDigit b

/-- Passes over an exponent, of which the mark has been read. -/
def skipExponent (bs : Octets) : Except Fault Octets :=
  let (digits, rest) := spanDigits (spanSign bs).2
  if digits.isEmpty then .error .invalidNumber else .ok rest

def skipFraction (bs : Octets) : Except Fault Octets :=
  let (digits, rest) := spanDigits bs
  if digits.isEmpty then .error .invalidNumber
  else match rest with
    | b :: bs => if isExponentMark b then skipExponent bs else .ok rest
    | [] => .ok rest

/-- Passes over a number. Only its form is checked. -/
def skipNumber (bs : Octets) : Except Fault Octets :=
  let bs := match bs with
    | 0x2D :: rest => rest
    | bs => bs
  let (digits, rest) := spanDigits bs
  match digits with
  | [] => .error .invalidNumber
  | first :: more =>
    if first = 0x30 ∧ !more.isEmpty then .error .invalidNumber
    else match rest with
      | b :: bs =>
        if b = 0x2E then skipFraction bs
        else if isExponentMark b then skipExponent bs
        else .ok rest
      | [] => .ok rest

def natural (n : Nat) : Octets := (Nat.toDigits 10 n).map fun c => UInt8.ofNat c.toNat

def integer (i : Int) : Octets := if i < 0 then 0x2D :: natural i.natAbs else natural i.natAbs

end PacketBus.Json
