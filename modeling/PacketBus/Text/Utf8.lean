import PacketBus.Octets

/-! # UTF-8

Every octet string splits in one way into characters and maximal ill-formed parts. Strict reading
reports the first ill-formed part and where it starts; lenient reading puts U+FFFD in its place.
-/
namespace PacketBus.Utf8

/-- The octets of a code point, surrogates included. -/
def encodeCode (n : Nat) : Octets :=
  let tail (k : Nat) : UInt8 := UInt8.ofNat (0x80 + (n >>> (6 * k)) % 64)
  if n < 0x80 then [UInt8.ofNat n]
  else if n < 0x800 then [UInt8.ofNat (0xC0 + n / 64), tail 0]
  else if n < 0x10000 then [UInt8.ofNat (0xE0 + n / 0x1000), tail 1, tail 0]
  else [UInt8.ofNat (0xF0 + n / 0x40000), tail 2, tail 1, tail 0]

def encodeChar (c : Char) : Octets := encodeCode c.toNat

def encode (s : String) : Octets := s.toList.flatMap encodeChar

/-- A character that has begun: its leading bits, the octets seen and owed, and the bounds of the
next octet. -/
structure Begun where
  code : Nat
  seen : Nat := 1
  owed : Nat
  low : UInt8 := 0x80
  high : UInt8 := 0xBF

inductive Move
  | char (c : Char)
  | begun (b : Begun)
  | ill

/-- The first octet of a character. The bounds after it leave out overlong forms, surrogates and
code points above U+10FFFF. -/
def first (b : UInt8) : Move :=
  let n := b.toNat
  if b < 0x80 then .char (Char.ofNat n)
  else if b < 0xC2 then .ill
  else if b < 0xE0 then .begun { code := n - 0xC0, owed := 1 }
  else if b < 0xF0 then
    .begun { code := n - 0xE0, owed := 2
             low := if b = 0xE0 then 0xA0 else 0x80, high := if b = 0xED then 0x9F else 0xBF }
  else if b < 0xF5 then
    .begun { code := n - 0xF0, owed := 3
             low := if b = 0xF0 then 0x90 else 0x80, high := if b = 0xF4 then 0x8F else 0xBF }
  else .ill

def Begun.next (p : Begun) (b : UInt8) : Move :=
  if p.low ≤ b ∧ b ≤ p.high then
    let code := 64 * p.code + (b.toNat - 0x80)
    if p.owed ≤ 1 then .char (Char.ofNat code)
    else .begun { code, seen := p.seen + 1, owed := p.owed - 1 }
  else .ill

/-- A part of an octet string: a character, an ill-formed part of some width, or a character that
the end of the string cuts. -/
inductive Segment
  | char (c : Char)
  | ill (width : Nat)
  | cut

def Segment.ofFirst (b : UInt8) : Option Segment × Option Begun :=
  match first b with
  | .char c => (some (.char c), none)
  | .begun p => (none, some p)
  | .ill => (some (.ill 1), none)

def scan (acc : Array Segment) : Option Begun → Octets → Array Segment
  | none, [] => acc
  | some _, [] => acc.push .cut
  | none, b :: rest =>
    let (segment, begun) := Segment.ofFirst b
    scan (acc ++ segment.toArray) begun rest
  | some p, b :: rest =>
    match p.next b with
    | .char c => scan (acc.push (.char c)) none rest
    | .begun q => scan acc (some q) rest
    | .ill =>
      let (segment, begun) := Segment.ofFirst b
      scan (acc.push (.ill p.seen) ++ segment.toArray) begun rest

def segments (bs : Octets) : List Segment := (scan #[] none bs).toList

inductive Fault
  | ill (index width : Nat)
  | cut (index : Nat)
  deriving DecidableEq, Repr

def Fault.message : Fault → String
  | .ill index width =>
    s!"invalid utf-8 sequence of {toString width} bytes from index {toString index}"
  | .cut index => s!"incomplete utf-8 byte sequence from index {toString index}"

def strict (index : Nat) (acc : List Char) : List Segment → Except Fault String
  | [] => .ok (String.ofList acc.reverse)
  | .char c :: rest => strict (index + c.utf8Size) (c :: acc) rest
  | .ill width :: _ => .error (.ill index width)
  | .cut :: _ => .error (.cut index)

def decode (bs : Octets) : Except Fault String := strict 0 [] (segments bs)

def Segment.lenient : Segment → Char
  | .char c => c
  | .ill _ | .cut => '\uFFFD'

def decodeLenient (bs : Octets) : String := String.ofList ((segments bs).map Segment.lenient)

end PacketBus.Utf8
