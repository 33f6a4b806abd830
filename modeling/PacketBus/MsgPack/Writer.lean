import PacketBus.Payload.Response
import PacketBus.Text.Utf8

/-! # Writing values to MessagePack

Numbers and lengths take the shortest form that holds them. Records are maps from field names, in
the order of declaration.
-/
namespace PacketBus.MsgPack

/-- A marker with its number, in the first width that holds the number. -/
def sized (n : Nat) : List (UInt8 × Nat) → Octets
  | [] => []
  | [(marker, width)] => marker :: Octets.ofNat width n
  | (marker, width) :: wider =>
    if n < Octets.span width then marker :: Octets.ofNat width n else sized n wider

def natural (n : Nat) : Octets :=
  if n < 0x80 then [UInt8.ofNat n]
  else sized n [(0xCC, 1), (0xCD, 2), (0xCE, 4), (0xCF, 8)]

/-- Negative numbers are written by their two's complement. -/
def negative (i : Int) : Octets :=
  if -0x20 ≤ i then [UInt8.ofNat (i + 0x100).toNat]
  else if -0x80 ≤ i then 0xD0 :: Octets.ofNat 1 (i + Octets.span 1).toNat
  else if -0x8000 ≤ i then 0xD1 :: Octets.ofNat 2 (i + Octets.span 2).toNat
  else if -0x80000000 ≤ i then 0xD2 :: Octets.ofNat 4 (i + Octets.span 4).toNat
  else 0xD3 :: Octets.ofNat 8 (i + Octets.span 8).toNat

def integer (i : Int) : Octets := if 0 ≤ i then natural i.toNat else negative i

def string (bs : Octets) : Octets :=
  let n := bs.length
  (if n < 0x20 then [UInt8.ofNat (0xA0 + n)] else sized n [(0xD9, 1), (0xDA, 2), (0xDB, 4)]) ++ bs

def text (s : String) : Octets := string (Utf8.encode s)

def octets (bs : Octets) : Octets := sized bs.length [(0xC4, 1), (0xC5, 2), (0xC6, 4)] ++ bs

def arrayHead (n : Nat) : Octets :=
  if n < 0x10 then [UInt8.ofNat (0x90 + n)] else sized n [(0xDC, 2), (0xDD, 4)]

def mapHead (n : Nat) : Octets :=
  if n < 0x10 then [UInt8.ofNat (0x80 + n)] else sized n [(0xDE, 2), (0xDF, 4)]

def writeFloat {f : FloatKind} (x : Binary f) : Octets :=
  (match f with | .single => 0xCA | .double => 0xCB) :: Octets.ofNat f.octets x.bits

def writeScalar : (s : Scalar) → s.Value → Octets
  | .unit, _ => [0xC0]
  | .marker _, _ => arrayHead 0
  | .bool, b => if b then [0xC3] else [0xC2]
  | .int _, i => integer i.val
  | .float _, x => writeFloat x
  | .char, c => string (Utf8.encodeChar c)
  | .string, s => text s
  | .octets, bs => octets bs

def writeKey : (k : KeyKind) → k.Value → Octets
  | .string, s => text s
  | .int _, i => integer i.val

def writeOption {α : Type} (write : α → Octets) : Option α → Octets
  | none => [0xC0]
  | some v => write v

/-- How many fields are written by name. -/
def entryCount : (r : Row) → r.Values → Nat
  | .nil, _ => 0
  | .required _ _ rest, (_, vs) => entryCount rest vs + 1
  | .orZero _ _ rest, (_, vs) => entryCount rest vs + 1
  | .orNone _ _ rest, (v, vs) => entryCount rest vs + if v.isSome then 1 else 0

mutual

def write : (s : Schema) → s.Value → Octets
  | .scalar s, v => writeScalar s v
  | .option s, v => writeOption (write s) v
  | .seq s, vs => arrayHead vs.length ++ vs.flatMap (write s)
  | .tuple _ items, vs => arrayHead items.length ++ writeItems items vs
  | .record _ _ fields, vs => mapHead (entryCount fields vs) ++ writeFields fields vs
  | .map k s, m =>
    mapHead m.size ++ m.entries.flatMap fun e => writeKey k e.1 ++ write s e.2
  | .choice _ variants, v => writeVariant variants v

def writeItems : (r : Row) → r.Values → Octets
  | .nil, _ => []
  | .required _ s rest, (v, vs) => write s v ++ writeItems rest vs
  | .orZero _ _ rest, (v, vs) => integer v.val ++ writeItems rest vs
  | .orNone _ s rest, (v, vs) => writeOption (write s) v ++ writeItems rest vs

def writeFields : (r : Row) → r.Values → Octets
  | .nil, _ => []
  | .required field s rest, (v, vs) => text field ++ write s v ++ writeFields rest vs
  | .orZero field _ rest, (v, vs) => text field ++ integer v.val ++ writeFields rest vs
  | .orNone field s rest, (v, vs) =>
    (match v with
      | none => []
      | some v => text field ++ write s v) ++ writeFields rest vs

def writeVariant : (v : Variants) → v.Value → Octets
  | .nil, v => nomatch v
  | .bare variant _, .inl _ => text variant
  | .carrying variant _ s _, .inl v => mapHead 1 ++ text variant ++ write s v
  | .bare _ rest, .inr v | .carrying _ _ _ rest, .inr v => writeVariant rest v

end

def writeResponse : (r : Response) → r.Value → Except Refusal Octets
  | .schema s, v => .ok (write s v)
  | .octetMap s, es => .ok <| mapHead es.length ++ es.flatMap fun e =>
      arrayHead e.1.length ++ (e.1.flatMap fun b => natural b.toNat) ++ write s e.2
  | .refusing text, _ => .error (.reason text)
  | .option _, none => .ok [0xC0]
  | .option r, some v => writeResponse r v
  | .seq r, vs => do
    let items ← vs.mapM (writeResponse r)
    return arrayHead vs.length ++ items.flatten

end PacketBus.MsgPack
