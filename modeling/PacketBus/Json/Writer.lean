import PacketBus.Json.Layout
import PacketBus.Payload.Response

/-! # Writing values to JSON

The text is compact. Records are objects with their fields in the order of declaration.
-/
namespace PacketBus.Json

def null : Octets := 0x6E :: nullTail

def list (items : List Octets) : Octets := 0x5B :: [0x2C].intercalate items ++ [0x5D]

def object (entries : List Octets) : Octets := 0x7B :: [0x2C].intercalate entries ++ [0x7D]

/-- An entry of an object, its key with the quotes around it. -/
def entry (key value : Octets) : Octets := key ++ 0x3A :: value

def octetText (cs : List Char) : Octets := cs.map fun c => UInt8.ofNat c.toNat

def writeFloat {f : FloatKind} (x : Binary f) : Octets :=
  if x.isNaN || x.isInfinite then null else octetText (floatText x)

def writeScalar : (s : Scalar) → s.Value → Octets
  | .unit, _ | .marker _, _ => null
  | .bool, b => octetText (if b then ['t', 'r', 'u', 'e'] else ['f', 'a', 'l', 's', 'e'])
  | .int _, i => integer i.val
  | .float _, x => writeFloat x
  | .char, c => writeText (String.singleton c)
  | .string, s => writeText s
  | .octets, bs => list (bs.map fun b => natural b.toNat)

def writeKey : (k : KeyKind) → k.Value → Octets
  | .string, s => writeText s
  | .int _, i => 0x22 :: integer i.val ++ [0x22]

def writeOption {α : Type} (write : α → Octets) : Option α → Octets
  | none => null
  | some v => write v

mutual

def write : (s : Schema) → s.Value → Octets
  | .scalar s, v => writeScalar s v
  | .option s, v => writeOption (write s) v
  | .seq s, vs => list (vs.map (write s))
  | .tuple _ items, vs => list (writeItems items vs)
  | .record _ _ fields, vs => object (writeFields fields vs)
  | .map k s, m => object (m.entries.map fun e => entry (writeKey k e.1) (write s e.2))
  | .choice _ variants, v => writeVariant variants v

def writeItems : (r : Row) → r.Values → List Octets
  | .nil, _ => []
  | .required _ s rest, (v, vs) => write s v :: writeItems rest vs
  | .orZero _ _ rest, (v, vs) => integer v.val :: writeItems rest vs
  | .orNone _ s rest, (v, vs) => writeOption (write s) v :: writeItems rest vs

def writeFields : (r : Row) → r.Values → List Octets
  | .nil, _ => []
  | .required field s rest, (v, vs) => entry (writeText field) (write s v) :: writeFields rest vs
  | .orZero field _ rest, (v, vs) =>
    entry (writeText field) (integer v.val) :: writeFields rest vs
  | .orNone field s rest, (v, vs) =>
    match v with
    | none => writeFields rest vs
    | some v => entry (writeText field) (write s v) :: writeFields rest vs

def writeVariant : (v : Variants) → v.Value → Octets
  | .nil, v => nomatch v
  | .bare variant _, .inl _ => writeText variant
  | .carrying variant _ s _, .inl v => object [entry (writeText variant) (write s v)]
  | .bare _ rest, .inr v | .carrying _ _ _ rest, .inr v => writeVariant rest v

end

/-- Keys have to be strings. -/
def writeResponse : (r : Response) → r.Value → Except Refusal Octets
  | .schema s, v => .ok (write s v)
  | .octetMap _, es => if es.isEmpty then .ok (object []) else .error .octetKey
  | .refusing text, _ => .error (.reason text)
  | .option _, none => .ok null
  | .option r, some v => writeResponse r v
  | .seq r, vs => do
    let items ← vs.mapM (writeResponse r)
    return list items

end PacketBus.Json
