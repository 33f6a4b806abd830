import PacketBus.Payload.Mismatch
import PacketBus.Payload.Schema
import PacketBus.Text.Utf8

/-! # What a schema accepts

The part of reading that does not depend on the format: which offers a schema takes, what it calls
itself when it refuses one, and how a record comes together from fields in any order.
-/
namespace PacketBus

namespace Scalar

def expected : Scalar → String
  | .unit => "unit"
  | .marker name => "unit struct " ++ name
  | .bool => "a boolean"
  | .int k => k.name
  | .float f => f.name
  | .char => "a character"
  | .string => "a string"
  | .octets => "byte array"

def acceptInt (k : IntKind) (offer : Offer) (i : Int) : Except Mismatch (FixedInt k) :=
  match FixedInt.ofInt? i with
  | some v => .ok v
  | none => .error (.value offer k.name)

/-- Integers are taken by floats too, octets that are text by strings, and text by octets. -/
def accept : (s : Scalar) → Offer → Except Mismatch s.Value
  | .unit, .unit => .ok ()
  | .marker _, .unit => .ok ()
  | .bool, .bool b => .ok b
  | .int k, .unsigned n => acceptInt k (.unsigned n) n
  | .int k, .signed i => acceptInt k (.signed i) i
  | .float _, .unsigned n => .ok (.ofNat n)
  | .float _, .signed i => .ok (.ofInt i)
  | .float f, .float _ x => .ok (x.convert f)
  | .char, .string s =>
    match s.toList with
    | [c] => .ok c
    | _ => .error (.value (.string s) "a character")
  | .string, .string s => .ok s
  | .string, .octets bs =>
    match Utf8.decode bs with
    | .ok s => .ok s
    | .error _ => .error (.value (.octets bs) "a string")
  | .octets, .octets bs => .ok bs
  | .octets, .string s => .ok (Utf8.encode s)
  | s, offer => .error (.type offer s.expected)

end Scalar

def TupleName.expected (arity : Nat) : TupleName → String
  | .tuple => s!"a tuple of size {arity}"
  | .array => s!"an array of length {arity}"
  | .named title => title

/-- A title with the number of its elements. -/
def elements (title : String) (arity : Nat) : String :=
  s!"{title} with {arity} element" ++ if arity = 1 then "" else "s"

def TupleName.counted (arity : Nat) : TupleName → String
  | .named title => elements title arity
  | name => name.expected arity

namespace Schema

def expected : Schema → String
  | .scalar s => s.expected
  | .option s => s.expected
  | .seq _ => "a sequence"
  | .tuple name items => name.expected items.length
  | .record title _ _ => title
  | .map _ _ => "a map"
  | .choice name _ => "enum " ++ name

/-- An integer in a place where no item of a format stands. -/
def acceptNat : (s : Schema) → Nat → Except Mismatch s.Value
  | .scalar s, n => s.accept (.unsigned n)
  | .option _, n => .error (.type (.unsigned n) "option")
  | s, n => .error (.type (.unsigned n) s.expected)

/-- The value of a field that a record does not have. -/
def absent? : (s : Schema) → Option s.Value
  | .option _ => some none
  | _ => none

end Schema

/-- How data name a field or a variant. -/
inductive Ident
  | name (bs : Octets)
  | index (n : Nat)

def findName (names : List String) (bs : Octets) : Option Nat :=
  names.findIdx? fun name => Utf8.encode name == bs

namespace Row

/-- The position of a field, or nothing if it is to be ignored. -/
def resolve (strict : Bool) (r : Row) : Ident → Except Mismatch (Option Nat)
  | .name bs =>
    match findName r.names bs with
    | some i => .ok (some i)
    | none =>
      if strict then .error (.unknownField (Utf8.decodeLenient bs) r.names) else .ok none
  | .index n =>
    if n < r.length then .ok (some n)
    else if strict then .error (.value (.unsigned n) s!"field index 0 <= i < {r.length}")
    else .ok none

/-- The record, once all of it is read. -/
def finish : (r : Row) → r.Slots → Except Mismatch r.Values
  | .nil, _ => .ok ()
  | .required field s rest, (slot, slots) => do
    let value ← match slot.or s.absent? with
      | some value => .ok value
      | none => .error (.missingField field)
    return (value, ← rest.finish slots)
  | .orZero _ _ rest, (slot, slots) => return (slot.getD 0, ← rest.finish slots)
  | .orNone _ _ rest, (slot, slots) => return (slot.getD none, ← rest.finish slots)

/-- Fields that are integers in order. -/
def ofNats (expected : String) : (r : Row) → (index : Nat) → Octets →
    Except Mismatch r.Values
  | .nil, _, _ => .ok ()
  | .required _ s rest, index, b :: bs => do
    return (← s.acceptNat b.toNat, ← rest.ofNats expected (index + 1) bs)
  | .required _ _ _, index, [] => .error (.length index expected)
  | .orZero _ k rest, index, b :: bs => do
    return (← (Schema.scalar (.int k)).acceptNat b.toNat, ← rest.ofNats expected (index + 1) bs)
  | .orZero _ _ rest, index, [] => return (0, ← rest.ofNats expected (index + 1) [])
  | .orNone _ s rest, index, b :: bs => do
    return (← (Schema.option s).acceptNat b.toNat, ← rest.ofNats expected (index + 1) bs)
  | .orNone _ _ rest, index, [] => return (none, ← rest.ofNats expected (index + 1) [])

end Row

def Variants.resolve (v : Variants) : Ident → Except Mismatch Nat
  | .name bs =>
    match findName v.names bs with
    | some i => .ok i
    | none => .error (.unknownVariant (Utf8.decodeLenient bs) v.names)
  | .index n =>
    if n < v.names.length then .ok n
    else .error (.value (.unsigned n) s!"variant index 0 <= i < {v.names.length}")

def VariantForm.expected : VariantForm → String
  | .single => "newtype variant"
  | .tuple => "tuple variant"
  | .record => "struct variant"

/-- A variant that is named without content. -/
def Variants.bareAt : (v : Variants) → Nat → Except Mismatch v.Value
  | .nil, _ => .error (.type .bareVariant "a variant")
  | .bare _ _, 0 => .ok (.inl ())
  | .bare _ rest, i + 1 => (rest.bareAt i).map .inr
  | .carrying _ form _ _, 0 => .error (.type .bareVariant form.expected)
  | .carrying _ _ _ rest, i + 1 => (rest.bareAt i).map .inr

end PacketBus
