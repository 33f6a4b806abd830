import PacketBus.Octets
import PacketBus.FixedInt
import PacketBus.SortedMap
import PacketBus.Number.Binary

/-! # Schemas and their values

A schema says which values a payload may hold, whatever format it travels in. Each schema has its
type of values, so a handler gets its request as an ordinary value of that type.
-/
namespace PacketBus

/-- Items that hold no other item. A `marker` is a named type with one value. -/
inductive Scalar
  | unit
  | marker (name : String)
  | bool
  | int (kind : IntKind)
  | float (kind : FloatKind)
  | char
  | string
  | octets

abbrev Scalar.Value : Scalar → Type
  | .unit | .marker _ => Unit
  | .bool => Bool
  | .int k => FixedInt k
  | .float f => Binary f
  | .char => Char
  | .string => String
  | .octets => Octets

/-- What map keys may be. -/
inductive KeyKind
  | string
  | int (kind : IntKind)

abbrev KeyKind.Value : KeyKind → Type
  | .string => String
  | .int k => FixedInt k

namespace KeyKind

instance : (k : KeyKind) → Ord k.Value
  | .string => inferInstanceAs (Ord String)
  | .int _ => inferInstanceAs (Ord (FixedInt _))

instance : (k : KeyKind) → Std.TransOrd k.Value
  | .string => inferInstanceAs (Std.TransOrd String)
  | .int _ => inferInstanceAs (Std.TransOrd (FixedInt _))

instance : (k : KeyKind) → Std.LawfulEqOrd k.Value
  | .string => inferInstanceAs (Std.LawfulEqOrd String)
  | .int _ => inferInstanceAs (Std.LawfulEqOrd (FixedInt _))

end KeyKind

/-- How a sequence of fixed length is called. -/
inductive TupleName
  | tuple
  | array
  | named (title : String)

/-- How the content of a variant is laid out. -/
inductive VariantForm
  | single | tuple | record

mutual

inductive Schema
  | scalar (s : Scalar)
  | option (s : Schema)
  | seq (s : Schema)
  | tuple (name : TupleName) (items : Row)
  | record (title : String) (strict : Bool) (fields : Row)
  | map (key : KeyKind) (s : Schema)
  | choice (name : String) (variants : Variants)

/-- The fields of a record in the order of declaration. A field may have a default: an integer
zero, or nothing, in which case it is also left out of what is written. -/
inductive Row
  | nil
  | required (field : String) (s : Schema) (rest : Row)
  | orZero (field : String) (kind : IntKind) (rest : Row)
  | orNone (field : String) (s : Schema) (rest : Row)

inductive Variants
  | nil
  | bare (variant : String) (rest : Variants)
  | carrying (variant : String) (form : VariantForm) (s : Schema) (rest : Variants)

end

mutual

@[reducible] def Schema.Value : Schema → Type
  | .scalar s => s.Value
  | .option s => Option s.Value
  | .seq s => List s.Value
  | .tuple _ items => items.Values
  | .record _ _ fields => fields.Values
  | .map k s => SortedMap k.Value s.Value
  | .choice _ variants => variants.Value

@[reducible] def Row.Values : Row → Type
  | .nil => Unit
  | .required _ s rest => s.Value × rest.Values
  | .orZero _ k rest => FixedInt k × rest.Values
  | .orNone _ s rest => Option s.Value × rest.Values

/-- The left summand is the first variant. -/
@[reducible] def Variants.Value : Variants → Type
  | .nil => Empty
  | .bare _ rest => Unit ⊕ rest.Value
  | .carrying _ _ s rest => s.Value ⊕ rest.Value

end

namespace Row

/-- A record that is being read: each field at most once. -/
@[reducible] def Slots : Row → Type
  | .nil => Unit
  | .required _ s rest => Option s.Value × rest.Slots
  | .orZero _ k rest => Option (FixedInt k) × rest.Slots
  | .orNone _ s rest => Option (Option s.Value) × rest.Slots

def emptySlots : (r : Row) → r.Slots
  | .nil => ()
  | .required _ _ rest => (none, rest.emptySlots)
  | .orZero _ _ rest => (none, rest.emptySlots)
  | .orNone _ _ rest => (none, rest.emptySlots)

def names : Row → List String
  | .nil => []
  | .required field _ rest | .orZero field _ rest | .orNone field _ rest => field :: rest.names

def length (r : Row) : Nat := r.names.length

end Row

def Variants.names : Variants → List String
  | .nil => []
  | .bare variant rest | .carrying variant _ _ rest => variant :: rest.names

end PacketBus
