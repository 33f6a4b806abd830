import PacketBus.Number.Binary
import PacketBus.Text.Quoted
import PacketBus.Octets

/-! # Where data and schema disagree

A format reads an item and offers it to the schema. A `Mismatch` says what was offered and what was
expected; the two formats tell it in the same words but for a few, which their `Dialect` holds.
-/
namespace PacketBus

inductive Offer
  | unit
  | bool (b : Bool)
  | unsigned (n : Nat)
  | signed (i : Int)
  | float (kind : FloatKind) (x : Binary kind)
  | string (s : String)
  | octets (bs : Octets)
  | sequence
  | map
  | wrapped
  | bareVariant
  deriving DecidableEq, Repr

inductive Mismatch
  | type (offer : Offer) (expected : String)
  | value (offer : Offer) (expected : String)
  | length (count : Nat) (expected : String)
  | missingField (field : String)
  | duplicateField (field : String)
  | unknownField (field : String) (known : List String)
  | unknownVariant (variant : String) (known : List String)
  deriving DecidableEq, Repr

structure Dialect where
  unit : String
  float : Binary .double → String

def Offer.text (dialect : Dialect) : Offer → String
  | .unit => dialect.unit
  | .bool b => s!"boolean `{b}`"
  | .unsigned n => s!"integer `{n}`"
  | .signed i => s!"integer `{i}`"
  | .float _ x => "floating point `" ++ dialect.float (x.convert .double) ++ "`"
  | .string s => "string " ++ Quoted.quote s
  | .octets _ => "byte array"
  | .sequence => "sequence"
  | .map => "map"
  | .wrapped => "newtype struct"
  | .bareVariant => "unit variant"

namespace Mismatch

def oneOf (names : List String) : String :=
  match names.map fun name => "`" ++ name ++ "`" with
  | [] => "nothing"
  | [a] => a
  | [a, b] => a ++ " or " ++ b
  | all => "one of " ++ String.intercalate ", " all

def unknown (what name : String) (known : List String) : String :=
  "unknown " ++ what ++ " `" ++ name ++ "`, " ++
    if known.isEmpty then s!"there are no {what}s" else "expected " ++ oneOf known

def message (dialect : Dialect) : Mismatch → String
  | type offer expected => "invalid type: " ++ offer.text dialect ++ ", expected " ++ expected
  | value offer expected => "invalid value: " ++ offer.text dialect ++ ", expected " ++ expected
  | length count expected => s!"invalid length {count}, expected {expected}"
  | missingField field => s!"missing field `{field}`"
  | duplicateField field => s!"duplicate field `{field}`"
  | unknownField field known => unknown "field" field known
  | unknownVariant variant known => unknown "variant" variant known

end Mismatch
end PacketBus
