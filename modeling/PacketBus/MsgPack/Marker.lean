import PacketBus.Number.Binary

/-! # MessagePack markers

The octet that an item starts with. It holds a small number or length itself, or tells how wide the
field after it is; widths are in octets.
-/
namespace PacketBus.MsgPack

inductive Marker
  | fixPos (n : Nat)
  | fixMap (n : Nat)
  | fixArray (n : Nat)
  | fixStr (n : Nat)
  | nil
  | reserved
  | bool (b : Bool)
  | bin (width : Nat)
  | ext (width : Nat)
  | float (kind : FloatKind)
  | unsigned (width : Nat)
  | signed (width : Nat)
  | fixExt (n : Nat)
  | str (width : Nat)
  | array (width : Nat)
  | map (width : Nat)
  | fixNeg (i : Int)
  deriving DecidableEq, Repr

namespace Marker

def ofOctet (b : UInt8) : Marker :=
  let n := b.toNat
  if n < 0x80 then .fixPos n
  else if n < 0x90 then .fixMap (n - 0x80)
  else if n < 0xA0 then .fixArray (n - 0x90)
  else if n < 0xC0 then .fixStr (n - 0xA0)
  else if n < 0xC1 then .nil
  else if n < 0xC2 then .reserved
  else if n < 0xC4 then .bool (n = 0xC3)
  else if n < 0xC7 then .bin (1 <<< (n - 0xC4))
  else if n < 0xCA then .ext (1 <<< (n - 0xC7))
  else if n < 0xCB then .float .single
  else if n < 0xCC then .float .double
  else if n < 0xD0 then .unsigned (1 <<< (n - 0xCC))
  else if n < 0xD4 then .signed (1 <<< (n - 0xD0))
  else if n < 0xD9 then .fixExt (1 <<< (n - 0xD4))
  else if n < 0xDC then .str (1 <<< (n - 0xD9))
  else if n < 0xDE then .array (1 <<< (n - 0xDC + 1))
  else if n < 0xE0 then .map (1 <<< (n - 0xDE + 1))
  else .fixNeg ((n : Int) - 0x100)

def sized (name : String) (width : Nat) : String := name ++ toString (8 * width)

def name : Marker → String
  | fixPos n => s!"FixPos({n})"
  | fixMap n => s!"FixMap({n})"
  | fixArray n => s!"FixArray({n})"
  | fixStr n => s!"FixStr({n})"
  | nil => "Null"
  | reserved => "Reserved"
  | bool true => "True"
  | bool false => "False"
  | bin w => sized "Bin" w
  | ext w => sized "Ext" w
  | float .single => "F32"
  | float .double => "F64"
  | unsigned w => sized "U" w
  | signed w => sized "I" w
  | fixExt n => s!"FixExt{n}"
  | str w => sized "Str" w
  | array w => sized "Array" w
  | map w => sized "Map" w
  | fixNeg i => s!"FixNeg({i})"

/-- Number and truth value types read no further than a marker of another kind. -/
def isPlain : Marker → Bool
  | fixPos _ | fixNeg _ | nil | bool _ | float _ | unsigned _ | signed _ => true
  | _ => false

end Marker
end PacketBus.MsgPack
