import PacketBus.Payload.Response

/-! # The types of payloads

The types that the events of the game use, each with its schema, its short name and the qualified
name that route listings show.
-/
namespace PacketBus.Catalog

def i32 : Schema := .scalar (.int .i32)
def u32 : Schema := .scalar (.int .u32)
def text : Schema := .scalar .string
def flag : Schema := .scalar .bool

def point2 : Row := .required "x" i32 (.required "y" i32 .nil)

def spawn : Schema :=
  .record "struct Spawn" false
    (.required "id" u32 (.required "name" text (.required "active" flag .nil)))

def profile : Schema :=
  .record "struct Profile" false
    (.required "nick" text (.orZero "level" .u16 (.required "guild" (.option text)
      (.orNone "note" (.scalar (.int .i8)) .nil))))

def event : Schema :=
  .choice "Event"
    (.bare "Quit"
    (.carrying "Say" .single text
    (.carrying "Pair" .tuple
      (.tuple (.named "tuple variant Event::Pair") (.required "0" i32 (.required "1" i32 .nil)))
    (.carrying "At" .record (.record "struct variant Event::At" false point2)
    .nil))))

def tags : Schema := .map .string i32

def party : Schema :=
  .record "struct Party" false
    (.required "leader" spawn (.required "members" (.seq spawn) (.required "tags" tags .nil)))

/-- Trees of a given height at most. -/
def treeOf : (height : Nat) → Schema
  | 0 => .choice "Tree" .nil
  | height + 1 =>
    .record "struct Tree" false
      (.required "v" (.scalar (.int .u8)) (.required "kids" (.seq (treeOf height)) .nil))

/-- More than a payload can hold: each level of a tree takes two levels of nesting, of which there
are 1023 at most. -/
def treeHeight : Nat := 513

inductive Kind
  | unit | ping | bool | int (k : IntKind) | float (f : FloatKind) | char | string | bytes
  | optI32 | vecU8 | vecI32 | vecString | pair | arr3 | mapStr | mapU8
  | move | spawn | profile | strict | entityId | point | event | party | tree
  deriving DecidableEq, Repr

namespace Kind

def schema : Kind → Schema
  | unit => .scalar .unit
  | ping => .scalar (.marker "Ping")
  | bool => flag
  | int k => .scalar (.int k)
  | float f => .scalar (.float f)
  | char => .scalar .char
  | string => text
  | bytes => .scalar .octets
  | optI32 => .option i32
  | vecU8 => .seq (.scalar (.int .u8))
  | vecI32 => .seq i32
  | vecString => .seq text
  | pair => .tuple .tuple (.required "0" i32 (.required "1" text .nil))
  | arr3 =>
    let u8 : Schema := .scalar (.int .u8)
    .tuple .array (.required "0" u8 (.required "1" u8 (.required "2" u8 .nil)))
  | mapStr => tags
  | mapU8 => .map (.int .u8) text
  | move => .record "struct Move" false point2
  | spawn => Catalog.spawn
  | profile => Catalog.profile
  | strict => .record "struct Strict" true (.required "a" i32 (.required "b" flag .nil))
  | entityId => u32
  | point =>
    let f32 : Schema := .scalar (.float .single)
    .tuple (.named "tuple struct Point") (.required "0" f32 (.required "1" f32 .nil))
  | event => Catalog.event
  | party => Catalog.party
  | tree => treeOf treeHeight

def intKinds : List IntKind := [.i8, .i16, .i32, .i64, .u8, .u16, .u32, .u64]

def all : List Kind :=
  [unit, ping, bool] ++ intKinds.map int ++ [float .single, float .double] ++
  [char, string, bytes, optI32, vecU8, vecI32, vecString, pair, arr3, mapStr, mapU8,
    move, spawn, profile, strict, entityId, point, event, party, tree]

def name : Kind → String
  | unit => "unit"
  | ping => "ping"
  | bool => "bool"
  | int k => k.name
  | float f => f.name
  | char => "char"
  | string => "string"
  | bytes => "bytes"
  | optI32 => "opt_i32"
  | vecU8 => "vec_u8"
  | vecI32 => "vec_i32"
  | vecString => "vec_string"
  | pair => "pair"
  | arr3 => "arr3"
  | mapStr => "map_str"
  | mapU8 => "map_u8"
  | move => "move"
  | spawn => "spawn"
  | profile => "profile"
  | strict => "strict"
  | entityId => "entity_id"
  | point => "point"
  | event => "event"
  | party => "party"
  | tree => "tree"

def ofName? (s : String) : Option Kind := all.find? fun k => k.name == s

def textName : String := "alloc::string::String"

def catalogName (name : String) : String := "netevent_driver::catalog::" ++ name

/-- A name with its arguments. -/
def applied (name : String) (arguments : List String) : String :=
  name ++ "<" ++ String.intercalate ", " arguments ++ ">"

def mapName (key value : String) : String :=
  applied "alloc::collections::btree::map::BTreeMap" [key, value]

def vecName (item : String) : String := applied "alloc::vec::Vec" [item]

def qualifiedName : Kind → String
  | unit => "()"
  | string => textName
  | bytes => "serde_bytes::bytebuf::ByteBuf"
  | optI32 => applied "core::option::Option" ["i32"]
  | vecU8 => vecName "u8"
  | vecI32 => vecName "i32"
  | vecString => vecName textName
  | pair => "(i32, " ++ textName ++ ")"
  | arr3 => "[u8; 3]"
  | mapStr => mapName textName "i32"
  | mapU8 => mapName "u8" textName
  | ping => catalogName "Ping"
  | move => catalogName "Move"
  | spawn => catalogName "Spawn"
  | profile => catalogName "Profile"
  | strict => catalogName "Strict"
  | entityId => catalogName "EntityId"
  | point => catalogName "Point"
  | event => catalogName "Event"
  | party => catalogName "Party"
  | tree => catalogName "Tree"
  | k => k.name

abbrev Value (k : Kind) : Type := k.schema.Value

end Kind
end PacketBus.Catalog
