import PacketBus.Catalog.World
import PacketBus.Json.Writer

/-! # The handlers of the game

The handlers that sessions are set up with, by name. Some react to a type of choice.
-/
namespace PacketBus.Catalog
open Kind (catalogName applied vecName)

def Kind.request (k : Kind) : RequestType := ⟨k.qualifiedName, k.schema⟩
def Kind.response (k : Kind) : ResponseType := ⟨k.qualifiedName, .schema k.schema⟩

def jsonText (k : Kind) (v : k.Value) : String := Utf8.decodeLenient (Json.write k.schema v)

inductive SilentHandler
  | ping | add | move
  | sink (k : Kind)

def splitName? (front name : String) : Option Kind :=
  if name.startsWith front then Kind.ofName? (name.drop front.length).toString else none

def SilentHandler.ofName? (name : String) : Option SilentHandler :=
  if name = "ping" then some .ping
  else if name = "add" then some .add
  else if name = "move" then some .move
  else (splitName? "sink:" name).map .sink

def SilentHandler.register (id : UInt16) : SilentHandler → Registration World
  | .ping => .silent id Kind.unit.request fun _ w =>
    noting "ping" w (fun _ => ()) (·.count 1)
  | .add => .silent id (Kind.int .i32).request fun (n : FixedInt .i32) w => quiet () (w.count n.val)
  | .move => .silent id Kind.move.request fun (x, y, _) w =>
    noting s!"move {x.val},{y.val}" w (fun _ => ()) fun w =>
      { w with counter := .wrap (x.val + y.val) }
  | .sink k => .silent id k.request fun v w =>
    noting ("sink:" ++ k.name ++ " " ++ jsonText k v) w fun _ => ()

inductive ReplyHandler
  | double | half | total | count | greet | push9 | zeros | position
  | bytesKey | refuse | refuseLater | none
  | echo (k : Kind)

def replyHandlers : List (String × ReplyHandler) :=
  [("double", .double), ("half", .half), ("total", .total), ("count", .count), ("greet", .greet),
   ("push9", .push9), ("zeros", .zeros), ("position", .position), ("bytes_key", .bytesKey),
   ("refuse", .refuse), ("refuse_later", .refuseLater), ("none", .none)]

def ReplyHandler.ofName? (name : String) : Option ReplyHandler :=
  (replyHandlers.lookup name).or ((splitName? "echo:" name).map .echo)

def refusingName : String := catalogName "Refuse"

def refusing : Response := .refusing "refused"

/-- The most zeros that one reply holds. -/
def maxZeros : Nat := 70000

namespace ReplyHandler

def halve (n : FixedInt .i32) : Option (FixedInt .i32) :=
  if n.val % 2 = 0 then some (.wrap (n.val / 2)) else .none

def register (id responseId : UInt16) : ReplyHandler → Registration World
  | double => .reply id responseId (Kind.int .i32).request (Kind.int .i32).response
      fun (n : FixedInt .i32) w => quiet (some (.wrap (n.val * 2) : FixedInt .i32)) w
  | half => .reply id responseId (Kind.int .i32).request (Kind.int .i32).response
      fun (n : FixedInt .i32) w => noting s!"half {n.val}" w fun _ => halve n
  | total => .reply id responseId (Kind.int .i64).request (Kind.int .i64).response
      fun (n : FixedInt .i64) w => let w := w.count n.val; quiet (some w.counter) w
  | count => .reply id responseId Kind.string.request (Kind.int .u32).response
      fun (s : String) w => noting s w fun w => some w.lines
  | greet => .reply id responseId Kind.string.request Kind.string.response
      fun (s : String) w => quiet (some ("hello " ++ s)) w
  | push9 => .reply id responseId Kind.vecU8.request ⟨"usize", .schema (.scalar (.int .u64))⟩
      fun (bs : List (FixedInt .u8)) w =>
        quiet (some (.wrap (bs.length + 1) : FixedInt .u64)) w
  | zeros => .reply id responseId (Kind.int .u32).request Kind.vecU8.response
      fun (n : FixedInt .u32) w =>
        quiet (some (List.replicate (min n.val.toNat maxZeros) (0 : FixedInt .u8))) w
  | position => .reply id responseId Kind.unit.request Kind.move.response
      fun _ w =>
        let place : FixedInt .i32 × FixedInt .i32 × Unit :=
          (.wrap w.counter.val, .wrap w.gold.val, ())
        quiet (some place) w
  | bytesKey => .reply id responseId (Kind.int .i32).request
      ⟨applied "std::collections::hash::map::HashMap" [vecName "u8", "i32"], .octetMap i32⟩
      fun (n : FixedInt .i32) w => noting "bytes_key" w fun _ => some [([1], n)]
  | refuse => .reply id responseId (Kind.int .i32).request ⟨refusingName, refusing⟩
      fun _ w => noting "refuse" w fun _ => some ()
  | refuseLater => .reply id responseId (Kind.int .i32).request
      ⟨vecName (applied "core::option::Option" [refusingName]), .seq (.option refusing)⟩
      fun _ w => quiet (some [Option.none, some ()]) w
  | none => .reply id responseId Kind.ping.request ⟨refusingName, refusing⟩
      fun _ w => noting "none" w fun _ => Option.none
  | echo k => .reply id responseId k.request k.response
      fun v w => noting ("echo:" ++ k.name ++ " " ++ jsonText k v) w fun _ => some v

end ReplyHandler

/-- Handlers that are installed together. -/
inductive Group
  | shop (price : FixedInt .u32)
  | greeter (greeting : String)
  | counted

namespace Group

/-- What is left of some gold after a purchase, if there is enough of it. -/
def buy (price quantity gold : FixedInt .u32) : Option (FixedInt .u32) :=
  let cost := price * quantity
  if cost.val ≤ gold.val then some (gold - cost) else none

/-- The number of the service tells apart groups that count their calls. -/
def register (service : Nat) : Group → List (Registration World)
  | shop price =>
    [.reply 10 11 (Kind.int .u32).request (Kind.int .u32).response
      fun (quantity : FixedInt .u32) w =>
        match buy price quantity w.gold with
        | some gold => quiet (some gold) { w with gold }
        | none => quiet none w]
  | greeter greeting =>
    [.silent 1 Kind.string.request fun (name : String) w =>
      noting (greeting ++ name) w fun _ => (),
     .reply 2 3 Kind.string.request Kind.string.response
      fun (name : String) w => quiet (some (greeting ++ name)) w]
  | counted =>
    [.silent 1111 Kind.ping.request fun _ w =>
      let w := w.called service
      noting s!"test0 calls={w.callsOf service}" w fun _ => (),
     .reply 1234 4567 (Kind.int .i32).request (Kind.int .i32).response
      fun _ w =>
        let w := w.called service
        noting s!"test1 calls={w.callsOf service}" w
          fun _ => some (.wrap 789 : FixedInt .i32)]

end Group
end PacketBus.Catalog
