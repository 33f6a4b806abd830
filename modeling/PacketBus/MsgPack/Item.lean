import PacketBus.MsgPack.Marker
import PacketBus.Number.Decimal
import PacketBus.Payload.Accept

/-! # MessagePack items

An item is its marker with the number, length or body that comes right after it. The items of an
array or a map follow on their own.
-/
namespace PacketBus.MsgPack

inductive Fault
  | noMarker
  | noData
  | cutBody
  | wrongMarker (m : Marker)
  | lengthMismatch (n : Nat)
  | depthLimit
  | utf8 (fault : Utf8.Fault)
  | mismatch (m : Mismatch)
  deriving DecidableEq, Repr

def floatText (x : Binary .double) : String :=
  if x.isNaN then "NaN"
  else
    let sign := if x.isNegative then ['-'] else []
    String.ofList <| sign ++
      if x.isInfinite then ['i', 'n', 'f']
      else if x.isZero then ['0', '.', '0']
      else (Decimal.shortest .up x).positional

def dialect : Dialect := ⟨"unit value", floatText⟩

def Fault.message : Fault → String
  | noMarker => "IO error while reading marker: failed to fill whole buffer"
  | noData => "IO error while reading data: failed to fill whole buffer"
  | cutBody => "IO error while reading data: unexpected end of file"
  | wrongMarker m => "wrong msgpack marker " ++ m.name
  | lengthMismatch n => s!"array had incorrect length, expected {n}"
  | depthLimit => "depth limit exceeded"
  | utf8 fault => "string found to be invalid utf8: " ++ fault.message
  | mismatch m => m.message dialect

/-- A reader takes something from the front of the input and gives it with the input after it. -/
abbrev Reader (α : Type) := Octets → Except Fault (α × Octets)

def readMarker : Reader Marker
  | [] => .error .noMarker
  | b :: rest => .ok (.ofOctet b, rest)

def readNat (width : Nat) : Reader Nat := fun bs =>
  match bs.split? width with
  | some (field, rest) => .ok (field.toNat, rest)
  | none => .error .noData

def readBody (n : Nat) : Reader Octets := fun bs =>
  match bs.split? n with
  | some body => .ok body
  | none => .error .cutBody

inductive Item
  | nil
  | bool (b : Bool)
  | unsigned (n : Nat)
  | signed (i : Int)
  | float (kind : FloatKind) (x : Binary kind)
  | string (bs : Octets)
  | octets (bs : Octets)
  | array (n : Nat)
  | map (n : Nat)
  | ext (n : Nat)

/-- The number whose two's complement field of `width` octets holds `n`. -/
def twosComplement (width n : Nat) : Int :=
  if 2 * n < Octets.span width then n else n - Octets.span width

def readItem (m : Marker) : Reader Item := fun bs =>
  match m with
  | .fixPos n => .ok (.unsigned n, bs)
  | .fixNeg i => .ok (.signed i, bs)
  | .fixMap n => .ok (.map n, bs)
  | .fixArray n => .ok (.array n, bs)
  | .fixStr n => do
    let (body, bs) ← readBody n bs
    return (.string body, bs)
  | .nil => .ok (.nil, bs)
  | .reserved => .error (.wrongMarker .reserved)
  | .bool b => .ok (.bool b, bs)
  | .bin w => do
    let (n, bs) ← readNat w bs
    let (body, bs) ← readBody n bs
    return (.octets body, bs)
  | .ext w => do
    let (n, bs) ← readNat w bs
    return (.ext n, bs)
  | .fixExt n => .ok (.ext n, bs)
  | .float f => do
    let (n, bs) ← readNat f.octets bs
    return (.float f (.ofBits n), bs)
  | .unsigned w => do
    let (n, bs) ← readNat w bs
    return (.unsigned n, bs)
  | .signed w => do
    let (n, bs) ← readNat w bs
    return (.signed (twosComplement w n), bs)
  | .str w => do
    let (n, bs) ← readNat w bs
    let (body, bs) ← readBody n bs
    return (.string body, bs)
  | .array w => do
    let (n, bs) ← readNat w bs
    return (.array n, bs)
  | .map w => do
    let (n, bs) ← readNat w bs
    return (.map n, bs)

/-- Arrays, maps and extensions may be nested as long as the depth left stays above zero. -/
def enter (depth : Nat) : Except Fault Nat :=
  if depth ≤ 1 then .error .depthLimit else .ok (depth - 1)

variable {α : Type}

def refuseAll (expected : String) (offer : Offer) : Except Mismatch α :=
  .error (.type offer expected)

/-- Offers an item. Strings that are not text are offered as octets, but the fault is then that they
are no text. -/
def offer (accept : Offer → Except Mismatch α) (depth : Nat) : Item → Except Fault α
  | .nil => (accept .unit).mapError .mismatch
  | .bool b => (accept (.bool b)).mapError .mismatch
  | .unsigned n => (accept (.unsigned n)).mapError .mismatch
  | .signed i => (accept (.signed i)).mapError .mismatch
  | .float f x => (accept (.float f x)).mapError .mismatch
  | .octets bs => (accept (.octets bs)).mapError .mismatch
  | .string bs =>
    match Utf8.decode bs with
    | .ok s => (accept (.string s)).mapError .mismatch
    | .error fault => (accept (.octets bs)).mapError fun _ => .utf8 fault
  | .array _ => do
    let _ ← enter depth
    (accept .sequence).mapError .mismatch
  | .map _ => do
    let _ ← enter depth
    (accept .map).mapError .mismatch
  | .ext _ => do
    let _ ← enter depth
    (accept .wrapped).mapError .mismatch

/-- Reads `n` items one after another. -/
def readMany (read : Reader α) : (n : Nat) → (acc : List α) → Reader (List α)
  | 0, acc, bs => .ok (acc.reverse, bs)
  | n + 1, acc, bs =>
    match read bs with
    | .error fault => .error fault
    | .ok (a, bs) => readMany read n (a :: acc) bs

def skipMany (skip : Octets → Except Fault Octets) : (n : Nat) → Octets → Except Fault Octets
  | 0, bs => .ok bs
  | n + 1, bs =>
    match skip bs with
    | .error fault => .error fault
    | .ok bs => skipMany skip n bs

/-- Passes over one item of any kind. -/
def skip : (depth : Nat) → Octets → Except Fault Octets
  | 0, _ => .error .depthLimit
  | depth + 1, bs => do
    let (m, bs) ← readMarker bs
    let (item, bs) ← readItem m bs
    match item with
    | .array n =>
      let _ ← enter (depth + 1)
      skipMany (skip depth) n bs
    | .map n =>
      let _ ← enter (depth + 1)
      skipMany (skip depth) (2 * n) bs
    | .ext n =>
      let _ ← enter (depth + 1)
      let (_, bs) ← readNat 1 bs
      let (_, bs) ← readBody n bs
      return bs
    | _ => return bs

end PacketBus.MsgPack
