import PacketBus.Json.Skip
import PacketBus.Payload.Accept

/-! # Reading values from JSON

Each schema has its reader, by recursion on the schema. A reader gets the depth that is left for
nested lists and objects, and leaves what follows its value.
-/
namespace PacketBus.Json

/-- Where the depth left starts: 127 nested lists and objects can be read. -/
def maxDepth : Nat := 128

variable {α : Type}

/-- A reader takes something from the front of the input and gives it with the input after it. -/
abbrev Reader (α : Type) := Octets → Except Fault (α × Octets)

/-- Reads the item in front as far as it takes to tell what it is. -/
def readOffer : Reader Offer := fun bs =>
  match skipBlank bs with
  | [] => .error .endInValue
  | b :: rest =>
    if b = 0x6E then return (.unit, ← literal nullTail rest)
    else if b = 0x74 then return (.bool true, ← literal trueTail rest)
    else if b = 0x66 then return (.bool false, ← literal falseTail rest)
    else if startsNumber b then do
      let (n, bs) ← readNumber (b :: rest)
      return (n.offer, bs)
    else if b = 0x22 then do
      let (s, bs) ← readText rest
      return (.string s, bs)
    else if b = 0x5B then .ok (.sequence, rest)
    else if b = 0x7B then .ok (.map, rest)
    else .error .expectedValue

def readAs (accept : Offer → Except Mismatch α) : Reader α := fun bs => do
  let (offer, bs) ← readOffer bs
  return (← (accept offer).mapError .mismatch, bs)

/-- Refuses the item in front. -/
def refuse (expected : String) (bs : Octets) : Except Fault α := do
  let (offer, _) ← readOffer bs
  .error (.mismatch (.type offer expected))

/-- The items of a list up to its closing bracket. Each item takes an octet at least. -/
def readMany (read : Reader α) :
    (fuel : Nat) → (first : Bool) → (acc : List α) → Reader (List α)
  | 0, _, _, _ => .error .endInList
  | fuel + 1, first, acc, bs =>
    match nextItem? first bs with
    | .error fault => .error fault
    | .ok none => .ok (acc.reverse, bs)
    | .ok (some bs) =>
      match read bs with
      | .error fault => .error fault
      | .ok (a, bs) => readMany read fuel false (a :: acc) bs

def readList (read : Reader α) : Reader (List α) := fun bs => do
  let (items, bs) ← readMany read (bs.length + 1) true [] bs
  return (items, ← endList bs)

def readOctet : Reader UInt8 := fun bs => do
  let (v, bs) ← readAs (Scalar.int .u8).accept bs
  return (UInt8.ofNat v.val.toNat, bs)

/-- Octet strings come as a string or as a list of integers. -/
def readOctetString (depth : Nat) : Reader Octets := fun bs =>
  match skipBlank bs with
  | [] => .error .endInValue
  | b :: rest =>
    if b = 0x22 then readOctets .octets .plain [] rest
    else if b = 0x5B then do
      let _ ← enter depth
      readList readOctet rest
    else refuse Scalar.octets.expected (b :: rest)

def readScalar (depth : Nat) : (s : Scalar) → Reader s.Value
  | .unit, bs => readAs Scalar.unit.accept bs
  | .marker name, bs => readAs (Scalar.marker name).accept bs
  | .bool, bs => readAs Scalar.bool.accept bs
  | .int k, bs => readAs (Scalar.int k).accept bs
  | .float f, bs => readAs (Scalar.float f).accept bs
  | .char, bs => readAs Scalar.char.accept bs
  | .string, bs => readAs Scalar.string.accept bs
  | .octets, bs => readOctetString depth bs

def readOption (read : Reader α) : Reader (Option α) := fun bs =>
  match skipBlank bs with
  | 0x6E :: rest => return (none, ← literal nullTail rest)
  | bs => do
    let (v, bs) ← read bs
    return (some v, bs)

/-- An integer key stands between quotes, of which the first has been read. -/
def readIntKey (k : IntKind) : Reader (FixedInt k) := fun bs =>
  if (bs.head?.map startsNumber).getD false then do
    let (v, bs) ← readAs (Scalar.int k).accept bs
    match bs with
    | 0x22 :: rest => return (v, rest)
    | _ => .error .expectedQuote
  else .error .keyNotNumber

def readKey : (k : KeyKind) → Reader k.Value
  | .string, bs => readText bs
  | .int k, bs => readIntKey k bs

def readIdent (resolve : Ident → Except Mismatch α) : Reader α := fun bs => do
  let (s, bs) ← readText bs
  return (← (resolve (.name (Utf8.encode s))).mapError .mismatch, bs)

/-- The entries of a record: each names a field, and `fill` reads it into its slot. -/
def readFields (name : Reader (Option Nat)) (fill : Nat → α → Reader α) :
    (fuel : Nat) → (first : Bool) → α → Reader α
  | 0, _, _, _ => .error .endInObject
  | fuel + 1, first, slots, bs =>
    match nextKey? first bs with
    | .error fault => .error fault
    | .ok none => .ok (slots, bs)
    | .ok (some bs) =>
      match name bs with
      | .error fault => .error fault
      | .ok (some i, bs) =>
        match fill i slots bs with
        | .error fault => .error fault
        | .ok (slots, bs) => readFields name fill fuel false slots bs
      | .ok (none, bs) =>
        match colon bs >>= skip with
        | .error fault => .error fault
        | .ok bs => readFields name fill fuel false slots bs

def readEntries {κ : Type} [Ord κ] [Std.TransOrd κ] (key : Reader κ) (value : Reader α) :
    (fuel : Nat) → (first : Bool) → SortedMap κ α → Reader (SortedMap κ α)
  | 0, _, _, _ => .error .endInObject
  | fuel + 1, first, m, bs =>
    match nextKey? first bs with
    | .error fault => .error fault
    | .ok none => .ok (m, bs)
    | .ok (some bs) =>
      match key bs with
      | .error fault => .error fault
      | .ok (k, bs) =>
        match colon bs >>= value with
        | .error fault => .error fault
        | .ok (v, bs) => readEntries key value fuel false (m.insert k v) bs

/-- The next item of a list, or what stands for an item that is not there. -/
def readNext (missing : Except Fault α) (read : Reader α) (first : Bool) : Reader α := fun bs => do
  match ← nextItem? first bs with
  | some bs => read bs
  | none => return (← missing, bs)

/-- Fills a slot, which has to be empty. -/
def fillSlot (field : String) (read : Reader α) (slot : Option α) : Reader (Option α) := fun bs =>
  if slot.isSome then .error (.mismatch (.duplicateField field)) else do
    let (v, bs) ← colon bs >>= read
    return (some v, bs)

mutual

def readAt : (s : Schema) → (depth : Nat) → Reader s.Value
  | .scalar s, depth, bs => readScalar depth s bs
  | .option s, depth, bs => readOption (readAt s depth) bs
  | .seq s, depth, bs =>
    match skipBlank bs with
    | 0x5B :: rest => do
      let depth ← enter depth
      readList (readAt s depth) rest
    | bs => refuse (Schema.seq s).expected bs
  | .tuple name items, depth, bs =>
    match skipBlank bs with
    | 0x5B :: rest => do
      let depth ← enter depth
      let (values, bs) ← readItems items depth (name.counted items.length) 0 rest
      return (values, ← endList bs)
    | bs => refuse (name.expected items.length) bs
  | .record title strict fields, depth, bs =>
    match skipBlank bs with
    | 0x5B :: rest => do
      let depth ← enter depth
      let (values, bs) ← readItems fields depth (elements title fields.length) 0 rest
      return (values, ← endList bs)
    | 0x7B :: rest => do
      let depth ← enter depth
      let (slots, bs) ← readFields (readIdent (fields.resolve strict))
        (fun i slots bs => readField fields depth i slots bs)
        (rest.length + 1) true fields.emptySlots rest
      return (← (fields.finish slots).mapError .mismatch, ← endObject bs)
    | bs => refuse title bs
  | .map k s, depth, bs =>
    match skipBlank bs with
    | 0x7B :: rest => do
      let depth ← enter depth
      let (m, bs) ← readEntries (readKey k) (readAt s depth) (rest.length + 1) true .empty rest
      return (m, ← endObject bs)
    | bs => refuse (Schema.map k s).expected bs
  | .choice _ variants, depth, bs =>
    match skipBlank bs with
    | [] => .error .endInValue
    | 0x22 :: rest => do
      let (i, bs) ← readIdent variants.resolve rest
      return (← (variants.bareAt i).mapError .mismatch, bs)
    | 0x7B :: rest => do
      let depth ← enter depth
      match skipBlank rest with
      | [] => .error .endInObject
      | 0x7D :: _ => .error .expectedValue
      | 0x22 :: rest =>
        let (i, bs) ← readIdent variants.resolve rest
        let (v, bs) ← readContent variants depth i (← colon bs)
        match skipBlank bs with
        | [] => .error .endInObject
        | 0x7D :: rest => return (v, rest)
        | _ => .error .expectedValue
      | _ => .error .keyNotString
    | _ => .error .expectedValue

/-- The fields from a list whose opening bracket has been read. -/
def readItems : (r : Row) → (depth : Nat) → (expected : String) → (index : Nat) →
    Reader r.Values
  | .nil, _, _, _, bs => .ok ((), bs)
  | .required _ s rest, depth, expected, index, bs => do
    let missing := .error (.mismatch (.length index expected))
    let (v, bs) ← readNext missing (readAt s depth) (index = 0) bs
    let (vs, bs) ← readItems rest depth expected (index + 1) bs
    return ((v, vs), bs)
  | .orZero _ k rest, depth, expected, index, bs => do
    let (v, bs) ← readNext (.ok 0) (readScalar depth (.int k)) (index = 0) bs
    let (vs, bs) ← readItems rest depth expected (index + 1) bs
    return ((v, vs), bs)
  | .orNone _ s rest, depth, expected, index, bs => do
    let (v, bs) ← readNext (.ok none) (readOption (readAt s depth)) (index = 0) bs
    let (vs, bs) ← readItems rest depth expected (index + 1) bs
    return ((v, vs), bs)

/-- Reads the field at a position into its slot. -/
def readField : (r : Row) → (depth index : Nat) → r.Slots → Reader r.Slots
  | .nil, _, _, slots, bs => .ok (slots, bs)
  | .required field s _, depth, 0, (slot, slots), bs => do
    let (slot, bs) ← fillSlot field (readAt s depth) slot bs
    return ((slot, slots), bs)
  | .orZero field k _, depth, 0, (slot, slots), bs => do
    let (slot, bs) ← fillSlot field (readScalar depth (.int k)) slot bs
    return ((slot, slots), bs)
  | .orNone field s _, depth, 0, (slot, slots), bs => do
    let (slot, bs) ← fillSlot field (readOption (readAt s depth)) slot bs
    return ((slot, slots), bs)
  | .required _ _ rest, depth, index + 1, (slot, slots), bs
  | .orZero _ _ rest, depth, index + 1, (slot, slots), bs
  | .orNone _ _ rest, depth, index + 1, (slot, slots), bs => do
    let (slots, bs) ← readField rest depth index slots bs
    return ((slot, slots), bs)

/-- The content of the variant at a position. A variant without content has null for it. -/
def readContent : (v : Variants) → (depth index : Nat) → Reader v.Value
  | .nil, _, _, _ => .error .expectedValue
  | .bare _ _, depth, 0, bs => do
    let (_, bs) ← readScalar depth .unit bs
    return (.inl (), bs)
  | .carrying _ _ s _, depth, 0, bs => do
    let (v, bs) ← readAt s depth bs
    return (.inl v, bs)
  | .bare _ rest, depth, index + 1, bs | .carrying _ _ _ rest, depth, index + 1, bs => do
    let (v, bs) ← readContent rest depth index bs
    return (.inr v, bs)

end

/-- Only blanks may follow the value. -/
def read (s : Schema) (bs : Octets) : Except Fault s.Value := do
  let (v, bs) ← readAt s maxDepth bs
  if (skipBlank bs).isEmpty then return v else .error .trailingCharacters

end PacketBus.Json
